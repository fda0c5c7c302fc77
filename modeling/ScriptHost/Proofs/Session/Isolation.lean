import ScriptHost.Proofs.Session.Changes

/-!
# Executions apart from their script

While a script is executed, the functions that it calls may change it: they may parse another
source, set variables and add modules.  The execution does not take notice, since it works on what
it was given at its start.  Only the table of functions is shared with it.

* `Procedure.withoutChanges` is the course of a call with such changes left out.
* A session tracks another if their functions differ by such changes only and nothing else differs
  that a function, the observer or the logger can tell.  Every piece of an execution gives the same
  in the two and leaves sessions that track each other again.
* `execute_isolated`: the execution gives the same with and without the changes, what they made of
  the program and the modules is there afterwards, and functions count from their registration on.
-/

namespace ScriptHost

namespace Procedure

variable {μ : Type}

/-- The course of a call without the changes of the script in it, and with such functions
registered only.  After a change it goes on as it does when the change succeeds. -/
def withoutChanges : Procedure μ → Procedure μ
  | .finish result => .finish result
  | .recall next => .recall fun memory => (next memory).withoutChanges
  | .remember memory next => .remember memory next.withoutChanges
  | .inspect next => .inspect fun vars => (next vars).withoutChanges
  | .revise number content next => .revise number content next.withoutChanges
  | .perform (.parse _) next => (next (.ok none)).withoutChanges
  | .perform (.addVariable _ _) next => (next (.ok none)).withoutChanges
  | .perform (.addModule _ _) next => (next (.ok none)).withoutChanges
  | .perform (.register ⟨name, ownName, ⟨mode, withName, function⟩⟩) next =>
      .perform
        (.register ⟨name, ownName, ⟨mode, withName, fun given => (function given).withoutChanges⟩⟩)
        fun result => (next result).withoutChanges
  | .perform (.execute debug) next =>
      .perform (.execute debug) fun result => (next result).withoutChanges
  | .perform (.snapshot name value) next =>
      .perform (.snapshot name value) fun result => (next result).withoutChanges
  | .perform .program next => .perform .program fun result => (next result).withoutChanges

/-- The course of a call that neither looks at the variables of the script nor starts an execution,
and registers such functions only. -/
def Blind : Procedure μ → Prop
  | .finish _ => True
  | .recall next => ∀ memory, (next memory).Blind
  | .remember _ next => next.Blind
  | .inspect _ => False
  | .revise _ _ next => next.Blind
  | .perform (.execute _) _ => False
  | .perform (.register ⟨_, _, ⟨_, _, function⟩⟩) next =>
      (∀ given, (function given).Blind) ∧ ∀ result, (next result).Blind
  | .perform (.parse _) next => ∀ result, (next result).Blind
  | .perform (.addVariable _ _) next => ∀ result, (next result).Blind
  | .perform (.addModule _ _) next => ∀ result, (next result).Blind
  | .perform (.snapshot _ _) next => ∀ result, (next result).Blind
  | .perform .program next => ∀ result, (next result).Blind

theorem Blind.perform
    {step : Step (HostFunction μ)}
    {next : Except Fault (Option Execution) → Procedure μ}
    (blind : (Procedure.perform step next).Blind) :
    step.isExecution = false ∧ ∀ result, (next result).Blind := by
  cases step with
  | execute debug => exact blind.elim
  | register registration => exact ⟨rfl, blind.2⟩
  | _ => exact ⟨rfl, blind⟩

end Procedure

/-- A function that makes no changes of the script. -/
def Adapter.withoutChanges {μ : Type} (adapter : Adapter (HostFunction μ)) :
    Adapter (HostFunction μ) :=
  { adapter with function := fun given => (adapter.function given).withoutChanges }

namespace Session

variable {π σ μ α β : Type}

/-- No function looks at the variables of the script or starts an execution. -/
def FunctionsBlind (session : Session π σ μ) : Prop :=
  ∀ entry ∈ session.functions.entries, ∀ given, (entry.2.function given).Blind

/-- The session with functions that make no changes of the script. -/
def withoutChanges (session : Session π σ μ) : Session π σ μ :=
  { session with functions := session.functions.map Adapter.withoutChanges }

/-- The second session differs from the first in the changes that functions make and have made, but
in nothing else that a function, the observer or the logger can tell. -/
structure Tracks (first second : Session π σ μ) : Prop where
  blind : first.FunctionsBlind
  functions : second.functions = first.functions.map Adapter.withoutChanges
  memory : second.memory = first.memory
  revisions : second.revisions = first.revisions
  events : second.journal.events = first.journal.events
  logs : second.journal.logs = first.journal.logs

theorem tracks_withoutChanges
    {session : Session π σ μ}
    (blind : session.FunctionsBlind) :
    Tracks session session.withoutChanges :=
  ⟨blind, rfl, rfl, rfl, rfl, rfl⟩

/-- In sessions that track each other, the two actions give the same and leave sessions that track
each other. -/
structure Agree
    (x y : Action (Session π σ μ) α)
    (first second : Session π σ μ) : Prop where
  result : (y.on second).1 = (x.on first).1
  tracks : Tracks (x.on first).2 (y.on second).2

section Pieces

variable {first second : Session π σ μ}

theorem agree_of_on_eq
    {x y : Action (Session π σ μ) α}
    {result : Except Fault α}
    {after after' : Session π σ μ}
    (onFirst : x.on first = (result, after))
    (onSecond : y.on second = (result, after'))
    (tracks : Tracks after after') :
    Agree x y first second := by
  constructor
  · rw [onFirst, onSecond]
  · rw [onFirst, onSecond]
    exact tracks

theorem agree_ofExcept
    (tracks : Tracks first second)
    (result : Except Fault α) :
    Agree (Action.ofExcept result) (Action.ofExcept result) first second :=
  ⟨rfl, tracks⟩

theorem agree_pure (tracks : Tracks first second) (value : α) :
    Agree (pure value) (pure value) first second :=
  ⟨rfl, tracks⟩

theorem Agree.attempt
    {x y : Action (Session π σ μ) α}
    (agree : Agree x y first second) :
    Agree x.attempt y.attempt first second :=
  ⟨congrArg Except.ok agree.result, agree.tracks⟩

theorem Agree.bind
    {x y : Action (Session π σ μ) α}
    {f g : α → Action (Session π σ μ) β}
    (agree : Agree x y first second)
    (rest : ∀ value after, x.on first = (.ok value, after) → Tracks after (y.on second).2 →
      Agree (f value) (g value) after (y.on second).2) :
    Agree (x >>= f) (y >>= g) first second := by
  obtain ⟨same, tracks⟩ := agree
  rcases onFirst : x.on first with ⟨fault | value, after⟩
  · have onSecond : y.on second = (.error fault, (y.on second).2) := by
      rw [onFirst] at same
      exact Prod.ext same rfl
    rw [onFirst] at tracks
    constructor
    · rw [Action.on_bind_of_error onFirst, Action.on_bind_of_error onSecond]
    · rw [Action.on_bind_of_error onFirst, Action.on_bind_of_error onSecond]
      exact tracks
  · have onSecond : y.on second = (.ok value, (y.on second).2) := by
      rw [onFirst] at same
      exact Prod.ext same rfl
    rw [onFirst] at tracks
    obtain ⟨result, further⟩ := rest value after onFirst tracks
    constructor
    · rw [Action.on_bind_of_ok onFirst, Action.on_bind_of_ok onSecond, result]
    · rw [Action.on_bind_of_ok onFirst, Action.on_bind_of_ok onSecond]
      exact further

/-- What two actions do together depends only on what each of them does. -/
theorem Agree.congr
    {x y x' y' : Action (Session π σ μ) α}
    {first' second' : Session π σ μ}
    (agree : Agree x y first second)
    (onFirst : x'.on first' = x.on first)
    (onSecond : y'.on second' = y.on second) :
    Agree x' y' first' second' := by
  constructor
  · rw [onFirst, onSecond]
    exact agree.result
  · rw [onFirst, onSecond]
    exact agree.tracks

theorem agree_get_bind
    {f g : Session π σ μ → Action (Session π σ μ) α}
    (rest : Agree (f first) (g second) first second) :
    Agree (get >>= f) (get >>= g) first second :=
  rest.congr (Action.on_bind_of_ok (Action.on_get first))
    (Action.on_bind_of_ok (Action.on_get second))

end Pieces

section Watching

variable {host : Host π σ}
variable {first second : Session π σ μ}

theorem Tracks.reaction_eq (tracks : Tracks first second) (event : Event) :
    second.reaction host event = first.reaction host event := by
  unfold reaction
  rw [tracks.events]

theorem Tracks.noted (tracks : Tracks first second) (event : Event) :
    Tracks (first.noted host event) (second.noted host event) := by
  unfold Session.noted
  cases host.observer with
  | none => exact tracks
  | some observer =>
      have events : second.journal.events ++ [event] = first.journal.events ++ [event] := by
        rw [tracks.events]
      exact { tracks with events := events }

theorem agree_notify (tracks : Tracks first second) (event : Event) :
    Agree (notify host event) (notify host event) first second := by
  constructor
  · rw [on_notify, on_notify]
    exact tracks.reaction_eq event
  · rw [on_notify, on_notify]
    exact tracks.noted event

theorem agree_log (tracks : Tracks first second) (value : Value) :
    Agree (log host value) (log host value) first second := by
  have handed : host.logger.log second.journal.logs (second.revisions.current value).decode =
      host.logger.log first.journal.logs (first.revisions.current value).decode := by
    rw [tracks.logs, tracks.revisions]
  constructor
  · rw [on_log, on_log]
    exact congrArg Prod.snd handed
  · rw [on_log, on_log]
    exact { tracks with logs := congrArg Prod.fst handed }

end Watching

theorem Tracks.of_unaffected
    {first second after : Session π σ μ}
    (tracks : Tracks first second)
    (unaffected : Unaffected first after) :
    Tracks after second where
  blind := by
    unfold FunctionsBlind
    rw [unaffected.functions]
    exact tracks.blind
  functions := by rw [unaffected.functions, tracks.functions]
  memory := by rw [unaffected.memory, tracks.memory]
  revisions := by rw [unaffected.revisions, tracks.revisions]
  events := by rw [unaffected.events, tracks.events]
  logs := by rw [unaffected.logs, tracks.logs]

section Following

variable (host : Host π σ)
variable (execute : Bool → Action (Session π σ μ) Execution)

theorem on_runProcedure_perform
    (step : Step (HostFunction μ))
    (next : Except Fault (Option Execution) → Procedure μ)
    (session : Session π σ μ) :
    (runProcedure host execute (.perform step next)).on session =
      let performed := (performWith host execute step).on session
      (runProcedure host execute (next (performed.1.map StepResult.execution?))).on
        performed.2 := by
  rw [runProcedure, Action.on_bind, Action.on_attempt]

variable {host execute}
variable {first second : Session π σ μ}

theorem agree_register
    (tracks : Tracks first second)
    {registration : Registration (HostFunction μ)}
    (blind : ∀ given, (registration.adapter.function given).Blind) :
    Agree (register registration)
      (register { registration with adapter := registration.adapter.withoutChanges })
      first second := by
  have onFirst := on_register registration first
  have onSecond := on_register
    { registration with adapter := registration.adapter.withoutChanges } second
  rw [tracks.functions, FunctionTable.register_map] at onSecond
  cases registered : first.functions.register registration with
  | error fault =>
      rw [registered] at onFirst onSecond
      exact agree_of_on_eq onFirst onSecond tracks
  | ok functions =>
      rw [registered] at onFirst onSecond
      have entries : functions.entries =
          first.functions.entries ++ [(registration.usedName, registration.adapter)] := by
        rw [FunctionTable.register_eq_ok registered]
      refine agree_of_on_eq onFirst onSecond { tracks with blind := ?_, functions := rfl }
      intro entry member
      change entry ∈ functions.entries at member
      rw [entries] at member
      rcases List.mem_append.1 member with there | added
      · exact tracks.blind entry there
      · rw [List.mem_singleton.1 added]
        exact blind

/-- A change is left out on the second side only; both sides go on as after a success. -/
theorem agree_change
    {step : Step (HostFunction μ)}
    (change : step.isChange = true)
    {next : Except Fault (Option Execution) → Procedure μ}
    (goesOn : ∀ after, Tracks after second →
      ChangesSucceed host execute (performedSteps host execute (next (.ok none)) after) →
        Agree (runProcedure host execute (next (.ok none)))
          (runProcedure host execute (next (.ok none)).withoutChanges) after second)
    (tracks : Tracks first second)
    (succeed : ChangesSucceed host execute
      (performedSteps host execute (.perform step next) first)) :
    Agree (runProcedure host execute (.perform step next))
      (runProcedure host execute (next (.ok none)).withoutChanges) first second := by
  obtain ⟨unaffected, nothing⟩ := keeps_unaffected_performWith host execute first change first
    ⟨rfl, rfl, rfl, rfl, rfl⟩
  obtain ⟨result, performed⟩ := succeed ⟨first, step⟩ List.mem_cons_self change
  obtain rfl := nothing result performed
  have answered : ((performWith host execute step).on first).1.map StepResult.execution? =
      .ok none := by
    rw [performed]
    rfl
  refine (goesOn _ (tracks.of_unaffected unaffected) ?_).congr ?_ rfl
  · intro other member
    refine succeed other (List.mem_cons_of_mem _ ?_)
    rwa [answered]
  · rw [on_runProcedure_perform]
    dsimp only
    rw [answered]

theorem agree_runProcedure : (procedure : Procedure μ) → procedure.Blind →
    (first second : Session π σ μ) → Tracks first second →
      ChangesSucceed host execute (performedSteps host execute procedure first) →
        Agree (runProcedure host execute procedure)
          (runProcedure host execute procedure.withoutChanges) first second
  | .finish result, _, _, _, tracks, _ => agree_ofExcept tracks result
  | .recall next, blind, first, second, tracks, succeed => by
      refine (agree_runProcedure (next first.memory) (blind _) first second tracks succeed).congr
        rfl ?_
      rw [← tracks.memory]
      rfl
  | .remember memory next, blind, first, second, tracks, succeed =>
      (agree_runProcedure next blind { first with memory := memory }
        { second with memory := memory } { tracks with memory := rfl } succeed).congr rfl rfl
  | .revise number content next, blind, first, second, tracks, succeed => by
      have revised : second.revisions.revise number content =
          first.revisions.revise number content := by
        rw [tracks.revisions]
      exact (agree_runProcedure next blind
        { first with revisions := first.revisions.revise number content }
        { second with revisions := second.revisions.revise number content }
        { tracks with revisions := revised } succeed).congr rfl rfl
  | .perform (.parse _) next, blind, _, second, tracks, succeed =>
      agree_change rfl (fun after => agree_runProcedure (next (.ok none)) (blind _) after second)
        tracks succeed
  | .perform (.addVariable _ _) next, blind, _, second, tracks, succeed =>
      agree_change rfl (fun after => agree_runProcedure (next (.ok none)) (blind _) after second)
        tracks succeed
  | .perform (.addModule _ _) next, blind, _, second, tracks, succeed =>
      agree_change rfl (fun after => agree_runProcedure (next (.ok none)) (blind _) after second)
        tracks succeed
  | .perform (.register ⟨name, ownName, ⟨mode, withName, function⟩⟩) next, blind, first, second,
      tracks, succeed => by
      have registered : Agree (register ⟨name, ownName, ⟨mode, withName, function⟩⟩)
          (register ⟨name, ownName, Adapter.withoutChanges ⟨mode, withName, function⟩⟩)
          first second := agree_register tracks blind.1
      have performed : Agree
          (performWith host execute (.register ⟨name, ownName, ⟨mode, withName, function⟩⟩))
          (performWith host execute
            (.register ⟨name, ownName, Adapter.withoutChanges ⟨mode, withName, function⟩⟩))
          first second :=
        registered.bind fun _ _ _ further => agree_pure further _
      refine (agree_runProcedure _ (blind.2 _) _ _ performed.tracks ?_).congr
        (on_runProcedure_perform host execute _ next first) ?_
      · intro other member
        exact succeed other (List.mem_cons_of_mem _ member)
      · rw [← performed.result]
        exact on_runProcedure_perform host execute _ _ second
  | .perform (.snapshot _ _) next, blind, first, second, tracks, succeed => by
      refine (agree_runProcedure (next (.ok none)) (blind _) first second tracks ?_).congr rfl rfl
      intro performed member
      exact succeed performed (List.mem_cons_of_mem _ member)
  | .perform .program next, blind, first, second, tracks, succeed => by
      refine (agree_runProcedure (next (.ok none)) (blind _) first second tracks ?_).congr rfl rfl
      intro performed member
      exact succeed performed (List.mem_cons_of_mem _ member)

theorem agree_answer
    {adapter : Adapter (HostFunction μ)}
    (blind : ∀ given, (adapter.function given).Blind)
    (given : List Argument)
    (tracks : Tracks first second)
    (succeed : ChangesSucceed host execute
      (performedSteps host execute (adapter.function given) first)) :
    Agree (answer host execute adapter given) (answer host execute adapter.withoutChanges given)
      first second :=
  (agree_runProcedure _ (blind given) first second tracks succeed).bind
    fun _ _ _ further => agree_ofExcept further _

theorem agree_conclude
    (tracks : Tracks first second)
    (callName : String)
    (result : Except Fault Value) :
    Agree (conclude host callName result) (conclude host callName result) first second := by
  have told : ∀ (value : Value) (first second : Session π σ μ), Tracks first second →
      Agree (do let _ ← notify host (.returned callName value); pure value)
        (do let _ ← notify host (.returned callName value); pure value) first second := by
    intro value first second tracks
    exact (agree_notify tracks _).bind fun _ _ _ further => agree_pure further value
  cases result with
  | ok value => exact told value first second tracks
  | error fault =>
      cases fault with
      | exception message =>
          refine (agree_notify tracks (.failed callName message)).bind
            fun interference _ _ further => ?_
          exact told (.makeError (interference.message message)) _ _ further
      | _ => exact agree_ofExcept tracks (.error _)

theorem agree_invoke
    {adapter : Adapter (HostFunction μ)}
    (blind : ∀ given, (adapter.function given).Blind)
    (callName : String)
    (arguments : Arguments)
    (tracks : Tracks first second)
    (succeed : ChangesSucceed host execute
      ((invokedCalls host execute adapter callName arguments first).flatMap HostCall.steps)) :
    Agree (invoke host execute adapter callName arguments)
      (invoke host execute adapter.withoutChanges callName arguments) first second := by
  have same : second.given adapter.withoutChanges callName arguments =
      first.given adapter callName arguments := by
    rw [given, given, tracks.revisions]
    rfl
  rw [invoke_eq, invoke_eq]
  refine agree_get_bind ?_
  dsimp only
  rw [same]
  refine (agree_notify tracks _).bind fun interference after told further => ?_
  rw [on_notify, Prod.mk.injEq] at told
  obtain ⟨reacts, rfl⟩ := told
  have performed : ChangesSucceed host execute (performedSteps host execute
      (adapter.function (interference.arguments (first.given adapter callName arguments)))
      (first.noted host
        (.call callName ((first.given adapter callName arguments).map Argument.value)))) := by
    simpa [invokedCalls, reacts] using succeed
  refine (agree_answer blind _ further performed).attempt.bind fun result _ _ last => ?_
  exact agree_conclude last callName result

theorem agree_dispatch
    (function callName : String)
    (arguments : Arguments)
    (tracks : Tracks first second)
    (succeed : ChangesSucceed host execute
      ((dispatchedCalls host execute function callName arguments first).flatMap
        HostCall.steps)) :
    Agree (dispatch host execute function callName arguments)
      (dispatch host execute function callName arguments) first second := by
  rw [dispatch_eq]
  refine agree_get_bind ?_
  rw [tracks.functions, FunctionTable.resolve?_map]
  rw [dispatchedCalls] at succeed
  cases resolved : first.functions.resolve? function with
  | none => exact agree_pure tracks none
  | some adapter =>
      rw [resolved] at succeed
      obtain ⟨entry, member, rfl⟩ := FunctionTable.mem_of_resolve?_eq_some resolved
      refine (agree_invoke (tracks.blind entry member) callName arguments tracks succeed).bind ?_
      intro value _ _ further
      exact agree_pure further (some value)

theorem agree_follow (interaction : Interaction α)
    (tracks : Tracks first second)
    (succeed : ChangesSucceed host execute
      ((hostCalls host execute interaction first).flatMap HostCall.steps)) :
    Agree (follow host execute interaction) (follow host execute interaction) first second := by
  induction interaction generalizing first second with
  | done result => exact agree_pure tracks result
  | fail fault => exact agree_ofExcept tracks (.error fault)
  | log value next ih =>
      refine (agree_log tracks value).bind fun _ after logged further => ih further ?_
      rwa [hostCalls, logged] at succeed
  | call function callName arguments next ih =>
      rw [hostCalls, List.flatMap_append] at succeed
      have called : Agree (dispatch host execute function callName arguments)
          (dispatch host execute function callName arguments) first second := by
        refine agree_dispatch function callName arguments tracks fun performed member => ?_
        exact succeed performed (List.mem_append_left _ member)
      refine called.bind fun answer after answered further => ih answer further ?_
      rw [answered] at succeed
      intro performed member
      exact succeed performed (List.mem_append_right _ member)

/-! Blind functions start no executions. -/

theorem plain_performedSteps : (procedure : Procedure μ) → procedure.Blind →
    (session : Session π σ μ) → ∀ performed ∈ performedSteps host execute procedure session,
      performed.step.isExecution = false
  | .finish _, _, _, _, member => nomatch member
  | .recall next, blind, session, performed, member =>
      plain_performedSteps (next session.memory) (blind _) session performed member
  | .remember _ next, blind, _, performed, member =>
      plain_performedSteps next blind _ performed member
  | .revise _ _ next, blind, _, performed, member =>
      plain_performedSteps next blind _ performed member
  | .perform step next, blind, session, performed, member => by
      obtain ⟨plain, further⟩ := blind.perform
      rcases List.mem_cons.1 member with rfl | member
      · exact plain
      · exact plain_performedSteps _ (further _) _ performed member

theorem plain_dispatchedCalls
    {session : Session π σ μ}
    (blind : session.FunctionsBlind)
    (function callName : String)
    (arguments : Arguments) :
    ∀ performed ∈ (dispatchedCalls host execute function callName arguments session).flatMap
      HostCall.steps, performed.step.isExecution = false := by
  intro performed member
  rw [dispatchedCalls] at member
  cases resolved : session.functions.resolve? function with
  | none => simp [resolved] at member
  | some adapter =>
      obtain ⟨entry, there, rfl⟩ := FunctionTable.mem_of_resolve?_eq_some resolved
      simp only [resolved, invokedCalls] at member
      split at member
      · simp at member
      · rw [List.flatMap_singleton] at member
        exact plain_performedSteps _ (blind entry there _) _ performed member

theorem plain_hostCalls
    (interaction : Interaction α)
    (tracks : Tracks first second)
    (succeed : ChangesSucceed host execute
      ((hostCalls host execute interaction first).flatMap HostCall.steps)) :
    ∀ performed ∈ (hostCalls host execute interaction first).flatMap HostCall.steps,
      performed.step.isExecution = false := by
  induction interaction generalizing first second with
  | done result => simp [hostCalls]
  | fail fault => simp [hostCalls]
  | log value next ih =>
      have further : Tracks ((log host value).on first).2 ((log host value).on second).2 :=
        (agree_log tracks value).tracks
      rw [hostCalls] at succeed ⊢
      rcases logged : (log host value).on first with ⟨_ | _, after⟩ <;>
        rw [logged] at further succeed
      · simp
      · exact ih further succeed
  | call function callName arguments next ih =>
      rw [hostCalls, List.flatMap_append] at succeed ⊢
      have called := (agree_dispatch function callName arguments tracks fun performed member =>
        succeed performed (List.mem_append_left _ member)).tracks
      intro performed member
      rcases List.mem_append.1 member with here | member
      · exact plain_dispatchedCalls tracks.blind function callName arguments performed here
      · rcases answered : (dispatch host execute function callName arguments).on first with
          ⟨_ | answer, after⟩ <;> rw [answered] at called succeed member
        · simp at member
        · exact ih answer called (fun other there =>
            succeed other (List.mem_append_right _ there)) performed member

end Following

section Executing

variable {host : Host π σ}
variable {execute : Bool → Action (Session π σ μ) Execution}
variable {session : Session π σ μ}

theorem noted_withoutChanges (event : Event) :
    session.withoutChanges.noted host event = (session.noted host event).withoutChanges := by
  unfold noted
  cases host.observer <;> rfl

theorem FunctionsBlind.noted (blind : session.FunctionsBlind) (event : Event) :
    (session.noted host event).FunctionsBlind := by
  have same := congrArg Script.functions (script_noted host session event)
  change (session.noted host event).functions = session.functions at same
  rwa [FunctionsBlind, same]

/-- The engine is told the same. -/
theorem request_withoutChanges (program : π) (debug : Bool) :
    session.withoutChanges.request program debug = session.request program debug := by
  unfold request
  rw [withoutChanges, FunctionTable.names_map]

theorem course_withoutChanges (program : π) (debug : Bool) :
    session.withoutChanges.course host program debug = session.course host program debug := by
  unfold course
  rw [request_withoutChanges]
  rfl

theorem begun_withoutChanges (program : π) (debug : Bool) :
    session.withoutChanges.begun host program debug =
      (session.begun host program debug).withoutChanges := by
  unfold begun
  rw [request_withoutChanges]
  rfl

theorem agree_evaluated
    (blind : session.FunctionsBlind)
    (debug : Bool)
    (succeed : ChangesSucceed host execute
      ((executedCalls host execute debug session).flatMap HostCall.steps)) :
    Agree (evaluated host execute debug) (evaluated host execute debug)
      session session.withoutChanges := by
  have tracks := tracks_withoutChanges blind
  have onFirst := on_evaluated host execute debug session
  have onSecond := on_evaluated host execute debug session.withoutChanges
  have asked : session.withoutChanges.program = session.program := rfl
  have counted : session.withoutChanges.bindings = session.bindings := rfl
  rw [asked, counted] at onSecond
  rw [executedCalls] at succeed
  cases parsed : session.program with
  | none =>
      rw [parsed] at onFirst onSecond
      exact agree_of_on_eq onFirst onSecond tracks
  | some program =>
      rw [parsed] at onFirst onSecond succeed
      dsimp only at onFirst onSecond succeed
      rw [tracks.reaction_eq, noted_withoutChanges] at onSecond
      cases reacts : session.reaction host (.started debug session.bindings.size) with
      | error fault =>
          rw [reacts] at onFirst onSecond
          exact agree_of_on_eq onFirst onSecond (tracks_withoutChanges (blind.noted _))
      | ok interference =>
          rw [reacts] at onFirst onSecond succeed
          rw [course_withoutChanges, begun_withoutChanges] at onSecond
          have started : ((session.noted host (.started debug session.bindings.size)).begun host
              program debug).FunctionsBlind := blind.noted _
          exact (agree_follow _ (tracks_withoutChanges started) succeed).congr onFirst onSecond

theorem agree_completed
    {first second : Session π σ μ}
    (tracks : Tracks first second)
    (outcome : Outcome) :
    Agree (completed host outcome) (completed host outcome) first second := by
  have taken : Tracks (first.withScope outcome) (second.withScope outcome) := { tracks with }
  have result : (second.withScope outcome).resultOf outcome =
      (first.withScope outcome).resultOf outcome := by
    unfold resultOf
    rw [taken.revisions]
  have event : (second.withScope outcome).endEvent outcome =
      (first.withScope outcome).endEvent outcome := by
    unfold endEvent
    rw [result]
  have vars : (second.withScope outcome).hostVariables =
      (first.withScope outcome).hostVariables := by
    unfold hostVariables
    rw [taken.revisions]
    rfl
  constructor
  · rw [on_completed, on_completed]
    dsimp only
    rw [event, result, vars, taken.reaction_eq]
  · rw [on_completed, on_completed]
    dsimp only
    rw [event]
    exact taken.noted _

theorem agree_execute
    (blind : session.FunctionsBlind)
    (depth : Nat)
    (debug : Bool)
    (succeed : ChangesSucceed host (nested host depth)
      ((executedCalls host (nested host depth) debug session).flatMap HostCall.steps)) :
    Agree (Session.execute host depth debug) (Session.execute host depth debug)
      session session.withoutChanges := by
  rw [execute_eq]
  refine (agree_evaluated blind debug succeed).bind ?_
  intro outcome ended _ further
  exact agree_completed further outcome

theorem plain_executedCalls
    (blind : session.FunctionsBlind)
    (debug : Bool)
    (succeed : ChangesSucceed host execute
      ((executedCalls host execute debug session).flatMap HostCall.steps)) :
    ∀ performed ∈ (executedCalls host execute debug session).flatMap HostCall.steps,
      performed.step.isExecution = false := by
  rw [executedCalls] at succeed ⊢
  cases parsed : session.program with
  | none => simp
  | some program =>
      rw [parsed] at succeed
      dsimp only at succeed ⊢
      cases reacts : session.reaction host (.started debug session.bindings.size) with
      | error fault => simp
      | ok interference =>
          rw [reacts] at succeed
          have started : ((session.noted host (.started debug session.bindings.size)).begun host
              program debug).FunctionsBlind := blind.noted _
          exact plain_hostCalls _ (tracks_withoutChanges started) succeed

/-- The execution gives the same as without the changes that functions make of the script: the same
value and scope or the same fault, with the same events and logs. -/
structure Isolated
    (host : Host π σ)
    (depth : Nat)
    (debug : Bool)
    (session : Session π σ μ) : Prop where
  evaluation : ((evaluated host (nested host depth) debug).on session.withoutChanges).1 =
    ((evaluated host (nested host depth) debug).on session).1
  execution : ((Session.execute host depth debug).on session.withoutChanges).1 =
    ((Session.execute host depth debug).on session).1
  events : ((Session.execute host depth debug).on session.withoutChanges).2.journal.events =
    ((Session.execute host depth debug).on session).2.journal.events
  logs : ((Session.execute host depth debug).on session.withoutChanges).2.journal.logs =
    ((Session.execute host depth debug).on session).2.journal.logs

theorem isolated_of_blind
    (blind : session.FunctionsBlind)
    (depth : Nat)
    (debug : Bool)
    (succeed : ChangesSucceed host (nested host depth)
      ((executedCalls host (nested host depth) debug session).flatMap HostCall.steps)) :
    Isolated host depth debug session := by
  have whole := agree_execute blind depth debug succeed
  exact ⟨(agree_evaluated blind debug succeed).result, whole.result, whole.tracks.events,
    whole.tracks.logs⟩

theorem finds_of_blind
    (blind : session.FunctionsBlind)
    (debug : Bool)
    (succeed : ChangesSucceed host execute
      ((executedCalls host execute debug session).flatMap HostCall.steps))
    {lookup : Lookup π σ μ}
    {earlier later : List (Lookup π σ μ)}
    (moments : executedLookups host execute debug session = earlier ++ lookup :: later) :
    session.functions.Finds
      ((earlier.flatMap (Lookup.steps host execute)).map PerformedStep.step) lookup.function
      lookup.found := by
  have plain := plain_executedCalls blind debug succeed
  have table : lookup.session.functions = session.functions.registering
      ((earlier.flatMap (Lookup.steps host execute)).map PerformedStep.step) := by
    refine functions_executedLookup moments fun performed member => plain performed ?_
    rw [steps_executedCalls, moments, List.flatMap_append]
    exact List.mem_append_left _ member
  rw [Lookup.found, table]
  exact FunctionTable.finds_resolve? _ _ _

end Executing

end Session

open Session ScriptHost.Language

/-- A successful execution leaves the scope of its evaluation as the variables, and the rest of the
script as the steps of the functions made it. -/
theorem persists_of_blind
    {μ : Type}
    {observer : Option Observer}
    {logger : Logger}
    {depth : Nat}
    {debug : Bool}
    {session after : Session Program Unit μ}
    (blind : session.FunctionsBlind)
    (succeed : ChangesSucceed (host observer logger) (nested (host observer logger) depth)
      ((executedCalls (host observer logger) (nested (host observer logger) depth) debug
        session).flatMap HostCall.steps))
    {result : Execution}
    (ran : (execute (host observer logger) depth debug).on session = (.ok result, after)) :
    (∃ outcome ended,
      (evaluated (host observer logger) (nested (host observer logger) depth) debug).on session =
        (.ok outcome, ended) ∧ after.bindings.toVariables = outcome.scope) ∧
      Persists (((executedCalls (host observer logger) (nested (host observer logger) depth) debug
        session).flatMap HostCall.steps).map PerformedStep.step) session after := by
  rw [execute_eq] at ran
  obtain ⟨outcome, ended, came, completes⟩ := Action.on_bind_eq_ok ran
  have changed := evaluated_changedBy (host observer logger) (nested (host observer logger) depth)
    debug session
  rw [came] at changed
  have plain := plain_executedCalls blind debug succeed
  have script := script_completed _ completes
  rw [Language.ofVariables_scope came, changed.script_eq observer logger plain succeed] at script
  have bindings : after.bindings = ⟨outcome.scope⟩ := congrArg Script.bindings script
  refine ⟨⟨outcome, ended, came, ?_⟩, persists_of_script_eq ?_⟩
  · rw [bindings]
    rfl
  · rw [bindings]
    exact script

/-- A running execution is isolated from its script.  Let no function look at the variables or start
an execution, and let their changes of the script succeed.  Then the execution gives the same as
without these changes.  If it succeeds, its variables are the scope that the evaluation left, and the
program and the modules are what the steps of the functions made them.  The table of functions is
live: what a call finds has been registered at the start or by a step before. -/
theorem execute_isolated
    {μ : Type}
    (observer : Option Observer)
    (logger : Logger)
    (depth : Nat)
    (debug : Bool)
    {session : Session Program Unit μ}
    (blind : session.FunctionsBlind)
    (succeed : ChangesSucceed (host observer logger) (nested (host observer logger) depth)
      ((executedCalls (host observer logger) (nested (host observer logger) depth) debug
        session).flatMap HostCall.steps)) :
    let host := Language.host observer logger
    let steps := (executedCalls host (nested host depth) debug session).flatMap HostCall.steps
    Isolated host depth debug session ∧
      (∀ result after, (execute host depth debug).on session = (.ok result, after) →
        (∃ outcome ended,
          (evaluated host (nested host depth) debug).on session = (.ok outcome, ended) ∧
            after.bindings.toVariables = outcome.scope) ∧
          Persists (steps.map PerformedStep.step) session after) ∧
      ∀ lookup earlier later,
        executedLookups host (nested host depth) debug session = earlier ++ lookup :: later →
          session.functions.Finds
            ((earlier.flatMap (Lookup.steps host (nested host depth))).map PerformedStep.step)
            lookup.function lookup.found := by
  refine ⟨isolated_of_blind blind depth debug succeed, ?_, ?_⟩
  · intro result after ran
    exact persists_of_blind blind succeed ran
  · intro lookup earlier later moments
    exact finds_of_blind blind debug succeed moments

/-- A session whose function `meddle` sets a variable, adds a module, parses another program and
registers the function `late`. -/
def restlessSession : Session Program Unit Unit :=
  { Session.empty () () .shadow with
    program := some [.assign "x" (.call "meddle" []), .assign "y" (.call "late" [])]
    functions := ⟨.shadow, [("meddle", ⟨.immediate, false, fun _ =>
      .perform (.addVariable "x" (.text "lost")) fun _ =>
        .perform (.addModule "extra" "x") fun _ =>
          .perform (.parse "y") fun _ =>
            .perform (.register ⟨none, "late", ⟨.immediate, false, fun _ =>
              .finish (.ok (.text "found"))⟩⟩) fun _ => .finish (.ok .null)⟩)]⟩ }

/-- The steps that the functions of the session perform during an execution. -/
def restlessSteps : List (PerformedStep Program Unit Unit) :=
  let host := Language.host (some fun _ _ => .proceed) .printing
  (executedCalls host (nested host 0) false restlessSession).flatMap HostCall.steps

/-- The check of the steps, which can be evaluated. -/
def restlessStepsAreExpected : Bool :=
  match restlessSteps.map PerformedStep.step with
  | [.addVariable "x" (.text "lost"), .addModule "extra" "x", .parse "y", .register _] => true
  | _ => false

theorem step_restlessSteps :
    ∃ late, restlessSteps.map PerformedStep.step =
      [.addVariable "x" (.text "lost"), .addModule "extra" "x", .parse "y", .register late] := by
  have expected : restlessStepsAreExpected = true := by
    decide +kernel
  unfold restlessStepsAreExpected at expected
  split at expected
  · next steps => exact ⟨_, steps⟩
  · cases expected

theorem changesSucceed_restlessSteps :
    let host := Language.host (some fun _ _ => .proceed) .printing
    ChangesSucceed host (nested host 0) restlessSteps := by
  have checked : restlessSteps.all (fun performed => !performed.step.isChange ||
      ((performWith (Language.host (some fun _ _ => .proceed) .printing)
        (nested (Language.host (some fun _ _ => .proceed) .printing) 0)
          performed.step).on performed.session).1.isOk) = true := by
    decide +kernel
  intro host performed member change
  have fine := List.all_eq_true.1 checked performed member
  rw [change] at fine
  cases came : ((performWith host (nested host 0) performed.step).on performed.session).1 with
  | ok result => exact ⟨result, rfl⟩
  | error fault => simp [host, came, Except.isOk, Except.toBool] at fine

/-- The run of the session. -/
def restlessRun : Except Fault Execution × Session Program Unit Unit :=
  (execute (Language.host (some fun _ _ => .proceed) .printing) 0 false).on restlessSession

/-- The check of the run. -/
def restlessRunIsExpected : Bool :=
  match restlessRun.1, restlessRun.2.bindings.toVariables with
  | .ok ⟨.ok .null, [("x", .null), ("y", .text "found")]⟩, [("x", .none), ("y", .str "found")] =>
      true
  | _, _ => false

theorem restlessRun_gives :
    restlessRun.1 = .ok ⟨.ok .null, [("x", .null), ("y", .text "found")]⟩ ∧
      restlessRun.2.bindings.toVariables = [("x", .none), ("y", .str "found")] := by
  have expected : restlessRunIsExpected = true := by
    decide +kernel
  unfold restlessRunIsExpected at expected
  split at expected
  · next result bindings => exact ⟨result, bindings⟩
  · cases expected

theorem execute_isolated_restlessSession :
    let execution := execute (Language.host (some fun _ _ => .proceed) .printing) 0 false
    ∃ result after, execution.on restlessSession = (.ok result, after) ∧
      (execution.on restlessSession.withoutChanges).1 = .ok result ∧
      (execution.on restlessSession.withoutChanges).2.journal.events = after.journal.events ∧
      after.bindings.toVariables = [("x", .none), ("y", .str "found")] ∧
      after.program = (Language.compile "y").toOption ∧
      after.modules.get? "extra" = some (load "x") := by
  have blind : restlessSession.FunctionsBlind := by
    intro entry member given
    obtain rfl := List.mem_singleton.1 member
    exact fun _ _ _ => ⟨fun _ => trivial, fun _ => trivial⟩
  obtain ⟨isolated, persists, -⟩ :=
    execute_isolated (some fun _ _ => .proceed) .printing 0 false blind
      changesSucceed_restlessSteps
  have same := isolated.execution
  have events := isolated.events
  rcases done : (execute (Language.host (some fun _ _ => .proceed) .printing) 0 false).on
      restlessSession with ⟨result, after⟩
  obtain ⟨ran, bound⟩ := restlessRun_gives
  rw [restlessRun, done] at ran bound
  rw [done] at same events
  obtain rfl : result = _ := ran
  obtain ⟨-, left⟩ := persists _ _ done
  obtain ⟨late, steps⟩ := step_restlessSteps
  refine ⟨_, _, done, same, events, bound, ?_, ?_⟩
  · exact left.program "y" [.addVariable "x" (.text "lost"), .addModule "extra" "x"] [_]
      steps (by simp)
  · exact left.modules List.nodup_nil "extra" "x" [.addVariable "x" (.text "lost")]
      [.parse "y", _] steps (by simp)

end ScriptHost
