import ScriptHost.Proofs.Session.Changes

/-!
# Sessions in lockstep

Two sessions that differ only in what their observers were told, each on a host of its own, are in
lockstep if neither the functions nor the logger can tell them apart and the observers react alike.

* `Action.Lockstep` says of two actions that from related states they give the same and leave
  related states.
* `Matches` sessions are equal but for their events, which are related, and for what their engines
  were told.  `Watching` hosts have one engine and one logger, and their observers react alike.
* Every piece of a session is in lockstep with itself on watching hosts.  So is a whole execution,
  whatever the functions do, and the calls that it makes are the same ones.
-/

namespace ScriptHost

/-- Two interferences do the same to what an event hands over: the arguments of the call, or the
message of the exception. -/
def Interference.SameAt (one two : Interference) : Event → Prop
  | .call _ arguments =>
      ∀ given, given.map Argument.value = arguments → two.arguments given = one.arguments given
  | .failed _ message => two.message message = one.message message
  | _ => True

/-- Two observers throw the same or do the same to what an event hands over. -/
inductive ReactAlike (event : Event) :
    Except Fault Interference → Except Fault Interference → Prop where
  | error (fault : Fault) : ReactAlike event (.error fault) (.error fault)
  | ok {one two : Interference} : one.SameAt two event → ReactAlike event (.ok one) (.ok two)

theorem reactAlike_of_eq
    {event : Event}
    {one two : Except Fault Interference}
    (same : two = one) :
    ReactAlike event one two := by
  subst same
  cases two with
  | error fault => exact .error fault
  | ok interference =>
      refine .ok ?_
      cases event with
      | call name arguments => exact fun _ _ => rfl
      | failed name message => rfl
      | _ => trivial

namespace Action

variable {τ α β : Type}
variable {related : τ → τ → Prop}

/-- From the two states the two actions give the same and leave related states. -/
structure Together
    (related : τ → τ → Prop)
    (x y : Action τ α)
    (first second : τ) : Prop where
  result : (y.on second).1 = (x.on first).1
  after : related (x.on first).2 (y.on second).2

/-- From all related states the two actions give the same and leave related states. -/
def Lockstep (related : τ → τ → Prop) (x y : Action τ α) : Prop :=
  ∀ first second, related first second → Together related x y first second

theorem together_of_on_eq
    {x y : Action τ α}
    {first second after after' : τ}
    {result : Except Fault α}
    (onFirst : x.on first = (result, after))
    (onSecond : y.on second = (result, after'))
    (further : related after after') :
    Together related x y first second := by
  constructor
  · rw [onFirst, onSecond]
  · rw [onFirst, onSecond]
    exact further

theorem Together.on_eq
    {x y : Action τ α}
    {first second : τ}
    (together : Together related x y first second) :
    ∃ result after after', x.on first = (result, after) ∧ y.on second = (result, after') ∧
      related after after' :=
  ⟨(x.on first).1, (x.on first).2, (y.on second).2, rfl, Prod.ext together.result rfl,
    together.after⟩

/-- What two actions do together depends only on what each of them does. -/
theorem Together.congr
    {x y x' y' : Action τ α}
    {first second first' second' : τ}
    (together : Together related x y first second)
    (onFirst : x'.on first' = x.on first)
    (onSecond : y'.on second' = y.on second) :
    Together related x' y' first' second' := by
  obtain ⟨result, after, after', ran, ran', further⟩ := together.on_eq
  exact together_of_on_eq (onFirst.trans ran) (onSecond.trans ran') further

theorem Together.bind
    {x y : Action τ α}
    {f g : α → Action τ β}
    {first second : τ}
    (together : Together related x y first second)
    (rest : ∀ value, Lockstep related (f value) (g value)) :
    Together related (x >>= f) (y >>= g) first second := by
  obtain ⟨result, after, after', ran, ran', further⟩ := together.on_eq
  cases result with
  | error fault =>
      exact together_of_on_eq (on_bind_of_error ran) (on_bind_of_error ran') further
  | ok value =>
      exact (rest value after after' further).congr (on_bind_of_ok ran) (on_bind_of_ok ran')

theorem lockstep_ofExcept (result : Except Fault α) :
    Lockstep related (ofExcept result) (ofExcept result) :=
  fun _ _ before => ⟨rfl, before⟩

theorem lockstep_pure (value : α) :
    Lockstep related (pure value : Action τ α) (pure value) :=
  lockstep_ofExcept (.ok value)

theorem lockstep_throw (fault : Fault) :
    Lockstep related (throw fault : Action τ α) (throw fault) :=
  lockstep_ofExcept (.error fault)

theorem lockstep_modify
    {f g : τ → τ}
    (kept : ∀ first second, related first second → related (f first) (g second)) :
    Lockstep related (modify f : Action τ Unit) (modify g) :=
  fun first second before => ⟨rfl, kept first second before⟩

theorem lockstep_get_bind
    {f g : τ → Action τ α}
    (rest : ∀ first second, related first second →
      Together related (f first) (g second) first second) :
    Lockstep related (get >>= f) (get >>= g) :=
  fun first second before => (rest first second before).congr (on_bind_of_ok (on_get first))
    (on_bind_of_ok (on_get second))

theorem Lockstep.bind
    {x y : Action τ α}
    {f g : α → Action τ β}
    (together : Lockstep related x y)
    (rest : ∀ value, Lockstep related (f value) (g value)) :
    Lockstep related (x >>= f) (y >>= g) :=
  fun first second before => (together first second before).bind rest

theorem Lockstep.attempt
    {x y : Action τ α}
    (together : Lockstep related x y) :
    Lockstep related x.attempt y.attempt := by
  intro first second before
  obtain ⟨result, after⟩ := together first second before
  exact ⟨congrArg Except.ok result, after⟩

end Action

namespace Session

open ScriptHost.Action

variable {π σ μ α : Type}

/-- Two sessions are equal but for what the observers and the engines were told, and what the
observers were told is related. -/
structure Matches
    (told : List Event → List Event → Prop)
    (first second : Session π σ μ) : Prop where
  engineState : second.engineState = first.engineState
  program : second.program = first.program
  bindings : second.bindings = first.bindings
  functions : second.functions = first.functions
  modules : second.modules = first.modules
  memory : second.memory = first.memory
  revisions : second.revisions = first.revisions
  logs : second.journal.logs = first.journal.logs
  events : told first.journal.events second.journal.events

/-- Two hosts have one engine and one logger, and in sessions that match their observers react alike
to every event and are told what is related again. -/
structure Watching
    (told : List Event → List Event → Prop)
    (μ : Type)
    (one two : Host π σ) : Prop where
  engine : two.engine = one.engine
  logger : two.logger = one.logger
  reaction : ∀ {first second : Session π σ μ}, Matches told first second →
    ∀ event, ReactAlike event (first.reaction one event) (second.reaction two event)
  noted : ∀ {first second : Session π σ μ}, Matches told first second →
    ∀ event, told (first.noted one event).journal.events (second.noted two event).journal.events

section Pieces

variable {told : List Event → List Event → Prop}
variable {one two : Host π σ}

/-- What observers are told is all that changes with an event. -/
theorem Matches.noted
    {told' : List Event → List Event → Prop}
    {first second : Session π σ μ}
    (alike : Matches told first second)
    {event event' : Event}
    (events : told' (first.noted one event).journal.events
      (second.noted two event').journal.events) :
    Matches told' (first.noted one event) (second.noted two event') := by
  unfold Session.noted at events ⊢
  generalize one.observer = watched at events ⊢
  generalize two.observer = watched' at events ⊢
  cases watched <;> cases watched' <;> exact { alike with events := events }

theorem Watching.matches_noted
    (watching : Watching told μ one two)
    {first second : Session π σ μ}
    (alike : Matches told first second)
    (event : Event) :
    Matches told (first.noted one event) (second.noted two event) :=
  alike.noted (watching.noted alike event)

variable (watching : Watching told μ one two)
include watching

/-- What follows upon an event is in lockstep if it depends only on what the event handed over. -/
theorem lockstep_notify_bind
    {event : Event}
    {f g : Interference → Action (Session π σ μ) α}
    (rest : ∀ {mine yours : Interference}, mine.SameAt yours event →
      Lockstep (Matches told) (f mine) (g yours)) :
    Lockstep (Matches told) (notify one event >>= f) (notify two event >>= g) := by
  intro first second alike
  have noted := watching.matches_noted alike event
  have onFirst := on_notify one first event
  have onSecond := on_notify two second event
  have reacts := watching.reaction alike event
  generalize first.reaction one event = mine at reacts onFirst
  generalize second.reaction two event = yours at reacts onSecond
  cases reacts with
  | error fault =>
      exact together_of_on_eq (on_bind_of_error onFirst) (on_bind_of_error onSecond) noted
  | ok handed =>
      exact (rest handed _ _ noted).congr (on_bind_of_ok onFirst) (on_bind_of_ok onSecond)

theorem lockstep_log (value : Value) :
    Lockstep (Matches told) (log one value : Action (Session π σ μ) _) (log two value) := by
  intro first second alike
  have handed : two.logger.log second.journal.logs (second.revisions.current value).decode =
      one.logger.log first.journal.logs (first.revisions.current value).decode := by
    rw [watching.logger, alike.logs, alike.revisions]
  constructor
  · rw [on_log, on_log, handed]
  · rw [on_log, on_log, handed]
    exact { alike with logs := rfl }

theorem lockstep_compile (source : String) :
    Lockstep (Matches told) (compile one source : Action (Session π σ μ) _)
      (compile two source) := by
  refine lockstep_get_bind fun first second alike => ?_
  rw [watching.engine, alike.engineState]
  rcases one.engine.compile source first.engineState with ⟨fault | program, after⟩
  · exact ⟨rfl, { alike with engineState := rfl }⟩
  · exact ⟨rfl, { alike with engineState := rfl }⟩

theorem lockstep_addModule (name source : String) :
    Lockstep (Matches told) (addModule one name source : Action (Session π σ μ) _)
      (addModule two name source) := by
  refine (lockstep_compile watching source).bind fun program => ?_
  refine lockstep_modify fun first second alike => { alike with modules := ?_ }
  rw [alike.modules]

theorem lockstep_addModules (pairs : List (String × String)) :
    Lockstep (Matches told) (addModules one pairs : Action (Session π σ μ) _)
      (addModules two pairs) := by
  induction pairs with
  | nil => exact lockstep_pure ()
  | cons pair rest ih => exact (lockstep_addModule watching _ _).bind fun _ => ih

theorem lockstep_parse (source : String) :
    Lockstep (Matches told) (parse one source : Action (Session π σ μ) _)
      (parse two source) := by
  refine (lockstep_compile watching source).bind fun program => ?_
  refine Lockstep.bind (lockstep_modify fun first second alike => ?_) fun _ => ?_
  · exact { alike with program := rfl }
  · refine lockstep_get_bind fun first second alike => ?_
    rw [alike.modules]
    exact lockstep_addModules watching _ first second alike

omit watching in
theorem lockstep_addVariable (name : String) (value : HostValue) :
    Lockstep (Matches told) (addVariable name value : Action (Session π σ μ) _)
      (addVariable name value) := by
  refine (lockstep_ofExcept _).bind fun encoded => ?_
  refine lockstep_modify fun first second alike => { alike with bindings := ?_ }
  rw [alike.bindings]

omit watching in
theorem lockstep_register (registration : Registration (HostFunction μ)) :
    Lockstep (Matches told) (register registration : Action (Session π σ μ) _)
      (register registration) := by
  intro first second alike
  have onFirst := on_register registration first
  have onSecond := on_register registration second
  rw [alike.functions] at onSecond
  cases registered : first.functions.register registration with
  | error fault =>
      rw [registered] at onFirst onSecond
      exact together_of_on_eq onFirst onSecond alike
  | ok functions =>
      rw [registered] at onFirst onSecond
      exact together_of_on_eq onFirst onSecond { alike with functions := rfl }

omit watching in
theorem Matches.hostVariables
    {first second : Session π σ μ}
    (alike : Matches told first second) :
    second.hostVariables = first.hostVariables := by
  unfold Session.hostVariables
  rw [alike.bindings, alike.revisions]

variable {execute execute' : Bool → Action (Session π σ μ) Execution}
variable (inner : ∀ debug, Lockstep (Matches told) (execute debug) (execute' debug))
include inner

theorem lockstep_performWith (step : Step (HostFunction μ)) :
    Lockstep (Matches told) (performWith one execute step) (performWith two execute' step) := by
  cases step with
  | parse source => exact (lockstep_parse watching source).bind fun _ => lockstep_pure _
  | addVariable name value => exact (lockstep_addVariable name value).bind fun _ => lockstep_pure _
  | addModule name source =>
      exact (lockstep_addModule watching name source).bind fun _ => lockstep_pure _
  | register registration =>
      exact (lockstep_register registration).bind fun _ => lockstep_pure _
  | execute debug => exact (inner debug).bind fun _ => lockstep_pure _
  | snapshot name value =>
      refine lockstep_get_bind fun first second alike => ?_
      rw [alike.hostVariables]
      exact ⟨rfl, alike⟩
  | program =>
      refine lockstep_get_bind fun first second alike => ?_
      rw [alike.program]
      exact ⟨rfl, alike⟩

theorem lockstep_runProcedure : (procedure : Procedure μ) →
    Lockstep (Matches told) (runProcedure one execute procedure)
      (runProcedure two execute' procedure)
  | .finish result => lockstep_ofExcept result
  | .recall next => by
      refine lockstep_get_bind fun first second alike => ?_
      rw [alike.memory]
      exact lockstep_runProcedure (next first.memory) first second alike
  | .remember memory next => by
      refine Lockstep.bind (lockstep_modify fun first second alike => ?_) fun _ =>
        lockstep_runProcedure next
      exact { alike with memory := rfl }
  | .inspect next => by
      refine lockstep_get_bind fun first second alike => ?_
      rw [alike.hostVariables]
      exact lockstep_runProcedure (next first.hostVariables) first second alike
  | .revise number content next => by
      refine Lockstep.bind (lockstep_modify fun first second alike => ?_) fun _ =>
        lockstep_runProcedure next
      exact { alike with revisions := by rw [alike.revisions] }
  | .perform step next =>
      (lockstep_performWith watching inner step).attempt.bind fun _ => lockstep_runProcedure _

theorem lockstep_answer
    (adapter : Adapter (HostFunction μ))
    (arguments : List Argument) :
    Lockstep (Matches told) (answer one execute adapter arguments)
      (answer two execute' adapter arguments) :=
  (lockstep_runProcedure watching inner _).bind fun _ => lockstep_ofExcept _

omit inner in
theorem lockstep_conclude (callName : String) (result : Except Fault Value) :
    Lockstep (Matches told) (conclude one callName result : Action (Session π σ μ) Value)
      (conclude two callName result) := by
  have returned : ∀ value, Lockstep (Matches told)
      (do let _ ← notify one (.returned callName value); pure value : Action (Session π σ μ) _)
      (do let _ ← notify two (.returned callName value); pure value) :=
    fun value => lockstep_notify_bind watching fun _ => lockstep_pure value
  cases result with
  | ok value => exact returned value
  | error fault =>
      cases fault with
      | exception message =>
          refine lockstep_notify_bind watching fun {mine yours} handed => ?_
          rw [show yours.message message = mine.message message from handed]
          exact returned (.makeError (mine.message message))
      | _ => exact lockstep_throw _

omit watching inner in
theorem Matches.given
    {first second : Session π σ μ}
    (alike : Matches told first second)
    (adapter : Adapter (HostFunction μ))
    (callName : String)
    (arguments : Arguments) :
    second.given adapter callName arguments = first.given adapter callName arguments := by
  unfold Session.given
  rw [alike.revisions]

theorem lockstep_invoke
    (adapter : Adapter (HostFunction μ))
    (callName : String)
    (arguments : Arguments) :
    Lockstep (Matches told) (invoke one execute adapter callName arguments)
      (invoke two execute' adapter callName arguments) := by
  rw [invoke_eq, invoke_eq]
  refine lockstep_get_bind fun first second alike => ?_
  dsimp only
  rw [alike.given]
  refine lockstep_notify_bind watching (fun {mine yours} handed => ?_) first second alike
  rw [show yours.arguments _ = mine.arguments _ from handed _ rfl]
  exact (lockstep_answer watching inner adapter _).attempt.bind fun result =>
    lockstep_conclude watching callName result

theorem lockstep_dispatch (function callName : String) (arguments : Arguments) :
    Lockstep (Matches told) (dispatch one execute function callName arguments)
      (dispatch two execute' function callName arguments) := by
  rw [dispatch_eq, dispatch_eq]
  refine lockstep_get_bind fun first second alike => ?_
  rw [alike.functions]
  cases first.functions.resolve? function with
  | none => exact ⟨rfl, alike⟩
  | some adapter =>
      exact (lockstep_invoke watching inner adapter callName arguments).bind
        (fun _ => lockstep_pure _) first second alike

theorem lockstep_follow (interaction : Interaction α) :
    Lockstep (Matches told) (follow one execute interaction)
      (follow two execute' interaction) := by
  induction interaction with
  | done result => exact lockstep_pure result
  | fail fault => exact lockstep_throw fault
  | log value next ih => exact (lockstep_log watching value).bind fun _ => ih
  | call function callName arguments next ih =>
      exact (lockstep_dispatch watching inner function callName arguments).bind ih

omit watching inner in
theorem Matches.request
    {first second : Session π σ μ}
    (alike : Matches told first second)
    (program : π)
    (debug : Bool) :
    second.request program debug = first.request program debug := by
  unfold Session.request
  rw [alike.bindings, alike.functions, alike.modules]

omit inner in
theorem lockstep_evaluation (program : π) (debug : Bool) :
    Lockstep (Matches told) (evaluation one program debug : Action (Session π σ μ) _)
      (evaluation two program debug) := by
  refine lockstep_get_bind fun first second alike => ?_
  rw [alike.request, alike.engineState, watching.engine]
  exact ⟨rfl, { alike with engineState := rfl }⟩

theorem lockstep_evaluated (debug : Bool) :
    Lockstep (Matches told) (evaluated one execute debug) (evaluated two execute' debug) := by
  refine lockstep_get_bind fun first second alike => ?_
  rw [alike.program, alike.bindings]
  cases first.program with
  | none => exact ⟨rfl, alike⟩
  | some program =>
      refine lockstep_notify_bind watching (fun _ => ?_) first second alike
      exact (lockstep_evaluation watching program debug).bind fun interaction =>
        lockstep_follow watching inner interaction

omit inner in
theorem lockstep_completed (outcome : Outcome) :
    Lockstep (Matches told) (completed one outcome : Action (Session π σ μ) _)
      (completed two outcome) := by
  refine Lockstep.bind (lockstep_modify fun first second alike => ?_) fun _ => ?_
  · exact { alike with bindings := rfl }
  · refine lockstep_get_bind fun first second alike => ?_
    have result : second.resultOf outcome = first.resultOf outcome := by
      unfold resultOf
      rw [alike.revisions]
    have event : second.endEvent outcome = first.endEvent outcome := by
      unfold endEvent
      rw [result]
    rw [event, result, alike.hostVariables]
    exact lockstep_notify_bind watching (fun _ => lockstep_pure _) first second alike

omit inner in
theorem lockstep_execute (depth : Nat) (debug : Bool) :
    Lockstep (Matches told) (Session.execute one depth debug : Action (Session π σ μ) _)
      (Session.execute two depth debug) := by
  have whole : ∀ depth : Nat,
      (∀ debug, Lockstep (Matches told) (nested one depth debug : Action (Session π σ μ) _)
        (nested two depth debug)) →
      ∀ debug, Lockstep (Matches told)
        (Session.execute one depth debug : Action (Session π σ μ) _)
        (Session.execute two depth debug) := by
    intro depth inner debug
    rw [execute_eq, execute_eq]
    exact (lockstep_evaluated watching inner debug).bind fun outcome =>
      lockstep_completed watching outcome
  induction depth generalizing debug with
  | zero => exact whole 0 (fun _ => lockstep_throw _) debug
  | succ depth ih => exact whole (depth + 1) ih debug

omit inner in
theorem lockstep_nested (depth : Nat) (debug : Bool) :
    Lockstep (Matches told) (nested one depth debug : Action (Session π σ μ) _)
      (nested two depth debug) := by
  cases depth with
  | zero => exact lockstep_throw _
  | succ depth => exact lockstep_execute watching depth debug

end Pieces

/-- One step, performed in sessions that match. -/
structure PerformedStep.Matches
    (told : List Event → List Event → Prop)
    (first second : PerformedStep π σ μ) : Prop where
  step : second.step = first.step
  session : Session.Matches told first.session second.session

/-- One call, with the same arguments, the same result and the same steps in sessions that match. -/
structure HostCall.Matches
    (told : List Event → List Event → Prop)
    (first second : HostCall π σ μ) : Prop where
  callName : second.callName = first.callName
  arguments : second.arguments = first.arguments
  result : second.result = first.result
  steps : List.Forall₂ (PerformedStep.Matches told) first.steps second.steps

section Records

variable {told : List Event → List Event → Prop}
variable {one two : Host π σ}
variable (watching : Watching told μ one two)
variable {execute execute' : Bool → Action (Session π σ μ) Execution}
variable (inner : ∀ debug, Lockstep (Matches told) (execute debug) (execute' debug))
include watching inner

variable {first second : Session π σ μ}

end Records

end Session
end ScriptHost
