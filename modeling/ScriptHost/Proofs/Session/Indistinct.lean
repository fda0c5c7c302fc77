import ScriptHost.Proofs.Language.Nesting
import ScriptHost.Proofs.Session.Detachment
import ScriptHost.Proofs.Session.Isolation

/-!
# Sessions that cannot be told apart

Detached functions, the observer and the logger take no notice of the program of a session, of its
variables and modules, or of what the engine was told.

* `Indistinct` sessions differ in nothing else.  Interactions are followed alike from them and make
  the same calls.
* Detached functions leave the script as it is, so that the variables after an execution are those
  of its scope, or the old ones if it fails.
* `ExecuteAlike` says that two executions cannot be told apart, and `executeAlike_of_evaluated` that
  it is enough to look at their evaluations.
* An interaction that is not cut off is followed like every interaction that it is a part of.
-/

namespace ScriptHost

namespace Procedure

variable {μ : Type}

theorem blind_of_detached : (procedure : Procedure μ) → procedure.Detached → procedure.Blind
  | .finish _, _ => trivial
  | .recall next, detached => fun memory => blind_of_detached (next memory) (detached memory)
  | .remember _ next, detached => blind_of_detached next detached
  | .revise _ _ next, detached => blind_of_detached next detached

theorem withoutChanges_of_detached : (procedure : Procedure μ) → procedure.Detached →
    procedure.withoutChanges = procedure
  | .finish _, _ => rfl
  | .recall next, detached => by
      rw [withoutChanges]
      congr 1
      funext memory
      exact withoutChanges_of_detached (next memory) (detached memory)
  | .remember _ next, detached => by rw [withoutChanges, withoutChanges_of_detached next detached]
  | .revise _ _ next, detached => by rw [withoutChanges, withoutChanges_of_detached next detached]

end Procedure

theorem Adapter.withoutChanges_of_detached
    {μ : Type}
    {adapter : Adapter (HostFunction μ)}
    (detached : ∀ given, (adapter.function given).Detached) :
    adapter.withoutChanges = adapter := by
  have function : (fun given => (adapter.function given).withoutChanges) = adapter.function :=
    funext fun given => Procedure.withoutChanges_of_detached _ (detached given)
  rw [Adapter.withoutChanges, function]

namespace Session

variable {π σ μ α β : Type}

/-- Sessions that differ in nothing that a detached function, the observer or the logger can
tell. -/
structure Indistinct (first second : Session π σ μ) : Prop where
  functions : second.functions = first.functions
  memory : second.memory = first.memory
  revisions : second.revisions = first.revisions
  events : second.journal.events = first.journal.events
  logs : second.journal.logs = first.journal.logs

theorem Indistinct.symm
    {first second : Session π σ μ}
    (indistinct : Indistinct first second) :
    Indistinct second first :=
  ⟨indistinct.functions.symm, indistinct.memory.symm, indistinct.revisions.symm,
    indistinct.events.symm, indistinct.logs.symm⟩

theorem Indistinct.trans
    {first second third : Session π σ μ}
    (indistinct : Indistinct first second)
    (further : Indistinct second third) :
    Indistinct first third :=
  ⟨further.functions.trans indistinct.functions, further.memory.trans indistinct.memory,
    further.revisions.trans indistinct.revisions, further.events.trans indistinct.events,
    further.logs.trans indistinct.logs⟩

theorem Indistinct.noted
    {host : Host π σ}
    {first second : Session π σ μ}
    (indistinct : Indistinct first second)
    (event : Event) :
    Indistinct (first.noted host event) (second.noted host event) := by
  unfold Session.noted
  cases host.observer with
  | none => exact indistinct
  | some observer =>
      have events : second.journal.events ++ [event] = first.journal.events ++ [event] := by
        rw [indistinct.events]
      exact { indistinct with events := events }

section Frame

variable (host : Host π σ)
variable (execute : Bool → Action (Session π σ μ) Execution)
variable {first second : Session π σ μ}

theorem functions_withoutChanges_of_detached
    (detached : first.FunctionsDetached) :
    first.functions.map Adapter.withoutChanges = first.functions := by
  have entries : first.functions.entries.mapValues Adapter.withoutChanges =
      first.functions.entries := by
    refine (List.map_congr_left fun entry member => ?_).trans (List.map_id _)
    rw [Adapter.withoutChanges_of_detached (detached entry member)]
    rfl
  rw [FunctionTable.map, entries]

/-- Detached functions make no changes of the script, so that a session tracks another that they
cannot tell from it. -/
theorem Indistinct.tracks
    (detached : first.FunctionsDetached)
    (indistinct : Indistinct first second) :
    Tracks first second where
  blind := fun entry member given =>
    Procedure.blind_of_detached _ (detached entry member given)
  functions := by rw [functions_withoutChanges_of_detached detached, indistinct.functions]
  memory := indistinct.memory
  revisions := indistinct.revisions
  events := indistinct.events
  logs := indistinct.logs

theorem steps_dispatchedCalls_of_detached
    (detached : first.FunctionsDetached)
    (function callName : String)
    (arguments : Arguments) :
    (dispatchedCalls host execute function callName arguments first).flatMap HostCall.steps =
      [] := by
  rw [dispatchedCalls]
  cases resolved : first.functions.resolve? function with
  | none => rfl
  | some adapter =>
      obtain ⟨entry, member, rfl⟩ := FunctionTable.mem_of_resolve?_eq_some resolved
      dsimp only
      rw [invokedCalls]
      dsimp only
      split
      · rfl
      · rw [List.flatMap_singleton]
        exact performedSteps_of_detached execute _ (detached entry member _) _

theorem changesSucceed_nil : ChangesSucceed host execute [] :=
  fun _ member => absurd member List.not_mem_nil

/-- Detached functions leave the script as it is. -/
theorem script_dispatch_of_detached
    (detached : first.FunctionsDetached)
    (function callName : String)
    (arguments : Arguments) :
    ((dispatch host execute function callName arguments).on first).2.script = first.script := by
  have changed := dispatch_changedBy host execute function callName arguments first
  rwa [steps_dispatchedCalls_of_detached host execute detached] at changed

theorem functions_dispatch_of_detached
    (detached : first.FunctionsDetached)
    (function callName : String)
    (arguments : Arguments) :
    ((dispatch host execute function callName arguments).on first).2.functions =
      first.functions :=
  congrArg Script.functions
    (script_dispatch_of_detached host execute detached function callName arguments)

theorem indistinct_dispatch
    (detached : first.FunctionsDetached)
    (indistinct : Indistinct first second)
    (function callName : String)
    (arguments : Arguments) :
    ((dispatch host execute function callName arguments).on second).1 =
        ((dispatch host execute function callName arguments).on first).1 ∧
      Indistinct ((dispatch host execute function callName arguments).on first).2
        ((dispatch host execute function callName arguments).on second).2 := by
  have detached' : second.FunctionsDetached := by
    rwa [FunctionsDetached, indistinct.functions]
  have succeed : ChangesSucceed host execute
      ((dispatchedCalls host execute function callName arguments first).flatMap
        HostCall.steps) := by
    rw [steps_dispatchedCalls_of_detached host execute detached]
    exact changesSucceed_nil host execute
  obtain ⟨result, tracks⟩ :=
    agree_dispatch function callName arguments (indistinct.tracks detached) succeed
  refine ⟨result, ?_, tracks.memory, tracks.revisions, tracks.events, tracks.logs⟩
  rw [functions_dispatch_of_detached host execute detached,
    functions_dispatch_of_detached host execute detached', indistinct.functions]

theorem answer_of_indistinct
    {adapter : Adapter (HostFunction μ)}
    (detached : ∀ given, (adapter.function given).Detached)
    (tracks : Tracks first second)
    (given : List Argument) :
    ((answer host execute adapter given).on second).1 =
      ((answer host execute adapter given).on first).1 := by
  have succeed : ChangesSucceed host execute
      (performedSteps host execute (adapter.function given) first) := by
    rw [performedSteps_of_detached execute _ (detached given)]
    exact changesSucceed_nil host execute
  have agree := agree_answer (fun given => Procedure.blind_of_detached _ (detached given)) given
    tracks succeed
  rw [Adapter.withoutChanges_of_detached detached] at agree
  exact agree.result

theorem invokedCalls_of_indistinct
    {adapter : Adapter (HostFunction μ)}
    (detached : ∀ given, (adapter.function given).Detached)
    (tracks : Tracks first second)
    (callName : String)
    (arguments : Arguments) :
    invokedCalls host execute adapter callName arguments second =
      invokedCalls host execute adapter callName arguments first := by
  have given : second.given adapter callName arguments =
      first.given adapter callName arguments := by
    rw [Session.given, Session.given, tracks.revisions]
  rw [invokedCalls, invokedCalls, given]
  dsimp only
  rw [tracks.reaction_eq]
  split
  · rfl
  · rw [performedSteps_of_detached execute _ (detached _),
      performedSteps_of_detached execute _ (detached _),
      answer_of_indistinct host execute detached (tracks.noted _)]

theorem dispatchedCalls_of_indistinct
    (detached : first.FunctionsDetached)
    (indistinct : Indistinct first second)
    (function callName : String)
    (arguments : Arguments) :
    dispatchedCalls host execute function callName arguments second =
      dispatchedCalls host execute function callName arguments first := by
  rw [dispatchedCalls, dispatchedCalls, indistinct.functions]
  cases resolved : first.functions.resolve? function with
  | none => rfl
  | some adapter =>
      obtain ⟨entry, member, rfl⟩ := FunctionTable.mem_of_resolve?_eq_some resolved
      exact invokedCalls_of_indistinct host execute (detached entry member)
        (indistinct.tracks detached) callName arguments

theorem FunctionsDetached.of_functions_eq
    (detached : first.FunctionsDetached)
    (same : second.functions = first.functions) :
    second.FunctionsDetached := by
  rwa [FunctionsDetached, same]

theorem functions_log (session : Session π σ μ) (value : Value) :
    ((log host value).on session).2.functions = session.functions :=
  congrArg Script.functions (script_log host session value)

theorem steps_hostCalls_of_detached
    (interaction : Interaction α)
    (detached : first.FunctionsDetached) :
    (hostCalls host execute interaction first).flatMap HostCall.steps = [] := by
  induction interaction generalizing first with
  | done result => rfl
  | fail fault => rfl
  | log value next ih =>
      have kept := functions_log host first value
      rw [hostCalls]
      rcases logged : (log host value).on first with ⟨fault | _, after⟩ <;> rw [logged] at kept
      · rfl
      · exact ih (detached.of_functions_eq kept)
  | call function callName arguments next ih =>
      have kept := functions_dispatch_of_detached host execute detached function callName arguments
      rw [hostCalls, List.flatMap_append,
        steps_dispatchedCalls_of_detached host execute detached, List.nil_append]
      rcases called : (dispatch host execute function callName arguments).on first with
        ⟨fault | answer, after⟩ <;> rw [called] at kept
      · rfl
      · exact ih answer (detached.of_functions_eq kept)

theorem functions_follow_of_detached
    (interaction : Interaction α)
    (detached : first.FunctionsDetached) :
    ((follow host execute interaction).on first).2.functions = first.functions := by
  have changed := follow_changedBy host execute interaction first
  rw [steps_hostCalls_of_detached host execute interaction detached] at changed
  exact congrArg Script.functions changed

/-- An interaction is followed alike from sessions that cannot be told apart. -/
theorem indistinct_follow
    (interaction : Interaction α)
    (detached : first.FunctionsDetached)
    (indistinct : Indistinct first second) :
    ((follow host execute interaction).on second).1 =
        ((follow host execute interaction).on first).1 ∧
      Indistinct ((follow host execute interaction).on first).2
        ((follow host execute interaction).on second).2 := by
  have detached' := detached.of_functions_eq indistinct.functions
  have succeed : ChangesSucceed host execute
      ((hostCalls host execute interaction first).flatMap HostCall.steps) := by
    rw [steps_hostCalls_of_detached host execute interaction detached]
    exact changesSucceed_nil host execute
  obtain ⟨result, tracks⟩ := agree_follow interaction (indistinct.tracks detached) succeed
  refine ⟨result, ?_, tracks.memory, tracks.revisions, tracks.events, tracks.logs⟩
  rw [functions_follow_of_detached host execute interaction detached,
    functions_follow_of_detached host execute interaction detached', indistinct.functions]

theorem indistinct_log
    (detached : first.FunctionsDetached)
    (indistinct : Indistinct first second)
    (value : Value) :
    ((log host value).on second).1 = ((log host value).on first).1 ∧
      Indistinct ((log host value).on first).2 ((log host value).on second).2 := by
  obtain ⟨result, tracks⟩ := agree_log (indistinct.tracks detached) value
  refine ⟨result, ?_, tracks.memory, tracks.revisions, tracks.events, tracks.logs⟩
  rw [functions_log, functions_log, indistinct.functions]

theorem hostCalls_of_indistinct
    (interaction : Interaction α)
    (detached : first.FunctionsDetached)
    (indistinct : Indistinct first second) :
    hostCalls host execute interaction second = hostCalls host execute interaction first := by
  induction interaction generalizing first second with
  | done result => rfl
  | fail fault => rfl
  | log value next ih =>
      have kept := functions_log host first value
      obtain ⟨same, further⟩ := indistinct_log host detached indistinct value
      rw [hostCalls, hostCalls]
      generalize (log host value).on first = onFirst at kept same further ⊢
      generalize (log host value).on second = onSecond at same further ⊢
      obtain ⟨_, after⟩ := onFirst
      obtain ⟨result, after'⟩ := onSecond
      obtain rfl := same
      cases result with
      | error fault => rfl
      | ok _ => exact ih (detached.of_functions_eq kept) further
  | call function callName arguments next ih =>
      have kept := functions_dispatch_of_detached host execute detached function callName arguments
      have calls :=
        dispatchedCalls_of_indistinct host execute detached indistinct function callName arguments
      obtain ⟨same, further⟩ :=
        indistinct_dispatch host execute detached indistinct function callName arguments
      rw [hostCalls, hostCalls, calls]
      generalize (dispatch host execute function callName arguments).on first = onFirst
        at kept same further ⊢
      generalize (dispatch host execute function callName arguments).on second = onSecond
        at same further ⊢
      obtain ⟨_, after⟩ := onFirst
      obtain ⟨result, after'⟩ := onSecond
      obtain rfl := same
      cases result with
      | error fault => rfl
      | ok answer => exact congrArg _ (ih answer (detached.of_functions_eq kept) further)

end Frame

section Bounds

variable (host : Host π σ)
variable (execute : Bool → Action (Session π σ μ) Execution)

/-- Following the interaction ends where imports nest too deep. -/
def CutOff : Interaction α → Session π σ μ → Prop
  | .done _, _ => False
  | .fail fault, _ => fault = .nestingTooDeep
  | .log value next, session =>
      match (log host value).on session with
      | (.ok _, after) => CutOff next after
      | (.error _, _) => False
  | .call function callName arguments next, session =>
      match (dispatch host execute function callName arguments).on session with
      | (.ok answer, after) => CutOff (next answer) after
      | (.error _, _) => False

theorem cutOff_bind
    (interaction : Interaction α)
    (f : α → Interaction β)
    (session : Session π σ μ) :
    CutOff host execute (interaction >>= f) session ↔
      CutOff host execute interaction session ∨
        ∃ result after, (follow host execute interaction).on session = (.ok result, after) ∧
          CutOff host execute (f result) after := by
  induction interaction generalizing session with
  | done result => simp [CutOff, follow]
  | fail fault => simp [CutOff, follow]
  | log value next ih =>
      rw [Interaction.log_bind, on_follow_log, CutOff, CutOff]
      rcases (log host value).on session with ⟨fault | _, after⟩
      · simp
      · exact ih after
  | call function callName arguments next ih =>
      rw [Interaction.call_bind, on_follow_call, CutOff, CutOff]
      rcases (dispatch host execute function callName arguments).on session with
        ⟨fault | answer, after⟩
      · simp
      · exact ih answer after

theorem cutOff_map
    (f : α → β)
    (interaction : Interaction α)
    (session : Session π σ μ) :
    CutOff host execute (f <$> interaction) session ↔ CutOff host execute interaction session := by
  rw [map_eq_pure_bind, cutOff_bind]
  simp [CutOff]

theorem follow_map (f : α → β) (interaction : Interaction α) :
    follow host execute (f <$> interaction) = f <$> follow host execute interaction := by
  rw [map_eq_pure_bind, follow_bind, map_eq_pure_bind]
  rfl

theorem hostCalls_map
    (f : α → β)
    (interaction : Interaction α)
    (session : Session π σ μ) :
    hostCalls host execute (f <$> interaction) session =
      hostCalls host execute interaction session := by
  rw [map_eq_pure_bind, hostCalls_bind]
  rcases (follow host execute interaction).on session with ⟨fault | result, after⟩
  · exact List.append_nil _
  · exact List.append_nil _

/-- What becomes of an interaction that is followed from a session, and the calls on the way. -/
def followed (interaction : Interaction α) (session : Session π σ μ) :
    (Except Fault α × Session π σ μ) × List (HostCall π σ μ) :=
  ((follow host execute interaction).on session, hostCalls host execute interaction session)

/-- An interaction that is not cut off is followed like one that it is a part of. -/
theorem followed_of_truncates
    {part whole : Interaction α}
    (cut : part.Truncates whole)
    {session : Session π σ μ}
    (uncut : ¬ CutOff host execute part session) :
    followed host execute whole session = followed host execute part session := by
  induction cut generalizing session with
  | done result => rfl
  | fail fault => rfl
  | cut whole => exact absurd rfl uncut
  | log value next ih =>
      rw [followed, followed, on_follow_log, on_follow_log, hostCalls, hostCalls]
      rw [CutOff] at uncut
      rcases logged : (log host value).on session with ⟨fault | _, after⟩
      · rfl
      · rw [logged] at uncut
        exact ih uncut
  | call function callName arguments next ih =>
      rw [followed, followed, on_follow_call, on_follow_call, hostCalls, hostCalls]
      rw [CutOff] at uncut
      rcases called : (dispatch host execute function callName arguments).on session with
        ⟨fault | answer, after⟩
      · rfl
      · rw [called] at uncut
        have rest := Prod.mk.inj (ih answer uncut)
        have calls := congrArg
          (dispatchedCalls host execute function callName arguments session ++ ·) rest.2
        exact Prod.ext rest.1 calls

theorem followed_bind_of_error
    {interaction : Interaction α}
    {session after : Session π σ μ}
    {fault : Fault}
    (fails : (follow host execute interaction).on session = (.error fault, after))
    (f : α → Interaction β) :
    followed host execute (interaction >>= f) session =
      ((.error fault, after), hostCalls host execute interaction session) := by
  rw [followed, follow_bind, Action.on_bind_of_error fails, hostCalls_bind, fails]
  exact congrArg _ (List.append_nil _)

end Bounds

/-- The executions of two sessions reject with the same fault or leave the same scope.  They make
the same calls and leave the same events and logs up to the end event, and the same variables
altogether.  If `whole` holds, then the results and the ends are the same as well. -/
structure ExecuteAlike
    (host : Host π σ)
    (depth : Nat)
    (debug : Bool)
    (whole : Prop)
    (one two : Session π σ μ) : Prop where
  scope : ((evaluated host (nested host depth) debug).on one).1.map Outcome.scope =
    ((evaluated host (nested host depth) debug).on two).1.map Outcome.scope
  outcome : whole → ((evaluated host (nested host depth) debug).on one).1 =
    ((evaluated host (nested host depth) debug).on two).1
  calls : executedCalls host (nested host depth) debug one =
    executedCalls host (nested host depth) debug two
  left : Indistinct ((evaluated host (nested host depth) debug).on one).2
    ((evaluated host (nested host depth) debug).on two).2
  bindings : ((execute host depth debug).on one).2.bindings =
    ((execute host depth debug).on two).2.bindings
  execution : whole → ((execute host depth debug).on one).1 = ((execute host depth debug).on two).1
  events : whole → ((execute host depth debug).on one).2.journal.events =
    ((execute host depth debug).on two).2.journal.events

section Executing

variable (host : Host π σ)
variable {execute : Bool → Action (Session π σ μ) Execution}
variable (depth : Nat)
variable (debug : Bool)
variable {session : Session π σ μ}

theorem steps_executedCalls_of_detached
    (detached : session.FunctionsDetached) :
    (executedCalls host execute debug session).flatMap HostCall.steps = [] := by
  rw [executedCalls]
  cases session.program with
  | none => rfl
  | some program =>
      dsimp only
      split
      · rfl
      · refine steps_hostCalls_of_detached host execute _ (detached.of_functions_eq ?_)
        exact congrArg Script.functions (script_noted host session _)

theorem script_evaluated_of_detached
    (detached : session.FunctionsDetached) :
    ((evaluated host execute debug).on session).2.script = session.script := by
  have changed := evaluated_changedBy host execute debug session
  rwa [steps_executedCalls_of_detached host debug detached] at changed

/-- The variables after an execution, given the scope of its evaluation. -/
theorem bindings_execute_of_detached
    (detached : session.FunctionsDetached) :
    ((Session.execute host depth debug).on session).2.bindings =
      match ((evaluated host (nested host depth) debug).on session).1.map Outcome.scope with
      | .ok scope => .ofVariables scope
      | .error _ => session.bindings := by
  have script : ((evaluated host (nested host depth) debug).on session).2.script =
      session.script := script_evaluated_of_detached host debug detached
  rw [execute_eq, Action.on_bind]
  rcases came : (evaluated host (nested host depth) debug).on session with ⟨fault | outcome, ended⟩
  · rw [came] at script
    exact congrArg Script.bindings script
  · have taken : ((completed host outcome).on ended).2.script =
        { ended.script with bindings := .ofVariables outcome.scope } :=
      script_completed _ (Prod.mk.eta).symm
    exact congrArg Script.bindings taken

/-- Evaluations that end alike belong to executions that end alike. -/
theorem executeAlike_of_evaluated
    {one two : Session π σ μ}
    (detached : one.FunctionsDetached)
    (indistinct : Indistinct one two)
    (sameBindings : two.bindings = one.bindings)
    {whole : Prop}
    (scope : ((evaluated host (nested host depth) debug).on one).1.map Outcome.scope =
      ((evaluated host (nested host depth) debug).on two).1.map Outcome.scope)
    (outcome : whole → ((evaluated host (nested host depth) debug).on one).1 =
      ((evaluated host (nested host depth) debug).on two).1)
    (calls : executedCalls host (nested host depth) debug one =
      executedCalls host (nested host depth) debug two)
    (left : Indistinct ((evaluated host (nested host depth) debug).on one).2
      ((evaluated host (nested host depth) debug).on two).2) :
    ExecuteAlike host depth debug whole one two := by
  have bindings : ((Session.execute host depth debug).on one).2.bindings =
      ((Session.execute host depth debug).on two).2.bindings := by
    rw [bindings_execute_of_detached host depth debug detached,
      bindings_execute_of_detached host depth debug
        (detached.of_functions_eq indistinct.functions), scope, sameBindings]
  have script : ((evaluated host (nested host depth) debug).on one).2.script = one.script :=
    script_evaluated_of_detached host debug detached
  have kept := detached.of_functions_eq (congrArg Script.functions script)
  have agree : whole → Agree (Session.execute host depth debug) (Session.execute host depth debug)
      one two := by
    intro holds
    have evaluations : Agree (evaluated host (nested host depth) debug)
        (evaluated host (nested host depth) debug) one two :=
      ⟨(outcome holds).symm, left.tracks kept⟩
    rw [execute_eq]
    exact evaluations.bind fun result _ _ further => agree_completed further result
  exact ⟨scope, outcome, calls, left, bindings, fun holds => (agree holds).result.symm,
    fun holds => (agree holds).tracks.events.symm⟩

theorem ExecuteAlike.trans
    {host : Host π σ}
    {depth : Nat}
    {debug : Bool}
    {whole : Prop}
    {one two three : Session π σ μ}
    (alike : ExecuteAlike host depth debug whole one two)
    (further : ExecuteAlike host depth debug whole two three) :
    ExecuteAlike host depth debug whole one three where
  scope := alike.scope.trans further.scope
  outcome := fun holds => (alike.outcome holds).trans (further.outcome holds)
  calls := alike.calls.trans further.calls
  left := alike.left.trans further.left
  bindings := alike.bindings.trans further.bindings
  execution := fun holds => (alike.execution holds).trans (further.execution holds)
  events := fun holds => (alike.events holds).trans (further.events holds)

end Executing

end Session
end ScriptHost
