import ScriptHost.Proofs.FunctionTable
import ScriptHost.Proofs.Session.Calls

/-!
# Functions that keep to themselves

A detached function neither looks at the script that calls it nor performs a step on it.  It may
still keep a memory, revise shared containers, return or throw.

* Two sessions are alike if detached functions, a logger and an observer that ignores executions
  cannot tell them apart.
* A uniform action does the same to alike sessions: it gives the same result and makes the same
  progress.  Following an interaction is uniform, and its calls are the same.
-/

namespace ScriptHost

/-- The course of a call that neither looks at the script nor performs a step on it. -/
def Procedure.Detached {μ : Type} : Procedure μ → Prop
  | .finish _ => True
  | .recall next => ∀ memory, (next memory).Detached
  | .remember _ next => next.Detached
  | .inspect _ => False
  | .revise _ _ next => next.Detached
  | .perform _ _ => False

/-- Is the event about a call of a function, rather than about an execution? -/
def Event.isCall : Event → Bool
  | .call .. => true
  | .returned .. => true
  | .failed .. => true
  | .started .. => false
  | .ended .. => false

/-- What the observer does about an event depends on the calls before it, but not on the executions
before it. -/
def Observer.IgnoresExecutions (observer : Observer) : Prop :=
  ∀ earlier other event, earlier.filter Event.isCall = other.filter Event.isCall →
    observer earlier event = observer other event

namespace Session

variable {π σ μ α β : Type}

/-- Every registered function is detached. -/
def FunctionsDetached (session : Session π σ μ) : Prop :=
  ∀ entry ∈ session.functions.entries, ∀ arguments, (entry.2.function arguments).Detached

/-- Sessions that detached functions, a logger and an observer that ignores executions cannot tell
apart. -/
structure Alike (first second : Session π σ μ) : Prop where
  functions : first.functions = second.functions
  memory : first.memory = second.memory
  revisions : first.revisions = second.revisions
  logs : first.journal.logs = second.journal.logs
  calls : first.journal.events.filter Event.isCall = second.journal.events.filter Event.isCall

theorem Alike.symm
    {first second : Session π σ μ}
    (alike : Alike first second) :
    Alike second first :=
  ⟨alike.functions.symm, alike.memory.symm, alike.revisions.symm, alike.logs.symm,
    alike.calls.symm⟩

theorem Alike.trans
    {first second third : Session π σ μ}
    (alike : Alike first second)
    (further : Alike second third) :
    Alike first third :=
  ⟨alike.functions.trans further.functions, alike.memory.trans further.memory,
    alike.revisions.trans further.revisions, alike.logs.trans further.logs,
    alike.calls.trans further.calls⟩

theorem Alike.detached
    {first second : Session π σ μ}
    (alike : Alike first second)
    (detached : second.FunctionsDetached) :
    first.FunctionsDetached := by
  rwa [FunctionsDetached, alike.functions]

/-- What detached functions, a logger and an observer leave behind. -/
structure Progress (μ : Type) where
  memory : μ
  revisions : Revisions
  logs : List LogEntry
  /-- The events since. -/
  events : List Event

/-- The session after some progress. -/
def advanced (session : Session π σ μ) (progress : Progress μ) : Session π σ μ :=
  { session with
    memory := progress.memory
    revisions := progress.revisions
    journal :=
      { session.journal with
        events := session.journal.events ++ progress.events
        logs := progress.logs } }

/-- One progress after another. -/
def Progress.then (first second : Progress μ) : Progress μ :=
  { second with events := first.events ++ second.events }

@[simp] theorem advanced_advanced (session : Session π σ μ) (first second : Progress μ) :
    (session.advanced first).advanced second = session.advanced (first.then second) := by
  simp [advanced, Progress.then]

theorem Alike.advanced
    {first second : Session π σ μ}
    (alike : Alike first second)
    (progress : Progress μ) :
    Alike (first.advanced progress) (second.advanced progress) where
  functions := alike.functions
  memory := rfl
  revisions := rfl
  logs := rfl
  calls := by simp [Session.advanced, alike.calls]

/-- The action does the same to alike sessions with detached functions. -/
def Uniform (action : Action (Session π σ μ) α) : Prop :=
  ∀ first second : Session π σ μ, first.FunctionsDetached → Alike first second →
    ∃ result progress, (∀ event ∈ progress.events, event.isCall) ∧
      action.on first = (result, first.advanced progress) ∧
      action.on second = (result, second.advanced progress)

/-- No progress. -/
def standing (session : Session π σ μ) : Progress μ :=
  ⟨session.memory, session.revisions, session.journal.logs, []⟩

@[simp] theorem advanced_standing (session : Session π σ μ) :
    session.advanced session.standing = session := by
  simp [advanced, standing]

theorem Alike.standing_eq
    {first second : Session π σ μ}
    (alike : Alike first second) :
    first.standing = second.standing := by
  simp [standing, alike.memory, alike.revisions, alike.logs]

/-- An action is uniform if its result and its progress are the same for alike sessions. -/
theorem uniform_of_on_eq
    {action : Action (Session π σ μ) α}
    (result : Session π σ μ → Except Fault α)
    (progress : Session π σ μ → Progress μ)
    (on_eq : ∀ session, action.on session = (result session, session.advanced (progress session)))
    (calls : ∀ session, ∀ event ∈ (progress session).events, event.isCall)
    (same : ∀ first second, Alike first second →
      result first = result second ∧ progress first = progress second) :
    Uniform action := by
  intro first second _ alike
  obtain ⟨sameResult, sameProgress⟩ := same first second alike
  refine ⟨result first, progress first, calls first, on_eq first, ?_⟩
  rw [sameResult, sameProgress, on_eq second]

theorem uniform_ofExcept (result : Except Fault α) :
    Uniform (Action.ofExcept result : Action (Session π σ μ) α) := by
  refine uniform_of_on_eq (fun _ => result) standing ?_ ?_ ?_
  · intro session
    rw [Action.on_ofExcept, advanced_standing]
  · simp [standing]
  · intro first second alike
    exact ⟨rfl, alike.standing_eq⟩

theorem uniform_pure (value : α) :
    Uniform (pure value : Action (Session π σ μ) α) :=
  uniform_ofExcept (.ok value)

theorem uniform_throw (fault : Fault) :
    Uniform (throw fault : Action (Session π σ μ) α) :=
  uniform_ofExcept (.error fault)

/-- Looking at what alike sessions have in common is uniform. -/
theorem uniform_get_bind
    {γ : Type}
    (view : Session π σ μ → γ)
    (next : γ → Action (Session π σ μ) α)
    (same : ∀ first second, Alike first second → view first = view second)
    (rest : ∀ session : Session π σ μ, session.FunctionsDetached → Uniform (next (view session))) :
    Uniform (get >>= fun session => next (view session)) := by
  intro first second detached alike
  obtain ⟨result, progress, calls, onFirst, onSecond⟩ :=
    rest first detached first second detached alike
  refine ⟨result, progress, calls, ?_, ?_⟩
  · rw [Action.on_bind_of_ok (Action.on_get first), onFirst]
  · rw [Action.on_bind_of_ok (Action.on_get second), ← same first second alike, onSecond]

theorem Uniform.attempt
    {action : Action (Session π σ μ) α}
    (uniform : Uniform action) :
    Uniform action.attempt := by
  intro first second detached alike
  obtain ⟨result, progress, calls, onFirst, onSecond⟩ := uniform first second detached alike
  refine ⟨.ok result, progress, calls, ?_, ?_⟩
  · rw [Action.on_attempt, onFirst]
  · rw [Action.on_attempt, onSecond]

theorem Uniform.bind
    {action : Action (Session π σ μ) α}
    {next : α → Action (Session π σ μ) β}
    (uniform : Uniform action)
    (rest : ∀ value, Uniform (next value)) :
    Uniform (action >>= next) := by
  intro first second detached alike
  obtain ⟨result, progress, calls, onFirst, onSecond⟩ := uniform first second detached alike
  cases result with
  | error fault =>
      exact ⟨.error fault, progress, calls, Action.on_bind_of_error onFirst,
        Action.on_bind_of_error onSecond⟩
  | ok value =>
      obtain ⟨last, further, moreCalls, onFirst', onSecond'⟩ :=
        rest value (first.advanced progress) (second.advanced progress) detached
          (alike.advanced progress)
      refine ⟨last, progress.then further, ?_, ?_, ?_⟩
      · intro event member
        rcases List.mem_append.1 member with before | after
        · exact calls event before
        · exact moreCalls event after
      · rw [Action.on_bind_of_ok onFirst, onFirst', advanced_advanced]
      · rw [Action.on_bind_of_ok onSecond, onSecond', advanced_advanced]

section Pieces

variable {host : Host π σ}
variable (execute : Bool → Action (Session π σ μ) Execution)

/-- The events that are kept: none if there is no observer. -/
def recorded (host : Host π σ) (events : List Event) : List Event :=
  if host.observer.isSome then events else []

theorem noted_eq_advanced (session : Session π σ μ) (event : Event) :
    session.noted host event =
      session.advanced { session.standing with events := recorded host [event] } := by
  cases watching : host.observer <;>
    simp [noted, watching, advanced, standing, recorded]

theorem alike_noted (session : Session π σ μ) {event : Event} (apart : ¬ event.isCall) :
    Alike (session.noted host event) session := by
  rw [noted_eq_advanced]
  refine ⟨rfl, rfl, rfl, rfl, ?_⟩
  unfold recorded
  cases host.observer <;> simp [advanced, apart]

theorem reaction_eq_of_calls_eq
    (ignores : ∀ observer ∈ host.observer, observer.IgnoresExecutions)
    {first second : Session π σ μ}
    (calls : first.journal.events.filter Event.isCall = second.journal.events.filter Event.isCall)
    (event : Event) :
    first.reaction host event = second.reaction host event := by
  cases watching : host.observer with
  | none => simp [reaction, watching]
  | some observer =>
      simp [reaction, watching, ignores observer watching _ _ event calls]

theorem uniform_notify
    (ignores : ∀ observer ∈ host.observer, observer.IgnoresExecutions)
    {event : Event}
    (about : event.isCall) :
    Uniform (notify host event : Action (Session π σ μ) Interference) := by
  refine uniform_of_on_eq (fun session => session.reaction host event)
    (fun session => { session.standing with events := recorded host [event] }) ?_ ?_ ?_
  · intro session
    rw [on_notify, noted_eq_advanced]
  · intro session other member
    have found : other = event := by
      unfold recorded at member
      split at member <;> simp_all
    rwa [found]
  · intro first second alike
    rw [alike.standing_eq]
    exact ⟨reaction_eq_of_calls_eq ignores alike.calls event, rfl⟩

theorem uniform_log (value : Value) :
    Uniform (log host value : Action (Session π σ μ) Unit) := by
  let handed := fun session : Session π σ μ =>
    host.logger.log session.journal.logs (session.revisions.current value).decode
  refine uniform_of_on_eq (fun session => (handed session).2)
    (fun session => { session.standing with logs := (handed session).1 }) ?_ ?_ ?_
  · intro session
    simp [on_log, advanced, standing, handed]
  · simp [standing]
  · intro first second alike
    simp [handed, standing, alike.logs, alike.revisions, alike.memory]

theorem uniform_runProcedure : (procedure : Procedure μ) → procedure.Detached →
    Uniform (runProcedure host execute procedure)
  | .finish result, _ => uniform_ofExcept result
  | .recall next, detached =>
      uniform_get_bind Session.memory (fun memory => runProcedure host execute (next memory))
        (fun _ _ alike => alike.memory)
        fun session _ => uniform_runProcedure (next session.memory) (detached _)
  | .remember memory next, detached => by
      refine Uniform.bind ?_ fun _ => uniform_runProcedure next detached
      refine uniform_of_on_eq (fun _ => .ok ())
        (fun session => { session.standing with memory := memory }) ?_ ?_ ?_
      · intro session
        simp [advanced, standing]
      · simp [standing]
      · intro first second alike
        simp [alike.standing_eq]
  | .revise number content next, detached => by
      refine Uniform.bind ?_ fun _ => uniform_runProcedure next detached
      refine uniform_of_on_eq (fun _ => .ok ())
        (fun session =>
          { session.standing with revisions := session.revisions.revise number content }) ?_ ?_ ?_
      · intro session
        simp [advanced, standing]
      · simp [standing]
      · intro first second alike
        simp [alike.standing_eq, alike.revisions]

theorem performedSteps_of_detached : (procedure : Procedure μ) → procedure.Detached →
    (session : Session π σ μ) → performedSteps host execute procedure session = []
  | .finish _, _, _ => rfl
  | .recall next, detached, session =>
      performedSteps_of_detached (next session.memory) (detached _) session
  | .remember _ next, detached, _ => performedSteps_of_detached next detached _
  | .revise _ _ next, detached, _ => performedSteps_of_detached next detached _

theorem uniform_answer
    {adapter : Adapter (HostFunction μ)}
    (detached : ∀ arguments, (adapter.function arguments).Detached)
    (arguments : List Argument) :
    Uniform (answer host execute adapter arguments) :=
  (uniform_runProcedure execute _ (detached arguments)).bind fun _ => uniform_ofExcept _

theorem Alike.given_eq
    {first second : Session π σ μ}
    (alike : Alike first second)
    (adapter : Adapter (HostFunction μ))
    (callName : String)
    (arguments : Arguments) :
    first.given adapter callName arguments = second.given adapter callName arguments := by
  rw [given, given, alike.revisions]

section Watched

variable (ignores : ∀ observer ∈ host.observer, observer.IgnoresExecutions)
include ignores

theorem uniform_conclude (callName : String) (result : Except Fault Value) :
    Uniform (conclude host callName result : Action (Session π σ μ) Value) := by
  have told : ∀ value : Value, Uniform (do
      let _ ← notify host (.returned callName value)
      pure value : Action (Session π σ μ) Value) := by
    intro value
    exact (uniform_notify ignores rfl).bind fun _ => uniform_pure value
  cases result with
  | ok value => exact (uniform_pure value).bind told
  | error fault =>
      cases fault with
      | exception message =>
          exact (uniform_notify ignores rfl).bind fun _ => (uniform_pure _).bind told
      | _ => exact (uniform_throw _).bind told

theorem uniform_invoke
    {adapter : Adapter (HostFunction μ)}
    (detached : ∀ arguments, (adapter.function arguments).Detached)
    (callName : String)
    (arguments : Arguments) :
    Uniform (invoke host execute adapter callName arguments) := by
  refine uniform_get_bind (fun session => session.given adapter callName arguments)
    (fun given => do
      let interference ← notify host (.call callName (given.map Argument.value))
      let result ← Action.attempt (answer host execute adapter (interference.arguments given))
      conclude host callName result) ?_ ?_
  · intro first second alike
    exact alike.given_eq adapter callName arguments
  · intro session _
    refine (uniform_notify ignores rfl).bind fun interference => ?_
    exact (uniform_answer execute detached _).attempt.bind (uniform_conclude ignores callName)

theorem uniform_dispatch (function callName : String) (arguments : Arguments) :
    Uniform (dispatch host execute function callName arguments) := by
  rw [dispatch_eq]
  refine uniform_get_bind (fun session => session.functions.resolve? function)
    (called host execute callName arguments) ?_ ?_
  · intro first second alike
    rw [alike.functions]
  · intro session functions
    cases resolved : session.functions.resolve? function with
    | none => exact uniform_pure none
    | some adapter =>
        obtain ⟨entry, member, rfl⟩ := FunctionTable.mem_of_resolve?_eq_some resolved
        exact (uniform_invoke execute ignores (functions entry member) callName arguments).bind
          fun value => uniform_pure (some value)

theorem uniform_follow (interaction : Interaction α) :
    Uniform (follow host execute interaction) := by
  induction interaction with
  | done result => exact uniform_pure result
  | fail fault => exact uniform_throw fault
  | log value next ih => exact (uniform_log value).bind fun _ => ih
  | call function callName arguments next ih =>
      exact (uniform_dispatch execute ignores function callName arguments).bind ih

/-- An interaction that was followed to its end in a session has the same end and makes the same
progress in an alike one. -/
theorem follow_eq_ok_of_alike
    {interaction : Interaction α}
    {first second after : Session π σ μ}
    {result : α}
    (functions : first.FunctionsDetached)
    (alike : Alike first second)
    (followed : (follow host execute interaction).on first = (.ok result, after)) :
    ∃ progress : Progress μ, (∀ event ∈ progress.events, event.isCall) ∧
      after = first.advanced progress ∧
      (follow host execute interaction).on second = (.ok result, second.advanced progress) := by
  obtain ⟨_, progress, calls, onFirst, onSecond⟩ :=
    uniform_follow execute ignores interaction first second functions alike
  obtain ⟨rfl, rfl⟩ := Prod.mk.inj (followed.symm.trans onFirst)
  exact ⟨progress, calls, rfl, onSecond⟩

theorem invokedCalls_eq_of_alike
    {adapter : Adapter (HostFunction μ)}
    (detached : ∀ arguments, (adapter.function arguments).Detached)
    (callName : String)
    (arguments : Arguments)
    {first second : Session π σ μ}
    (functions : first.FunctionsDetached)
    (alike : Alike first second) :
    invokedCalls host execute adapter callName arguments first =
      invokedCalls host execute adapter callName arguments second := by
  rw [invokedCalls, invokedCalls, ← alike.given_eq adapter callName arguments]
  generalize first.given adapter callName arguments = given
  dsimp only
  rw [← reaction_eq_of_calls_eq ignores alike.calls]
  cases first.reaction host (.call callName (given.map Argument.value)) with
  | error fault => rfl
  | ok interference =>
      have noted : Alike (first.noted host (.call callName (given.map Argument.value)))
          (second.noted host (.call callName (given.map Argument.value))) := by
        rw [noted_eq_advanced, noted_eq_advanced, ← alike.standing_eq]
        exact alike.advanced _
      have answered : Uniform (answer host execute adapter (interference.arguments given)) :=
        uniform_answer execute detached _
      obtain ⟨result, progress, -, onFirst, onSecond⟩ :=
        answered _ _ (by rwa [FunctionsDetached, noted_eq_advanced]) noted
      simp only [performedSteps_of_detached execute _ (detached _), onFirst, onSecond]

theorem hostCalls_eq_of_alike
    (interaction : Interaction α)
    {first second : Session π σ μ}
    (functions : first.FunctionsDetached)
    (alike : Alike first second) :
    hostCalls host execute interaction first = hostCalls host execute interaction second := by
  induction interaction generalizing first second with
  | done result => rfl
  | fail fault => rfl
  | log value next ih =>
      obtain ⟨result, progress, -, onFirst, onSecond⟩ :=
        uniform_log value first second functions alike
      rw [hostCalls, hostCalls, onFirst, onSecond]
      cases result with
      | error fault => rfl
      | ok _ => exact ih functions (alike.advanced progress)
  | call function callName arguments next ih =>
      have called : dispatchedCalls host execute function callName arguments first =
          dispatchedCalls host execute function callName arguments second := by
        rw [dispatchedCalls, dispatchedCalls, ← alike.functions]
        cases resolved : first.functions.resolve? function with
        | none => rfl
        | some adapter =>
            obtain ⟨entry, member, rfl⟩ := FunctionTable.mem_of_resolve?_eq_some resolved
            exact invokedCalls_eq_of_alike execute ignores (functions entry member) callName
              arguments functions alike
      obtain ⟨result, progress, -, onFirst, onSecond⟩ :=
        uniform_dispatch execute ignores function callName arguments first second functions alike
      rw [hostCalls, hostCalls, called, onFirst, onSecond]
      cases result with
      | error fault => rfl
      | ok answer => exact congrArg _ (ih answer functions (alike.advanced progress))

end Watched

end Pieces

end Session
end ScriptHost
