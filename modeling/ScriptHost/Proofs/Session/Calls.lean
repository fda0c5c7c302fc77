import ScriptHost.Proofs.Bindings
import ScriptHost.Proofs.Language.Running
import ScriptHost.Proofs.Session.Action

/-!
# What happens while an interaction is followed

Following an interaction calls host functions, and these may perform steps on the script.

* One equation for each piece of a session says what it gives and what it leaves.
* `hostCalls` lists the calls in order: what each was called with, the steps that it performed on
  the script, each with the session as it was at that moment, and what became of it.
* Interactions that follow each other are followed one after the other, and so are their calls.
-/

namespace ScriptHost

namespace Session

variable {π σ μ α β : Type}

/-- The part of a session that belongs to the script. -/
structure Script (π μ : Type) where
  program : Option π
  bindings : Bindings
  functions : FunctionTable (Adapter (HostFunction μ))
  modules : Entries (Module π)

def script (session : Session π σ μ) : Script π μ :=
  ⟨session.program, session.bindings, session.functions, session.modules⟩

/-- A step that a function performed on the script that called it. -/
structure PerformedStep (π σ μ : Type) where
  /-- The session at that moment. -/
  session : Session π σ μ
  step : Step (HostFunction μ)

/-- A call of a host function. -/
structure HostCall (π σ μ : Type) where
  callName : String
  arguments : List Argument
  steps : List (PerformedStep π σ μ)
  result : Except Fault Value

section Pieces

variable (host : Host π σ)
variable (execute : Bool → Action (Session π σ μ) Execution)

/-- What the observer does about an event, or the fault that it throws. -/
def reaction (session : Session π σ μ) (event : Event) : Except Fault Interference :=
  match host.observer with
  | none => .ok .none
  | some observer => (observer session.journal.events event).interference

/-- The session after an event. -/
def noted (session : Session π σ μ) (event : Event) : Session π σ μ :=
  match host.observer with
  | none => session
  | some _ =>
      { session with
        journal := { session.journal with events := session.journal.events ++ [event] } }

@[simp] theorem on_notify (session : Session π σ μ) (event : Event) :
    (notify host event).on session = (session.reaction host event, session.noted host event) := by
  cases watching : host.observer with
  | none => simp [notify, watching, reaction, noted]
  | some observer => simp [notify, watching, reaction, noted, Action.on_bind]

@[simp] theorem on_log (session : Session π σ μ) (value : Value) :
    (log host value).on session =
      let handed := 
        host.logger.log session.journal.logs (session.revisions.current value).decode
      (handed.2, { session with journal := { session.journal with logs := handed.1 } }) := by
  simp [log, Action.on_bind]

/-- The course of an evaluation of a program. -/
def course (session : Session π σ μ) (program : π) (debug : Bool) : Interaction Outcome :=
  (host.engine.evaluate (session.request program debug) session.engineState).1

/-- The session when the engine has been asked for an evaluation. -/
def begun (session : Session π σ μ) (program : π) (debug : Bool) : Session π σ μ :=
  let told := session.request program debug
  { session with
    engineState := (host.engine.evaluate told session.engineState).2
    journal := { session.journal with requests := session.journal.requests ++ [told] } }

@[simp] theorem on_evaluation (session : Session π σ μ) (program : π) (debug : Bool) :
    (evaluation host program debug).on session =
      (.ok (session.course host program debug), session.begun host program debug) := by
  simp [evaluation, Action.on_bind, Except.map, course, begun]

/-- The arguments of a call as its function receives them if the observer leaves them alone. -/
def given
    (session : Session π σ μ)
    (adapter : Adapter (HostFunction μ))
    (callName : String)
    (arguments : Arguments) : List Argument :=
  (arguments.current session.revisions).passed callName adapter.withName

/-- What a function answers to a call. -/
def answer
    (adapter : Adapter (HostFunction μ))
    (arguments : List Argument) : Action (Session π σ μ) Value := do
  let returned ← runProcedure host execute (adapter.function arguments)
  Action.ofExcept (takeResult adapter.mode returned)

/-- What a call gives to the script, after the observer was told. -/
def conclude (callName : String) (result : Except Fault Value) : Action (Session π σ μ) Value := do
  let value ← match result with
    | .ok value => pure value
    | .error (.exception message) => do
        let interference ← notify host (.failed callName message)
        pure (Value.makeError (interference.message message))
    | .error fault => throw fault
  let _ ← notify host (.returned callName value)
  pure value

theorem invoke_eq
    (adapter : Adapter (HostFunction μ))
    (callName : String)
    (arguments : Arguments) :
    invoke host execute adapter callName arguments = (do
      let session ← get
      let given := session.given adapter callName arguments
      let interference ← notify host (.call callName (given.map Argument.value))
      let result ← Action.attempt (answer host execute adapter (interference.arguments given))
      conclude host callName result) := rfl

theorem on_invoke
    (session : Session π σ μ)
    (adapter : Adapter (HostFunction μ))
    (callName : String)
    (arguments : Arguments) :
    (invoke host execute adapter callName arguments).on session =
      let given := session.given adapter callName arguments
      let event := Event.call callName (given.map Argument.value)
      match session.reaction host event with
      | .error fault => (.error fault, session.noted host event)
      | .ok interference =>
          let answered := (answer host execute adapter (interference.arguments given)).on
            (session.noted host event)
          (conclude host callName answered.1).on answered.2 := by
  rw [invoke_eq]
  simp only [Action.on_bind, Action.on_get, on_notify, Action.on_attempt]
  cases session.reaction host
    (.call callName ((session.given adapter callName arguments).map Argument.value)) <;> rfl

/-- Calls a function if there is one. -/
def called
    (callName : String)
    (arguments : Arguments) :
    Option (Adapter (HostFunction μ)) → Action (Session π σ μ) (Option Value)
  | none => pure none
  | some adapter => do
      let value ← invoke host execute adapter callName arguments
      pure (some value)

theorem dispatch_eq (function callName : String) (arguments : Arguments) :
    dispatch host execute function callName arguments = (do
      let session ← get
      called host execute callName arguments (session.functions.resolve? function)) := rfl

theorem on_dispatch
    (session : Session π σ μ)
    (function callName : String)
    (arguments : Arguments) :
    (dispatch host execute function callName arguments).on session =
      match session.functions.resolve? function with
      | none => (.ok none, session)
      | some adapter =>
          let called := (invoke host execute adapter callName arguments).on session
          (called.1.map some, called.2) := by
  cases found : session.functions.resolve? function with
  | none => simp [dispatch, Action.on_bind, found]
  | some adapter =>
      rcases called : (invoke host execute adapter callName arguments).on session with
        ⟨_ | value, after⟩ <;> simp [dispatch, Action.on_bind, found, called, Except.map]

theorem on_follow_log
    (session : Session π σ μ)
    (value : Value)
    (next : Interaction α) :
    (follow host execute (.log value next)).on session =
      match (log host value).on session with
      | (.ok _, after) => (follow host execute next).on after
      | (.error fault, after) => (.error fault, after) := by
  rw [follow, Action.on_bind]
  rcases (log host value).on session with ⟨_ | _, _⟩ <;> rfl

theorem on_follow_call
    (session : Session π σ μ)
    (function callName : String)
    (arguments : Arguments)
    (next : Option Value → Interaction α) :
    (follow host execute (.call function callName arguments next)).on session =
      match (dispatch host execute function callName arguments).on session with
      | (.ok answer, after) => (follow host execute (next answer)).on after
      | (.error fault, after) => (.error fault, after) := by
  rw [follow, Action.on_bind]
  rcases (dispatch host execute function callName arguments).on session with ⟨_ | _, _⟩ <;> rfl

theorem follow_bind (interaction : Interaction α) (f : α → Interaction β) :
    follow host execute (interaction >>= f) =
      follow host execute interaction >>= fun result => follow host execute (f result) := by
  induction interaction with
  | done result => simp [follow]
  | fail fault => simp [follow]
  | log value next ih => simp [follow, ih]
  | call function callName arguments next ih => simp [follow, ih]

theorem property_of_follow_eq_ok
    {property : α → Prop}
    {interaction : Interaction α}
    {session after : Session π σ μ}
    {result : α}
    (returns : interaction.Returns property)
    (followed : (follow host execute interaction).on session = (.ok result, after)) :
    property result := by
  induction interaction generalizing session with
  | done found =>
      obtain ⟨rfl, -⟩ : found = result ∧ session = after := by simpa [follow] using followed
      exact returns
  | fail fault => simp [follow] at followed
  | log value next ih =>
      obtain ⟨_, _, -, rest⟩ := Action.on_bind_eq_ok followed
      exact ih returns rest
  | call function callName arguments next ih =>
      obtain ⟨answer, _, -, rest⟩ := Action.on_bind_eq_ok followed
      exact ih answer (returns answer) rest

/-- Starts the evaluation of the program and follows it to its end. -/
def evaluated (debug : Bool) : Action (Session π σ μ) Outcome := do
  let session ← get
  match session.program with
  | none => throw .scriptNotParsed
  | some program =>
      let _ ← notify host (.started debug session.bindings.size)
      let interaction ← evaluation host program debug
      follow host execute interaction

/-- The session with the variables that an evaluation left. -/
def withScope (session : Session π σ μ) (outcome : Outcome) : Session π σ μ :=
  { session with bindings := .ofVariables outcome.scope }

/-- What an outcome means to the host. -/
def resultOf (session : Session π σ μ) (outcome : Outcome) : Except String HostValue :=
  (session.revisions.current outcome.result).result

/-- The event at the end of an execution. -/
def endEvent (session : Session π σ μ) (outcome : Outcome) : Event :=
  .ended (succeeded (session.resultOf outcome))

/-- Takes over the variables that an evaluation left and tells the observer. -/
def completed (outcome : Outcome) : Action (Session π σ μ) Execution := do
  modify fun session => session.withScope outcome
  let session ← get
  let _ ← notify host (session.endEvent outcome)
  pure ⟨session.resultOf outcome, session.hostVariables⟩

theorem executeWith_eq (debug : Bool) :
    executeWith host execute debug = evaluated host execute debug >>= completed host := by
  rw [executeWith, evaluated, bind_assoc]
  congr 1
  funext session
  cases session.program with
  | none => rfl
  | some program =>
      simp only [bind_assoc]
      rfl

theorem on_evaluated (debug : Bool) (session : Session π σ μ) :
    (evaluated host execute debug).on session =
      match session.program with
      | none => (.error .scriptNotParsed, session)
      | some program =>
          let event := Event.started debug session.bindings.size
          let started := session.noted host event
          match session.reaction host event with
          | .error fault => (.error fault, started)
          | .ok _ =>
              (follow host execute (started.course host program debug)).on
                (started.begun host program debug) := by
  cases parsed : session.program with
  | none => simp [evaluated, parsed, Action.on_bind]
  | some program =>
      cases reacts : session.reaction host (.started debug session.bindings.size) <;>
        simp [evaluated, parsed, reacts, Action.on_bind]

theorem evaluated_eq_ok
    {debug : Bool}
    {session ended : Session π σ μ}
    {outcome : Outcome}
    (came : (evaluated host execute debug).on session = (.ok outcome, ended)) :
    ∃ program interference,
      session.program = some program ∧
        session.reaction host (.started debug session.bindings.size) = .ok interference ∧
        let started := session.noted host (.started debug session.bindings.size)
        (follow host execute (started.course host program debug)).on
          (started.begun host program debug) = (.ok outcome, ended) := by
  rw [on_evaluated] at came
  cases parsed : session.program with
  | none => simp [parsed] at came
  | some program =>
      cases reacts : session.reaction host (.started debug session.bindings.size) with
      | error fault => simp [parsed, reacts] at came
      | ok interference =>
          exact ⟨program, interference, rfl, rfl, by simpa [parsed, reacts] using came⟩

theorem on_completed (outcome : Outcome) (session : Session π σ μ) :
    (completed host outcome).on session =
      let left := session.withScope outcome
      ((left.reaction host (left.endEvent outcome)).map
          fun _ => ⟨left.resultOf outcome, left.hostVariables⟩,
        left.noted host (left.endEvent outcome)) := by
  simp [completed, Action.on_bind]

end Pieces

section Records

variable (host : Host π σ)
variable (execute : Bool → Action (Session π σ μ) Execution)

/-- The steps that a function performs on the script in the course of a call. -/
def performedSteps : Procedure μ → Session π σ μ → List (PerformedStep π σ μ)
  | .finish _, _ => []
  | .recall next, session => performedSteps (next session.memory) session
  | .remember memory next, session => performedSteps next { session with memory := memory }
  | .inspect next, session => performedSteps (next session.hostVariables) session
  | .revise number content next, session =>
      performedSteps next
        { session with revisions := session.revisions.revise number content }
  | .perform step next, session =>
      let performed := (performWith host execute step).on session
      ⟨session, step⟩ ::
        performedSteps (next (performed.1.map StepResult.execution?)) performed.2

/-- The call that an invocation makes; there is none if the observer refuses it. -/
def invokedCalls
    (adapter : Adapter (HostFunction μ))
    (callName : String)
    (arguments : Arguments)
    (session : Session π σ μ) : List (HostCall π σ μ) :=
  let given := session.given adapter callName arguments
  let event := Event.call callName (given.map Argument.value)
  match session.reaction host event with
  | .error _ => []
  | .ok interference =>
      let received := interference.arguments given
      let called := session.noted host event
      [{ callName := callName
         arguments := received
         steps := performedSteps host execute (adapter.function received) called
         result := ((answer host execute adapter received).on called).1 }]

def dispatchedCalls
    (function callName : String)
    (arguments : Arguments)
    (session : Session π σ μ) : List (HostCall π σ μ) :=
  match session.functions.resolve? function with
  | none => []
  | some adapter => invokedCalls host execute adapter callName arguments session

/-- The calls of host functions while an interaction is followed, in order. -/
def hostCalls : Interaction α → Session π σ μ → List (HostCall π σ μ)
  | .done _, _ => []
  | .fail _, _ => []
  | .log value next, session =>
      match (log host value).on session with
      | (.ok _, after) => hostCalls next after
      | (.error _, _) => []
  | .call function callName arguments next, session =>
      dispatchedCalls host execute function callName arguments session ++
        match (dispatch host execute function callName arguments).on session with
        | (.ok answer, after) => hostCalls (next answer) after
        | (.error _, _) => []

theorem hostCalls_bind
    (interaction : Interaction α)
    (f : α → Interaction β)
    (session : Session π σ μ) :
    hostCalls host execute (interaction >>= f) session =
      hostCalls host execute interaction session ++
        match (follow host execute interaction).on session with
        | (.ok result, after) => hostCalls host execute (f result) after
        | (.error _, _) => [] := by
  induction interaction generalizing session with
  | done result => simp [hostCalls, follow]
  | fail fault => simp [hostCalls, follow]
  | log value next ih =>
      rw [Interaction.log_bind, on_follow_log, hostCalls, hostCalls]
      rcases (log host value).on session with ⟨fault | _, after⟩
      · rfl
      · exact ih after
  | call function callName arguments next ih =>
      rw [Interaction.call_bind, on_follow_call, hostCalls, hostCalls]
      rcases (dispatch host execute function callName arguments).on session with
        ⟨fault | answer, after⟩
      · simp
      · rw [List.append_assoc, ← ih answer after]

/-- The calls of host functions that an execution makes, in order. -/
def executedCalls (debug : Bool) (session : Session π σ μ) : List (HostCall π σ μ) :=
  match session.program with
  | none => []
  | some program =>
      let event := Event.started debug session.bindings.size
      let started := session.noted host event
      match session.reaction host event with
      | .error _ => []
      | .ok _ =>
          hostCalls host execute (started.course host program debug)
            (started.begun host program debug)

end Records

/-- What serves the executions that functions start while an execution runs that may nest as deep as
the number says. -/
def nested (host : Host π σ) : Nat → Bool → Action (Session π σ μ) Execution
  | 0 => fun _ => throw .nestingTooDeep
  | depth + 1 => execute host depth

theorem execute_eq (host : Host π σ) (depth : Nat) (debug : Bool) :
    (execute host depth debug : Action (Session π σ μ) Execution) =
      evaluated host (nested host depth) debug >>= completed host := by
  cases depth with
  | zero => exact executeWith_eq host _ debug
  | succ depth => exact executeWith_eq host _ debug

end Session

namespace Language

/-- A host of the line language. -/
def host (observer : Option Observer) (logger : Logger) : Host Program Unit :=
  ⟨engine, observer, logger⟩

end Language
end ScriptHost
