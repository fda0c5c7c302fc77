import ScriptHost.Session.Basic

/-!
# Executing a session

Following the engine's interaction with the session's own functions.

* A call runs the host function, encodes what it returns and, if it throws an exception, goes on
  with an error value.  Any other fault ends the execution.
* Functions are looked up when they are called, so a function registered during an execution counts
  from then on.
* When the evaluation ends, its scope replaces the session's variables.  If it fails they stay as
  they are.
* What leaves the engine for the host has the latest contents of the shared containers in it.
-/

namespace ScriptHost

namespace Session

variable {π σ μ : Type}

/-- Performs a step, where `execute` runs the program. -/
def performWith
    (host : Host π σ)
    (execute : Bool → Action (Session π σ μ) Execution) :
    Step (HostFunction μ) → Action (Session π σ μ) (StepResult π)
  | .parse source => do
      parse host source
      pure .nothing
  | .addVariable name value => do
      addVariable name value
      pure .nothing
  | .addModule name source => do
      addModule host name source
      pure .nothing
  | .register registration => do
      register registration
      pure .registered
  | .execute debug => do
      let execution ← execute debug
      pure (.executed execution)
  | .snapshot name value => do
      let session ← get
      pure (.snapshot (Entries.put session.hostVariables name value))
  | .program => do
      let session ← get
      pure (.program session.program)

/-- Follows the course of a host function's call, where `execute` runs the program. -/
def runProcedure
    (host : Host π σ)
    (execute : Bool → Action (Session π σ μ) Execution) :
    Procedure μ → Action (Session π σ μ) HostValue
  | .finish result => Action.ofExcept result
  | .recall next => do
      let session ← get
      runProcedure host execute (next session.memory)
  | .remember memory next => do
      modify fun session => { session with memory := memory }
      runProcedure host execute next
  | .inspect next => do
      let session ← get
      runProcedure host execute (next session.hostVariables)
  | .revise number content next => do
      modify fun session => { session with revisions := session.revisions.revise number content }
      runProcedure host execute next
  | .perform step next => do
      let result ← (performWith host execute step).attempt
      runProcedure host execute (next (result.map StepResult.execution?))

/-- What a function returned, as an engine value; a suspending function is waited for. -/
def takeResult (mode : CallMode) (result : HostValue) : Except Fault Value :=
  match mode with
  | .immediate => result.encode
  | .suspending =>
      match result.settle with
      | .ok value => value.encode
      | .error fault => .error fault

/-- Calls a function.  An exception that it throws becomes an error value. -/
def invoke
    (host : Host π σ)
    (execute : Bool → Action (Session π σ μ) Execution)
    (adapter : Adapter (HostFunction μ))
    (callName : String)
    (arguments : Arguments) : Action (Session π σ μ) Value := do
  let session ← get
  let given := (arguments.current session.revisions).passed callName adapter.withName
  let interference ← notify host (.call callName (given.map Argument.value))
  let result ← Action.attempt do
    let returned ← runProcedure host execute (adapter.function (interference.arguments given))
    Action.ofExcept (takeResult adapter.mode returned)
  let value ← match result with
    | .ok value => pure value
    | .error (.exception message) => do
        let interference ← notify host (.failed callName message)
        pure (Value.makeError (interference.message message))
    | .error fault => throw fault
  let _ ← notify host (.returned callName value)
  pure value

/-- Calls the function that a name means at this moment, if there is one. -/
def dispatch
    (host : Host π σ)
    (execute : Bool → Action (Session π σ μ) Execution)
    (function callName : String)
    (arguments : Arguments) : Action (Session π σ μ) (Option Value) := do
  let session ← get
  match session.functions.resolve? function with
  | none => pure none
  | some adapter => do
      let value ← invoke host execute adapter callName arguments
      pure (some value)

/-- Follows an interaction to its end. -/
def follow
    {α : Type}
    (host : Host π σ)
    (execute : Bool → Action (Session π σ μ) Execution) :
    Interaction α → Action (Session π σ μ) α
  | .done result => pure result
  | .fail fault => throw fault
  | .log value next => do
      log host value
      follow host execute next
  | .call function callName arguments next => do
      let answer ← dispatch host execute function callName arguments
      follow host execute (next answer)

/-- What the engine is told for an evaluation of the session's program. -/
def request (session : Session π σ μ) (program : π) (debug : Bool) : Request π where
  program := program
  vars := session.bindings.toVariables
  functions := session.functions.names
  modules := session.modules.mapValues Module.program
  debug := debug

/-- Starts an evaluation. -/
def evaluation
    (host : Host π σ)
    (program : π)
    (debug : Bool) : Action (Session π σ μ) (Interaction Outcome) := do
  let session ← get
  let told := session.request program debug
  let (interaction, engineState) := host.engine.evaluate told session.engineState
  set { session with
    engineState := engineState
    journal := { session.journal with requests := session.journal.requests ++ [told] } }
  pure interaction

/-- Is the outcome a value rather than an error? -/
def succeeded (result : Except String HostValue) : Bool :=
  match result with
  | .ok _ => true
  | .error _ => false

/-- Runs the program, where `nested` serves the executions that its functions start. -/
def executeWith
    (host : Host π σ)
    (nested : Bool → Action (Session π σ μ) Execution)
    (debug : Bool) : Action (Session π σ μ) Execution := do
  let session ← get
  match session.program with
  | none => throw .scriptNotParsed
  | some program =>
      let _ ← notify host (.started debug session.bindings.size)
      let interaction ← evaluation host program debug
      let outcome ← follow host nested interaction
      modify fun session => { session with bindings := Bindings.ofVariables outcome.scope }
      let ended ← get
      let result := (ended.revisions.current outcome.result).result
      let _ ← notify host (.ended (succeeded result))
      pure ⟨result, ended.hostVariables⟩

/-- Runs the program; executions that its functions start may nest as deep as the number says. -/
def execute (host : Host π σ) : Nat → Bool → Action (Session π σ μ) Execution
  | 0 => executeWith host fun _ => throw .nestingTooDeep
  | depth + 1 => executeWith host (execute host depth)

/-- How deep executions may nest. -/
def nestingLimit : Nat := 100

/-- Performs a step on a session. -/
def perform
    (host : Host π σ)
    (step : Step (HostFunction μ)) : Action (Session π σ μ) (StepResult π) :=
  performWith host (execute host nestingLimit) step

/-- Calls a function on its own, outside of any execution. -/
def callAdapter
    (host : Host π σ)
    (adapter : Adapter (HostFunction μ))
    (callName : String)
    (arguments : Arguments) : Action (Session π σ μ) Value :=
  invoke host (execute host nestingLimit) adapter callName arguments

end Session

end ScriptHost
