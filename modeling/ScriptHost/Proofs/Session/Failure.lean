import ScriptHost.Proofs.Codec.Encoding
import ScriptHost.Proofs.Session.Calls

/-!
# Failed results

An execution that comes to its end tells the host whether its result is a failure.

* Decoding turns an error value into an exception, and a failure is what decodes to one.
* A value that carries an exception of the host, untouched, decodes to that exception, too.  So the
  failures are the error values together with the values that carry an exception.
-/

namespace ScriptHost

def HostValue.isException : HostValue → Bool
  | exception _ _ => true
  | _ => false

namespace Value

/-- Does the value carry an exception of the host? -/
def carriesException : Value → Bool
  | object host => host.isException
  | shared _ content => content.isException
  | _ => false

theorem isException_decode (value : Value) :
    value.decode.isException = (value.isError || value.carriesException) := by
  cases value with
  | tagged tag text number items =>
      unfold decode isError
      by_cases error : isErrorTag tag = true <;>
        simp [error, tagName, carriesException, HostValue.isException]
  | object host => simp [decode, isError, tagName, isErrorTag_name, carriesException]
  | shared number content => simp [decode, isError, tagName, isErrorTag_name, carriesException]
  | _ =>
      simp [decode, isError, tagName, isErrorTag_name, carriesException, HostValue.scopeOf,
        HostValue.isException]

theorem succeeded_result (value : Value) :
    Session.succeeded value.result = !value.decode.isException := by
  unfold result
  cases value.decode <;> rfl

theorem result_failed_iff (value : Value) :
    Session.succeeded value.result = false ↔
      value.isError = true ∨ value.carriesException = true := by
  rw [succeeded_result, isException_decode, Bool.not_eq_false', Bool.or_eq_true]

theorem isError_current (revisions : Revisions) (value : Value) :
    (revisions.current value).isError = value.isError := by
  cases value <;> simp [Revisions.current, isError, tagName]

end Value

namespace Session

variable {π σ μ : Type}

/-- An execution that comes to its end fails exactly if the value of its program is an error value,
or carries an exception of the host by then. -/
theorem execute_failed_iff
    (host : Host π σ)
    (depth : Nat)
    (debug : Bool)
    {session after : Session π σ μ}
    {execution : Execution}
    (ran : (execute host depth debug).on session = (.ok execution, after)) :
    ∃ outcome ended,
      (evaluated host (nested host depth) debug).on session = (.ok outcome, ended) ∧
        (succeeded execution.result = false ↔
          outcome.result.isError = true ∨
            (ended.revisions.current outcome.result).carriesException = true) := by
  rw [execute_eq] at ran
  obtain ⟨outcome, ended, came, completes⟩ := Action.on_bind_eq_ok ran
  refine ⟨outcome, ended, came, ?_⟩
  have result : execution.result = (ended.revisions.current outcome.result).result := by
    rw [on_completed] at completes
    obtain ⟨reacts, -⟩ := Prod.mk.inj completes
    cases reacted : (ended.withScope outcome).reaction host
        ((ended.withScope outcome).endEvent outcome) with
    | error fault =>
        rw [reacted] at reacts
        cases reacts
    | ok interference =>
        rw [reacted] at reacts
        cases reacts
        rfl
  rw [result, Value.result_failed_iff, Value.isError_current]

end Session

open Session

/-- A session whose program calls a function that ends in this way. -/
def callingSession (result : Except Fault HostValue) : Session Language.Program Unit Unit :=
  { Session.empty () () .shadow with
    program := some [.expression (.call "give" [])]
    functions := ⟨.shadow, [("give", ⟨.immediate, false, fun _ => .finish result⟩)]⟩ }

theorem execute_failed_iff_callingSession :
    let host := Language.host none .printing
    let session := callingSession (.error (.exception "boom"))
    ∃ execution after outcome ended,
      (execute host 0 false).on session = (.ok execution, after) ∧
        (evaluated host (nested host 0) false).on session = (.ok outcome, ended) ∧
        succeeded execution.result = false ∧
        (outcome.result.isError = true ∨
          (ended.revisions.current outcome.result).carriesException = true) := by
  have ran : (execute (Language.host none .printing) 0 false).on
      (callingSession (.error (.exception "boom"))) = (.ok ⟨.error "Error: boom", []⟩, _) := rfl
  obtain ⟨outcome, ended, came, failed⟩ := execute_failed_iff _ 0 false ran
  exact ⟨_, _, outcome, ended, ran, came, rfl, failed.1 rfl⟩

/-- An exception that a function returns, rather than throws, is no error value in the engine.  Yet
it decodes to a failure, and the execution that ends with it fails. -/
theorem execute_failed_without_error :
    let host := Language.host none .printing
    let session := callingSession (.ok (.exception .fresh "boom"))
    (∃ value : Value, ¬ (succeeded value.result = false ↔ value.isError = true)) ∧
      ∃ execution after outcome ended,
        (execute host 0 false).on session = (.ok execution, after) ∧
          (evaluated host (nested host 0) false).on session = (.ok outcome, ended) ∧
          ¬ (succeeded execution.result = false ↔ outcome.result.isError = true) := by
  have harmless : (Value.object (.exception .fresh "boom")).isError = false := by decide
  constructor
  · refine ⟨.object (.exception .fresh "boom"), fun same => ?_⟩
    exact Bool.false_ne_true (harmless.symm.trans (same.1 rfl))
  · refine ⟨⟨.error "boom", []⟩, _, ⟨.object (.exception .fresh "boom"), []⟩, _, rfl, rfl, ?_⟩
    intro same
    exact Bool.false_ne_true (harmless.symm.trans (same.1 rfl))

end ScriptHost
