import ScriptHost.Proofs.Session.Calls

/-!
# Failed executions

An execution that stops with a fault leaves the script as the functions that it called have left it.

* `ChangedBy` says that the script was changed by steps that functions performed, one after the
  other, and by nothing else.
* Each piece of an execution changes the script in this way, and so does following an interaction,
  whatever it ends with.
* The one exception is an observer that refuses the end of the execution: by then the variables that
  the evaluation left have been taken over.
-/

namespace ScriptHost

namespace Session

variable {π σ μ α : Type}
variable (host : Host π σ)
variable (execute : Bool → Action (Session π σ μ) Execution)

/-- The session that a performed step leaves. -/
def PerformedStep.after (performed : PerformedStep π σ μ) : Session π σ μ :=
  ((performWith host execute performed.step).on performed.session).2

/-- The script of the first session becomes that of the second by the steps, one after the other,
and by nothing else. -/
def ChangedBy : List (PerformedStep π σ μ) → Session π σ μ → Session π σ μ → Prop
  | [], first, last => last.script = first.script
  | performed :: rest, first, last =>
      performed.session.script = first.script ∧
        ChangedBy rest (performed.after host execute) last

section Laws

variable {host : Host π σ}
variable {execute : Bool → Action (Session π σ μ) Execution}
variable {first middle last : Session π σ μ}

theorem ChangedBy.of_script_eq
    {steps : List (PerformedStep π σ μ)}
    (changed : ChangedBy host execute steps middle last)
    (same : middle.script = first.script) :
    ChangedBy host execute steps first last := by
  cases steps with
  | nil => exact Eq.trans changed same
  | cons performed rest => exact ⟨changed.1.trans same, changed.2⟩

theorem ChangedBy.trans
    {steps more : List (PerformedStep π σ μ)}
    (changed : ChangedBy host execute steps first middle)
    (further : ChangedBy host execute more middle last) :
    ChangedBy host execute (steps ++ more) first last := by
  induction steps generalizing first with
  | nil => exact further.of_script_eq changed
  | cons performed rest ih => exact ⟨changed.1, ih changed.2⟩

theorem ChangedBy.script_eq_right
    {steps : List (PerformedStep π σ μ)}
    (changed : ChangedBy host execute steps first middle)
    (same : last.script = middle.script) :
    ChangedBy host execute steps first last := by
  have further : ChangedBy host execute [] middle last := same
  simpa using changed.trans further

end Laws

@[simp] theorem script_noted (session : Session π σ μ) (event : Event) :
    (session.noted host event).script = session.script := by
  unfold noted
  cases host.observer <;> rfl

theorem script_log (session : Session π σ μ) (value : Value) :
    ((log host value).on session).2.script = session.script := by
  rw [on_log]
  rfl

theorem script_completed
    {ended after : Session π σ μ}
    {outcome : Outcome}
    {result : Except Fault Execution}
    (completes : (completed host outcome).on ended = (result, after)) :
    after.script = { ended.script with bindings := .ofVariables outcome.scope } := by
  rw [on_completed] at completes
  obtain ⟨-, rfl⟩ := Prod.mk.inj completes
  rw [script_noted]
  rfl

theorem script_conclude
    (session : Session π σ μ)
    (callName : String)
    (result : Except Fault Value) :
    ((conclude host callName result).on session).2.script = session.script := by
  cases result with
  | ok value => simp [conclude]
  | error fault =>
      cases fault with
      | exception message =>
          cases reacts : session.reaction host (.failed callName message) <;>
            simp [conclude, Action.on_bind, reacts]
      | _ => simp [conclude]

theorem runProcedure_changedBy : (procedure : Procedure μ) → (session : Session π σ μ) →
    ChangedBy host execute (performedSteps host execute procedure session) session
      ((runProcedure host execute procedure).on session).2
  | .finish _, _ => rfl
  | .recall next, session => runProcedure_changedBy (next session.memory) session
  | .remember memory next, session =>
      (runProcedure_changedBy next { session with memory := memory }).of_script_eq rfl
  | .inspect next, session => runProcedure_changedBy (next session.hostVariables) session
  | .revise number content next, session =>
      (runProcedure_changedBy next
        { session with revisions := session.revisions.revise number content }).of_script_eq rfl
  | .perform step next, session =>
      let performed := (performWith host execute step).on session
      ⟨rfl, runProcedure_changedBy (next (performed.1.map StepResult.execution?)) performed.2⟩

theorem answer_changedBy
    (adapter : Adapter (HostFunction μ))
    (arguments : List Argument)
    (session : Session π σ μ) :
    ChangedBy host execute (performedSteps host execute (adapter.function arguments) session)
      session ((answer host execute adapter arguments).on session).2 := by
  have ran := runProcedure_changedBy host execute (adapter.function arguments) session
  rw [answer, Action.on_bind]
  rcases called : (runProcedure host execute (adapter.function arguments)).on session with
    ⟨_ | returned, after⟩ <;> simpa [called] using ran

theorem invoke_changedBy
    (adapter : Adapter (HostFunction μ))
    (callName : String)
    (arguments : Arguments)
    (session : Session π σ μ) :
    ChangedBy host execute
      ((invokedCalls host execute adapter callName arguments session).flatMap HostCall.steps)
      session ((invoke host execute adapter callName arguments).on session).2 := by
  rw [on_invoke, invokedCalls]
  dsimp only
  generalize session.given adapter callName arguments = given
  cases reacts : session.reaction host (.call callName (given.map Argument.value)) with
  | error fault => exact script_noted host session _
  | ok interference =>
      have answered := answer_changedBy host execute adapter (interference.arguments given)
        (session.noted host (.call callName (given.map Argument.value)))
      simpa using (answered.of_script_eq (script_noted host session _)).script_eq_right
        (script_conclude host _ callName _)

theorem dispatch_changedBy
    (function callName : String)
    (arguments : Arguments)
    (session : Session π σ μ) :
    ChangedBy host execute
      ((dispatchedCalls host execute function callName arguments session).flatMap HostCall.steps)
      session ((dispatch host execute function callName arguments).on session).2 := by
  rw [on_dispatch, dispatchedCalls]
  cases session.functions.resolve? function with
  | none => rfl
  | some adapter => exact invoke_changedBy host execute adapter callName arguments session

theorem follow_changedBy (interaction : Interaction α) (session : Session π σ μ) :
    ChangedBy host execute ((hostCalls host execute interaction session).flatMap HostCall.steps)
      session ((follow host execute interaction).on session).2 := by
  induction interaction generalizing session with
  | done result => rfl
  | fail fault => rfl
  | log value next ih =>
      have logged := script_log host session value
      rw [on_follow_log, hostCalls]
      rcases told : (log host value).on session with ⟨fault | _, after⟩ <;> rw [told] at logged
      · exact logged
      · exact (ih after).of_script_eq logged
  | call function callName arguments next ih =>
      have called := dispatch_changedBy host execute function callName arguments session
      rw [on_follow_call, hostCalls, List.flatMap_append]
      rcases told : (dispatch host execute function callName arguments).on session with
        ⟨fault | answer, after⟩ <;> rw [told] at called
      · simpa using called
      · exact called.trans (ih answer after)

theorem evaluated_changedBy (debug : Bool) (session : Session π σ μ) :
    ChangedBy host execute ((executedCalls host execute debug session).flatMap HostCall.steps)
      session ((evaluated host execute debug).on session).2 := by
  rw [on_evaluated, executedCalls]
  cases session.program with
  | none => rfl
  | some program =>
      dsimp only
      cases session.reaction host (.started debug session.bindings.size) with
      | error fault => exact script_noted host session _
      | ok interference =>
          exact (follow_changedBy host execute _ _).of_script_eq (script_noted host session _)

end Session

open Session

/-- The scope that an evaluation of the line language hands back becomes the variables as it is. -/
theorem Language.ofVariables_scope
    {μ : Type}
    {observer : Option Observer}
    {logger : Logger}
    {execute : Bool → Action (Session Program Unit μ) Execution}
    {debug : Bool}
    {session ended : Session Program Unit μ}
    {outcome : Outcome}
    (came : (evaluated (host observer logger) execute debug).on session = (.ok outcome, ended)) :
    Bindings.ofVariables outcome.scope = ⟨outcome.scope⟩ := by
  obtain ⟨program, _, -, -, followed⟩ := evaluated_eq_ok _ _ came
  have distinct := property_of_follow_eq_ok _ _ (Language.returns_evaluate _) followed
  exact Bindings.ofVariables_of_nodup distinct

end ScriptHost
