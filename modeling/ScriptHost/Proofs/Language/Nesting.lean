import ScriptHost.Proofs.Language.Running

/-!
# How deep imports nest

A run is given a number that bounds the nesting of its imports.  The bound is no part of what
programs mean: it only cuts runs off.

* `Interaction.Truncates` says that an interaction is another one, cut off in some places.
* `enterAt` runs an imported module, one level deeper than the program that imports it.
* `truncates_run`: a run with a bound is the run with a larger one, cut off where imports nest too
  deep.
* `engineWithin` is the engine with any other bound in the place of the usual one.
-/

namespace ScriptHost

namespace Interaction

variable {α β : Type}

/-- The first interaction is the second, cut off in places by imports that nest too deep. -/
inductive Truncates : Interaction α → Interaction α → Prop
  | done (result : α) : Truncates (done result) (done result)
  | fail (fault : Fault) : Truncates (fail fault) (fail fault)
  | cut (whole : Interaction α) : Truncates (fail .nestingTooDeep) whole
  | log (value : Value) {next whole : Interaction α} :
      Truncates next whole → Truncates (log value next) (log value whole)
  | call (function callName : String) (arguments : Arguments)
      {next whole : Option Value → Interaction α} :
      (∀ answer, Truncates (next answer) (whole answer)) →
        Truncates (call function callName arguments next) (call function callName arguments whole)

theorem Truncates.refl (interaction : Interaction α) : Truncates interaction interaction := by
  induction interaction with
  | done result => exact .done result
  | fail fault => exact .fail fault
  | log value next ih => exact .log value ih
  | call function callName arguments next ih => exact .call function callName arguments ih

theorem Truncates.trans
    {first middle last : Interaction α}
    (cut : Truncates first middle)
    (further : Truncates middle last) :
    Truncates first last := by
  induction cut generalizing last with
  | done result => exact further
  | fail fault => exact further
  | cut whole => exact .cut last
  | log value next ih =>
      cases further with
      | log _ rest => exact .log value (ih rest)
  | call function callName arguments next ih =>
      cases further with
      | call _ _ _ rest =>
          exact .call function callName arguments fun answer => ih answer (rest answer)

theorem Truncates.bind
    {first second : Interaction α}
    {f g : α → Interaction β}
    (cut : Truncates first second)
    (rest : ∀ result, Truncates (f result) (g result)) :
    Truncates (first >>= f) (second >>= g) := by
  induction cut with
  | done result => exact rest result
  | fail fault => exact .fail fault
  | cut whole => exact .cut _
  | log value next ih => exact .log value ih
  | call function callName arguments next ih => exact .call function callName arguments ih

theorem Truncates.map
    {first second : Interaction α}
    (cut : Truncates first second)
    (f : α → β) :
    Truncates (f <$> first) (f <$> second) :=
  cut.bind fun result => .done (f result)

end Interaction

namespace Language

open Interaction

variable (debug : Bool)
variable (modules : String → Option Program)

/-- Runs an imported module within a program whose imports may nest as deep as the number says. -/
def enterAt : Nat → Program → Entries Value → Interaction Completion
  | 0 => fun _ _ => .fail .nestingTooDeep
  | depth + 1 => run debug modules depth

theorem run_eq_runStatements (depth : Nat) :
    run debug modules depth = runStatements debug modules (enterAt debug modules depth) .none := by
  cases depth <;> rfl

theorem truncates_runStatements
    {enter other : Program → Entries Value → Interaction Completion}
    (entered : ∀ body scope, Truncates (enter body scope) (other body scope))
    (last : Value)
    (program : Program)
    (scope : Entries Value) :
    Truncates (runStatements debug modules enter last program scope)
      (runStatements debug modules other last program scope) := by
  induction program generalizing last scope with
  | nil => exact .refl _
  | cons statement rest ih =>
      cases statement with
      | assign name expr =>
          exact (Truncates.refl (expr.eval debug scope)).bind fun value => ih _ _
      | expression expr =>
          exact (Truncates.refl (expr.eval debug scope)).bind fun value => ih _ _
      | forget name => exact ih _ _
      | importModule name =>
          rw [runStatements, runStatements]
          cases modules name with
          | none => exact .refl _
          | some body => exact (entered body scope).bind fun inner => ih _ _

theorem truncates_run_succ
    (depth : Nat)
    (program : Program)
    (scope : Entries Value) :
    Truncates (run debug modules depth program scope)
      (run debug modules (depth + 1) program scope) := by
  induction depth generalizing program scope with
  | zero => exact truncates_runStatements debug modules (fun _ _ => .cut _) _ _ _
  | succ depth ih => exact truncates_runStatements debug modules ih _ _ _

theorem truncates_enterAt
    (depth : Nat)
    (body : Program)
    (scope : Entries Value) :
    Truncates (enterAt debug modules depth body scope) (run debug modules depth body scope) := by
  cases depth with
  | zero => exact .cut _
  | succ depth => exact truncates_run_succ debug modules depth body scope

/-- With a larger bound a run goes further, if it was cut off at all. -/
theorem truncates_run
    {depth more : Nat}
    (deeper : depth ≤ more)
    (program : Program)
    (scope : Entries Value) :
    Truncates (run debug modules depth program scope) (run debug modules more program scope) := by
  induction deeper with
  | refl => exact .refl _
  | step _ ih => exact ih.trans (truncates_run_succ debug modules _ program scope)

/-- The course of an evaluation in which imports nest as deep as the number of modules allows. -/
def evaluateWithin (limit : Nat → Nat) (request : Request Program) : Interaction Outcome := do
  let completion ← run request.debug (fun name => (request.modules.get? name).join)
    (limit request.modules.length) request.program (Entries.ofPairs request.vars)
  pure ⟨completion.result, completion.scope⟩

/-- The engine with another bound on the nesting of imports. -/
def engineWithin (limit : Nat → Nat) : Engine Program Unit :=
  { engine with evaluate := fun request state => (evaluateWithin limit request, state) }

theorem engine_eq_engineWithin : engine = engineWithin importLimit := rfl

end Language
end ScriptHost
