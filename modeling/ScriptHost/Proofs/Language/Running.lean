import ScriptHost.Language.Evaluation
import ScriptHost.Proofs.Entries

/-!
# Runs of programs

What holds of a run whatever the outside answers.

* `Interaction.Returns` says that a property holds of the result at every end of an interaction.
* The scope that a run leaves has distinct names if it starts with distinct names, and an evaluation
  always does.
* `run_append`: a program in two pieces runs like the first piece and then the second in the scope
  that the first leaves, unless the first imports a module that does not exist.
-/

namespace ScriptHost

namespace Interaction

variable {α β : Type}

/-- The result has the property at every end, whatever the calls are answered. -/
def Returns (property : α → Prop) : Interaction α → Prop
  | done result => property result
  | fail _ => True
  | log _ next => Returns property next
  | call _ _ _ next => ∀ answer, Returns property (next answer)

theorem returns_true (interaction : Interaction α) :
    interaction.Returns fun _ => True := by
  induction interaction with
  | done result => trivial
  | fail fault => trivial
  | log value next ih => exact ih
  | call function callName arguments next ih => exact ih

theorem Returns.bind
    {first : α → Prop}
    {second : β → Prop}
    {interaction : Interaction α}
    {f : α → Interaction β}
    (holds : interaction.Returns first)
    (step : ∀ result, first result → (f result).Returns second) :
    (interaction >>= f).Returns second := by
  induction interaction with
  | done result => exact step result holds
  | fail fault => trivial
  | log value next ih => exact ih holds
  | call function callName arguments next ih =>
      intro answer
      exact ih answer (holds answer)

end Interaction

namespace Language

section Statements

variable (debug : Bool)
variable (modules : String → Option Program)
variable (enter : Program → Entries Value → Interaction Completion)

theorem returns_runStatements
    (entered : ∀ program scope, scope.names.Nodup →
      (enter program scope).Returns fun completion => completion.scope.names.Nodup)
    (last : Value)
    (program : Program)
    (scope : Entries Value)
    (distinct : scope.names.Nodup) :
    (runStatements debug modules enter last program scope).Returns
      fun completion => completion.scope.names.Nodup := by
  induction program generalizing last scope with
  | nil => exact distinct
  | cons statement rest ih =>
      cases statement with
      | assign name expr =>
          refine (Interaction.returns_true (expr.eval debug scope)).bind ?_
          intro value _
          exact ih _ _ (Entries.nodup_names_put distinct name value)
      | expression expr =>
          refine (Interaction.returns_true (expr.eval debug scope)).bind ?_
          intro value _
          exact ih _ _ distinct
      | forget name =>
          exact ih _ _ (Entries.nodup_names_erase distinct name)
      | importModule name =>
          rw [runStatements]
          cases modules name with
          | none => exact distinct
          | some body =>
              refine (entered body scope distinct).bind ?_
              intro inner innerDistinct
              exact ih _ _ innerDistinct

/-- Every module that a program imports itself exists. -/
def ImportsExist (program : Program) : Prop :=
  ∀ name, .importModule name ∈ program → (modules name).isSome

theorem runStatements_append
    (last : Value)
    (first second : Program)
    (scope : Entries Value)
    (exist : ImportsExist modules first) :
    runStatements debug modules enter last (first ++ second) scope =
      runStatements debug modules enter last first scope >>= fun completion =>
        runStatements debug modules enter completion.result second completion.scope := by
  induction first generalizing last scope with
  | nil => rfl
  | cons statement rest ih =>
      have restExist : ImportsExist modules rest := 
        fun name member => exist name (List.mem_cons_of_mem _ member)
      cases statement with
      | assign name expr => simp [runStatements, ih _ _ restExist]
      | expression expr => simp [runStatements, ih _ _ restExist]
      | forget name => simp [runStatements, ih _ _ restExist]
      | importModule name =>
          obtain ⟨body, found⟩ := Option.isSome_iff_exists.1 (exist name (List.mem_cons_self ..))
          simp [runStatements, found, ih _ _ restExist]

/-- What ran before does not matter for the result of a program that has a statement. -/
theorem runStatements_last
    (last other : Value)
    (program : Program)
    (scope : Entries Value)
    (nonempty : program ≠ []) :
    runStatements debug modules enter last program scope =
      runStatements debug modules enter other program scope := by
  cases program with
  | nil => exact absurd rfl nonempty
  | cons statement rest => cases statement <;> rfl

end Statements

theorem returns_run
    (debug : Bool)
    (modules : String → Option Program)
    (depth : Nat)
    (program : Program)
    (scope : Entries Value)
    (distinct : scope.names.Nodup) :
    (run debug modules depth program scope).Returns
      fun completion => completion.scope.names.Nodup := by
  induction depth generalizing program scope with
  | zero =>
      refine returns_runStatements debug modules _ ?_ _ _ _ distinct
      intro _ _ _
      trivial
  | succ depth ih =>
      exact returns_runStatements debug modules _ ih _ _ _ distinct

/-- The scope that an evaluation hands back has distinct names. -/
theorem returns_evaluate (request : Request Program) :
    (evaluate request).Returns fun outcome => (Entries.names outcome.scope).Nodup := by
  refine (returns_run _ _ _ _ _ (Entries.nodup_names_ofPairs request.vars)).bind ?_
  intro completion distinct
  exact distinct

theorem run_nil
    (debug : Bool)
    (modules : String → Option Program)
    (depth : Nat)
    (scope : Entries Value) :
    run debug modules depth [] scope = pure ⟨.none, scope⟩ := by
  cases depth <;> rfl

/-- The completion of a program in two pieces, given those of the pieces: the result is that of the
first if the second has no statement. -/
def Completion.after (earlier : Completion) (second : Program) (later : Completion) : Completion :=
  if second.isEmpty then earlier else later

theorem run_append
    (debug : Bool)
    (modules : String → Option Program)
    (depth : Nat)
    (first second : Program)
    (scope : Entries Value)
    (exist : ImportsExist modules first) :
    run debug modules depth (first ++ second) scope = (do
      let earlier ← run debug modules depth first scope
      let later ← run debug modules depth second earlier.scope
      pure (earlier.after second later)) := by
  -- The two cases of the depth differ in what an import enters only.
  have pieces : ∀ enter, runStatements debug modules enter .none (first ++ second) scope = (do
      let earlier ← runStatements debug modules enter .none first scope
      let later ← runStatements debug modules enter .none second earlier.scope
      pure (earlier.after second later)) := by
    intro enter
    rw [runStatements_append debug modules enter _ _ _ _ exist]
    congr 1
    funext earlier
    cases second with
    | nil => rfl
    | cons statement rest =>
        rw [runStatements_last debug modules enter _ .none _ _ (List.cons_ne_nil _ _)]
        exact (Interaction.bind_done _).symm
  cases depth with
  | zero => exact pieces _
  | succ depth => exact pieces _

end Language
end ScriptHost
