import ScriptHost.Proofs.Language.Nesting

/-!
# Imports and the statements they stand for

A program that imports a module, beside the program with the statements of the module in the place
of the import.

* A program ends at its first import of a module that does not exist; what comes after does not
  run.
* An imported module that ends so only ends itself, hence what matters of a module are the
  statements that it can reach.
* `truncates_import_inlined` and `truncates_inlined_import`: with the reached statements in the
  place of the import a run differs only in how deep imports nest, and by one level at most.
-/

namespace ScriptHost
namespace Language

open Interaction

/-- The completion with its result left out if that is not due to the given statements. -/
def Completion.upTo (second : Program) (completion : Completion) : Completion :=
  if second.isEmpty then ⟨.none, completion.scope⟩ else completion

@[simp] theorem Completion.scope_upTo (second : Program) (completion : Completion) :
    (completion.upTo second).scope = completion.scope := by
  unfold upTo
  split <;> rfl

theorem Completion.upTo_of_ne_nil
    {second : Program}
    (nonempty : second ≠ [])
    (completion : Completion) :
    completion.upTo second = completion := by
  simp [upTo, nonempty]

section Runs

variable (debug : Bool)
variable (modules : String → Option Program)

theorem run_import
    {name : String}
    {body : Program}
    (found : modules name = some body)
    (depth : Nat)
    (second : Program)
    (scope : Entries Value) :
    run debug modules depth (.importModule name :: second) scope =
      enterAt debug modules depth body scope >>= fun inner =>
        run debug modules depth second inner.scope := by
  rw [run_eq_runStatements, runStatements, found]

theorem run_import_missing
    {missing : String}
    (absent : modules missing = none)
    (depth : Nat)
    (rest : Program)
    (scope : Entries Value) :
    run debug modules depth (.importModule missing :: rest) scope =
      pure ⟨moduleNotFound missing, scope⟩ := by
  rw [run_eq_runStatements, runStatements, absent]

/-- What goes on from the scope of a program in two pieces goes on from that of the second. -/
theorem run_append_bind
    {α : Type}
    {first : Program}
    (exist : ImportsExist modules first)
    (depth : Nat)
    (second : Program)
    (scope : Entries Value)
    (next : Entries Value → Interaction α) :
    (run debug modules depth (first ++ second) scope >>= fun completion => next completion.scope) =
      run debug modules depth first scope >>= fun earlier =>
        run debug modules depth second earlier.scope >>= fun later => next later.scope := by
  rw [run_append debug modules depth first second scope exist, bind_assoc]
  congr 1
  funext earlier
  cases second with
  | nil =>
      rw [run_nil]
      rfl
  | cons statement rest =>
      rw [bind_assoc]
      rfl

/-- The result of a program in two pieces is that of the second, if this has a statement. -/
theorem upTo_run_append
    {first : Program}
    (exist : ImportsExist modules first)
    (depth : Nat)
    (second : Program)
    (scope : Entries Value) :
    Completion.upTo second <$> run debug modules depth (first ++ second) scope =
      run debug modules depth first scope >>= fun earlier =>
        Completion.upTo second <$> run debug modules depth second earlier.scope := by
  rw [run_append debug modules depth first second scope exist, map_bind]
  congr 1
  funext earlier
  cases second with
  | nil =>
      rw [run_nil]
      rfl
  | cons statement rest =>
      rw [map_bind, map_eq_pure_bind]
      rfl

/-- A program with an import of a missing module, cut at the first of them. -/
theorem exists_missing
    {program : Program}
    (lacking : ¬ ImportsExist modules program) :
    ∃ before missing rest,
      program = before ++ .importModule missing :: rest ∧
        ImportsExist modules before ∧ modules missing = none := by
  induction program with
  | nil => exact absurd (by simp [ImportsExist]) lacking
  | cons statement rest ih =>
      by_cases absent : ∃ missing, statement = .importModule missing ∧ modules missing = none
      · obtain ⟨missing, rfl, none⟩ := absent
        exact ⟨[], missing, rest, rfl, by simp [ImportsExist], none⟩
      · have there : ∀ name, statement = .importModule name → (modules name).isSome := by
          intro name same
          rw [Option.isSome_iff_ne_none]
          exact fun none => absent ⟨name, same, none⟩
        have restLacking : ¬ ImportsExist modules rest := by
          intro exist
          refine lacking fun name member => ?_
          rcases List.mem_cons.1 member with same | later
          · exact there name same.symm
          · exact exist name later
        obtain ⟨before, missing, after, rfl, exist, none⟩ := ih restLacking
        refine ⟨statement :: before, missing, after, rfl, fun name member => ?_, none⟩
        rcases List.mem_cons.1 member with same | later
        · exact there name same.symm
        · exact exist name later

theorem ImportsExist.append
    {first second : Program}
    (exist : ImportsExist modules first)
    (further : ImportsExist modules second) :
    ImportsExist modules (first ++ second) := by
  intro name member
  rcases List.mem_append.1 member with before | after
  · exact exist name before
  · exact further name after

/-- A program ends at an import of a missing module, with an error value. -/
theorem run_append_missing
    {before : Program}
    (exist : ImportsExist modules before)
    {missing : String}
    (absent : modules missing = none)
    (depth : Nat)
    (rest : Program)
    (scope : Entries Value) :
    run debug modules depth (before ++ .importModule missing :: rest) scope =
      run debug modules depth before scope >>= fun completion =>
        pure ⟨moduleNotFound missing, completion.scope⟩ := by
  rw [run_append debug modules depth before _ scope exist]
  congr 1
  funext earlier
  rw [run_import_missing debug modules absent]
  rfl

/-- What stands after an import of a missing module does not run. -/
theorem run_append_of_lacking
    {first : Program}
    (lacking : ¬ ImportsExist modules first)
    (depth : Nat)
    (second : Program)
    (scope : Entries Value) :
    run debug modules depth (first ++ second) scope = run debug modules depth first scope := by
  obtain ⟨before, missing, rest, rfl, exist, absent⟩ := exists_missing modules lacking
  rw [List.append_assoc, List.cons_append, run_append_missing debug modules exist absent,
    run_append_missing debug modules exist absent]

/-- The statements of a program that it can reach: those before its first import of a missing
module. -/
def Reaches (body before : Program) : Prop :=
  ImportsExist modules before ∧
    (body = before ∨ ∃ missing rest,
      body = before ++ .importModule missing :: rest ∧ modules missing = none)

theorem Reaches.self
    {body : Program}
    (exist : ImportsExist modules body) :
    Reaches modules body body :=
  ⟨exist, .inl rfl⟩

theorem run_bind_of_reaches
    {α : Type}
    {body before : Program}
    (reaches : Reaches modules body before)
    (depth : Nat)
    (scope : Entries Value)
    (next : Entries Value → Interaction α) :
    (run debug modules depth body scope >>= fun completion => next completion.scope) =
      run debug modules depth before scope >>= fun completion => next completion.scope := by
  obtain ⟨exist, rfl | ⟨missing, rest, rfl, absent⟩⟩ := reaches
  · rfl
  · rw [run_append_missing debug modules exist absent, bind_assoc]
    rfl

end Runs

section Inlining

variable (debug : Bool)
variable {modules : String → Option Program}
variable {first : Program} (exist : ImportsExist modules first)
variable {name : String} {body : Program} (found : modules name = some body)
variable (second : Program)
variable (depth : Nat)
variable (scope : Entries Value)

include exist found in
theorem upTo_run_importing :
    Completion.upTo second <$>
        run debug modules depth (first ++ .importModule name :: second) scope =
      run debug modules depth first scope >>= fun earlier =>
        enterAt debug modules depth body earlier.scope >>= fun inner =>
          Completion.upTo second <$> run debug modules depth second inner.scope := by
  rw [run_append debug modules depth first _ scope exist, map_bind]
  congr 1
  funext earlier
  rw [run_import debug modules found, map_bind, bind_assoc]
  rfl

include exist in
theorem upTo_run_inlined
    {before : Program}
    (reaches : Reaches modules body before) :
    Completion.upTo second <$> run debug modules depth (first ++ (before ++ second)) scope =
      run debug modules depth first scope >>= fun earlier =>
        run debug modules depth body earlier.scope >>= fun inner =>
          Completion.upTo second <$> run debug modules depth second inner.scope := by
  rw [← List.append_assoc, upTo_run_append debug modules (exist.append modules reaches.1),
    run_append_bind debug modules exist depth before scope
      (fun left => Completion.upTo second <$> run debug modules depth second left)]
  congr 1
  funext earlier
  exact (run_bind_of_reaches debug modules reaches depth earlier.scope
    fun left => Completion.upTo second <$> run debug modules depth second left).symm

include exist found

/-- What the importing program does, the one with the statements in its place does. -/
theorem truncates_import_inlined
    {before : Program}
    (reaches : Reaches modules body before) :
    Truncates
      (Completion.upTo second <$>
        run debug modules depth (first ++ .importModule name :: second) scope)
      (Completion.upTo second <$>
        run debug modules depth (first ++ (before ++ second)) scope) := by
  rw [upTo_run_importing debug exist found, upTo_run_inlined debug exist second depth scope reaches]
  refine (Truncates.refl _).bind fun earlier => ?_
  exact (truncates_enterAt debug modules depth body earlier.scope).bind fun inner => .refl _

/-- What the program with the statements does, the importing one does if it may nest imports one
level deeper. -/
theorem truncates_inlined_import
    {before : Program}
    (reaches : Reaches modules body before) :
    Truncates
      (Completion.upTo second <$>
        run debug modules depth (first ++ (before ++ second)) scope)
      (Completion.upTo second <$>
        run debug modules (depth + 1) (first ++ .importModule name :: second) scope) := by
  rw [upTo_run_importing debug exist found, upTo_run_inlined debug exist second depth scope reaches]
  have deeper : ∀ program scope, Truncates (run debug modules depth program scope)
      (run debug modules (depth + 1) program scope) := truncates_run_succ debug modules depth
  refine (deeper first scope).bind fun earlier => ?_
  refine (Truncates.refl (run debug modules depth body earlier.scope)).bind fun inner => ?_
  exact (deeper second inner.scope).map _

/-- A program that ends with an import has no result. -/
theorem returns_none_of_import :
    (run debug modules depth (first ++ [.importModule name]) scope).Returns
      fun completion => completion.result = .none := by
  rw [run_append debug modules depth first _ scope exist]
  refine (returns_true _).bind fun earlier _ => ?_
  rw [run_import debug modules found, bind_assoc]
  refine (returns_true _).bind fun inner _ => ?_
  rw [run_nil]
  exact rfl

end Inlining

end Language
end ScriptHost
