import ScriptHost.Proofs.Language.Framing
import ScriptHost.Proofs.Session.Invariant
import ScriptHost.Proofs.Session.Splitting

/-!
# The frame of an execution

What an execution leaves of the variables that were there before.  Functions that it calls may set
variables of the script as well, but the scope of the run replaces them all at the end.

* `startScope_eq_entries`: a run starts with the variables of the session.
* `execute_framed`: a successful execution changes the variables through what its program assigns and
  forgets, itself or in a module that it reaches, and keeps all the others, with their order.
-/

namespace ScriptHost

open ScriptHost.Language

namespace Session

variable {μ : Type}

theorem startScope_eq_entries
    {session : Session Program Unit μ}
    (distinct : session.HasDistinctNames) :
    session.startScope = session.bindings.entries :=
  (Entries.ofPairs_eq_self_iff session.bindings.entries).2 distinct

variable (observer : Option Observer)
variable (logger : Logger)
variable (depth : Nat)
variable (debug : Bool)

/-- The frame of an execution.  If an execution succeeds, whatever its functions do meanwhile, the
variables afterwards are framed by those before it, given the names that are assigned and forgotten
in the program and in the modules that it reaches through imports.

Variables of a session have distinct names anyhow (`hasDistinctNames_of_arises`). -/
theorem execute_framed
    {session after : Session Program Unit μ}
    {program : Program}
    {execution : Execution}
    (distinct : session.HasDistinctNames)
    (parsed : session.program = some program)
    (ran : (execute (host observer logger) depth debug).on session = (.ok execution, after)) :
    Entries.Framed (Assigns session.importable program) (Forgets session.importable program)
      session.bindings.entries after.bindings.entries := by
  obtain ⟨completion, ended, succeeds, -, rfl⟩ :=
    succeeds_of_execute observer logger depth debug parsed ran
  have whole : ReachedByImports session.importable program program := .start
  have runs := framed_run debug session.importable (importLimit session.modules.length) whole
    session.bindings.entries (.refl distinct)
  have followed := succeeds.followed
  rw [startScope_eq_entries distinct] at followed
  have framed := property_of_follow_eq_ok _ _ runs followed
  have left : (ended.closed (host observer logger) completion.outcome).bindings =
      ⟨completion.scope⟩ := by
    rw [bindings_closed]
    exact Bindings.ofVariables_of_nodup framed.distinct
  rwa [left]

/-- A program that assigns a variable, imports a module, calls a function and stops at a module that
is missing. -/
def framedProgram : Program :=
  [.assign "first" (.literal (.str "new")), .importModule "tools", .expression (.call "meddle" []),
    .importModule "missing", .assign "last" (.literal .none)]

/-- A module that forgets a variable, sets it again and sets another one. -/
def framedModule : Program :=
  [.forget "gone", .assign "gone" (.literal (.str "again")), .assign "fresh" (.literal .none)]

/-- A session with this program and this module.  The function that the program calls sets a variable
of the script itself. -/
def framedSession : Session Program Unit Unit :=
  { Session.empty () () .shadow with
    program := some framedProgram
    bindings := ⟨[("first", .none), ("gone", .none), ("kept", .str "kept"), ("last", .none)]⟩
    functions := ⟨.shadow, [("meddle", ⟨.immediate, false, fun _ =>
      .perform (.addVariable "kept" (.text "host")) fun _ => .finish (.ok .null)⟩)]⟩
    modules := [("tools", ⟨"", some framedModule⟩)] }

theorem reached_framedProgram
    {reached : Program}
    (reaches : ReachedByImports framedSession.importable framedProgram reached) :
    reached = framedProgram ∨ reached = framedModule := by
  induction reaches with
  | start => exact .inl rfl
  | @imported program body name _ member found ih =>
      right
      rcases ih with rfl | rfl
      · have named : name = "tools" ∨ name = "missing" := by
          simpa [framedProgram] using member
        rcases named with rfl | rfl
        · exact (Option.some.inj found).symm
        · cases found
      · simp [framedModule] at member

/-- The variable that only the function sets keeps its value.  It comes after the assigned variable
still, and before the new one. -/
theorem execute_framed_framedSession :
    ∃ execution after,
      (execute (Language.host none .printing) 0 false).on framedSession = (.ok execution, after) ∧
        after.bindings.names = ["first", "kept", "last", "gone", "fresh"] ∧
        after.bindings.get? "kept" = some (.str "kept") ∧
        Precedes after.bindings.names "first" "kept" ∧
        Precedes after.bindings.names "kept" "fresh" := by
  have distinct : framedSession.HasDistinctNames := by
    unfold HasDistinctNames
    decide
  have ran : (execute (Language.host none .printing) 0 false).on framedSession = (.ok _, _) := rfl
  have framed := execute_framed none .printing 0 false distinct rfl ran
  have unassigned : ¬ Assigns framedSession.importable framedProgram "kept" := by
    rintro ⟨reached, expr, reaches, member⟩
    rcases reached_framedProgram reaches with rfl | rfl
    · simp [framedProgram] at member
    · simp [framedModule] at member
  have remains : ∀ name, name ≠ "gone" → ¬ Forgets framedSession.importable framedProgram name := by
    rintro name apart ⟨reached, reaches, member⟩
    rcases reached_framedProgram reaches with rfl | rfl
    · simp [framedProgram] at member
    · simp [framedModule, apart] at member
  have unforgotten := remains "kept" (by decide)
  have order := framed.ordered "first" (by decide) "kept" (by decide) (remains "first" (by decide))
    unforgotten
  exact ⟨_, _, ran, rfl, framed.untouched "kept" unassigned unforgotten,
    order.2 (by unfold Precedes; decide),
    framed.behind "kept" (by decide) unforgotten "fresh" (by decide) (by decide)⟩

end Session
end ScriptHost
