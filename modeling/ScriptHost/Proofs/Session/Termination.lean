import ScriptHost.Proofs.Language.Printing
import ScriptHost.Proofs.Session.Failure
import ScriptHost.Proofs.Session.Indistinct
import ScriptHost.Proofs.Session.Splitting

/-!
# Evaluations end on acyclic imports

An import runs another program, of any size, and the same module may be run many times over.  Yet an
evaluation ends as long as no module that the program reaches can reach itself.

* `AcyclicImports` says so of a program and of the modules that can be imported.
* `Ends` says what statements come to in a session, a completion or a fault, without any bound on the
  nesting of imports.  Statements that run without end come to nothing.
* `settles_of_reaches`: a program that reaches some modules comes to an end, and so does its run with
  the number of these modules as the bound, or any larger one.  Each import leaves one module less
  that can be reached.
* `run_ends_of_acyclic`: the bound depends on the modules alone, and the engine's own is large enough.
-/

namespace ScriptHost

namespace Language

variable {modules : String → Option Program}
variable {program body : Program}
variable {name other : String}

/-- The program of a module that can be imported, by its name. -/
def programOf (modules : Entries (Option Program)) (name : String) : Option Program :=
  (modules.get? name).join

/-- The program reaches the module of this name, which exists, through imports. -/
def ReachesModule (modules : String → Option Program) (program : Program) (name : String) : Prop :=
  ∃ reached, ReachedByImports modules program reached ∧ .importModule name ∈ reached ∧
    (modules name).isSome

/-- No module that the program reaches through imports reaches itself. -/
def AcyclicImports (modules : String → Option Program) (program : Program) : Prop :=
  ∀ name body, ReachesModule modules program name → modules name = some body →
    ¬ ReachesModule modules body name

theorem reachesModule_of_mem
    (member : .importModule name ∈ program)
    (found : modules name = some body) :
    ReachesModule modules program name :=
  ⟨program, .start, member, Option.isSome_of_eq_some found⟩

theorem ReachesModule.of_imported
    (member : .importModule name ∈ program)
    (found : modules name = some body)
    (reaches : ReachesModule modules body other) :
    ReachesModule modules program other := by
  obtain ⟨reached, further, importing, exist⟩ := reaches
  exact ⟨reached, .trans (.imported .start member found) further, importing, exist⟩

theorem AcyclicImports.of_imported
    (acyclic : AcyclicImports modules program)
    (member : .importModule name ∈ program)
    (found : modules name = some body) :
    AcyclicImports modules body :=
  fun _ _ reaches => acyclic _ _ (reaches.of_imported member found)

/-- Imports are acyclic if every module imports modules of a smaller rank only. -/
theorem acyclicImports_of_rank
    (rank : String → Nat)
    (descends : ∀ name body other, modules name = some body → .importModule other ∈ body →
      (modules other).isSome → rank other < rank name)
    (program : Program) :
    AcyclicImports modules program := by
  rintro name body - found ⟨reached, reaches, importing, exist⟩
  -- What the module reaches is the module itself, or one of a smaller rank.
  have bounded : ∃ between, modules between = some reached ∧ rank between ≤ rank name := by
    clear importing
    induction reaches with
    | start => exact ⟨name, found, Nat.le_refl _⟩
    | @imported earlier later next _ member leads ih =>
        obtain ⟨between, there, atMost⟩ := ih
        have less := descends between earlier next there member (Option.isSome_of_eq_some leads)
        exact ⟨next, leads, by omega⟩
  obtain ⟨between, there, atMost⟩ := bounded
  have less := descends between reached name there importing exist
  omega

end Language

open ScriptHost.Language

namespace Session

variable {π σ μ : Type}

section Endings

variable (host : Host π σ)
variable (execute : Bool → Action (Session π σ μ) Execution)
variable (debug : Bool)
variable (modules : String → Option Program)

/-- Evaluates an expression in a scope. -/
def valued (scope : Entries Value) (expr : Expr) : Action (Session π σ μ) Value :=
  follow host execute (expr.eval debug scope)

/-- What statements come to when they run in a scope from a session, after a result so far: a
completion or a fault, and the session that they leave.  Imports may nest as deep as they like. -/
inductive Ends :
    Value → Program → Entries Value → Session π σ μ →
      Except Fault Completion × Session π σ μ → Prop
  | nil (last : Value) (scope : Entries Value) (session : Session π σ μ) :
      Ends last [] scope session (.ok ⟨last, scope⟩, session)
  | assign (last : Value) {name : String} {expr : Expr} {rest : Program} {scope : Entries Value}
      {session middle : Session π σ μ} {value : Value}
      {answer : Except Fault Completion × Session π σ μ} :
      (valued host execute debug scope expr).on session = (.ok value, middle) →
        Ends .none rest (scope.put name value) middle answer →
          Ends last (.assign name expr :: rest) scope session answer
  | assignFails (last : Value) (name : String) {expr : Expr} (rest : Program)
      {scope : Entries Value} {session after : Session π σ μ} {fault : Fault} :
      (valued host execute debug scope expr).on session = (.error fault, after) →
        Ends last (.assign name expr :: rest) scope session (.error fault, after)
  | expression (last : Value) {expr : Expr} {rest : Program} {scope : Entries Value}
      {session middle : Session π σ μ} {value : Value}
      {answer : Except Fault Completion × Session π σ μ} :
      (valued host execute debug scope expr).on session = (.ok value, middle) →
        Ends value rest scope middle answer →
          Ends last (.expression expr :: rest) scope session answer
  | expressionFails (last : Value) {expr : Expr} (rest : Program)
      {scope : Entries Value} {session after : Session π σ μ} {fault : Fault} :
      (valued host execute debug scope expr).on session = (.error fault, after) →
        Ends last (.expression expr :: rest) scope session (.error fault, after)
  | forget (last : Value) {name : String} {rest : Program} {scope : Entries Value}
      {session : Session π σ μ} {answer : Except Fault Completion × Session π σ μ} :
      Ends .none rest (scope.erase name) session answer →
        Ends last (.forget name :: rest) scope session answer
  | importMissing (last : Value) {name : String} (rest : Program) (scope : Entries Value)
      (session : Session π σ μ) :
      modules name = none →
        Ends last (.importModule name :: rest) scope session
          (.ok ⟨moduleNotFound name, scope⟩, session)
  | importModule (last : Value) {name : String} {body rest : Program} {scope : Entries Value}
      {session middle : Session π σ μ} {inner : Completion}
      {answer : Except Fault Completion × Session π σ μ} :
      modules name = some body →
        Ends .none body scope session (.ok inner, middle) →
          Ends .none rest inner.scope middle answer →
            Ends last (.importModule name :: rest) scope session answer
  | importFails (last : Value) {name : String} {body : Program} (rest : Program)
      {scope : Entries Value} {session after : Session π σ μ} {fault : Fault} :
      modules name = some body →
        Ends .none body scope session (.error fault, after) →
          Ends last (.importModule name :: rest) scope session (.error fault, after)

/-- Statements come to one end only. -/
theorem Ends.unique
    {last : Value}
    {program : Program}
    {scope : Entries Value}
    {session : Session π σ μ}
    {answer other : Except Fault Completion × Session π σ μ}
    (ends : Ends host execute debug modules last program scope session answer)
    (again : Ends host execute debug modules last program scope session other) :
    other = answer := by
  induction ends generalizing other with
  | nil => cases again; rfl
  | assign _ valued _ ih =>
      cases again with
      | assign _ valued' rest =>
          rw [valued, Prod.mk.injEq, Except.ok.injEq] at valued'
          obtain ⟨rfl, rfl⟩ := valued'
          exact ih rest
      | assignFails _ _ _ fails =>
          rw [valued] at fails
          cases fails
  | assignFails _ _ _ fails =>
      cases again with
      | assign _ valued _ =>
          rw [fails] at valued
          cases valued
      | assignFails _ _ _ fails' =>
          rw [fails] at fails'
          cases fails'
          rfl
  | expression _ valued _ ih =>
      cases again with
      | expression _ valued' rest =>
          rw [valued, Prod.mk.injEq, Except.ok.injEq] at valued'
          obtain ⟨rfl, rfl⟩ := valued'
          exact ih rest
      | expressionFails _ _ fails =>
          rw [valued] at fails
          cases fails
  | expressionFails _ _ fails =>
      cases again with
      | expression _ valued _ =>
          rw [fails] at valued
          cases valued
      | expressionFails _ _ fails' =>
          rw [fails] at fails'
          cases fails'
          rfl
  | forget _ _ ih =>
      cases again with
      | forget _ rest => exact ih rest
  | importMissing _ _ _ _ absent =>
      cases again with
      | importMissing => rfl
      | importModule _ found => rw [absent] at found; cases found
      | importFails _ _ found => rw [absent] at found; cases found
  | importModule _ found _ _ ihBody ihRest =>
      cases again with
      | importMissing _ _ _ _ absent => rw [absent] at found; cases found
      | importModule _ found' body rest =>
          obtain rfl := Option.some.inj (found.symm.trans found')
          cases ihBody body
          exact ihRest rest
      | importFails _ _ found' body =>
          obtain rfl := Option.some.inj (found.symm.trans found')
          cases ihBody body
  | importFails _ _ found _ ih =>
      cases again with
      | importMissing _ _ _ _ absent => rw [absent] at found; cases found
      | importModule _ found' body _ =>
          obtain rfl := Option.some.inj (found.symm.trans found')
          cases ih body
      | importFails _ _ found' body =>
          obtain rfl := Option.some.inj (found.symm.trans found')
          exact ih body

/-- A module that begins with an import of itself comes to no end. -/
theorem not_ends_of_self_import
    {name : String}
    {others : Program}
    (found : modules name = some (.importModule name :: others))
    (last : Value)
    (rest : Program)
    (scope : Entries Value)
    (session : Session π σ μ)
    (answer : Except Fault Completion × Session π σ μ) :
    ¬ Ends host execute debug modules last (.importModule name :: rest) scope session answer := by
  intro ends
  generalize begins : Statement.importModule name :: rest = program at ends
  induction ends generalizing rest with
  | importMissing _ _ _ _ absent =>
      cases begins
      rw [absent] at found
      cases found
  | importModule _ found' _ _ ih =>
      cases begins
      exact ih others (Option.some.inj (found.symm.trans found'))
  | importFails _ _ found' _ ih =>
      cases begins
      exact ih others (Option.some.inj (found.symm.trans found'))
  | _ => cases begins

/-- The statements come to an end, and a run whose imports may nest at least as deep as the number
says comes to the same. -/
def Settles
    (bound : Nat)
    (last : Value)
    (program : Program)
    (scope : Entries Value)
    (session : Session π σ μ) : Prop :=
  ∃ answer, Ends host execute debug modules last program scope session answer ∧
    ∀ more, bound ≤ more →
      (follow host execute
        (runStatements debug modules (enterAt debug modules more) last program scope)).on session =
          answer

variable {host execute debug modules}

/-- Statements settle if the modules that they import do, with a smaller bound. -/
theorem settles_of_entered
    {bound : Nat}
    {program : Program}
    (entered : ∀ name body, .importModule name ∈ program → modules name = some body →
      ∃ less < bound, ∀ scope session,
        Settles host execute debug modules less .none body scope session)
    (last : Value)
    (scope : Entries Value)
    (session : Session π σ μ) :
    Settles host execute debug modules bound last program scope session := by
  induction program generalizing last scope session with
  | nil => exact ⟨_, .nil last scope session, fun _ _ => rfl⟩
  | cons statement rest ih =>
      have further := ih fun name body member => entered name body (List.mem_cons_of_mem _ member)
      cases statement with
      | assign name expr =>
          rcases came : (valued host execute debug scope expr).on session with
            ⟨fault | value, middle⟩
          · refine ⟨_, .assignFails last name rest came, fun more _ => ?_⟩
            rw [runStatements, follow_bind]
            exact Action.on_bind_of_error came
          · obtain ⟨answer, ends, runs⟩ := further .none (scope.put name value) middle
            refine ⟨answer, .assign last came ends, fun more enough => ?_⟩
            rw [runStatements, follow_bind]
            exact (Action.on_bind_of_ok came).trans (runs more enough)
      | expression expr =>
          rcases came : (valued host execute debug scope expr).on session with
            ⟨fault | value, middle⟩
          · refine ⟨_, .expressionFails last rest came, fun more _ => ?_⟩
            rw [runStatements, follow_bind]
            exact Action.on_bind_of_error came
          · obtain ⟨answer, ends, runs⟩ := further value scope middle
            refine ⟨answer, .expression last came ends, fun more enough => ?_⟩
            rw [runStatements, follow_bind]
            exact (Action.on_bind_of_ok came).trans (runs more enough)
      | forget name =>
          obtain ⟨answer, ends, runs⟩ := further .none (scope.erase name) session
          exact ⟨answer, .forget last ends, runs⟩
      | importModule name =>
          cases found : modules name with
          | none =>
              refine ⟨_, .importMissing last rest scope session found, fun more _ => ?_⟩
              rw [runStatements, found]
              rfl
          | some body =>
              obtain ⟨less, smaller, settles⟩ := entered name body List.mem_cons_self found
              obtain ⟨⟨result, middle⟩, endsBody, runsBody⟩ := settles scope session
              -- The import enters its module one level deeper, which the bound still allows.
              have entering : ∀ more, bound ≤ more →
                  (follow host execute (enterAt debug modules more body scope)).on session =
                    (result, middle) := by
                intro more enough
                obtain ⟨deeper, rfl⟩ := Nat.exists_eq_succ_of_ne_zero (show more ≠ 0 by omega)
                rw [enterAt, run_eq_runStatements]
                exact runsBody deeper (by omega)
              cases result with
              | error fault =>
                  refine ⟨_, .importFails last rest found endsBody, fun more enough => ?_⟩
                  rw [runStatements, found]
                  dsimp only
                  rw [follow_bind]
                  exact Action.on_bind_of_error (entering more enough)
              | ok inner =>
                  obtain ⟨answer, ends, runs⟩ := further .none inner.scope middle
                  refine ⟨answer, .importModule last found endsBody ends, fun more enough => ?_⟩
                  rw [runStatements, found]
                  dsimp only
                  rw [follow_bind]
                  exact (Action.on_bind_of_ok (entering more enough)).trans (runs more enough)

/-- A program with acyclic imports settles, with the number of modules that it may reach as the
bound. -/
theorem settles_of_reaches
    (available : Finset String)
    {program : Program}
    (acyclic : AcyclicImports modules program)
    (reaches : ∀ name, ReachesModule modules program name → name ∈ available)
    (last : Value)
    (scope : Entries Value)
    (session : Session π σ μ) :
    Settles host execute debug modules available.card last program scope session := by
  induction available using Finset.strongInduction generalizing program last scope session with
  | H available ih =>
      refine settles_of_entered (fun name body member found => ?_) last scope session
      have here := reachesModule_of_mem member found
      have fewer := Finset.erase_ssubset (reaches name here)
      refine ⟨(available.erase name).card, Finset.card_lt_card fewer, fun scope session => ?_⟩
      refine ih _ fewer (acyclic.of_imported member found) (fun other further => ?_) _ _ _
      refine Finset.mem_erase.2 ⟨?_, reaches other (further.of_imported member found)⟩
      rintro rfl
      exact acyclic other body here found further

end Endings

end Session

open Session

/-- Evaluations end on acyclic imports.  If no module that the program reaches through imports can
reach itself, then there is a bound that depends on the program and the modules alone: from every
scope, in every session and whatever the functions do that it calls, the program comes to exactly one
end, a completion or a fault, and a run whose imports may nest as deep as the bound, or any deeper,
comes to the same.  So does the engine, with the bound of its own. -/
theorem run_ends_of_acyclic
    {modules : Entries (Option Program)}
    {program : Program}
    (acyclic : AcyclicImports (programOf modules) program) :
    ∃ bound ≤ modules.length,
      ∀ {π σ μ : Type} (host : Host π σ) (execute : Bool → Action (Session π σ μ) Execution)
        (debug : Bool) (scope : Entries Value) (session : Session π σ μ),
        ∃ result after,
          (∀ answer, Ends host execute debug (programOf modules) .none program scope session answer ↔
            answer = (result, after)) ∧
          (∀ more, bound ≤ more →
            (follow host execute (run debug (programOf modules) more program scope)).on session =
              (result, after)) ∧
          ∀ vars functions, Entries.ofPairs vars = scope →
            (follow host execute (evaluate ⟨program, vars, functions, modules, debug⟩)).on session =
              (result.map Completion.outcome, after) := by
  have few : (Entries.names modules).toFinset.card ≤ modules.length :=
    (List.toFinset_card_le _).trans_eq (List.length_map _)
  have reaches : ∀ name, ReachesModule (programOf modules) program name →
      name ∈ (Entries.names modules).toFinset := by
    rintro name ⟨-, -, -, exist⟩
    rw [List.mem_toFinset]
    by_contra absent
    rw [programOf, (Entries.get?_eq_none_iff modules name).2 absent] at exist
    cases exist
  refine ⟨_, few, fun host execute debug scope session => ?_⟩
  obtain ⟨⟨result, after⟩, ends, runs⟩ : Settles host execute debug (programOf modules)
      (Entries.names modules).toFinset.card .none program scope session :=
    settles_of_reaches _ acyclic reaches .none scope session
  have ran : ∀ more, (Entries.names modules).toFinset.card ≤ more →
      (follow host execute (run debug (programOf modules) more program scope)).on session =
        (result, after) := by
    intro more enough
    rw [run_eq_runStatements]
    exact runs more enough
  refine ⟨result, after, fun answer => ⟨fun other => ?_, fun same => same ▸ ends⟩, ran, ?_⟩
  · exact Ends.unique host execute debug _ ends other
  · rintro vars functions rfl
    have own := ran (importLimit modules.length) (few.trans (Nat.le_add_right _ _))
    change (follow host execute (Completion.outcome <$> run debug (programOf modules)
      (importLimit modules.length) program (Entries.ofPairs vars))).on session = _
    rw [follow_map, Action.on_map, own]

/-- Modules that import a common one on two ways, and one that imports a module that is missing. -/
def layeredModules : Entries (Option Program) :=
  [("top", some [.importModule "left", .importModule "right"]),
    ("left", some [.importModule "base"]),
    ("right", some [.importModule "base", .importModule "gone", .forget "x"]),
    ("base", some [.assign "x" (.call "give" [])])]

/-- Imports the common module once more. -/
def layeredProgram : Program :=
  [.importModule "top", .importModule "base", .expression (.variable "x")]

theorem run_ends_of_acyclic_layeredModules :
    AcyclicImports (programOf layeredModules) layeredProgram ∧
      ∃ after,
        Ends (Language.host none .printing) (fun _ => throw .nestingTooDeep) false
            (programOf layeredModules) .none layeredProgram []
            (callingSession (.ok (.text "given")))
            (.ok ⟨.str "given", [("x", .str "given")]⟩, after) ∧
          (follow (Language.host none .printing) (fun _ => throw .nestingTooDeep)
              (run false (programOf layeredModules) 4 layeredProgram [])).on
            (callingSession (.ok (.text "given"))) =
              (.ok ⟨.str "given", [("x", .str "given")]⟩, after) := by
  have acyclic : AcyclicImports (programOf layeredModules) layeredProgram := by
    refine acyclicImports_of_rank
      (fun name => if name = "top" then 2 else if name = "base" then 0 else 1) ?_ _
    intro name body other found member exist
    have listed := Entries.mem_of_get?_eq_some (Option.join_eq_some_iff.1 found)
    simp only [layeredModules, List.mem_cons, Prod.mk.injEq, Option.some.injEq, List.not_mem_nil,
      or_false] at listed
    rcases listed with ⟨rfl, rfl⟩ | ⟨rfl, rfl⟩ | ⟨rfl, rfl⟩ | ⟨rfl, rfl⟩
    · obtain rfl | rfl : other = "left" ∨ other = "right" := by simpa using member
      all_goals decide
    · obtain rfl : other = "base" := by simpa using member
      decide
    · obtain rfl | rfl : other = "base" ∨ other = "gone" := by simpa using member
      · decide
      · cases exist
    · simp at member
  obtain ⟨bound, small, ends⟩ := run_ends_of_acyclic acyclic
  obtain ⟨result, after, only, runs, -⟩ := ends (Language.host none .printing)
    (fun _ => throw .nestingTooDeep) false [] (callingSession (.ok (.text "given")))
  have ran := runs 4 small
  obtain rfl : .ok ⟨.str "given", [("x", .str "given")]⟩ = result := congrArg Prod.fst ran
  exact ⟨acyclic, after, (only _).2 rfl, ran⟩

end ScriptHost
