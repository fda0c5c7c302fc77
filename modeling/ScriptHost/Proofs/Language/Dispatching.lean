import ScriptHost.Proofs.Language.Nesting

/-!
# The calls of a program

Which calls a program hands to the outside, in which order, and how they decide its course.

* `ExprCalls` and `ProgramCalls` are the rules.  The arguments of a call are evaluated from left to
  right before the call itself, and the statements of a module where it is imported.  A call that is
  not answered ends the program.
* `Interaction.Way` lists the calls along a way through an interaction.
* `programCalls_of_way`: every way through a run obeys the rules.
-/

namespace ScriptHost

/-- A call that is handed to the outside, with the value that comes back or the fault that ends
everything. -/
structure Dispatch where
  name : String
  arguments : Arguments
  answer : Except Fault Value

namespace Interaction

variable {α β : Type}

/-- A way through an interaction: the calls on it and its end.  A logged value may be refused, and a
function that does not exist is not called. -/
inductive Way : Interaction α → List Dispatch → Except Fault α → Prop
  | done (result : α) : Way (.done result) [] (.ok result)
  | fail (fault : Fault) : Way (.fail fault) [] (.error fault)
  | log (value : Value) {next : Interaction α} {calls : List Dispatch} {result : Except Fault α} :
      Way next calls result → Way (.log value next) calls result
  | refused (value : Value) (next : Interaction α) (fault : Fault) :
      Way (.log value next) [] (.error fault)
  | answered (function callName : String) (arguments : Arguments) (value : Value)
      {next : Option Value → Interaction α} {calls : List Dispatch} {result : Except Fault α} :
      Way (next (some value)) calls result →
        Way (.call function callName arguments next) (⟨callName, arguments, .ok value⟩ :: calls)
          result
  | unanswered (function callName : String) (arguments : Arguments) (fault : Fault)
      (next : Option Value → Interaction α) :
      Way (.call function callName arguments next) [⟨callName, arguments, .error fault⟩]
        (.error fault)
  | unknown (function callName : String) (arguments : Arguments)
      {next : Option Value → Interaction α} {calls : List Dispatch} {result : Except Fault α} :
      Way (next none) calls result → Way (.call function callName arguments next) calls result

/-- A way through two interactions in sequence ends in the first or goes on through the second. -/
theorem Way.of_bind
    {interaction : Interaction α}
    {f : α → Interaction β}
    {calls : List Dispatch}
    {result : Except Fault β}
    (way : Way (interaction >>= f) calls result) :
    (∃ fault, result = .error fault ∧ Way interaction calls (.error fault)) ∨
      ∃ earlier later value, calls = earlier ++ later ∧
        Way interaction earlier (.ok value) ∧ Way (f value) later result := by
  induction interaction generalizing calls with
  | done value => exact .inr ⟨[], calls, value, rfl, .done value, way⟩
  | fail fault =>
      cases way
      exact .inl ⟨fault, rfl, .fail fault⟩
  | log value next ih =>
      cases way with
      | log _ rest =>
          rcases ih rest with ⟨fault, failed, ended⟩ | ⟨earlier, later, passed, split, ended, last⟩
          · exact .inl ⟨fault, failed, .log value ended⟩
          · exact .inr ⟨earlier, later, passed, split, .log value ended, last⟩
      | refused _ _ fault => exact .inl ⟨fault, rfl, .refused value next fault⟩
  | call function callName arguments next ih =>
      cases way with
      | answered _ _ _ value rest =>
          rcases ih _ rest with ⟨fault, failed, ended⟩ | ⟨earlier, later, passed, rfl, ended, last⟩
          · exact .inl ⟨fault, failed, .answered function callName arguments value ended⟩
          · exact .inr ⟨_ :: earlier, later, passed, rfl,
              .answered function callName arguments value ended, last⟩
      | unanswered _ _ _ fault _ =>
          exact .inl ⟨fault, rfl, .unanswered function callName arguments fault next⟩
      | unknown _ _ _ rest =>
          rcases ih _ rest with
            ⟨fault, failed, ended⟩ | ⟨earlier, later, passed, split, ended, last⟩
          · exact .inl ⟨fault, failed, .unknown function callName arguments ended⟩
          · exact .inr ⟨earlier, later, passed, split, .unknown function callName arguments ended,
              last⟩

theorem Way.of_map
    {f : α → β}
    {interaction : Interaction α}
    {calls : List Dispatch}
    {result : Except Fault β}
    (way : Way (f <$> interaction) calls result) :
    ∃ before : Except Fault α, result = before.map f ∧ Way interaction calls before := by
  rcases way.of_bind with ⟨fault, rfl, failed⟩ | ⟨earlier, later, value, rfl, passed, last⟩
  · exact ⟨.error fault, rfl, failed⟩
  · cases last
    rw [List.append_nil]
    exact ⟨.ok value, rfl, passed⟩

end Interaction

namespace Language

open Interaction

mutual

/-- An expression makes the calls in order and has the value, or fails. -/
inductive ExprCalls (debug : Bool) (scope : Entries Value) :
    Expr → List Dispatch → Except Fault Value → Prop
  | literal (value : Value) : ExprCalls debug scope (.literal value) [] (.ok value)
  | variable {name : String} {value : Value} :
      scope.get? name = some value → ExprCalls debug scope (.variable name) [] (.ok value)
  | undefined {name : String} :
      scope.get? name = none →
        ExprCalls debug scope (.variable name) [] (.error (.undefinedVariable name))
  | argument (function : String) {arguments : List Expr} {calls : List Dispatch} {fault : Fault} :
      ItemsCalls debug scope arguments calls (.error fault) →
        ExprCalls debug scope (.call function arguments) calls (.error fault)
  /-- While debugging, `print` calls nothing.  What it logs may be refused. -/
  | print {arguments : List Expr} {calls : List Dispatch} {values : List Value}
      {result : Except Fault Value} :
      debug = true → ItemsCalls debug scope arguments calls (.ok values) →
        (∀ value, result = .ok value → value = .none) →
        ExprCalls debug scope (.call "print" arguments) calls result
  | call {function : String} {arguments : List Expr} {calls : List Dispatch} {values : List Value}
      (answer : Except Fault Value) :
      (function = "print" → debug = false) →
        ItemsCalls debug scope arguments calls (.ok values) →
        ExprCalls debug scope (.call function arguments)
          (calls ++ [⟨function, .ofValues values, answer⟩]) answer
  | unknown {function : String} {arguments : List Expr} {calls : List Dispatch}
      {values : List Value} :
      (function = "print" → debug = false) →
        ItemsCalls debug scope arguments calls (.ok values) →
        ExprCalls debug scope (.call function arguments) calls (.error (.unknownFunction function))
  | list {members : List Expr} {calls : List Dispatch} {result : Except Fault (List Value)} :
      ItemsCalls debug scope members calls result →
        ExprCalls debug scope (.list members) calls (result.map .list)
  | scope {members : List (String × Expr)} {calls : List Dispatch}
      {result : Except Fault (List Variable)} :
      EntriesCalls debug scope members calls result →
        ExprCalls debug scope (.scope members) calls (result.map .scope)

/-- Expressions make their calls from left to right, up to the first that fails. -/
inductive ItemsCalls (debug : Bool) (scope : Entries Value) :
    List Expr → List Dispatch → Except Fault (List Value) → Prop
  | nil : ItemsCalls debug scope [] [] (.ok [])
  | cons {first : Expr} {rest : List Expr} {earlier later : List Dispatch} {value : Value}
      {result : Except Fault (List Value)} :
      ExprCalls debug scope first earlier (.ok value) →
        ItemsCalls debug scope rest later result →
        ItemsCalls debug scope (first :: rest) (earlier ++ later) (result.map (value :: ·))
  | stop {first : Expr} (rest : List Expr) {calls : List Dispatch} {fault : Fault} :
      ExprCalls debug scope first calls (.error fault) →
        ItemsCalls debug scope (first :: rest) calls (.error fault)

/-- The entries of a scope make their calls from left to right, up to the first that fails. -/
inductive EntriesCalls (debug : Bool) (scope : Entries Value) :
    List (String × Expr) → List Dispatch → Except Fault (List Variable) → Prop
  | nil : EntriesCalls debug scope [] [] (.ok [])
  | cons {name : String} {first : Expr} {rest : List (String × Expr)}
      {earlier later : List Dispatch} {value : Value} {result : Except Fault (List Variable)} :
      ExprCalls debug scope first earlier (.ok value) →
        EntriesCalls debug scope rest later result →
        EntriesCalls debug scope ((name, first) :: rest) (earlier ++ later)
          (result.map ((name, value) :: ·))
  | stop (name : String) {first : Expr} (rest : List (String × Expr)) {calls : List Dispatch}
      {fault : Fault} :
      ExprCalls debug scope first calls (.error fault) →
        EntriesCalls debug scope ((name, first) :: rest) calls (.error fault)

end

/-- A program makes the calls in order and leaves the scope, or fails.  The number says how deep its
imports may nest. -/
inductive ProgramCalls (debug : Bool) (modules : String → Option Program) :
    Nat → Program → Entries Value → List Dispatch → Except Fault (Entries Value) → Prop
  | nil (depth : Nat) (scope : Entries Value) :
      ProgramCalls debug modules depth [] scope [] (.ok scope)
  | assign {depth : Nat} (name : String) {expr : Expr} {rest : Program} {scope : Entries Value}
      {earlier later : List Dispatch} {value : Value} {result : Except Fault (Entries Value)} :
      ExprCalls debug scope expr earlier (.ok value) →
        ProgramCalls debug modules depth rest (scope.put name value) later result →
        ProgramCalls debug modules depth (.assign name expr :: rest) scope (earlier ++ later) result
  | assignStop (depth : Nat) (name : String) {expr : Expr} (rest : Program) {scope : Entries Value}
      {calls : List Dispatch} {fault : Fault} :
      ExprCalls debug scope expr calls (.error fault) →
        ProgramCalls debug modules depth (.assign name expr :: rest) scope calls (.error fault)
  | expression {depth : Nat} {expr : Expr} {rest : Program} {scope : Entries Value}
      {earlier later : List Dispatch} {value : Value} {result : Except Fault (Entries Value)} :
      ExprCalls debug scope expr earlier (.ok value) →
        ProgramCalls debug modules depth rest scope later result →
        ProgramCalls debug modules depth (.expression expr :: rest) scope (earlier ++ later) result
  | expressionStop (depth : Nat) {expr : Expr} (rest : Program) {scope : Entries Value}
      {calls : List Dispatch} {fault : Fault} :
      ExprCalls debug scope expr calls (.error fault) →
        ProgramCalls debug modules depth (.expression expr :: rest) scope calls (.error fault)
  | forget {depth : Nat} (name : String) {rest : Program} {scope : Entries Value}
      {calls : List Dispatch} {result : Except Fault (Entries Value)} :
      ProgramCalls debug modules depth rest (scope.erase name) calls result →
        ProgramCalls debug modules depth (.forget name :: rest) scope calls result
  | missing (depth : Nat) {name : String} (rest : Program) (scope : Entries Value) :
      modules name = none →
        ProgramCalls debug modules depth (.importModule name :: rest) scope [] (.ok scope)
  | tooDeep {name : String} {body : Program} (rest : Program) (scope : Entries Value) :
      modules name = some body →
        ProgramCalls debug modules 0 (.importModule name :: rest) scope [] (.error .nestingTooDeep)
  | imported {depth : Nat} {name : String} {body rest : Program} {scope left : Entries Value}
      {earlier later : List Dispatch} {result : Except Fault (Entries Value)} :
      modules name = some body →
        ProgramCalls debug modules depth body scope earlier (.ok left) →
        ProgramCalls debug modules (depth + 1) rest left later result →
        ProgramCalls debug modules (depth + 1) (.importModule name :: rest) scope
          (earlier ++ later) result
  | importStop {depth : Nat} {name : String} {body : Program} (rest : Program)
      {scope : Entries Value} {calls : List Dispatch} {fault : Fault} :
      modules name = some body →
        ProgramCalls debug modules depth body scope calls (.error fault) →
        ProgramCalls debug modules (depth + 1) (.importModule name :: rest) scope calls
          (.error fault)

theorem calls_of_way_logAll
    {values : List Value}
    {calls : List Dispatch}
    {result : Except Fault Unit}
    (way : Way (logAll values) calls result) :
    calls = [] := by
  induction values with
  | nil =>
      cases way
      rfl
  | cons value rest ih =>
      cases way with
      | log _ further => exact ih further
      | refused _ _ fault => rfl

section Expressions

variable {debug : Bool}
variable {scope : Entries Value}

theorem exprCalls_of_callFunction
    {function : String}
    {arguments : List Expr}
    {values : List Value}
    {earlier later : List Dispatch}
    {result : Except Fault Value}
    (evaluated : ItemsCalls debug scope arguments earlier (.ok values))
    (way : Way (callFunction debug function values) later result) :
    ExprCalls debug scope (.call function arguments) (earlier ++ later) result := by
  rw [callFunction] at way
  split at way
  next printing =>
      obtain ⟨rfl, debugging⟩ : function = "print" ∧ debug = true := by simpa using printing
      rcases way.of_bind with ⟨fault, rfl, logged⟩ | ⟨before, after, _, rfl, logged, ended⟩
      · rw [calls_of_way_logAll logged, List.append_nil]
        exact .print debugging evaluated (by simp)
      · rw [calls_of_way_logAll logged]
        cases ended
        simpa using ExprCalls.print debugging evaluated (by simp)
  next calling =>
      have plain : function = "print" → debug = false := by simpa using calling
      cases way with
      | answered _ _ _ value rest =>
          cases rest
          exact .call (.ok value) plain evaluated
      | unanswered _ _ _ fault _ => exact .call (.error fault) plain evaluated
      | unknown _ _ _ rest =>
          cases rest
          rw [List.append_nil]
          exact .unknown plain evaluated

mutual

theorem exprCalls_of_way : (expr : Expr) → {calls : List Dispatch} →
    {result : Except Fault Value} → Way (expr.eval debug scope) calls result →
      ExprCalls debug scope expr calls result
  | .literal value, _, _, way => by
      cases way
      exact .literal value
  | .variable name, _, _, way => by
      rw [Expr.eval] at way
      cases found : scope.get? name with
      | some value =>
          rw [found] at way
          cases way
          exact .variable found
      | none =>
          rw [found] at way
          cases way
          exact .undefined found
  | .call function arguments, _, _, way => by
      rcases way.of_bind with ⟨fault, rfl, failed⟩ | ⟨earlier, later, values, rfl, passed, rest⟩
      · exact .argument function (itemsCalls_of_way arguments failed)
      · exact exprCalls_of_callFunction (itemsCalls_of_way arguments passed) rest
  | .list members, _, _, way => by
      rcases way.of_bind with ⟨fault, rfl, failed⟩ | ⟨earlier, later, values, rfl, passed, rest⟩
      · exact .list (itemsCalls_of_way members failed)
      · cases rest
        rw [List.append_nil]
        exact .list (itemsCalls_of_way members passed)
  | .scope members, _, _, way => by
      rcases way.of_bind with ⟨fault, rfl, failed⟩ | ⟨earlier, later, values, rfl, passed, rest⟩
      · exact .scope (entriesCalls_of_way members failed)
      · cases rest
        rw [List.append_nil]
        exact .scope (entriesCalls_of_way members passed)

theorem itemsCalls_of_way : (items : List Expr) → {calls : List Dispatch} →
    {result : Except Fault (List Value)} → Way (evalItems debug scope items) calls result →
      ItemsCalls debug scope items calls result
  | [], _, _, way => by
      cases way
      exact .nil
  | first :: rest, _, _, way => by
      rcases way.of_bind with ⟨fault, rfl, failed⟩ | ⟨earlier, others, value, rfl, passed, further⟩
      · exact .stop rest (exprCalls_of_way first failed)
      · have here := exprCalls_of_way first passed
        rcases further.of_bind with ⟨fault, rfl, failed⟩ | ⟨later, none, values, rfl, ended, last⟩
        · exact .cons here (itemsCalls_of_way rest failed)
        · cases last
          rw [List.append_nil]
          exact .cons here (itemsCalls_of_way rest ended)

theorem entriesCalls_of_way : (entries : List (String × Expr)) → {calls : List Dispatch} →
    {result : Except Fault (List Variable)} → Way (evalEntries debug scope entries) calls result →
      EntriesCalls debug scope entries calls result
  | [], _, _, way => by
      cases way
      exact .nil
  | (name, first) :: rest, _, _, way => by
      rcases way.of_bind with ⟨fault, rfl, failed⟩ | ⟨earlier, others, value, rfl, passed, further⟩
      · exact .stop name rest (exprCalls_of_way first failed)
      · have here := exprCalls_of_way first passed
        rcases further.of_bind with ⟨fault, rfl, failed⟩ | ⟨later, none, values, rfl, ended, last⟩
        · exact .cons here (entriesCalls_of_way rest failed)
        · cases last
          rw [List.append_nil]
          exact .cons here (entriesCalls_of_way rest ended)

end

end Expressions

section Programs

variable (debug : Bool)
variable (modules : String → Option Program)

theorem programCalls_of_runStatements :
    (depth : Nat) → (last : Value) → (program : Program) → {scope : Entries Value} →
    {calls : List Dispatch} → {result : Except Fault Completion} →
    Way (runStatements debug modules (enterAt debug modules depth) last program scope) calls
      result →
    ProgramCalls debug modules depth program scope calls (result.map Completion.scope)
  | depth, _, [], scope, _, _, way => by
      cases way
      exact .nil depth scope
  | depth, _, .assign name expr :: rest, _, _, _, way => by
      rcases way.of_bind with ⟨fault, rfl, failed⟩ | ⟨earlier, later, value, rfl, passed, further⟩
      · exact .assignStop depth name rest (exprCalls_of_way expr failed)
      · exact .assign name (exprCalls_of_way expr passed)
          (programCalls_of_runStatements depth _ rest further)
  | depth, _, .expression expr :: rest, _, _, _, way => by
      rcases way.of_bind with ⟨fault, rfl, failed⟩ | ⟨earlier, later, value, rfl, passed, further⟩
      · exact .expressionStop depth rest (exprCalls_of_way expr failed)
      · exact .expression (exprCalls_of_way expr passed)
          (programCalls_of_runStatements depth _ rest further)
  | depth, _, .forget name :: rest, _, _, _, way =>
      .forget name (programCalls_of_runStatements depth _ rest way)
  | 0, _, .importModule name :: rest, scope, _, _, way => by
      rw [runStatements] at way
      cases found : modules name with
      | none =>
          rw [found] at way
          cases way
          exact .missing 0 rest scope found
      | some body =>
          rw [found] at way
          cases way
          exact .tooDeep rest scope found
  | depth + 1, _, .importModule name :: rest, scope, _, _, way => by
      rw [runStatements] at way
      cases found : modules name with
      | none =>
          rw [found] at way
          cases way
          exact .missing (depth + 1) rest scope found
      | some body =>
          rw [found] at way
          rcases way.of_bind with
            ⟨fault, rfl, failed⟩ | ⟨earlier, later, inner, rfl, passed, further⟩
          · rw [enterAt, run_eq_runStatements] at failed
            exact .importStop rest found (programCalls_of_runStatements depth _ body failed)
          · rw [enterAt, run_eq_runStatements] at passed
            exact .imported found (programCalls_of_runStatements depth _ body passed)
              (programCalls_of_runStatements (depth + 1) _ rest further)
termination_by depth _ program => (depth, program.length)

/-- Every way through the run of a program obeys the rules of its calls. -/
theorem programCalls_of_way
    {depth : Nat}
    {program : Program}
    {scope : Entries Value}
    {calls : List Dispatch}
    {result : Except Fault Completion}
    (way : Way (run debug modules depth program scope) calls result) :
    ProgramCalls debug modules depth program scope calls (result.map Completion.scope) := by
  rw [run_eq_runStatements] at way
  exact programCalls_of_runStatements debug modules depth .none program way

end Programs

end Language
end ScriptHost
