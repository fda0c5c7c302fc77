import ScriptHost.Proofs.Language.Nesting

/-!
# What debugging changes in a run

While a program is debugged, `print` logs its arguments and calls nothing.

* `Interaction.Within` bounds what an interaction does: whether it logs, and which names it calls.
* `Interaction.printing` logs in the place of every call of `print`.  A run under the debugger is
  the other run with such calls replaced.
* `ReachableCallsOnly` bounds the names that are called in a program and in the modules that it
  reaches through imports.  Its runs call no other names, and where none of them is `print` nothing
  is replaced.
-/

namespace ScriptHost

namespace Arguments

/-- The values of the arguments. -/
def values : Arguments → List Value
  | positional values => values
  | named vars => [.scope vars]

@[simp] theorem values_ofValues (values : List Value) : (ofValues values).values = values := by
  unfold ofValues
  split <;> rfl

end Arguments

namespace Interaction

variable {α β : Type}

/-- The interaction logs nothing unless `logs` holds.  It calls only such functions, and each under
its own name. -/
def Within (logs : Prop) (calls : String → Prop) : Interaction α → Prop
  | done _ => True
  | fail _ => True
  | log _ next => logs ∧ Within logs calls next
  | call function callName _ next =>
      calls function ∧ callName = function ∧ ∀ answer, Within logs calls (next answer)

theorem Within.bind
    {logs : Prop}
    {calls : String → Prop}
    {interaction : Interaction α}
    {f : α → Interaction β}
    (first : interaction.Within logs calls)
    (rest : ∀ result, (f result).Within logs calls) :
    (interaction >>= f).Within logs calls := by
  induction interaction with
  | done result => exact rest result
  | fail fault => trivial
  | log value next ih => exact ⟨first.1, ih first.2⟩
  | call function callName arguments next ih =>
      obtain ⟨allowed, named, further⟩ := first
      exact ⟨allowed, named, fun answer => ih answer (further answer)⟩

theorem within_logAll
    {logs : Prop}
    (loud : logs)
    (calls : String → Prop)
    (values : List Value) :
    (logAll values).Within logs calls := by
  induction values with
  | nil => trivial
  | cons value rest ih => exact ⟨loud, ih⟩

/-- Logs in the place of every call of `print`, which is then answered without a value. -/
def printing : Interaction α → Interaction α
  | done result => done result
  | fail fault => fail fault
  | log value next => log value next.printing
  | call function callName arguments next =>
      if function = "print" then
        logAll arguments.values >>= fun _ => (next (some .none)).printing
      else call function callName arguments fun answer => (next answer).printing

theorem printing_call_print
    (callName : String)
    (arguments : Arguments)
    (next : Option Value → Interaction α) :
    (call "print" callName arguments next).printing =
      logAll arguments.values >>= fun _ => (next (some .none)).printing :=
  if_pos rfl

theorem printing_call_other
    {function : String}
    (other : function ≠ "print")
    (callName : String)
    (arguments : Arguments)
    (next : Option Value → Interaction α) :
    (call function callName arguments next).printing =
      call function callName arguments fun answer => (next answer).printing :=
  if_neg other

theorem printing_bind (interaction : Interaction α) (f : α → Interaction β) :
    (interaction >>= f).printing = interaction.printing >>= fun result => (f result).printing := by
  induction interaction with
  | done result => rfl
  | fail fault => rfl
  | log value next ih => exact congrArg (log value) ih
  | call function callName arguments next ih =>
      rw [call_bind]
      by_cases same : function = "print"
      · subst same
        rw [printing_call_print, printing_call_print, ih, bind_assoc]
      · rw [printing_call_other same, printing_call_other same, call_bind]
        exact congrArg _ (funext ih)

theorem printing_of_within
    {logs : Prop}
    {interaction : Interaction α}
    (within : interaction.Within logs (· ≠ "print")) :
    interaction.printing = interaction := by
  induction interaction with
  | done result => rfl
  | fail fault => rfl
  | log value next ih => exact congrArg (log value) (ih within.2)
  | call function callName arguments next ih =>
      rw [printing_call_other within.1]
      exact congrArg _ (funext fun answer => ih answer (within.2.2 answer))

/-- Under the debugger `print` is never called. -/
theorem Within.printing
    {logs : Prop}
    {calls : String → Prop}
    {interaction : Interaction α}
    (within : interaction.Within logs calls) :
    interaction.printing.Within True (· ≠ "print") := by
  induction interaction with
  | done result => trivial
  | fail fault => trivial
  | log value next ih => exact ⟨trivial, ih within.2⟩
  | call function callName arguments next ih =>
      obtain ⟨-, named, further⟩ := within
      by_cases same : function = "print"
      · subst same
        rw [printing_call_print]
        exact (within_logAll trivial _ _).bind fun _ => ih _ (further _)
      · rw [printing_call_other same]
        exact ⟨same, named, fun answer => ih answer (further answer)⟩

end Interaction

namespace Language

open Interaction

section Debugging

theorem callFunction_printing (function : String) (values : List Value) :
    callFunction true function values = (callFunction false function values).printing := by
  by_cases same : function = "print"
  · subst same
    simp [callFunction, printing_call_print, printing]
  · have other : ¬ (function = "print" && true) = true := by
      simpa using same
    have plain : ¬ (function = "print" && false) = true := by
      simp
    rw [callFunction, callFunction, if_neg other, if_neg plain, printing_call_other same]
    refine congrArg _ (funext fun answer => ?_)
    cases answer <;> rfl

mutual

theorem eval_printing (scope : Entries Value) : (expr : Expr) →
    expr.eval true scope = (expr.eval false scope).printing
  | .literal _ => rfl
  | .variable name => by
      rw [Expr.eval, Expr.eval]
      cases scope.get? name <;> rfl
  | .call function arguments => by
      rw [Expr.eval, Expr.eval, printing_bind, evalItems_printing scope arguments]
      exact congrArg _ (funext (callFunction_printing function))
  | .list members => by
      rw [Expr.eval, Expr.eval, printing_bind, evalItems_printing scope members]
      rfl
  | .scope members => by
      rw [Expr.eval, Expr.eval, printing_bind, evalEntries_printing scope members]
      rfl

theorem evalItems_printing (scope : Entries Value) : (items : List Expr) →
    evalItems true scope items = (evalItems false scope items).printing
  | [] => rfl
  | first :: rest => by
      rw [evalItems, evalItems, printing_bind, eval_printing scope first]
      simp only [printing_bind, evalItems_printing scope rest]
      rfl

theorem evalEntries_printing (scope : Entries Value) : (entries : List (String × Expr)) →
    evalEntries true scope entries = (evalEntries false scope entries).printing
  | [] => rfl
  | (name, first) :: rest => by
      rw [evalEntries, evalEntries, printing_bind, eval_printing scope first]
      simp only [printing_bind, evalEntries_printing scope rest]
      rfl

end

variable (modules : String → Option Program)

theorem runStatements_printing
    {enter enter' : Program → Entries Value → Interaction Completion}
    (entered : ∀ body scope, enter body scope = (enter' body scope).printing)
    (last : Value)
    (program : Program)
    (scope : Entries Value) :
    runStatements true modules enter last program scope =
      (runStatements false modules enter' last program scope).printing := by
  induction program generalizing last scope with
  | nil => rfl
  | cons statement rest ih =>
      cases statement with
      | assign name expr =>
          rw [runStatements, runStatements, printing_bind, eval_printing scope expr]
          exact congrArg _ (funext fun value => ih _ _)
      | expression expr =>
          rw [runStatements, runStatements, printing_bind, eval_printing scope expr]
          exact congrArg _ (funext fun value => ih _ _)
      | forget name => exact ih _ _
      | importModule name =>
          rw [runStatements, runStatements]
          cases modules name with
          | none => rfl
          | some body =>
              dsimp only
              rw [printing_bind, entered body scope]
              exact congrArg _ (funext fun inner => ih _ _)

/-- A run under the debugger is the other run with its calls of `print` replaced. -/
theorem run_printing
    (depth : Nat)
    (program : Program)
    (scope : Entries Value) :
    run true modules depth program scope =
      (run false modules depth program scope).printing := by
  induction depth generalizing program scope with
  | zero =>
      have entered : ∀ body scope, enterAt true modules 0 body scope =
          (enterAt false modules 0 body scope).printing := fun _ _ => rfl
      exact runStatements_printing modules entered _ _ _
  | succ depth ih => exact runStatements_printing modules ih _ _ _

theorem evaluate_printing (request : Request Program) :
    evaluate { request with debug := true } =
      (evaluate { request with debug := false }).printing := by
  rw [evaluate, evaluate, printing_bind, run_printing]
  rfl

end Debugging

section Names

mutual

/-- Every call in the expression, at any depth, is of such a name. -/
def Expr.CallsOnly (calls : String → Prop) : Expr → Prop
  | .literal _ => True
  | .variable _ => True
  | .call function arguments => calls function ∧ ItemsCallOnly calls arguments
  | .list members => ItemsCallOnly calls members
  | .scope members => EntriesCallOnly calls members

def ItemsCallOnly (calls : String → Prop) : List Expr → Prop
  | [] => True
  | first :: rest => first.CallsOnly calls ∧ ItemsCallOnly calls rest

def EntriesCallOnly (calls : String → Prop) : List (String × Expr) → Prop
  | [] => True
  | (_, first) :: rest => first.CallsOnly calls ∧ EntriesCallOnly calls rest

end

/-- Every call in the statement is of such a name. -/
def Statement.CallsOnly (calls : String → Prop) : Statement → Prop
  | .assign _ expr => expr.CallsOnly calls
  | .expression expr => expr.CallsOnly calls
  | .importModule _ => True
  | .forget _ => True

/-- A program reaches itself and, through imports, the modules that it imports and those that they
import. -/
inductive ReachedByImports (modules : String → Option Program) (start : Program) : Program → Prop
  | start : ReachedByImports modules start start
  | imported {program body : Program} {name : String} :
      ReachedByImports modules start program → .importModule name ∈ program →
        modules name = some body → ReachedByImports modules start body

/-- Every call in the program and in the modules that it reaches is of such a name. -/
def ReachableCallsOnly
    (modules : String → Option Program)
    (calls : String → Prop)
    (program : Program) : Prop :=
  ∀ reached, ReachedByImports modules program reached →
    ∀ statement ∈ reached, statement.CallsOnly calls

theorem ReachedByImports.trans
    {modules : String → Option Program}
    {first second third : Program}
    (reaches : ReachedByImports modules first second)
    (further : ReachedByImports modules second third) :
    ReachedByImports modules first third := by
  induction further with
  | start => exact reaches
  | imported _ member found ih => exact .imported ih member found

variable {calls : String → Prop}

theorem within_callFunction
    {function : String}
    (allowed : calls function)
    (values : List Value) :
    (callFunction false function values).Within False calls := by
  have plain : ¬ (function = "print" && false) = true := by
    simp
  rw [callFunction, if_neg plain]
  refine ⟨allowed, rfl, fun answer => ?_⟩
  cases answer <;> trivial

mutual

theorem within_eval (scope : Entries Value) : (expr : Expr) → expr.CallsOnly calls →
    (expr.eval false scope).Within False calls
  | .literal _, _ => trivial
  | .variable name, _ => by
      rw [Expr.eval]
      cases scope.get? name <;> trivial
  | .call function arguments, allowed =>
      (within_evalItems scope arguments allowed.2).bind fun values =>
        within_callFunction allowed.1 values
  | .list members, allowed => (within_evalItems scope members allowed).bind fun _ => trivial
  | .scope members, allowed => (within_evalEntries scope members allowed).bind fun _ => trivial

theorem within_evalItems (scope : Entries Value) : (items : List Expr) →
    ItemsCallOnly calls items → (evalItems false scope items).Within False calls
  | [], _ => trivial
  | first :: rest, allowed =>
      (within_eval scope first allowed.1).bind fun _ =>
        (within_evalItems scope rest allowed.2).bind fun _ => trivial

theorem within_evalEntries (scope : Entries Value) : (entries : List (String × Expr)) →
    EntriesCallOnly calls entries → (evalEntries false scope entries).Within False calls
  | [], _ => trivial
  | (_, first) :: rest, allowed =>
      (within_eval scope first allowed.1).bind fun _ =>
        (within_evalEntries scope rest allowed.2).bind fun _ => trivial

end

variable (modules : String → Option Program)

theorem within_runStatements
    {enter : Program → Entries Value → Interaction Completion}
    (last : Value)
    (program : Program)
    (scope : Entries Value)
    (allowed : ∀ statement ∈ program, statement.CallsOnly calls)
    (entered : ∀ name body, .importModule name ∈ program → modules name = some body →
      ∀ scope, (enter body scope).Within False calls) :
    (runStatements false modules enter last program scope).Within False calls := by
  induction program generalizing last scope with
  | nil => trivial
  | cons statement rest ih =>
      have here := allowed statement List.mem_cons_self
      have further := fun last scope => ih last scope
        (fun other member => allowed other (List.mem_cons_of_mem _ member))
        (fun name body member => entered name body (List.mem_cons_of_mem _ member))
      cases statement with
      | assign name expr => exact (within_eval scope expr here).bind fun _ => further _ _
      | expression expr => exact (within_eval scope expr here).bind fun _ => further _ _
      | forget name => exact further _ _
      | importModule name =>
          rw [runStatements]
          cases found : modules name with
          | none => trivial
          | some body =>
              exact (entered name body List.mem_cons_self found scope).bind fun _ => further _ _

/-- A run calls only names that are called in the program or in a module that it reaches, and logs
nothing of its own. -/
theorem within_run
    (depth : Nat)
    {program : Program}
    (allowed : ReachableCallsOnly modules calls program)
    (scope : Entries Value) :
    (run false modules depth program scope).Within False calls := by
  induction depth generalizing program scope with
  | zero =>
      exact within_runStatements modules _ program scope (allowed program .start)
        fun _ _ _ _ _ => trivial
  | succ depth ih =>
      refine within_runStatements modules _ program scope (allowed program .start) ?_
      intro name body member found inner
      refine ih (fun reached reaches => allowed reached ?_) inner
      exact ReachedByImports.trans (.imported .start member found) reaches

mutual

theorem callsOnly_of_forall (every : ∀ name, calls name) : (expr : Expr) → expr.CallsOnly calls
  | .literal _ => trivial
  | .variable _ => trivial
  | .call function arguments => ⟨every function, itemsCallOnly_of_forall every arguments⟩
  | .list members => itemsCallOnly_of_forall every members
  | .scope members => entriesCallOnly_of_forall every members

theorem itemsCallOnly_of_forall (every : ∀ name, calls name) : (items : List Expr) →
    ItemsCallOnly calls items
  | [] => trivial
  | first :: rest => ⟨callsOnly_of_forall every first, itemsCallOnly_of_forall every rest⟩

theorem entriesCallOnly_of_forall (every : ∀ name, calls name) :
    (entries : List (String × Expr)) → EntriesCallOnly calls entries
  | [] => trivial
  | (_, first) :: rest => ⟨callsOnly_of_forall every first, entriesCallOnly_of_forall every rest⟩

end

theorem reachableCallsOnly_of_forall
    (every : ∀ name, calls name)
    (program : Program) :
    ReachableCallsOnly modules calls program := by
  intro reached _ statement _
  cases statement with
  | assign _ expr => exact callsOnly_of_forall every expr
  | expression expr => exact callsOnly_of_forall every expr
  | importModule _ => trivial
  | forget _ => trivial

end Names

end Language
end ScriptHost
