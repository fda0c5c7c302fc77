import ScriptHost.Engine
import ScriptHost.Language.Parser

/-!
# Running programs

The evaluation of the line language as an interaction.

* Expressions are evaluated from left to right, arguments before the call.
* Statements run in order in one scope; an imported module runs in the scope of the statement that
  imports it.
* The last statement gives the result: the value of an expression, and nothing after an assignment,
  an import or a `forget`.  A missing module ends its program with an error value.
* Imports nest at most `importLimit` deep.
-/

namespace ScriptHost
namespace Language

/-- Calls a function with the given values.  While debugging, `print` logs them instead. -/
def callFunction
    (debug : Bool)
    (function : String)
    (values : List Value) : Interaction Value :=
  if function = "print" && debug then do
    Interaction.logAll values
    pure .none
  else
    .call function function (Arguments.ofValues values) fun
      | some value => .done value
      | none => .fail (.unknownFunction function)

mutual

/-- The value of an expression in a scope. -/
def Expr.eval (debug : Bool) (scope : Entries Value) : Expr → Interaction Value
  | .literal value => pure value
  | .variable name =>
      match scope.get? name with
      | some value => pure value
      | none => .fail (.undefinedVariable name)
  | .call function arguments => do
      let values ← evalItems debug scope arguments
      callFunction debug function values
  | .list members => do
      let values ← evalItems debug scope members
      pure (.list values)
  | .scope members => do
      let vars ← evalEntries debug scope members
      pure (.scope vars)

/-- The values of expressions, from left to right. -/
def evalItems (debug : Bool) (scope : Entries Value) : List Expr → Interaction (List Value)
  | [] => pure []
  | first :: rest => do
      let value ← first.eval debug scope
      let others ← evalItems debug scope rest
      pure (value :: others)

/-- The variables of scope entries, from left to right. -/
def evalEntries (debug : Bool) (scope : Entries Value) :
    List (String × Expr) → Interaction (List Variable)
  | [] => pure []
  | (name, first) :: rest => do
      let value ← first.eval debug scope
      let others ← evalEntries debug scope rest
      pure ((name, value) :: others)

end

/-- The value of a program that imports a module that does not exist. -/
def moduleNotFound (name : String) : Value :=
  .errorOf "ModuleNotFoundError" ("no module named " ++ name)

/-- The result of a program and the scope that it leaves. -/
structure Completion where
  result : Value
  scope : Entries Value

/-- Runs statements, where `enter` runs an imported module and `last` is the result so far. -/
def runStatements
    (debug : Bool)
    (modules : String → Option Program)
    (enter : Program → Entries Value → Interaction Completion) :
    Value → Program → Entries Value → Interaction Completion
  | last, [], scope => pure ⟨last, scope⟩
  | _, .assign name expr :: rest, scope => do
      let value ← expr.eval debug scope
      runStatements debug modules enter .none rest (scope.put name value)
  | _, .expression expr :: rest, scope => do
      let value ← expr.eval debug scope
      runStatements debug modules enter value rest scope
  | _, .forget name :: rest, scope =>
      runStatements debug modules enter .none rest (scope.erase name)
  | _, .importModule name :: rest, scope =>
      match modules name with
      | none => pure ⟨moduleNotFound name, scope⟩
      | some body => do
          let inner ← enter body scope
          runStatements debug modules enter .none rest inner.scope

/-- Runs a program whose imports may nest as deep as the first number says. -/
def run
    (debug : Bool)
    (modules : String → Option Program) :
    Nat → Program → Entries Value → Interaction Completion
  | 0 => runStatements debug modules (fun _ _ => .fail .nestingTooDeep) .none
  | depth + 1 => runStatements debug modules (run debug modules depth) .none

/-- How deep imports may nest: through every module once, and a thousand times more for the sake of
modules that import themselves and are stopped by a fault. -/
def importLimit (moduleCount : Nat) : Nat := moduleCount + 1000

/-- The course of an evaluation. -/
def evaluate (request : Request Program) : Interaction Outcome := do
  let completion ← run request.debug (fun name => (request.modules.get? name).join)
    (importLimit request.modules.length) request.program (Entries.ofPairs request.vars)
  pure ⟨completion.result, completion.scope⟩

/-- The engine of the line language. -/
def engine : Engine Program Unit where
  compile source state := ((compile source).map some, state)
  evaluate request state := (evaluate request, state)
  literal := literal

end Language
end ScriptHost
