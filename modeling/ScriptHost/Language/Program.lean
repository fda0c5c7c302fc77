import ScriptHost.Value.Basic

/-!
# Programs

The abstract form of the line language: a program is a list of statements, and statements hold
expressions.
-/

namespace ScriptHost
namespace Language

/-- An expression. -/
inductive Expr where
  | literal (value : Value)
  | variable (name : String)
  | call (function : String) (arguments : List Expr)
  | list (items : List Expr)
  | scope (entries : List (String × Expr))
  deriving Inhabited

/-- A statement. -/
inductive Statement where
  | assign (name : String) (value : Expr)
  | expression (value : Expr)
  /-- Runs a module in the current scope. -/
  | importModule (name : String)
  /-- Removes a variable. -/
  | forget (name : String)
  deriving Inhabited

/-- A program. -/
abbrev Program := List Statement

end Language
end ScriptHost
