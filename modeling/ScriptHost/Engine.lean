import ScriptHost.Interaction

/-!
# Engines

What a script needs from a language: to compile sources, to evaluate programs and to evaluate a text
that is a literal.  Programs are of whatever type the engine likes, and it may keep a state of its
own between its uses.
-/

namespace ScriptHost

/-- Everything that an engine is told for one evaluation. -/
structure Request (π : Type) where
  program : π
  /-- The top-level variables at the start. -/
  vars : List Variable
  /-- The names of the registered functions. -/
  functions : List String
  /-- The programs of the modules that can be imported. -/
  modules : Entries (Option π)
  /-- Are the engine's own diagnostics switched on? -/
  debug : Bool

/-- What an evaluation hands back. -/
structure Outcome where
  result : Value
  /-- The complete top-level scope after the evaluation. -/
  scope : List Variable

/-- An engine with programs of type `π` and a state of type `σ`. -/
structure Engine (π σ : Type) where
  /-- The program of a source, if it has one. -/
  compile : String → σ → Except SourceFault (Option π) × σ
  /-- The course of an evaluation. -/
  evaluate : Request π → σ → Interaction Outcome × σ
  /-- The value of a literal. -/
  literal : String → Except SourceFault Value

/-- The outcome of a text that is a literal. -/
def Engine.expression
    {π σ : Type}
    (engine : Engine π σ)
    (text : String) : Except Fault (Except String HostValue) :=
  match engine.literal text with
  | .ok value => .ok value.result
  | .error fault => .error (.malformed fault)

end ScriptHost
