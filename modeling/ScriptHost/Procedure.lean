import ScriptHost.Arguments

/-!
# Host procedures

What host functions do while they run: they return or throw, keep a memory of their own, look at the
script's variables, change the containers that scripts share and perform steps on the script that
called them.

* `Step` lists what can be done to a script, from the outside or by a function it calls.
* `Procedure` is the course of one call; `μ` is the type of the host's memory.
-/

namespace ScriptHost

/-- Is the result of a function taken as it is, or waited for? -/
inductive CallMode where
  | immediate
  | suspending
  deriving DecidableEq, Repr

/-- A function as a script calls it. -/
structure Adapter (φ : Type) where
  mode : CallMode
  /-- Is the name of the call passed as the first argument? -/
  withName : Bool
  function : φ

/-- A function to be registered, under its own name unless another is given. -/
structure Registration (φ : Type) where
  name : Option String
  ownName : String
  adapter : Adapter φ

/-- What can be done to a script. -/
inductive Step (φ : Type) where
  | parse (source : String)
  | addVariable (name : String) (value : HostValue)
  | addModule (name source : String)
  | register (registration : Registration φ)
  | execute (debug : Bool)
  /-- Sets a name on a copy of the script's variables. -/
  | snapshot (name : String) (value : HostValue)
  /-- Looks at the program. -/
  | program

/-- What an execution gives. -/
structure Execution where
  /-- The program's value, or the message of the error that it is. -/
  result : Except String HostValue
  /-- The top-level variables afterwards. -/
  vars : List (String × HostValue)

/-- What a step gives, where `π` is the type of programs. -/
inductive StepResult (π : Type) where
  | nothing
  | registered
  | executed (execution : Execution)
  | snapshot (vars : List (String × HostValue))
  | program (program : Option π)

/-- The execution among the results of a step. -/
def StepResult.execution? {π : Type} : StepResult π → Option Execution
  | executed execution => some execution
  | _ => none

/-- The course of one call of a host function. -/
inductive Procedure (μ : Type) where
  | finish (result : Except Fault HostValue)
  /-- Looks into the host's memory. -/
  | recall (next : μ → Procedure μ)
  /-- Replaces the host's memory. -/
  | remember (memory : μ) (next : Procedure μ)
  /-- Looks at the script's variables. -/
  | inspect (next : List (String × HostValue) → Procedure μ)
  /-- Changes the content of the shared container of this number. -/
  | revise (number : Nat) (content : HostValue) (next : Procedure μ)
  /-- Performs a step on the script; an execution is handed on. -/
  | perform (step : Step (List Argument → Procedure μ))
      (next : Except Fault (Option Execution) → Procedure μ)

/-- A host function. -/
abbrev HostFunction (μ : Type) := List Argument → Procedure μ

end ScriptHost
