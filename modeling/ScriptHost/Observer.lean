import ScriptHost.Arguments
import ScriptHost.HostValue.Display

/-!
# Observers and loggers

A host can watch its scripts: an observer is told of executions and calls, a logger receives what
scripts print.  Both may refuse by throwing.

An observer is handed the very arguments that a function is about to receive and the very exception
that it has thrown, and can change both.  The value that a function has returned is read-only, and
what an observer does to the script itself is no part of its reaction.
-/

namespace ScriptHost

/-- What an observer is told. -/
inductive Event where
  /-- A host function is about to be called with these arguments. -/
  | call (name : String) (arguments : List HostValue)
  /-- A host function has returned this value. -/
  | returned (name : String) (value : Value)
  /-- A host function has thrown an exception, which became an error value. -/
  | failed (name message : String)
  /-- An execution starts with this many variables. -/
  | started (debug : Bool) (variableCount : Nat)
  /-- An execution has ended. -/
  | ended (ok : Bool)

/-- What an observer does to the things that it is handed. -/
structure Interference where
  /-- The arguments of the call that is about to be made, as the observer leaves them. -/
  arguments : List Argument → List Argument
  /-- The message of the exception that was caught, as the observer leaves it. -/
  message : String → String

/-- Everything is left as it is. -/
def Interference.none : Interference where
  arguments := fun given => given
  message := fun message => message

/-- What an observer does about an event. -/
inductive Reaction where
  | proceed
  | interfere (interference : Interference)
  | abort (fault : Fault)

/-- What a reaction does to the things that the observer was handed, unless it throws. -/
def Reaction.interference : Reaction → Except Fault Interference
  | proceed => .ok .none
  | interfere interference => .ok interference
  | abort fault => .error fault

/-- An observer's reaction to an event, given the events before it. -/
abbrev Observer := List Event → Event → Reaction

/-- What a logger has received. -/
inductive LogEntry where
  | value (value : HostValue)
  | printed (text : String)

/-- What becomes of logged values. -/
inductive Logger where
  /-- Their display form is printed. -/
  | printing
  /-- They are kept; given the earlier entries, the logger may throw afterwards. -/
  | keeping (refusal : List LogEntry → HostValue → Option Fault)

/-- The entries after one more value is logged, and the fault that stops the script if there is
one. -/
def Logger.log
    (logger : Logger)
    (entries : List LogEntry)
    (value : HostValue) : List LogEntry × Except Fault Unit :=
  match logger with
  | printing =>
      match value.format 1 with
      | .ok text => (entries ++ [.printed text], .ok ())
      | .error fault => (entries, .error fault)
  | keeping refusal =>
      (entries ++ [.value value],
        match refusal entries value with
        | some fault => .error fault
        | none => .ok ())

end ScriptHost
