import ScriptHost.HostValue.Display
import ScriptHost.Procedure
import ScriptHost.Value.Codec

/-!
# Stock functions

Ready-made host functions: they return constants or their arguments, count their calls, add, display
and compare values, throw, change what they are given, and act on the script that calls them.

* `StockFunction.run` gives the course of a call.
* Their memory numbers the calls, so that an object made or received during one call is told from
  those of every other, and counts the calls of each function that asks for it.
-/

namespace ScriptHost

/-- A ready-made host function. -/
inductive StockFunction where
  /-- Returns the value, made anew for each call. -/
  | constant (value : HostValue)
  /-- Returns the list of its arguments. -/
  | arguments
  /-- Returns its first argument. -/
  | first
  /-- Returns how often the function of this number has been called. -/
  | count (number : Nat)
  /-- Adds its numeric arguments. -/
  | sum
  /-- Returns the display forms of its arguments. -/
  | format
  /-- Returns the tags of its arguments. -/
  | classify
  /-- Tells whether its first two arguments are one and the same. -/
  | same
  | throw (fault : Fault)
  /-- Throws an exception with its first argument as the message. -/
  | throwFirst
  /-- Returns a promise of the value; the promise is the object of the given number. -/
  | promise (number : Nat) (value : HostValue)
  /-- Returns a promise that is rejected. -/
  | reject (number : Nat) (fault : Fault)
  /-- Changes its first argument and returns it. -/
  | mutate
  /-- Returns the script's variables. -/
  | scriptVariables
  /-- Performs a step and returns the value. -/
  | stepThen (step : Step StockFunction) (value : HostValue)
  /-- Performs a step and returns what came of an execution. -/
  | step (step : Step StockFunction)

namespace StockFunction

/-- What stock functions remember. -/
structure Memory where
  /-- How many calls there were. -/
  calls : Nat
  /-- How often each counting function was called; it is known by its number and by the call during
  which it was registered. -/
  counts : List ((Nat × Nat) × Nat)

/-- Nothing to remember yet. -/
def Memory.empty : Memory := ⟨0, []⟩

/-- The count of a function. -/
def Memory.countOf (memory : Memory) (key : Nat × Nat) : Nat :=
  (memory.counts.lookup key).getD 0

/-- Counts a call of a function. -/
def Memory.increment (memory : Memory) (key : Nat × Nat) : Memory :=
  { memory with counts := (key, memory.countOf key + 1) :: memory.counts }

/-- The argument at a position, absent if there are fewer. -/
def argument (arguments : List Argument) (position : Nat) : Argument :=
  arguments[position]?.getD (.own .absent)

/-- The sum of the numbers among the arguments, from left to right. -/
def sumOf (arguments : List HostValue) : Number :=
  arguments.foldl
    (fun total argument =>
      match argument with
      | .number x => total.add x
      | _ => total)
    (Number.ofNat 0)

/-- The display forms of the arguments in one line. -/
def displayAll (arguments : List HostValue) : Except Fault HostValue := do
  let texts ← HostValue.formatItems 1 arguments
  .ok (.text (String.intercalate "|" texts))

/-- The message that a value makes. -/
def messageOf : HostValue → Except Fault String
  | .absent => .ok ""
  | value => value.plainText

/-- A value after it was changed: a list, a scope or a record gains an entry, and bytes are all set
to their greatest value. -/
def changed : HostValue → HostValue
  | .list items => .list (items ++ [.text "mutated"])
  | .bytes buffer content => .bytes buffer (content.map fun _ => 255)
  | .scope entries => .scope (Entries.put entries "mutated" (.bool true))
  | .record bare entries => .record bare (Entries.put entries "mutated" (.bool true)).enumerate
  | value => value

/-- What came of an execution: whether it gave a value, and the variables. -/
def summary (execution : Execution) : Except Fault HostValue := do
  let text ← HostValue.renderScope 1 execution.vars
  let ok := match execution.result with
    | .ok _ => true
    | .error _ => false
  .ok (.list [.bool ok, .text text])

/-- A value as it is made during a call. -/
def made (call : Nat) (value : HostValue) : HostValue :=
  value.mapIdentity (Identity.madeIn call)

/-- Arguments as they are received by a call. -/
def received (call : Nat) (arguments : List Argument) : List Argument :=
  arguments.mapIdx fun position argument =>
    { argument with value := argument.value.mapIdentity (Identity.receivedBy call position) }

/-- Changes an argument and returns it.  The change of a shared container is seen by all who hold
it. -/
def change (argument : Argument) : Procedure Memory :=
  let value := changed argument.value
  match argument.container with
  | some number => .revise number value (.finish (.ok value))
  | none => .finish (.ok value)

mutual

/-- The course of a call, where `call` numbers the calls and `origin` is the call during which the
function was registered. -/
def course (origin call : Nat) (arguments : List Argument) : StockFunction → Procedure Memory
  | constant value => .finish (.ok (made call value))
  | .arguments => .finish (.ok (.list (arguments.map Argument.value)))
  | first => .finish (.ok (argument arguments 0).value)
  | count number =>
      .recall fun memory =>
        .remember (memory.increment (number, origin))
          (.finish (.ok (.number (Number.ofNat (memory.countOf (number, origin) + 1)))))
  | sum => .finish (.ok (.number (sumOf (arguments.map Argument.value))))
  | format => .finish (displayAll (arguments.map Argument.value))
  | classify => .finish (.ok (.list (arguments.map fun argument => .text argument.value.classify.name)))
  | same => .finish (.ok (.bool ((argument arguments 0).identical (argument arguments 1))))
  | throw fault => .finish (.error fault)
  | throwFirst =>
      .finish (match messageOf (argument arguments 0).value with
        | .ok message => .error (.exception message)
        | .error fault => .error fault)
  | promise number value => .finish (.ok (.promise (.given number call) (made call value)))
  | reject number fault => .finish (.ok (.rejection (.given number call) fault))
  | mutate => change (argument arguments 0)
  | scriptVariables => .inspect fun entries => .finish (.ok (.scope entries))
  | stepThen task value =>
      .perform (stepOf call task) fun
        | .ok _ => .finish (.ok (made call value))
        | .error fault => .finish (.error fault)
  | step task =>
      .perform (stepOf call task) fun
        | .ok (some execution) => .finish (summary execution)
        | .ok none => .finish (.ok .null)
        | .error fault => .finish (.error fault)

/-- A function registered during the given call. -/
def runFrom (origin : Nat) (function : StockFunction) : HostFunction Memory :=
  fun arguments =>
    .recall fun memory =>
      .remember { memory with calls := memory.calls + 1 }
        (course origin (memory.calls + 1) (received (memory.calls + 1) arguments) function)

/-- A step performed during the given call. -/
def stepOf (call : Nat) : Step StockFunction → Step (HostFunction Memory)
  | .parse source => .parse source
  | .addVariable name value => .addVariable name (made call value)
  | .addModule name source => .addModule name source
  | .register ⟨name, ownName, ⟨mode, withName, function⟩⟩ =>
      .register ⟨name, ownName, ⟨mode, withName, runFrom call function⟩⟩
  | .execute debug => .execute debug
  | .snapshot name value => .snapshot name value
  | .program => .program

end

/-- The host function that a stock function is. -/
def run (function : StockFunction) : HostFunction Memory :=
  runFrom 0 function

end StockFunction

end ScriptHost
