import ScriptHost.Value.Revision

/-!
# Bindings

The top-level variables of a script.  A variable that is set again keeps its place; a new one goes
to the end.
-/

namespace ScriptHost

/-- The top-level variables of a script, in order. -/
structure Bindings where
  entries : Entries Value
  deriving Inhabited

namespace Bindings

/-- No variables. -/
def empty : Bindings := ⟨[]⟩

/-- Sets a variable. -/
def set (bindings : Bindings) (name : String) (value : Value) : Bindings :=
  ⟨bindings.entries.put name value⟩

/-- Bindings from variables set one after the other. -/
def ofVariables (vars : List Variable) : Bindings :=
  vars.foldl (fun bindings entry => bindings.set entry.1 entry.2) empty

/-- Bindings from host values, in the order of their entries. -/
def ofHost (entries : List (String × HostValue)) : Except Fault Bindings := do
  let vars ← HostValue.encodeEntries entries
  .ok (ofVariables vars)

/-- The value of a variable. -/
def get? (bindings : Bindings) (name : String) : Option Value :=
  bindings.entries.get? name

/-- Is there a variable of this name? -/
def has (bindings : Bindings) (name : String) : Bool :=
  bindings.entries.has name

/-- The names in order. -/
def names (bindings : Bindings) : List String :=
  bindings.entries.names

/-- How many variables there are. -/
def size (bindings : Bindings) : Nat :=
  bindings.entries.length

/-- The variables in order. -/
def toVariables (bindings : Bindings) : List Variable :=
  bindings.entries

/-- The variables as host values. -/
def toHost (bindings : Bindings) : List (String × HostValue) :=
  Entries.ofPairs (Value.decodeVariables bindings.entries)

/-- The variables with the latest contents of the shared containers in them. -/
def current (bindings : Bindings) (revisions : Revisions) : Bindings :=
  ⟨revisions.currentVariables bindings.entries⟩

/-- The variables laid out as a scope. -/
def text (bindings : Bindings) : Except Fault String :=
  HostValue.renderScope 1 bindings.toHost

end Bindings

end ScriptHost
