import ScriptHost.Number.Decimal

/-!
# Entries

Ordered entries, each a key with a value.  A key that is written again keeps its place and takes the
new value; a new key goes to the end.  Scopes, bindings, modules and records are all kept this way.

* `put`, `get?`, `erase` and `ofPairs` are the operations on entries with names as keys.
* `putBy` is `put` for keys compared in any other way.
* `enumerate` is the order in which a record lists its entries: names that are array indices first,
  in ascending order, and then the others as they stand.
-/

namespace ScriptHost

/-- Values by name, in order. -/
abbrev Entries (α : Type) := List (String × α)

namespace Entries

variable {κ α β : Type}

/-- Writes a value at a key, where `same` says which keys are equal. -/
def putBy
    (same : κ → κ → Bool) :
    List (κ × α) → κ → α → List (κ × α)
  | [], key, value => [(key, value)]
  | (k, v) :: rest, key, value =>
      if same k key then (k, value) :: rest
      else (k, v) :: putBy same rest key value

/-- Entries from pairs written one after the other, where `same` says which keys are equal. -/
def ofPairsBy
    (same : κ → κ → Bool)
    (pairs : List (κ × α)) : List (κ × α) :=
  pairs.foldl (fun entries pair => putBy same entries pair.1 pair.2) []

/-- Writes a value at a name. -/
def put (entries : Entries α) (name : String) (value : α) : Entries α :=
  putBy (· == ·) entries name value

/-- Entries from pairs written one after the other. -/
def ofPairs (pairs : List (String × α)) : Entries α :=
  pairs.foldl (fun entries pair => entries.put pair.1 pair.2) []

/-- The value at a name. -/
def get? : Entries α → String → Option α
  | [], _ => none
  | (k, v) :: rest, name => if k == name then some v else get? rest name

/-- Is there a value at this name? -/
def has (entries : Entries α) (name : String) : Bool :=
  entries.any (·.1 == name)

/-- Takes a name out. -/
def erase (entries : Entries α) (name : String) : Entries α :=
  entries.filter (·.1 != name)

/-- The names in order. -/
def names (entries : Entries α) : List String :=
  entries.map (·.1)

/-- Applies a function to every value. -/
def mapValues (f : α → β) (entries : Entries α) : Entries β :=
  entries.map fun entry => (entry.1, f entry.2)

/-- The greatest array index. -/
def maxIndex : Nat := 4294967294

/-- The array index that a name spells in its canonical form, if it does. -/
def index? (name : String) : Option Nat :=
  let ds := name.toList
  if ds.isEmpty || !ds.all Char.isDigit then none
  else if 1 < ds.length && ds.head? == some '0' then none
  else if maxIndex < Decimal.value ds then none
  else some (Decimal.value ds)

/-- Is the index of the first entry at most that of the second? -/
def indexLe (a b : String × α) : Bool :=
  (index? a.1).getD 0 ≤ (index? b.1).getD 0

/-- The entries as a record lists them: array indices ascending, then the other names. -/
def enumerate (entries : Entries α) : Entries α :=
  (entries.filter fun entry => (index? entry.1).isSome).mergeSort indexLe ++
    entries.filter fun entry => (index? entry.1).isNone

end Entries

end ScriptHost
