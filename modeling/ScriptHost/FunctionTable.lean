import ScriptHost.Entries
import ScriptHost.Fault

/-!
# Function tables

The functions registered with a script, in order and with repetitions.  A policy says what a name
that is registered more than once means.
-/

namespace ScriptHost

/-- What a name that is registered more than once means. -/
inductive DuplicatePolicy where
  /-- The latest registration counts. -/
  | shadow
  /-- The earliest registration counts. -/
  | first
  /-- Registering the name again fails. -/
  | reject
  /-- Any other policy; the earliest registration counts. -/
  | other (name : String)
  deriving DecidableEq, Repr

namespace DuplicatePolicy

/-- The policies that a manifest may name. -/
def known : List DuplicatePolicy := [shadow, first, reject]

/-- The name of a policy. -/
def name : DuplicatePolicy → String
  | shadow => "shadow"
  | first => "first"
  | reject => "reject"
  | other name => name

/-- The policy of a name. -/
def ofName (name : String) : DuplicatePolicy :=
  (known.find? fun policy => policy.name == name).getD (other name)

end DuplicatePolicy

/-- The registered functions. -/
structure FunctionTable (α : Type) where
  policy : DuplicatePolicy
  entries : Entries α

namespace FunctionTable

variable {α : Type}

/-- A table without functions. -/
def empty (policy : DuplicatePolicy) : FunctionTable α := ⟨policy, []⟩

/-- Is there a function of this name? -/
def has (table : FunctionTable α) (name : String) : Bool :=
  table.entries.has name

/-- How many registrations there are. -/
def size (table : FunctionTable α) : Nat :=
  table.entries.length

/-- The names in order, repetitions included. -/
def names (table : FunctionTable α) : List String :=
  table.entries.names

/-- Registers a function. -/
def add (table : FunctionTable α) (name : String) (function : α) :
    Except Fault (FunctionTable α) :=
  if table.policy = .reject && table.has name then
    .error (.functionAlreadyRegistered name)
  else .ok { table with entries := table.entries ++ [(name, function)] }

/-- The function that a name means. -/
def resolve? (table : FunctionTable α) (name : String) : Option α :=
  let found := (table.entries.filter (·.1 == name)).map (·.2)
  if table.policy = .shadow then found.getLast? else found.head?

end FunctionTable

end ScriptHost
