import ScriptHost.Entries
import ScriptHost.Fault
import ScriptHost.Number.Decimal

/-!
# Host values

The values that a host program hands to a script and gets back from it: plain data, containers of
host values, and objects that travel without being looked into.

* Plain data and containers are compared and copied by content.
* Exceptions, references and promises are objects: what tells two of them apart is their
  `Identity`, not their content.
* `HostValue.identical` is the host's test for being one and the same value, `HostValue.sameKey` its
  test for being the same key of a mapping.
-/

namespace ScriptHost

/-- What tells one object from another. -/
inductive Identity where
  /-- An object just made, which nothing else refers to yet. -/
  | fresh
  /-- The object of the given number, made during the given call of a host function. -/
  | given (number call : Nat)
  /-- An object that was fresh when the given call received it at the given position. -/
  | received (position call : Nat)
  /-- The object at the given place of a document. -/
  | read (place : Nat)
  deriving DecidableEq, Repr

namespace Identity

/-- Do two identities name one object?  A fresh object is no other. -/
def same : Identity → Identity → Bool
  | fresh, _ => false
  | a, b => a == b

/-- The identity of an object made anew during a call. -/
def madeIn (call : Nat) : Identity → Identity
  | given number _ => given number call
  | identity => identity

/-- The identity of an object once a call has received it. -/
def receivedBy (call position : Nat) : Identity → Identity
  | fresh => received position call
  | identity => identity

end Identity

/-- Objects that belong to no class of their own. -/
inductive Unclassed where
  /-- Its ancestors name no class and have no text. -/
  | rootless
  /-- What its ancestor names is not a class. -/
  | misnamed
  /-- Its ancestor is a plain record. -/
  | derived
  deriving DecidableEq, Repr

/-- What a function answers when an object that has it as its own `toString` or `valueOf` is turned
into a text. -/
inductive Conversion where
  /-- Plain data, whose text this is. -/
  | plain (text : String)
  /-- An object, which is no text. -/
  | object
  | fails (fault : Fault)
  deriving Repr

/-- Objects that are carried without being looked into.  What asking one of them for its text gives
is a matter of its class and its members, which may be anything; only a symbol has no text. -/
inductive Reference where
  | symbol (description : Option String)
  | function (name : String) (text : Except Fault String) (answer : Conversion)
  | object (className : String) (text : Except Fault String)
  | unclassed (shape : Unclassed) (text : Except Fault String)
  deriving Repr

/-- A value on the host's side. -/
inductive HostValue where
  /-- No value at all. -/
  | absent
  | null
  | bool (value : Bool)
  | number (value : Number)
  /-- A whole number of any size. -/
  | integer (value : Int)
  | text (value : String)
  | list (items : List HostValue)
  /-- Bytes; a buffer differs only in its text. -/
  | bytes (buffer : Bool) (content : List UInt8)
  /-- A mapping with keys of any kind.  A key counts by which value it is and by its text, so an
  object that has a text of its own making is a reference here. -/
  | mapping (entries : List (HostValue × HostValue))
  /-- A mapping from names, as scripts have them. -/
  | scope (entries : List (String × HostValue))
  /-- A plain object; a bare one inherits nothing. -/
  | record (bare : Bool) (entries : List (String × HostValue))
  | exception (identity : Identity) (message : String)
  | reference (identity : Identity) (target : Reference)
  /-- A promise that resolves to a value. -/
  | promise (identity : Identity) (value : HostValue)
  /-- A promise that is rejected. -/
  | rejection (identity : Identity) (fault : Fault)
  deriving Inhabited

namespace HostValue

/-- A scope from pairs written one after the other. -/
def scopeOf (pairs : List (String × HostValue)) : HostValue :=
  scope (Entries.ofPairs pairs)

/-- A record from properties written one after the other, listed in a record's order. -/
def recordOf (bare : Bool) (pairs : List (String × HostValue)) : HostValue :=
  record bare (Entries.ofPairs pairs).enumerate

/-- Is this a container of other data, whose content can change? -/
def isContainer : HostValue → Bool
  | list _ => true
  | bytes _ _ => true
  | mapping _ => true
  | scope _ => true
  | record _ _ => true
  | _ => false

/-- Are two values one and the same?  Plain data are compared by content and objects by identity;
two containers are never the same. -/
def identical : HostValue → HostValue → Bool
  | absent, absent => true
  | null, null => true
  | bool a, bool b => a == b
  | number a, number b => a.equals b
  | integer a, integer b => a == b
  | text a, text b => a == b
  | exception a _, exception b _ => a.same b
  | reference a _, reference b _ => a.same b
  | promise a _, promise b _ => a.same b
  | rejection a _, rejection b _ => a.same b
  | _, _ => false

/-- Are two values the same key of a mapping? -/
def sameKey : HostValue → HostValue → Bool
  | number a, number b => a.sameKey b
  | a, b => a.identical b

/-- A key as a mapping stores it: the two zeros are one key. -/
def storedKey : HostValue → HostValue
  | number x => number (if x.isNegativeZero then Number.zero false else x)
  | key => key

/-- A mapping from pairs written one after the other. -/
def mappingOf (pairs : List (HostValue × HostValue)) : HostValue :=
  mapping (Entries.ofPairsBy sameKey (pairs.map fun pair => (storedKey pair.1, pair.2)))

/-- Changes the identity of an object. -/
def mapIdentity (f : Identity → Identity) : HostValue → HostValue
  | exception identity message => exception (f identity) message
  | reference identity target => reference (f identity) target
  | promise identity value => promise (f identity) value
  | rejection identity fault => rejection (f identity) fault
  | value => value

/-- What waiting for a value gives: a promise is followed to its end. -/
def settle : HostValue → Except Fault HostValue
  | promise _ value => settle value
  | rejection _ fault => .error fault
  | value => .ok value

end HostValue

end ScriptHost
