import ScriptHost.HostValue.Basic

/-!
# Engine values

The tagged values that an engine works with.  Eight tags form the vocabulary that every engine
knows; a value with any other tag carries at most a text, a number and a list.

* A value is an error when its tag contains the word `Error`.
* Host values are carried untouched.  Those that are containers are shared: whoever holds such a
  value refers to one and the same container, which has a number.
* `Value.makeError` is the error value that a failed call yields.
-/

namespace ScriptHost

/-- The tags that every engine knows. -/
inductive Tag where
  | str
  | int
  | bool
  | none
  | list
  | bytes
  | scope
  | object
  deriving DecidableEq, Repr

/-- The name of a tag. -/
def Tag.name : Tag → String
  | str => "Str"
  | int => "Int"
  | bool => "Bool"
  | none => "None"
  | list => "List"
  | bytes => "Bytes"
  | scope => "Scope"
  | object => "PyObject"

/-- A value inside an engine. -/
inductive Value where
  | str (text : String)
  | int (number : Number)
  /-- A truth value; its number is zero for false. -/
  | bool (number : Number)
  | none
  | list (items : List Value)
  | bytes (content : List UInt8)
  | scope (vars : List (String × Value))
  /-- A host value carried through the engine untouched. -/
  | object (host : HostValue)
  /-- A container of the host's, carried through the engine without being copied; all values of one
  number refer to one container.  The content is what it held when it was handed over. -/
  | shared (number : Nat) (content : HostValue)
  /-- A value whose tag is outside the vocabulary. -/
  | tagged (tag : String) (text : Option String) (number : Option Number)
      (items : Option (List Value))
  deriving Inhabited

/-- A named value. -/
abbrev Variable := String × Value

namespace Value

/-- The truth value as an engine value. -/
def ofBool (b : Bool) : Value :=
  bool (if b then Number.ofNat 1 else Number.ofNat 0)

/-- A host value as an engine carries it; a container is given the number. -/
def carried (number : Nat) (host : HostValue) : Value :=
  if host.isContainer then shared number host else object host

/-- The name of a value's tag. -/
def tagName : Value → String
  | str _ => Tag.str.name
  | int _ => Tag.int.name
  | bool _ => Tag.bool.name
  | none => Tag.none.name
  | list _ => Tag.list.name
  | bytes _ => Tag.bytes.name
  | scope _ => Tag.scope.name
  | object _ => Tag.object.name
  | shared _ _ => Tag.object.name
  | tagged tag _ _ _ => tag

/-- Does the word occur in the text, letter after letter? -/
def occursIn (word : List Char) : List Char → Bool
  | [] => word.isEmpty
  | c :: rest => word.isPrefixOf (c :: rest) || occursIn word rest

/-- Does a tag name a kind of error? -/
def isErrorTag (tag : String) : Bool :=
  occursIn "Error".toList tag.toList

/-- Is this an error value? -/
def isError (value : Value) : Bool :=
  isErrorTag value.tagName

/-- An error value of the given kind. -/
def errorOf (tag text : String) : Value :=
  tagged tag (some text) (some (Number.ofNat 0)) (some [])

/-- The error value of a failed call. -/
def makeError (message : String) : Value :=
  errorOf "Error" ("Error: " ++ message)

end Value

end ScriptHost
