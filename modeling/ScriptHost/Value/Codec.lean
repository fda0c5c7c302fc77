import ScriptHost.HostValue.Display
import ScriptHost.Value.Basic

/-!
# Encoding and decoding

The passage between host values and engine values.

* `HostValue.encode` turns a host value into an engine value.  It fails only where a mapping has a
  key without a name.
* `Value.decode` turns an engine value into a host value.  It never fails: an error value becomes an
  exception, as data.
* `Value.result` separates an error at the top from a value.
-/

namespace ScriptHost

namespace HostValue

/-- The tag of a value's encoding. -/
def classify : HostValue → Tag
  | absent => .none
  | null => .none
  | bool _ => .bool
  | number _ => .int
  | integer _ => .int
  | text _ => .str
  | list _ => .list
  | bytes _ _ => .bytes
  | mapping _ => .scope
  | scope _ => .scope
  | record _ _ => .scope
  | exception _ _ => .object
  | reference _ _ => .object
  | promise _ _ => .object
  | rejection _ _ => .object

mutual

/-- The engine value of a host value. -/
def encode : HostValue → Except Fault Value
  | absent => .ok .none
  | null => .ok .none
  | bool value => .ok (.ofBool value)
  | number value => .ok (.int value)
  | integer value => .ok (.int (Number.ofInt value))
  | text value => .ok (.str value)
  | list items => do
      let values ← encodeItems items
      .ok (.list values)
  | bytes _ content => .ok (.bytes content)
  | mapping entries => do
      let vars ← encodeMapping entries
      .ok (.scope vars)
  | scope entries => do
      let vars ← encodeEntries entries
      .ok (.scope vars)
  | record _ entries => do
      let vars ← encodeEntries entries
      .ok (.scope vars)
  | exception identity message => .ok (.object (exception identity message))
  | reference identity target => .ok (.object (reference identity target))
  | promise identity value => .ok (.object (promise identity value))
  | rejection identity fault => .ok (.object (rejection identity fault))

/-- The engine values of the items of a list. -/
def encodeItems : List HostValue → Except Fault (List Value)
  | [] => .ok []
  | item :: rest => do
      let first ← encode item
      let others ← encodeItems rest
      .ok (first :: others)

/-- The variables of named entries. -/
def encodeEntries : List (String × HostValue) → Except Fault (List Variable)
  | [] => .ok []
  | (name, value) :: rest => do
      let first ← encode value
      let others ← encodeEntries rest
      .ok ((name, first) :: others)

/-- The variables of a mapping; a key is named before its value is encoded. -/
def encodeMapping : List (HostValue × HostValue) → Except Fault (List Variable)
  | [] => .ok []
  | (key, value) :: rest => do
      let name ← key.keyText
      let first ← encode value
      let others ← encodeMapping rest
      .ok ((name, first) :: others)

end

end HostValue

namespace Value

mutual

/-- The host value of an engine value. -/
def decode : Value → HostValue
  | str text => .text text
  | int number => .number number
  | bool number => .bool !number.isZero
  | none => .null
  | list items => .list (decodeItems items)
  | bytes content => .bytes false content
  | scope vars => .scopeOf (decodeVariables vars)
  | object host => host
  | shared _ content => content
  | tagged tag text _ _ =>
      if isErrorTag tag then .exception .fresh (text.getD "")
      else .text (text.getD "")

/-- The host values of a list of engine values. -/
def decodeItems : List Value → List HostValue
  | [] => []
  | item :: rest => decode item :: decodeItems rest

/-- The named host values of variables. -/
def decodeVariables : List Variable → List (String × HostValue)
  | [] => []
  | (name, value) :: rest => (name, decode value) :: decodeVariables rest

end

/-- The outcome of a value: an error at the top is a failure with its message. -/
def result (value : Value) : Except String HostValue :=
  match value.decode with
  | .exception _ message => .error message
  | host => .ok host

end Value

/-- A variable holding the encoding of a host value. -/
def Variable.encode (name : String) (value : HostValue) : Except Fault Variable := do
  let encoded ← value.encode
  .ok (name, encoded)

/-- A variable holding a scope of the given variables. -/
def Variable.scope (name : String) (vars : List Variable) : Variable :=
  (name, .scope vars)

end ScriptHost
