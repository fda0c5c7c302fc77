import ScriptHost.Value.Revision

/-!
# Arguments

The arguments of a call as an engine hands them over, and as a host function receives them.  A call
with a single scope passes its entries as named arguments, which arrive as one record.

* `Arguments.toHost` is what a function receives.
* `Arguments.passed` tells besides which of the arguments are shared containers.
-/

namespace ScriptHost

/-- The arguments of a call. -/
inductive Arguments where
  | positional (values : List Value)
  | named (vars : List Variable)
  deriving Inhabited

/-- An argument as a host function receives it. -/
structure Argument where
  value : HostValue
  /-- The number of the shared container that it is, if it is one. -/
  container : Option Nat

namespace Argument

/-- An argument that nobody else holds. -/
def own (value : HostValue) : Argument := ⟨value, none⟩

/-- An engine value as an argument. -/
def ofValue : Value → Argument
  | .shared number content => ⟨content, some number⟩
  | value => own value.decode

@[simp] theorem own_value (value : HostValue) : (own value).value = value := rfl

@[simp] theorem ofValue_value (value : Value) : (ofValue value).value = value.decode := by
  cases value <;> simp [ofValue, Value.decode]

/-- Are two arguments one and the same?  Shared containers are if they have one number. -/
def identical (a b : Argument) : Bool :=
  match a.container, b.container with
  | some m, some n => m == n
  | _, _ => a.value.identical b.value

end Argument

namespace Arguments

/-- The arguments of a call with the given values: a single scope is a set of named arguments. -/
def ofValues : List Value → Arguments
  | [.scope vars] => named vars
  | values => positional values

/-- The record of named arguments. -/
def namedRecord (vars : List Variable) : HostValue :=
  .recordOf false (Value.decodeVariables vars)

/-- What a host function receives; with `withName` the name of the call comes first. -/
def toHost
    (callName : String)
    (withName : Bool)
    (arguments : Arguments) : List HostValue :=
  let leading := if withName then [HostValue.text callName] else []
  match arguments with
  | named vars => leading ++ [namedRecord vars]
  | positional values => leading ++ Value.decodeItems values

/-- What a host function receives, with the shared containers marked. -/
def passed
    (callName : String)
    (withName : Bool)
    (arguments : Arguments) : List Argument :=
  let leading := if withName then [Argument.own (.text callName)] else []
  match arguments with
  | named vars => leading ++ [Argument.own (namedRecord vars)]
  | positional values => leading ++ values.map Argument.ofValue

/-- Arguments with the latest contents of the shared containers in them. -/
def current (revisions : Revisions) : Arguments → Arguments
  | positional values => positional (revisions.currentItems values)
  | named vars => named (revisions.currentVariables vars)

@[simp] theorem current_empty (arguments : Arguments) :
    arguments.current .empty = arguments := by
  cases arguments <;> simp [current]

theorem decodeItems_eq_map (values : List Value) :
    Value.decodeItems values = values.map Value.decode := by
  induction values with
  | nil => simp [Value.decodeItems]
  | cons value rest ih => simp [Value.decodeItems, ih]

theorem passed_map_value
    (callName : String)
    (withName : Bool)
    (arguments : Arguments) :
    (arguments.passed callName withName).map Argument.value =
      arguments.toHost callName withName := by
  cases arguments <;> cases withName <;> simp [passed, toHost, decodeItems_eq_map]

end Arguments

end ScriptHost
