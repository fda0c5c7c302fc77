import ScriptHost.Value.Codec

/-!
# Revisions of shared containers

A container that engine values share can be changed by the host while scripts hold it.  The values
themselves stay as they are: each keeps the content that its container had when it was handed over,
and the revisions, laid over them, give the content that it has by now.

* `Revisions.current` is a value with the latest content of every shared container in it.
* Without revisions every value is current.
* The latest revision of a container counts, and revising one container leaves the others alone.
-/

namespace ScriptHost

/-- The contents of the shared containers that were changed, by number, the latest first. -/
structure Revisions where
  contents : List (Nat × HostValue)

namespace Revisions

/-- Nothing was changed. -/
def empty : Revisions := ⟨[]⟩

/-- Changes the content of a container. -/
def revise (revisions : Revisions) (number : Nat) (content : HostValue) : Revisions :=
  ⟨(number, content) :: revisions.contents⟩

/-- The content of a container by now, given what it was at first. -/
def contentOf (revisions : Revisions) (number : Nat) (first : HostValue) : HostValue :=
  (revisions.contents.lookup number).getD first

@[simp] theorem contentOf_empty (number : Nat) (first : HostValue) :
    empty.contentOf number first = first := rfl

@[simp] theorem contentOf_revise_self
    (revisions : Revisions)
    (number : Nat)
    (content first : HostValue) :
    (revisions.revise number content).contentOf number first = content := by
  simp [contentOf, revise]

theorem contentOf_revise_of_ne
    (revisions : Revisions)
    {number other : Nat}
    (content first : HostValue)
    (different : other ≠ number) :
    (revisions.revise number content).contentOf other first =
      revisions.contentOf other first := by
  simp [contentOf, revise, List.lookup_cons, beq_false_of_ne different]

mutual

/-- A value with the latest content of the containers in it. -/
def current (revisions : Revisions) : Value → Value
  | .list items => .list (currentItems revisions items)
  | .scope vars => .scope (currentVariables revisions vars)
  | .shared number content => .shared number (revisions.contentOf number content)
  | .str text => .str text
  | .int number => .int number
  | .bool number => .bool number
  | .none => .none
  | .bytes content => .bytes content
  | .object host => .object host
  | .tagged tag text number items => .tagged tag text number items

/-- The items of a list with the latest contents. -/
def currentItems (revisions : Revisions) : List Value → List Value
  | [] => []
  | item :: rest => revisions.current item :: currentItems revisions rest

/-- Variables with the latest contents. -/
def currentVariables (revisions : Revisions) : List Variable → List Variable
  | [] => []
  | (name, value) :: rest => (name, revisions.current value) :: currentVariables revisions rest

end

mutual

@[simp] theorem current_empty : (value : Value) → empty.current value = value
  | .list items => by simp [current, currentItems_empty items]
  | .scope vars => by simp [current, currentVariables_empty vars]
  | .shared number content => by simp [current]
  | .str text => by simp [current]
  | .int number => by simp [current]
  | .bool number => by simp [current]
  | .none => by simp [current]
  | .bytes content => by simp [current]
  | .object host => by simp [current]
  | .tagged tag text number items => by simp [current]

@[simp] theorem currentItems_empty : (items : List Value) → empty.currentItems items = items
  | [] => by simp [currentItems]
  | item :: rest => by simp [currentItems, current_empty item, currentItems_empty rest]

@[simp] theorem currentVariables_empty :
    (vars : List Variable) → empty.currentVariables vars = vars
  | [] => by simp [currentVariables]
  | (name, value) :: rest => by
      simp [currentVariables, current_empty value, currentVariables_empty rest]

end

end Revisions

end ScriptHost
