import ScriptHost.HostValue.Display
import ScriptHost.Yaml.Node.FlowText

/-!
# Host values from nodes

Mappings become records, sequences lists, and scalars what they mean.  An alias stands for the node
that was given its name last before it.

* Nodes are counted in the order of the text, a collection before what it holds; the number of a
  node is its place.
* A value is used as often as there are aliases for it.  `aliasLimit` bounds the product of the uses
  of a value and of the values that it holds in turn, so that a short text cannot stand for a huge
  value.
* A collection that holds itself is empty where it does.
-/

namespace ScriptHost
namespace Yaml

/-- How often a value may be used, counting the uses of what it is made of. -/
def aliasLimit : Nat := 100

namespace Node

mutual

/-- How many nodes there are in a node. -/
def size : Node → Nat
  | scalar _ _ => 1
  | aliased _ _ => 1
  | mapping _ _ pairs => 1 + pairsSize pairs
  | sequence _ items => 1 + itemsSize items
  | pairList _ _ pairs => 1 + pairsSize pairs

/-- How many nodes there are in a list of nodes. -/
def itemsSize : List Node → Nat
  | [] => 0
  | node :: rest => size node + itemsSize rest

/-- How many nodes there are in a list of pairs. -/
def pairsSize : List (Node × Option Node) → Nat
  | [] => 0
  | pair :: rest => pairSize pair + pairsSize rest

/-- How many nodes there are in a pair. -/
def pairSize : Node × Option Node → Nat
  | (key, value) => size key + partSize value

/-- How many nodes there are in a value that may be missing. -/
def partSize : Option Node → Nat
  | none => 0
  | some node => size node

end

/-- A node at its place. -/
structure Placed where
  place : Nat
  node : Node

/-- The items of a sequence with their places, of which the first is given. -/
def placeItems : Nat → List Node → List Placed
  | _, [] => []
  | place, node :: rest => ⟨place, node⟩ :: placeItems (place + node.size) rest

/-- The keys and values of a collection with their places, of which the first is given. -/
def placePairs : Nat → List (Node × Option Node) → List (Placed × Option Placed)
  | _, [] => []
  | place, (key, value) :: rest =>
      let second := place + key.size
      (⟨place, key⟩, value.map (⟨second, ·⟩)) :: placePairs (second + partSize value) rest

mutual

/-- The nodes with anchors in a node at the given place, in order. -/
def anchors (place : Nat) : Node → List Placed
  | scalar notes content =>
      if notes.anchor.isSome then [⟨place, .scalar notes content⟩] else []
  | aliased _ _ => []
  | mapping notes isSet pairs =>
      (if notes.anchor.isSome then [⟨place, .mapping notes isSet pairs⟩] else []) ++
        pairsAnchors (place + 1) pairs
  | sequence notes items =>
      (if notes.anchor.isSome then [⟨place, .sequence notes items⟩] else []) ++
        itemsAnchors (place + 1) items
  | pairList notes ordered pairs =>
      (if notes.anchor.isSome then [⟨place, .pairList notes ordered pairs⟩] else []) ++
        pairsAnchors (place + 1) pairs

/-- The nodes with anchors among the items of a sequence. -/
def itemsAnchors (place : Nat) : List Node → List Placed
  | [] => []
  | node :: rest => anchors place node ++ itemsAnchors (place + node.size) rest

/-- The nodes with anchors among pairs. -/
def pairsAnchors (place : Nat) : List (Node × Option Node) → List Placed
  | [] => []
  | pair :: rest => pairAnchors place pair ++ pairsAnchors (place + pairSize pair) rest

/-- The nodes with anchors in a pair. -/
def pairAnchors (place : Nat) : Node × Option Node → List Placed
  | (key, value) => anchors place key ++ partAnchors (place + key.size) value

/-- The nodes with anchors in a value that may be missing. -/
def partAnchors (place : Nat) : Option Node → List Placed
  | none => []
  | some node => anchors place node

end

end Node

open Node (Placed)

/-- What is known of a document while its value is made. -/
structure Sources where
  directives : Directives
  /-- The nodes with anchors, in order. -/
  anchors : List Placed

/-- The node that an alias at the given place stands for. -/
def Sources.target? (sources : Sources) (place : Nat) (name : String) : Option Placed :=
  (sources.anchors.filter fun source =>
    source.place < place && source.node.anchor? == some name).getLast?

/-- The place of the node that a node stands for, which is its own unless it is an alias. -/
def Sources.origin (sources : Sources) (source : Placed) : Nat :=
  match source.node with
  | .aliased _ name => (sources.target? source.place name).elim source.place Placed.place
  | _ => source.place

/-- The value of a node with an anchor. -/
structure Held where
  place : Nat
  value : HostValue
  /-- How often the value is used. -/
  uses : Nat
  /-- How often what it is made of is used, zero while that is not known. -/
  weight : Nat

/-- The making of a value: values with anchors are remembered, and a document may be refused. -/
abbrev Construct (α : Type) := StateT (List Held) Option α

namespace Construct

/-- Refuses the document. -/
def refuse {α : Type} : Construct α := fun _ => none

/-- What is remembered of the node at a place. -/
def held? (place : Nat) : Construct (Option Held) := do
  return (← get).find? (·.place == place)

/-- Remembers something of a node, in place of what was known of it. -/
def hold (entry : Held) : Construct Unit :=
  modify fun all => entry :: all.filter (·.place != entry.place)

/-- The result of what may fail. -/
def ofOption {α : Type} : Option α → Construct α
  | some a => pure a
  | none => refuse

end Construct

open Construct

mutual

/-- How often the values are used that a node at the given place is made of. -/
def weightOf (sources : Sources) (known : List Held) (place : Nat) : Node → Nat
  | .scalar _ _ => 1
  | .aliased _ name =>
      match sources.target? place name with
      | none => 0
      | some target =>
          match known.find? (·.place == target.place) with
          | none => 0
          | some entry => entry.uses * entry.weight
  | .mapping _ _ pairs => weightOfPairs sources known (place + 1) pairs
  | .sequence _ items => weightOfItems sources known (place + 1) items
  | .pairList _ _ pairs => weightOfPairs sources known (place + 1) pairs

/-- The greatest weight among items. -/
def weightOfItems (sources : Sources) (known : List Held) (place : Nat) : List Node → Nat
  | [] => 0
  | node :: rest =>
      max (weightOf sources known place node) (weightOfItems sources known (place + node.size) rest)

/-- The greatest weight among pairs. -/
def weightOfPairs (sources : Sources) (known : List Held) (place : Nat) :
    List (Node × Option Node) → Nat
  | [] => 0
  | pair :: rest =>
      max (weightOfPair sources known place pair)
        (weightOfPairs sources known (place + Node.pairSize pair) rest)

/-- The greater weight of a key and its value. -/
def weightOfPair (sources : Sources) (known : List Held) (place : Nat) :
    Node × Option Node → Nat
  | (key, value) =>
      max (weightOf sources known place key) (weightOfPart sources known (place + key.size) value)

/-- The weight of a value that may be missing. -/
def weightOfPart (sources : Sources) (known : List Held) (place : Nat) : Option Node → Nat
  | none => 1
  | some node => weightOf sources known place node

end

/-- The value of a scalar at the given place. -/
def Datum.toHost (place : Nat) : Datum → HostValue
  | null => .null
  | bool value => .bool value
  | number value => .number value
  | text value => .text value
  | bytes content => .bytes true content
  | instant value => .reference (.read place) (.object "Date" (.ok value.longText))
  | merge => .reference (.read place) (.symbol (some "<<"))

/-- What stands for a node while its value is made: the collection without what it holds. -/
def unfilled : Node → HostValue
  | .mapping .. => .record false []
  | .sequence .. => .list []
  | .pairList _ ordered _ => if ordered then .mapping [] else .list []
  | _ => .null

/-- Does a key take over the entries of other mappings? -/
def isMergeKey (schema : Schema) : Node → Bool
  | .scalar _ content =>
      content.resolution.datum == .merge ||
        (schema == .legacy && content.style == .plain && content.resolution.datum == .text "<<")
  | _ => false

/-- The mappings whose entries are taken over. -/
def mergeSources? (sources : Sources) (value : Option Placed) : Option (List Placed) := do
  let resolve (source : Placed) : Option Placed :=
    match source.node with
    | .aliased _ name => sources.target? source.place name
    | _ => some source
  let found ← resolve (← value)
  match found.node with
  | .sequence _ items => (Node.placeItems (found.place + 1) items).mapM resolve
  | .pairList _ _ [] => some []
  | _ => some [found]

/-- What a mapping is made into. -/
inductive Shape where
  | record
  /-- A mapping with keys of any kind. -/
  | mapping
  | set
  deriving DecidableEq

/-- Takes over entries, except those whose keys are there already. -/
def takeOver (shape : Shape) (entries others : List (HostValue × HostValue)) :
    Option (List (HostValue × HostValue)) :=
  others.foldlM
    (fun known entry =>
      match shape with
      | .set => some known
      | .mapping =>
          if known.any fun k => k.1.sameKey entry.1 then some known else some (known ++ [entry])
      | .record =>
          match entry.1 with
          | .reference _ (.symbol _) => some known
          | key =>
              match key.plainText with
              | .error _ => none
              | .ok name =>
                  if known.any fun k => k.1.sameKey (.text name) then some known
                  else some (known ++ [(.text name, entry.2)]))
    entries

/-- The name of an entry in a record, given the node and the value of its key. -/
def entryName? (directives : Directives) (key : Node) : HostValue → Option String
  | .null => some ""
  | .bool value => some (if value then "true" else "false")
  | .number value => some value.text
  | .text value => some value
  | .reference _ (.symbol description) => some (Reference.symbolText description)
  | _ =>
      match key with
      | .scalar _ content => some content.nameText
      | other =>
          let bare := other.annotate fun notes => { notes with anchor := none, tag := none }
          (bare.render ⟨directives, 0, false, none⟩).map String.ofList

mutual

/-- The value of a node, remembered if it has an anchor; `fuel` bounds how deep nodes and aliases
lead. -/
def construct (sources : Sources) : Nat → Placed → Construct HostValue
  | 0, _ => refuse
  | fuel + 1, source => do
      if source.node.anchor?.isSome then
        hold ⟨source.place, unfilled source.node, 1, 0⟩
        let value ← content sources fuel source
        match ← held? source.place with
        | some entry => hold { entry with value := value }
        | none => pure ()
        pure value
      else content sources fuel source

/-- The value of a node. -/
def content (sources : Sources) : Nat → Placed → Construct HostValue
  | 0, _ => refuse
  | fuel + 1, ⟨place, node⟩ =>
      match node with
      | .scalar _ content => pure (content.resolution.datum.toHost place)
      | .aliased _ name => do
          let target ← ofOption (sources.target? place name)
          if (← held? target.place).isNone then
            let _ ← construct sources fuel target
          let entry ← ofOption (← held? target.place)
          let used := { entry with uses := entry.uses + 1 }
          hold used
          let known ← get
          let weight :=
            if used.weight = 0 then weightOf sources known target.place target.node
            else used.weight
          hold { used with weight := weight }
          if aliasLimit < used.uses * weight then refuse else pure entry.value
      | .mapping _ isSet pairs => do
          let shape := if isSet then Shape.set else .record
          let found ← entries sources fuel shape (Node.placePairs (place + 1) pairs)
          if isSet then pure (.reference (.read place) (.object "Set" (.ok "[object Set]")))
          else pure (recordOfEntries found)
      | .sequence _ items => do
          let values ← (Node.placeItems (place + 1) items).mapM (construct sources fuel)
          pure (.list values)
      | .pairList _ true pairs => do
          let pairs' := Node.placePairs (place + 1) pairs
          let found ← pairs'.mapM fun (key, value) => do
            let first ← construct sources fuel key
            let second ← part sources fuel value
            pure (first.storedKey, second)
          let origins := pairs'.map fun pair => sources.origin pair.1
          if distinct found && origins.Nodup then pure (.mapping found) else refuse
      | .pairList _ false pairs => do
          let records ← (Node.placePairs (place + 1) pairs).mapM fun pair => do
            let found ← entries sources fuel .record [pair]
            pure (recordOfEntries found)
          pure (.list records)
where
  /-- The record with the given entries, whose keys are texts. -/
  recordOfEntries (found : List (HostValue × HostValue)) : HostValue :=
    .record false (Entries.enumerate (found.filterMap fun entry =>
      match entry.1 with
      | .text name => some (name, entry.2)
      | _ => none))
  /-- Are the keys all different? -/
  distinct : List (HostValue × HostValue) → Bool
    | [] => true
    | entry :: rest => rest.all (fun other => !entry.1.sameKey other.1) && distinct rest

/-- The value of a node that may be missing. -/
def part (sources : Sources) : Nat → Option Placed → Construct HostValue
  | 0, _ => refuse
  | _ + 1, none => pure .null
  | fuel + 1, some source => construct sources fuel source

/-- The entries of a mapping. -/
def entries (sources : Sources) :
    Nat → Shape → List (Placed × Option Placed) → Construct (List (HostValue × HostValue))
  | 0, _, _ => refuse
  | fuel + 1, shape, pairs =>
      pairs.foldlM
        (fun known pair => do
          let (key, value) := pair
          if isMergeKey sources.directives.schema key.node then
            let merged ← ofOption (mergeSources? sources value)
            merged.foldlM
              (fun known source =>
                match source.node with
                | .mapping _ _ inner => do
                    let others ← entries sources fuel .mapping
                      (Node.placePairs (source.place + 1) inner)
                    ofOption (takeOver shape known others)
                | _ => refuse)
              known
          else
            let first ← construct sources fuel key
            match shape with
            | .set => pure known
            | .mapping => do
                let second ← part sources fuel value
                pure (Entries.putBy HostValue.sameKey known first.storedKey second)
            | .record => do
                let name ← ofOption (entryName? sources.directives key.node first)
                let second ← part sources fuel value
                pure (Entries.putBy HostValue.sameKey known (.text name) second))
        []

end

/-- The value of a node.  A chain of nodes and aliases has no node twice, and goes through at most
every node for each anchor. -/
def Node.toHost? (directives : Directives) (node : Node) : Option HostValue :=
  let sources : Sources := ⟨directives, node.anchors 0⟩
  let fuel := 3 * (node.size + 1) * (sources.anchors.length + 1)
  (construct sources fuel ⟨0, node⟩ []).map (·.1)

end Yaml
end ScriptHost
