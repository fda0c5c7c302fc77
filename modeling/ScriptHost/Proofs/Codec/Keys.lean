import ScriptHost.Proofs.Codec.Encoding
import ScriptHost.Proofs.Codec.Regular

/-!
# Which values have an encoding

An encoding fails only at the key of a mapping, and otherwise has the shape of the value.

* `parts` are the values directly inside a container, and `induction_on_parts` is the induction on
  them.  Keys and carried objects are not parts.
* `keys` lists the keys of all mappings in a value, in the order in which an encoding names them.
* `verdict_encode`: apart from its result, encoding a value is naming these keys.
* `Mirrors` says that an engine value has the shape of a host value at every depth.
* `encode_outcome`: a value has an encoding unless a mapping in it has a key without a name.  Then
  the first such key decides the fault; and an encoding mirrors its value and holds no error.
-/

namespace ScriptHost

section Verdicts

variable {α β : Type}

/-- Whether a computation fails and how, without its result. -/
def verdict (computation : Except Fault α) : Except Fault Unit :=
  computation.map fun _ => ()

theorem verdict_eq_error {computation : Except Fault α} {fault : Fault} :
    verdict computation = .error fault ↔ computation = .error fault := by
  cases computation <;> simp [verdict, Except.map]

theorem verdict_eq_ok {computation : Except Fault α} :
    verdict computation = .ok () ↔ ∃ result, computation = .ok result := by
  cases computation <;> simp [verdict, Except.map]

theorem verdict_bind_ok
    (computation : Except Fault α)
    (result : α → β) :
    verdict (computation >>= fun a => .ok (result a)) = verdict computation := by
  cases computation <;> rfl

/-- If what follows has one verdict whatever the first result is, the two verdicts are taken one
after the other. -/
theorem verdict_bind
    {computation : Except Fault α}
    {next : α → Except Fault β}
    {rest : Except Fault Unit}
    (each : ∀ a, verdict (next a) = rest) :
    verdict (computation >>= next) = verdict computation >>= fun _ => rest := by
  cases computation with
  | error fault => rfl
  | ok a => exact each a

/-- Checks that succeed leave the verdict to those after them. -/
theorem forM_append_of_ok
    {check : α → Except Fault Unit}
    {before : List α}
    (passed : ∀ item ∈ before, check item = .ok ())
    (after : List α) :
    forM (before ++ after) check = forM after check := by
  induction before with
  | nil => rfl
  | cons first rest ih =>
      obtain ⟨passedFirst, passedRest⟩ := List.forall_mem_cons.1 passed
      rw [List.cons_append, List.forM_cons, passedFirst]
      exact ih passedRest

/-- Checks that are made one after the other all succeed if they do so together. -/
theorem check_of_forM_eq_ok
    {check : α → Except Fault Unit}
    {items : List α}
    (passed : forM items check = .ok ()) :
    ∀ item ∈ items, check item = .ok () := by
  induction items with
  | nil => simp
  | cons first rest ih =>
      rw [List.forM_cons, bind_eq_ok] at passed
      obtain ⟨_, passedFirst, passedRest⟩ := passed
      exact List.forall_mem_cons.2 ⟨passedFirst, ih passedRest⟩

/-- Checks that are made one after the other fail with the first of them that fails. -/
theorem forM_eq_error_iff
    {check : α → Except Fault Unit}
    {items : List α}
    {fault : Fault} :
    forM items check = .error fault ↔
      ∃ before item after, items = before ++ item :: after ∧
        (∀ other ∈ before, check other = .ok ()) ∧ check item = .error fault := by
  constructor
  · intro failed
    induction items with
    | nil => cases failed
    | cons first rest ih =>
        cases checked : check first with
        | error other =>
            rw [List.forM_cons, checked] at failed
            exact ⟨[], first, rest, rfl, nofun, checked.trans failed⟩
        | ok _ =>
            rw [List.forM_cons, checked] at failed
            obtain ⟨before, item, after, rfl, passed, failedItem⟩ := ih failed
            exact ⟨first :: before, item, after, rfl, List.forall_mem_cons.2 ⟨checked, passed⟩,
              failedItem⟩
  · rintro ⟨before, item, after, rfl, passed, failed⟩
    rw [forM_append_of_ok passed, List.forM_cons, failed]
    rfl

end Verdicts

namespace HostValue

/-- The values directly inside a container: the items of a list and the values of entries. -/
def parts : HostValue → List HostValue
  | list items => items
  | mapping entries => entries.map Prod.snd
  | scope entries => entries.map Prod.snd
  | record _ entries => entries.map Prod.snd
  | _ => []

/-- The value is the other one or inside it, at any depth. -/
inductive OccursIn (part : HostValue) : HostValue → Prop
  | itself : OccursIn part part
  | inside {inner value : HostValue} :
      inner ∈ value.parts → OccursIn part inner → OccursIn part value

theorem sizeOf_lt_of_mem_parts
    {part value : HostValue}
    (member : part ∈ value.parts) :
    sizeOf part < sizeOf value := by
  have inEntry : ∀ {α : Type} [SizeOf α] {entries : List (α × HostValue)},
      part ∈ entries.map Prod.snd → sizeOf part < sizeOf entries := by
    intro α _ entries member
    obtain ⟨⟨name, value⟩, entry, rfl⟩ := List.mem_map.1 member
    have within := List.sizeOf_lt_of_mem entry
    simp only [Prod.mk.sizeOf_spec] at within ⊢
    omega
  cases value with
  | list items =>
      have within : sizeOf part < sizeOf items := List.sizeOf_lt_of_mem member
      simp only [list.sizeOf_spec]
      omega
  | mapping entries =>
      have within := inEntry member
      simp only [mapping.sizeOf_spec]
      omega
  | scope entries =>
      have within := inEntry member
      simp only [scope.sizeOf_spec]
      omega
  | record bare entries =>
      have within := inEntry member
      simp only [record.sizeOf_spec]
      omega
  | _ => cases member

/-- What holds of a value whenever it holds of its parts holds of every value. -/
theorem induction_on_parts
    {motive : HostValue → Prop}
    (step : ∀ value, (∀ part ∈ value.parts, motive part) → motive value)
    (value : HostValue) :
    motive value :=
  step value fun part member =>
    have := sizeOf_lt_of_mem_parts member
    induction_on_parts step part
termination_by sizeOf value

mutual

/-- The keys of all mappings in a value, from left to right and a key before those in its value. -/
def keys : HostValue → List HostValue
  | list items => itemKeys items
  | mapping entries => mappingKeys entries
  | scope entries => entryKeys entries
  | record _ entries => entryKeys entries
  | _ => []

def itemKeys : List HostValue → List HostValue
  | [] => []
  | item :: rest => item.keys ++ itemKeys rest

def entryKeys : List (String × HostValue) → List HostValue
  | [] => []
  | (_, value) :: rest => value.keys ++ entryKeys rest

def mappingKeys : List (HostValue × HostValue) → List HostValue
  | [] => []
  | (key, value) :: rest => key :: (value.keys ++ mappingKeys rest)

end

/-- Names one key after the other, up to the first that has no name. -/
def nameAll (keys : List HostValue) : Except Fault Unit :=
  forM keys fun key => verdict key.keyText

theorem nameAll_cons (key : HostValue) (rest : List HostValue) :
    nameAll (key :: rest) = verdict key.keyText >>= fun _ => nameAll rest :=
  List.forM_cons

theorem nameAll_append (before after : List HostValue) :
    nameAll (before ++ after) = nameAll before >>= fun _ => nameAll after :=
  List.forM_append

-- By the recursion of the encoding itself, which names a key before it encodes the value, in the
-- order in which `keys` lists them.
mutual

/-- Apart from its result, encoding a value is naming its keys. -/
theorem verdict_encode : (value : HostValue) → verdict value.encode = nameAll value.keys
  | absent => rfl
  | null => rfl
  | bool _ => rfl
  | number _ => rfl
  | integer _ => rfl
  | text _ => rfl
  | list items => by
      rw [encode, verdict_bind_ok, verdict_encodeItems items, keys]
  | bytes _ _ => rfl
  | mapping entries => by
      rw [encode, verdict_bind_ok, verdict_encodeMapping entries, keys]
  | scope entries => by
      rw [encode, verdict_bind_ok, verdict_encodeEntries entries, keys]
  | record _ entries => by
      rw [encode, verdict_bind_ok, verdict_encodeEntries entries, keys]
  | exception _ _ => rfl
  | reference _ _ => rfl
  | promise _ _ => rfl
  | rejection _ _ => rfl

theorem verdict_encodeItems : (items : List HostValue) →
    verdict (encodeItems items) = nameAll (itemKeys items)
  | [] => rfl
  | item :: rest => by
      rw [encodeItems, itemKeys, nameAll_append, ← verdict_encode item,
        ← verdict_encodeItems rest]
      exact verdict_bind fun _ => verdict_bind_ok _ _

theorem verdict_encodeEntries : (entries : List (String × HostValue)) →
    verdict (encodeEntries entries) = nameAll (entryKeys entries)
  | [] => rfl
  | (_, value) :: rest => by
      rw [encodeEntries, entryKeys, nameAll_append, ← verdict_encode value,
        ← verdict_encodeEntries rest]
      exact verdict_bind fun _ => verdict_bind_ok _ _

theorem verdict_encodeMapping : (entries : List (HostValue × HostValue)) →
    verdict (encodeMapping entries) = nameAll (mappingKeys entries)
  | [] => rfl
  | (key, value) :: rest => by
      rw [encodeMapping, mappingKeys, nameAll_cons, nameAll_append, ← verdict_encode value,
        ← verdict_encodeMapping rest]
      exact verdict_bind fun _ => verdict_bind fun _ => verdict_bind_ok _ _

end

/-- The fault of an encoding is the fault of the first key without a name. -/
theorem encode_eq_error_iff {value : HostValue} {fault : Fault} :
    value.encode = .error fault ↔
      ∃ before key after, value.keys = before ++ key :: after ∧
        (∀ other ∈ before, ∃ name, other.keyText = .ok name) ∧ key.keyText = .error fault := by
  rw [← verdict_eq_error, verdict_encode, nameAll, forM_eq_error_iff]
  simp only [verdict_eq_ok, verdict_eq_error]

theorem exists_keyText_of_encode
    {value : HostValue}
    {encoded : Value}
    (made : value.encode = .ok encoded) :
    ∀ key ∈ value.keys, ∃ name, key.keyText = .ok name := by
  intro key member
  have named : nameAll value.keys = .ok () := by
    rw [← verdict_encode, made]
    rfl
  exact verdict_eq_ok.1 (check_of_forM_eq_ok named key member)

theorem itemKeys_eq_flatMap (items : List HostValue) :
    itemKeys items = items.flatMap keys := by
  induction items with
  | nil => rfl
  | cons item rest ih => rw [itemKeys, ih, List.flatMap_cons]

theorem entryKeys_eq_flatMap (entries : List (String × HostValue)) :
    entryKeys entries = (entries.map Prod.snd).flatMap keys := by
  induction entries with
  | nil => rfl
  | cons entry rest ih => rw [entryKeys, ih, List.map_cons, List.flatMap_cons]

theorem mappingKeys_eq_flatMap (entries : List (HostValue × HostValue)) :
    mappingKeys entries = entries.flatMap fun entry => entry.1 :: entry.2.keys := by
  induction entries with
  | nil => rfl
  | cons entry rest ih => rw [mappingKeys, ih, List.flatMap_cons, List.cons_append]

/-- A key of a value is a key of the value itself, if it is a mapping, or of one of its parts. -/
theorem mem_keys_iff {key value : HostValue} :
    key ∈ value.keys ↔
      (∃ entries content, value = mapping entries ∧ (key, content) ∈ entries) ∨
        ∃ part ∈ value.parts, key ∈ part.keys := by
  cases value with
  | list items => simp [keys, parts, itemKeys_eq_flatMap]
  | mapping entries =>
      rw [keys, mappingKeys_eq_flatMap, List.mem_flatMap]
      constructor
      · rintro ⟨⟨other, content⟩, entry, within⟩
        rcases List.mem_cons.1 within with rfl | within
        · exact Or.inl ⟨entries, content, rfl, entry⟩
        · exact Or.inr ⟨content, List.mem_map.2 ⟨_, entry, rfl⟩, within⟩
      · rintro (⟨_, content, ⟨⟩, entry⟩ | ⟨part, inside, within⟩)
        · exact ⟨_, entry, List.mem_cons_self⟩
        · obtain ⟨entry, member, rfl⟩ := List.mem_map.1 inside
          exact ⟨entry, member, List.mem_cons_of_mem _ within⟩
  | scope entries =>
      rw [keys, entryKeys_eq_flatMap, List.mem_flatMap]
      simp [parts]
  | record bare entries =>
      rw [keys, entryKeys_eq_flatMap, List.mem_flatMap]
      simp [parts]
  | _ => simp [keys, parts]

/-- The keys of a value are the keys of the mappings in it. -/
theorem mem_keys_iff_occursIn {key value : HostValue} :
    key ∈ value.keys ↔
      ∃ entries content, (mapping entries).OccursIn value ∧ (key, content) ∈ entries := by
  constructor
  · intro member
    induction value using induction_on_parts with
    | step value ih =>
        rcases mem_keys_iff.1 member with ⟨entries, content, rfl, entry⟩ | ⟨part, inside, within⟩
        · exact ⟨entries, content, .itself, entry⟩
        · obtain ⟨entries, content, occurs, entry⟩ := ih part inside within
          exact ⟨entries, content, .inside inside occurs, entry⟩
  · rintro ⟨entries, content, occurs, entry⟩
    induction occurs with
    | itself => exact mem_keys_iff.2 (Or.inl ⟨entries, content, rfl, entry⟩)
    | inside member _ ih => exact mem_keys_iff.2 (Or.inr ⟨_, member, ih⟩)

/-- The names of a container's entries, or why one of them has none. -/
def entryNames : HostValue → List (Except Fault String)
  | mapping entries => entries.map fun entry => entry.1.keyText
  | scope entries => entries.map fun entry => .ok entry.1
  | record _ entries => entries.map fun entry => .ok entry.1
  | _ => []

end HostValue

namespace Value

/-- The values directly inside an engine value. -/
def parts : Value → List Value
  | list items => items
  | scope vars => vars.map Prod.snd
  | tagged _ _ _ (some items) => items
  | _ => []

/-- The names of a scope's variables. -/
def entryNames : Value → List String
  | scope vars => vars.map Prod.fst
  | _ => []

/-- The engine value has the shape of the host value: its tag, the names of its entries, and part
for part the shape of its parts.  So a list has as many items and a scope as many variables as the
container has, even where names are equal. -/
inductive Mirrors : Value → HostValue → Prop
  | intro {encoded : Value} {value : HostValue} :
      encoded.tagName = value.classify.name →
      encoded.entryNames.map Except.ok = value.entryNames →
      List.Forall₂ Mirrors encoded.parts value.parts →
      Mirrors encoded value

end Value

section Mirrored

variable {encoded : Value}
variable {value : HostValue}

theorem forall₂_mirrors_encodeItems
    {items : List HostValue}
    {values : List Value}
    (each : ∀ item ∈ items, ∀ encoded, item.encode = .ok encoded → encoded.Mirrors item)
    (made : HostValue.encodeItems items = .ok values) :
    List.Forall₂ Value.Mirrors values items := by
  induction items generalizing values with
  | nil =>
      cases made
      exact .nil
  | cons item rest ih =>
      obtain ⟨first, others, madeFirst, madeRest, rfl⟩ :=
        HostValue.encodeItems_cons_eq_ok.1 made
      obtain ⟨eachFirst, eachRest⟩ := List.forall_mem_cons.1 each
      exact .cons (eachFirst first madeFirst) (ih eachRest madeRest)

theorem mirrors_encodeEntries
    {entries : List (String × HostValue)}
    {vars : List Variable}
    (each : ∀ part ∈ entries.map Prod.snd, ∀ encoded, part.encode = .ok encoded →
      encoded.Mirrors part)
    (made : HostValue.encodeEntries entries = .ok vars) :
    vars.map Prod.fst = entries.map Prod.fst ∧
      List.Forall₂ Value.Mirrors (vars.map Prod.snd) (entries.map Prod.snd) := by
  induction entries generalizing vars with
  | nil =>
      cases made
      exact ⟨rfl, .nil⟩
  | cons entry rest ih =>
      obtain ⟨first, others, madeFirst, madeRest, rfl⟩ :=
        HostValue.encodeEntries_cons_eq_ok.1 made
      obtain ⟨eachFirst, eachRest⟩ := List.forall_mem_cons.1 each
      obtain ⟨names, shapes⟩ := ih eachRest madeRest
      exact ⟨congrArg (entry.1 :: ·) names, .cons (eachFirst first madeFirst) shapes⟩

theorem mirrors_encodeMapping
    {entries : List (HostValue × HostValue)}
    {vars : List Variable}
    (each : ∀ part ∈ entries.map Prod.snd, ∀ encoded, part.encode = .ok encoded →
      encoded.Mirrors part)
    (made : HostValue.encodeMapping entries = .ok vars) :
    (vars.map Prod.fst).map Except.ok = entries.map (fun entry => entry.1.keyText) ∧
      List.Forall₂ Value.Mirrors (vars.map Prod.snd) (entries.map Prod.snd) := by
  induction entries generalizing vars with
  | nil =>
      cases made
      exact ⟨rfl, .nil⟩
  | cons entry rest ih =>
      obtain ⟨name, first, others, named, madeFirst, madeRest, rfl⟩ :=
        HostValue.encodeMapping_cons_eq_ok.1 made
      obtain ⟨eachFirst, eachRest⟩ := List.forall_mem_cons.1 each
      obtain ⟨names, shapes⟩ := ih eachRest madeRest
      exact ⟨congrArg₂ List.cons named.symm names, .cons (eachFirst first madeFirst) shapes⟩

/-- An encoding has the shape of its value. -/
theorem mirrors_encode (made : value.encode = .ok encoded) : encoded.Mirrors value := by
  induction value using HostValue.induction_on_parts generalizing encoded with
  | step value ih =>
      replace ih : ∀ part ∈ value.parts, ∀ encoded, part.encode = .ok encoded →
          encoded.Mirrors part := fun part member _ => ih part member
      cases value with
      | list items =>
          obtain ⟨values, madeItems, rfl⟩ := HostValue.encode_list_eq_ok.1 made
          exact .intro rfl rfl (forall₂_mirrors_encodeItems ih madeItems)
      | mapping entries =>
          obtain ⟨vars, madeEntries, rfl⟩ := HostValue.encode_mapping_eq_ok.1 made
          obtain ⟨names, shapes⟩ := mirrors_encodeMapping ih madeEntries
          exact .intro rfl names shapes
      | scope entries =>
          obtain ⟨vars, madeEntries, rfl⟩ := HostValue.encode_scope_eq_ok.1 made
          obtain ⟨names, shapes⟩ := mirrors_encodeEntries ih madeEntries
          refine .intro rfl ?_ shapes
          rw [Value.entryNames, names, HostValue.entryNames, List.map_map]
          rfl
      | record bare entries =>
          obtain ⟨vars, madeEntries, rfl⟩ := HostValue.encode_record_eq_ok.1 made
          obtain ⟨names, shapes⟩ := mirrors_encodeEntries ih madeEntries
          refine .intro rfl ?_ shapes
          rw [Value.entryNames, names, HostValue.entryNames, List.map_map]
          rfl
      | _ =>
          cases made
          exact .intro rfl rfl .nil

theorem Value.Mirrors.tagName_eq (mirrors : encoded.Mirrors value) :
    encoded.tagName = value.classify.name := by
  obtain ⟨tag, -, -⟩ := mirrors
  exact tag

theorem Value.Mirrors.of_mem_parts
    {part : Value}
    (mirrors : encoded.Mirrors value)
    (member : part ∈ encoded.parts) :
    ∃ inner : HostValue, part.Mirrors inner := by
  obtain ⟨-, -, shapes⟩ := mirrors
  obtain ⟨lengths, each⟩ := List.forall₂_iff_get.1 shapes
  obtain ⟨position, rfl⟩ := List.mem_iff_get.1 member
  exact ⟨_, each position position.2 (lengths ▸ position.2)⟩

/-- Nothing that has the shape of a host value holds an error. -/
theorem Value.Mirrors.isError_eq_false
    {inner : Value}
    (mirrors : encoded.Mirrors value)
    (occurs : inner.OccursIn encoded) :
    inner.isError = false := by
  induction occurs generalizing value with
  | itself => rw [Value.isError, mirrors.tagName_eq, Value.isErrorTag_name]
  | item member _ ih =>
      obtain ⟨part, inside⟩ := mirrors.of_mem_parts member
      exact ih inside
  | entry member _ ih =>
      obtain ⟨part, inside⟩ := mirrors.of_mem_parts (List.mem_map.2 ⟨_, member, rfl⟩)
      exact ih inside
  | tagged member _ ih =>
      obtain ⟨part, inside⟩ := mirrors.of_mem_parts member
      exact ih inside

end Mirrored

open HostValue

/-- What an encoding does.  It fails exactly if some mapping in the value has a key without a name;
its fault is the one of the first such key, from left to right and a key before those in its value;
and otherwise it has the tag of the value, holds no error and has the shape of the value at every
depth, with an item for each item and a variable for each entry. -/
theorem encode_outcome (value : HostValue) :
    ((∃ fault, value.encode = .error fault) ↔
      ∃ entries key content fault, (mapping entries).OccursIn value ∧
        (key, content) ∈ entries ∧ key.keyText = .error fault) ∧
      (∀ fault, value.encode = .error fault ↔
        ∃ before key after, value.keys = before ++ key :: after ∧
          (∀ other ∈ before, ∃ name, other.keyText = .ok name) ∧ key.keyText = .error fault) ∧
      ∀ encoded, value.encode = .ok encoded →
        encoded.tagName = value.classify.name ∧
          (∀ inner : Value, inner.OccursIn encoded → inner.isError = false) ∧
          encoded.Mirrors value := by
  refine ⟨?_, fun fault => encode_eq_error_iff, ?_⟩
  · constructor
    · rintro ⟨fault, failed⟩
      obtain ⟨before, key, after, split, -, nameless⟩ := encode_eq_error_iff.1 failed
      have member : key ∈ value.keys := by
        rw [split]
        exact List.mem_append_right before List.mem_cons_self
      obtain ⟨entries, content, occurs, entry⟩ := mem_keys_iff_occursIn.1 member
      exact ⟨entries, key, content, fault, occurs, entry, nameless⟩
    · rintro ⟨entries, key, content, fault, occurs, entry, nameless⟩
      cases made : value.encode with
      | error other => exact ⟨other, rfl⟩
      | ok encoded =>
          have member := mem_keys_iff_occursIn.2 ⟨entries, content, occurs, entry⟩
          obtain ⟨name, named⟩ := exists_keyText_of_encode made key member
          rw [nameless] at named
          cases named
  · intro encoded made
    have mirrors := mirrors_encode made
    exact ⟨mirrors.tagName_eq, fun _ => mirrors.isError_eq_false, mirrors⟩

theorem encode_outcome_nestedMapping :
    let twice : HostValue := .mapping [(.text "1", .list [.null, .absent]), (.integer 1, .null)]
    let nameless : HostValue := .mapping [(.text "a", twice),
      (.list [.reference .fresh (.symbol none)], .mapping [(.record true [], .null)])]
    (HostValue.list [.null, nameless]).encode = .error .symbolInText ∧
      twice.encode = .ok (.scope [("1", .list [.none, .none]), ("1", .none)]) ∧
      Value.Mirrors (.scope [("1", .list [.none, .none]), ("1", .none)]) twice := by
  intro twice nameless
  have made : twice.encode = .ok (.scope [("1", .list [.none, .none]), ("1", .none)]) := by
    rfl
  have listed : (HostValue.list [.null, nameless]).keys =
      [.text "a", .text "1", .integer 1] ++ .list [.reference .fresh (.symbol none)] ::
        [.record true []] := by
    rfl
  have named : ∀ key ∈ [HostValue.text "a", .text "1", .integer 1],
      ∃ name, key.keyText = .ok name := by
    simp [HostValue.keyText, HostValue.plainText]
  exact ⟨((encode_outcome _).2.1 _).2 ⟨_, _, _, listed, named, rfl⟩, made,
    ((encode_outcome twice).2.2 _ made).2.2⟩

end ScriptHost
