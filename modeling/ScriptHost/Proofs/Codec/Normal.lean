import ScriptHost.Proofs.Codec.Encoding
import ScriptHost.Proofs.Number.Nearest

/-!
# Host values after a round trip

A host value that goes into an engine and comes back is not always the value that went in.  What
comes back is its normal form, defined here by recursion on the value and without mention of the
engine:

* an absent value becomes null, and a whole number of any size the nearest number;
* bytes of either kind become plain bytes;
* mappings, scopes and records all become scopes, with each name once, where it first occurs, and
  with the normal form of the value that it has last;
* everything else comes back as it is, lists item by item.

The main statement is that decoding undoes encoding up to the normal form, and that a second round
trip always succeeds and changes nothing more.
-/

namespace ScriptHost

namespace HostValue

mutual

/-- A value as it comes back from an engine. -/
def normal : HostValue → HostValue
  | absent => null
  | null => null
  | bool value => bool value
  | number value => number value
  | integer value => number (Number.ofInt value)
  | text value => text value
  | list items => list (normalItems items)
  | bytes _ content => bytes false content
  | mapping entries => scope (Entries.collapse (normalMapping entries))
  | scope entries => scope (Entries.collapse (normalEntries entries))
  | record _ entries => scope (Entries.collapse (normalEntries entries))
  | exception identity message => exception identity message
  | reference identity target => reference identity target
  | promise identity value => promise identity value
  | rejection identity fault => rejection identity fault

/-- The items of a list as they come back. -/
def normalItems : List HostValue → List HostValue
  | [] => []
  | item :: rest => normal item :: normalItems rest

/-- Named entries as they come back, repeated names included. -/
def normalEntries : List (String × HostValue) → List (String × HostValue)
  | [] => []
  | (name, value) :: rest => (name, normal value) :: normalEntries rest

/-- The entries of a mapping as they come back, repeated names included.  A key without a name, on
which encoding fails, leaves no entry. -/
def normalMapping : List (HostValue × HostValue) → List (String × HostValue)
  | [] => []
  | (key, value) :: rest =>
      match key.keyText with
      | .ok name => (name, normal value) :: normalMapping rest
      | .error _ => normalMapping rest

end

theorem normalEntries_eq_mapValues (entries : List (String × HostValue)) :
    normalEntries entries = Entries.mapValues normal entries := by
  induction entries with
  | nil =>
      rfl
  | cons entry rest ih =>
      rw [normalEntries, ih]
      rfl

/-- Entries that are normal are normal still with each name once. -/
theorem collapse_normal
    {entries : List (String × HostValue)}
    (normalEach : normalEntries entries = entries) :
    Entries.collapse (normalEntries (Entries.collapse entries)) = Entries.collapse entries := by
  rw [← Entries.ofPairs_eq_collapse, ← Entries.ofPairs_eq_collapse, normalEntries_eq_mapValues,
    Entries.mapValues_ofPairs, ← normalEntries_eq_mapValues, normalEach, Entries.ofPairs_ofPairs]

end HostValue

namespace Value

/-- A scope comes back with each name once. -/
theorem decode_scope_eq_collapse (vars : List Variable) :
    (scope vars).decode = .scope (Entries.collapse (decodeVariables vars)) := by
  rw [decode, HostValue.scopeOf, Entries.ofPairs_eq_collapse]

end Value

namespace HostValue

-- The induction follows the encoder: one statement for each of its four functions, since lists,
-- named entries and mappings nest in each other.
mutual

/-- Decoding the encoding of a value gives its normal form. -/
theorem decode_encode :
    (value : HostValue) → (encoded : Value) → value.encode = .ok encoded →
      encoded.decode = value.normal
  | absent, encoded, h => by
      cases h
      rfl
  | null, encoded, h => by
      cases h
      rfl
  | bool value, encoded, h => by
      cases h
      cases value <;> rfl
  | number value, encoded, h => by
      cases h
      rfl
  | integer value, encoded, h => by
      cases h
      rfl
  | text value, encoded, h => by
      cases h
      rfl
  | list items, encoded, h => by
      obtain ⟨values, encodedItems, rfl⟩ := encode_list_eq_ok.1 h
      rw [Value.decode, normal, decode_encodeItems items values encodedItems]
  | bytes buffer content, encoded, h => by
      cases h
      rfl
  | mapping entries, encoded, h => by
      obtain ⟨vars, encodedEntries, rfl⟩ := encode_mapping_eq_ok.1 h
      rw [Value.decode_scope_eq_collapse, normal,
        decode_encodeMapping entries vars encodedEntries]
  | scope entries, encoded, h => by
      obtain ⟨vars, encodedEntries, rfl⟩ := encode_scope_eq_ok.1 h
      rw [Value.decode_scope_eq_collapse, normal,
        decode_encodeEntries entries vars encodedEntries]
  | record bare entries, encoded, h => by
      obtain ⟨vars, encodedEntries, rfl⟩ := encode_record_eq_ok.1 h
      rw [Value.decode_scope_eq_collapse, normal,
        decode_encodeEntries entries vars encodedEntries]
  | exception identity message, encoded, h => by
      cases h
      rfl
  | reference identity target, encoded, h => by
      cases h
      rfl
  | promise identity value, encoded, h => by
      cases h
      rfl
  | rejection identity fault, encoded, h => by
      cases h
      rfl

theorem decode_encodeItems :
    (items : List HostValue) → (values : List Value) → encodeItems items = .ok values →
      Value.decodeItems values = normalItems items
  | [], values, h => by
      cases h
      rfl
  | item :: rest, values, h => by
      obtain ⟨first, others, encodedFirst, encodedOthers, rfl⟩ := encodeItems_cons_eq_ok.1 h
      rw [Value.decodeItems, normalItems, decode_encode item first encodedFirst,
        decode_encodeItems rest others encodedOthers]

theorem decode_encodeEntries :
    (entries : List (String × HostValue)) → (vars : List Variable) →
      encodeEntries entries = .ok vars →
      Value.decodeVariables vars = normalEntries entries
  | [], vars, h => by
      cases h
      rfl
  | (name, value) :: rest, vars, h => by
      obtain ⟨first, others, encodedFirst, encodedOthers, rfl⟩ := encodeEntries_cons_eq_ok.1 h
      rw [Value.decodeVariables, normalEntries, decode_encode value first encodedFirst,
        decode_encodeEntries rest others encodedOthers]

theorem decode_encodeMapping :
    (entries : List (HostValue × HostValue)) → (vars : List Variable) →
      encodeMapping entries = .ok vars →
      Value.decodeVariables vars = normalMapping entries
  | [], vars, h => by
      cases h
      rfl
  | (key, value) :: rest, vars, h => by
      obtain ⟨name, first, others, named, encodedFirst, encodedOthers, rfl⟩ :=
        encodeMapping_cons_eq_ok.1 h
      rw [Value.decodeVariables, normalMapping, named, decode_encode value first encodedFirst,
        decode_encodeMapping rest others encodedOthers]

end

mutual

/-- Normal forms are normal. -/
theorem normal_normal : (value : HostValue) → value.normal.normal = value.normal
  | absent => rfl
  | null => rfl
  | bool _ => rfl
  | number _ => rfl
  | integer _ => rfl
  | text _ => rfl
  | list items => by
      rw [normal, normal, normalItems_normalItems items]
  | bytes _ _ => rfl
  | mapping entries => by
      rw [normal, normal, collapse_normal (normalEntries_normalMapping entries)]
  | scope entries => by
      rw [normal, normal, collapse_normal (normalEntries_normalEntries entries)]
  | record _ entries => by
      rw [normal, normal, collapse_normal (normalEntries_normalEntries entries)]
  | exception _ _ => rfl
  | reference _ _ => rfl
  | promise _ _ => rfl
  | rejection _ _ => rfl

theorem normalItems_normalItems :
    (items : List HostValue) → normalItems (normalItems items) = normalItems items
  | [] => rfl
  | item :: rest => by
      rw [normalItems, normalItems, normal_normal item, normalItems_normalItems rest]

theorem normalEntries_normalEntries :
    (entries : List (String × HostValue)) →
      normalEntries (normalEntries entries) = normalEntries entries
  | [] => rfl
  | (name, value) :: rest => by
      rw [normalEntries, normalEntries, normal_normal value, normalEntries_normalEntries rest]

theorem normalEntries_normalMapping :
    (entries : List (HostValue × HostValue)) →
      normalEntries (normalMapping entries) = normalMapping entries
  | [] => rfl
  | (key, value) :: rest => by
      rw [normalMapping]
      split
      · rw [normalEntries, normal_normal value, normalEntries_normalMapping rest]
      · exact normalEntries_normalMapping rest

end

/-- Entries whose values can be encoded make a scope that can, with each name once. -/
theorem exists_encode_collapse
    {entries : List (String × HostValue)}
    (each : ∀ entry ∈ entries, ∃ encoded, entry.2.encode = .ok encoded) :
    ∃ encoded, (scope (Entries.collapse entries)).encode = .ok encoded := by
  rw [← Entries.ofPairs_eq_collapse]
  obtain ⟨vars, encodedEntries⟩ :=
    exists_encodeEntries fun entry h => each entry (Entries.mem_of_mem_ofPairs h)
  exact ⟨.scope vars, encode_scope_eq_ok.2 ⟨vars, encodedEntries, rfl⟩⟩

mutual

/-- A normal form can always be encoded: it has no mapping, so every key in it is a name. -/
theorem exists_encode_normal :
    (value : HostValue) → ∃ encoded, value.normal.encode = .ok encoded
  | absent => ⟨_, rfl⟩
  | null => ⟨_, rfl⟩
  | bool _ => ⟨_, rfl⟩
  | number _ => ⟨_, rfl⟩
  | integer _ => ⟨_, rfl⟩
  | text _ => ⟨_, rfl⟩
  | list items => by
      obtain ⟨values, encodedItems⟩ := exists_encodeItems_normal items
      exact ⟨.list values, encode_list_eq_ok.2 ⟨values, encodedItems, rfl⟩⟩
  | bytes _ _ => ⟨_, rfl⟩
  | mapping entries => exists_encode_collapse (exists_encode_normalMapping entries)
  | scope entries => exists_encode_collapse (exists_encode_normalEntries entries)
  | record _ entries => exists_encode_collapse (exists_encode_normalEntries entries)
  | exception _ _ => ⟨_, rfl⟩
  | reference _ _ => ⟨_, rfl⟩
  | promise _ _ => ⟨_, rfl⟩
  | rejection _ _ => ⟨_, rfl⟩

theorem exists_encodeItems_normal :
    (items : List HostValue) → ∃ values, encodeItems (normalItems items) = .ok values
  | [] => ⟨_, rfl⟩
  | item :: rest => by
      obtain ⟨first, encodedFirst⟩ := exists_encode_normal item
      obtain ⟨others, encodedOthers⟩ := exists_encodeItems_normal rest
      exact ⟨first :: others,
        encodeItems_cons_eq_ok.2 ⟨first, others, encodedFirst, encodedOthers, rfl⟩⟩

theorem exists_encode_normalEntries :
    (entries : List (String × HostValue)) →
      ∀ entry ∈ normalEntries entries, ∃ encoded, entry.2.encode = .ok encoded
  | [] => by
      intro entry h
      cases h
  | (name, value) :: rest => by
      intro entry h
      rcases List.mem_cons.1 h with rfl | h
      · exact exists_encode_normal value
      · exact exists_encode_normalEntries rest entry h

theorem exists_encode_normalMapping :
    (entries : List (HostValue × HostValue)) →
      ∀ entry ∈ normalMapping entries, ∃ encoded, entry.2.encode = .ok encoded
  | [] => by
      intro entry h
      cases h
  | (key, value) :: rest => by
      intro entry h
      rw [normalMapping] at h
      split at h
      · rcases List.mem_cons.1 h with rfl | h
        · exact exists_encode_normal value
        · exact exists_encode_normalMapping rest entry h
      · exact exists_encode_normalMapping rest entry h

end

/-- A round trip gives the normal form, in which whole numbers are the nearest numbers.  A second
round trip never fails and changes nothing more. -/
theorem decode_encode_eq_normal
    {value : HostValue}
    {encoded : Value}
    (h : value.encode = .ok encoded) :
    encoded.decode = value.normal ∧
      (∀ n, ∃ x, (integer n).normal = number x ∧ Number.IsNearest n x) ∧
      value.normal.normal = value.normal ∧
      ∃ again, encoded.decode.encode = .ok again ∧ again.decode = encoded.decode := by
  have back := decode_encode value encoded h
  obtain ⟨again, encodedAgain⟩ := exists_encode_normal value
  refine ⟨back, ?_, normal_normal value, again, ?_, ?_⟩
  · intro n
    exact ⟨Number.ofInt n, rfl, Number.isNearest_ofInt n⟩
  · rw [back, encodedAgain]
  · rw [back, decode_encode value.normal again encodedAgain, normal_normal]

/-- A mapping two of whose keys have one name, with an absent value and a whole number that has to
be rounded. -/
def collidingMapping : HostValue :=
  mapping [(number (.ofNat 1), absent), (null, bytes true [7]),
    (text "1", list [integer 9007199254740993, absent])]

theorem decode_encode_collidingMapping :
    ∃ encoded, collidingMapping.encode = .ok encoded ∧
      encoded.decode =
        scope [("1", list [number (.finite false 4503599627370496 1), null]),
          ("null", bytes false [7])] := by
  obtain ⟨encoded, h⟩ : ∃ encoded, collidingMapping.encode = .ok encoded := ⟨_, rfl⟩
  exact ⟨encoded, h, (decode_encode_eq_normal h).1.trans rfl⟩

end HostValue
end ScriptHost
