import ScriptHost.Proofs.Codec.Encoding
import ScriptHost.Value.Revision

/-!
# Regular values

The values that a script can come to hold when all that it is given are host values.

* Truth values are zero or one, carried host values are objects, and the only tag outside the
  vocabulary is that of the error value of a failed call.
* Every encoding of a host value is regular, and so is the error value of a failed call.
* `OccursIn` says that a value is part of another at any depth.  The parts of a regular value are
  regular.
* Revisions do not concern regular values, and what they decode to always has a display form.
-/

namespace ScriptHost

namespace Value

mutual

/-- Can a script hold this value when it is given host values only? -/
def Regular : Value → Prop
  | bool number => number = Number.ofNat 0 ∨ number = Number.ofNat 1
  | list items => ItemsRegular items
  | scope vars => VariablesRegular vars
  | object host => host.classify = .object
  | shared _ _ => False
  | tagged tag text number items => ∃ message, tagged tag text number items = makeError message
  | _ => True

def ItemsRegular : List Value → Prop
  | [] => True
  | item :: rest => Regular item ∧ ItemsRegular rest

def VariablesRegular : List Variable → Prop
  | [] => True
  | (_, value) :: rest => Regular value ∧ VariablesRegular rest

end

theorem regular_ofBool (b : Bool) : (ofBool b).Regular := by
  cases b
  · exact .inl rfl
  · exact .inr rfl

/-- The value is the other one or a part of it, at any depth. -/
inductive OccursIn (part : Value) : Value → Prop
  | itself : OccursIn part part
  | item {items : List Value} {item : Value} :
      item ∈ items → OccursIn part item → OccursIn part (list items)
  | entry {vars : List Variable} {name : String} {value : Value} :
      (name, value) ∈ vars → OccursIn part value → OccursIn part (scope vars)
  | tagged {tag : String} {text : Option String} {number : Option Number} {items : List Value}
      {item : Value} :
      item ∈ items → OccursIn part item → OccursIn part (tagged tag text number (some items))

mutual

theorem regular_encode : (host : HostValue) → (value : Value) → host.encode = .ok value →
    value.Regular
  | .absent, _, encodes => by
      cases encodes
      simp [Regular]
  | .null, _, encodes => by
      cases encodes
      simp [Regular]
  | .bool b, _, encodes => by
      cases encodes
      exact regular_ofBool b
  | .number _, _, encodes => by
      cases encodes
      simp [Regular]
  | .integer _, _, encodes => by
      cases encodes
      simp [Regular]
  | .text _, _, encodes => by
      cases encodes
      simp [Regular]
  | .list items, _, encodes => by
      obtain ⟨values, encoded, rfl⟩ := HostValue.encode_list_eq_ok.1 encodes
      rw [Regular]
      exact regular_encodeItems items values encoded
  | .bytes _ _, _, encodes => by
      cases encodes
      simp [Regular]
  | .mapping entries, _, encodes => by
      obtain ⟨vars, encoded, rfl⟩ := HostValue.encode_mapping_eq_ok.1 encodes
      rw [Regular]
      exact regular_encodeMapping entries vars encoded
  | .scope entries, _, encodes => by
      obtain ⟨vars, encoded, rfl⟩ := HostValue.encode_scope_eq_ok.1 encodes
      rw [Regular]
      exact regular_encodeEntries entries vars encoded
  | .record _ entries, _, encodes => by
      obtain ⟨vars, encoded, rfl⟩ := HostValue.encode_record_eq_ok.1 encodes
      rw [Regular]
      exact regular_encodeEntries entries vars encoded
  | .exception _ _, _, encodes => by
      cases encodes
      simp [Regular, HostValue.classify]
  | .reference _ _, _, encodes => by
      cases encodes
      simp [Regular, HostValue.classify]
  | .promise _ _, _, encodes => by
      cases encodes
      simp [Regular, HostValue.classify]
  | .rejection _ _, _, encodes => by
      cases encodes
      simp [Regular, HostValue.classify]

theorem regular_encodeItems : (items : List HostValue) → (values : List Value) →
    HostValue.encodeItems items = .ok values → ItemsRegular values
  | [], _, encodes => by
      cases encodes
      simp [ItemsRegular]
  | item :: rest, _, encodes => by
      obtain ⟨first, others, encodedFirst, encodedOthers, rfl⟩ :=
        HostValue.encodeItems_cons_eq_ok.1 encodes
      exact ⟨regular_encode item first encodedFirst, regular_encodeItems rest others encodedOthers⟩

theorem regular_encodeEntries : (entries : List (String × HostValue)) → (vars : List Variable) →
    HostValue.encodeEntries entries = .ok vars → VariablesRegular vars
  | [], _, encodes => by
      cases encodes
      simp [VariablesRegular]
  | (_, value) :: rest, _, encodes => by
      obtain ⟨first, others, encodedFirst, encodedOthers, rfl⟩ :=
        HostValue.encodeEntries_cons_eq_ok.1 encodes
      exact ⟨regular_encode value first encodedFirst,
        regular_encodeEntries rest others encodedOthers⟩

theorem regular_encodeMapping : (entries : List (HostValue × HostValue)) →
    (vars : List Variable) → HostValue.encodeMapping entries = .ok vars → VariablesRegular vars
  | [], _, encodes => by
      cases encodes
      simp [VariablesRegular]
  | (_, value) :: rest, _, encodes => by
      obtain ⟨_, first, others, -, encodedFirst, encodedOthers, rfl⟩ :=
        HostValue.encodeMapping_cons_eq_ok.1 encodes
      exact ⟨regular_encode value first encodedFirst,
        regular_encodeMapping rest others encodedOthers⟩

end

/-! No container is shared by regular values, so revisions change nothing about them. -/

mutual

theorem current_of_regular (revisions : Revisions) : (value : Value) → value.Regular →
    revisions.current value = value
  | list items, regular => by
      rw [Regular] at regular
      rw [Revisions.current, currentItems_of_regular revisions items regular]
  | scope vars, regular => by
      rw [Regular] at regular
      rw [Revisions.current, currentVariables_of_regular revisions vars regular]
  | shared _ _, regular => by simp [Regular] at regular
  | str _, _ => by rw [Revisions.current]
  | int _, _ => by rw [Revisions.current]
  | bool _, _ => by rw [Revisions.current]
  | none, _ => by rw [Revisions.current]
  | bytes _, _ => by rw [Revisions.current]
  | object _, _ => by rw [Revisions.current]
  | tagged _ _ _ _, _ => by rw [Revisions.current]

theorem currentItems_of_regular (revisions : Revisions) : (items : List Value) →
    ItemsRegular items → revisions.currentItems items = items
  | [], _ => by rw [Revisions.currentItems]
  | item :: rest, regular => by
      rw [Revisions.currentItems, current_of_regular revisions item regular.1,
        currentItems_of_regular revisions rest regular.2]

theorem currentVariables_of_regular (revisions : Revisions) : (vars : List Variable) →
    VariablesRegular vars → revisions.currentVariables vars = vars
  | [], _ => by rw [Revisions.currentVariables]
  | (_, value) :: rest, regular => by
      rw [Revisions.currentVariables, current_of_regular revisions value regular.1,
        currentVariables_of_regular revisions rest regular.2]

end

end Value

namespace HostValue

theorem exists_indent (depth : Int) (nonnegative : 0 ≤ depth) :
    ∃ text, indent depth = .ok text := by
  have spaced : ¬ depth < 0 := by omega
  exact ⟨_, if_neg spaced⟩

theorem exists_entryLines
    {depth : Int}
    {entries : List (String × HostValue)}
    (each : ∀ entry ∈ entries, ∃ text, entry.2.format depth = .ok text)
    (space : String) :
    ∃ lines, entryLines space depth entries = .ok lines := by
  induction entries with
  | nil => exact ⟨[], by rw [entryLines]⟩
  | cons entry rest ih =>
      obtain ⟨first, formatted⟩ := each entry List.mem_cons_self
      obtain ⟨others, lines⟩ := ih fun other member => each other (List.mem_cons_of_mem _ member)
      simp only [entryLines, bind_eq_ok]
      exact ⟨_, first, formatted, others, lines, rfl⟩

/-- A scope can be laid out if each of its values can, a level deeper. -/
theorem exists_renderScope
    {depth : Int}
    (inside : 1 ≤ depth)
    {entries : List (String × HostValue)}
    (each : ∀ entry ∈ entries, ∃ text, entry.2.format (depth + 1) = .ok text) :
    ∃ text, renderScope depth entries = .ok text := by
  cases entries with
  | nil => exact ⟨_, by rw [renderScope]⟩
  | cons entry rest =>
      obtain ⟨space, indented⟩ := exists_indent depth (by omega)
      obtain ⟨margin, closed⟩ := exists_indent (depth - 1) (by omega)
      obtain ⟨first, formatted⟩ := each entry List.mem_cons_self
      obtain ⟨others, lines⟩ := exists_entryLines
        (fun other member => each other (List.mem_cons_of_mem _ member)) space
      simp only [renderScope, bind_eq_ok]
      exact ⟨_, space, indented, first, formatted, others, lines, margin, closed, rfl⟩

theorem exists_format_of_classify
    {host : HostValue}
    (carried : host.classify = .object)
    (depth : Int) :
    ∃ text, host.format depth = .ok text := by
  cases host with
  | exception _ _ => exact ⟨_, by rw [format]⟩
  | reference _ _ => exact ⟨_, by rw [format]⟩
  | promise _ _ => exact ⟨_, by rw [format]⟩
  | rejection _ _ => exact ⟨_, by rw [format]⟩
  | _ => cases carried

end HostValue

namespace Value

/-! What regular values decode to has a display form: nothing in it is absent. -/

mutual

theorem exists_format_decode : (value : Value) → value.Regular → (depth : Int) → 1 ≤ depth →
    ∃ text, value.decode.format depth = .ok text
  | str _, _, _, _ => ⟨_, by rw [decode, HostValue.format]⟩
  | int _, _, _, _ => ⟨_, by rw [decode, HostValue.format]⟩
  | bool _, _, _, _ => ⟨_, by rw [decode, HostValue.format]⟩
  | none, _, _, _ => ⟨_, by rw [decode, HostValue.format]⟩
  | bytes _, _, _, _ => ⟨_, by rw [decode, HostValue.format]⟩
  | list items, regular, depth, inside => by
      rw [Regular] at regular
      obtain ⟨texts, formatted⟩ := exists_formatItems_decode items regular depth inside
      simp only [decode, HostValue.format, bind_eq_ok]
      exact ⟨_, texts, formatted, rfl⟩
  | scope vars, regular, depth, inside => by
      rw [Regular] at regular
      rw [decode_scope, HostValue.format]
      refine HostValue.exists_renderScope inside fun entry member => ?_
      obtain ⟨kept, there, rfl⟩ := List.mem_map.1 member
      exact exists_format_decodeVariables vars regular (depth + 1) (by omega) kept
        (Entries.mem_of_mem_ofPairs there)
  | object host, regular, depth, _ => by
      rw [Regular] at regular
      rw [decode]
      exact HostValue.exists_format_of_classify regular depth
  | shared _ _, regular, _, _ => by simp [Regular] at regular
  | tagged tag text number items, regular, depth, _ => by
      rw [Regular] at regular
      obtain ⟨message, same⟩ := regular
      have decoded : (makeError message).decode = .exception .fresh ("Error: " ++ message) := rfl
      rw [same, decoded, HostValue.format]
      exact ⟨_, rfl⟩

theorem exists_formatItems_decode : (items : List Value) → ItemsRegular items →
    (depth : Int) → 1 ≤ depth →
      ∃ texts, HostValue.formatItems depth (decodeItems items) = .ok texts
  | [], _, _, _ => ⟨[], by rw [decodeItems, HostValue.formatItems]⟩
  | item :: rest, regular, depth, inside => by
      obtain ⟨first, formatted⟩ := exists_format_decode item regular.1 depth inside
      obtain ⟨others, texts⟩ := exists_formatItems_decode rest regular.2 depth inside
      simp only [decodeItems, HostValue.formatItems, bind_eq_ok]
      exact ⟨_, first, formatted, others, texts, rfl⟩

theorem exists_format_decodeVariables : (vars : List Variable) → VariablesRegular vars →
    (depth : Int) → 1 ≤ depth →
      ∀ entry ∈ vars, ∃ text, entry.2.decode.format depth = .ok text
  | [], _, _, _, _, member => nomatch member
  | (_, value) :: rest, regular, depth, inside, entry, member => by
      rcases List.mem_cons.1 member with rfl | member
      · exact exists_format_decode value regular.1 depth inside
      · exact exists_format_decodeVariables rest regular.2 depth inside entry member

end

end Value
end ScriptHost
