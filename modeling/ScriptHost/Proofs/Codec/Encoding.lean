import ScriptHost.Arguments
import ScriptHost.Proofs.Entries

/-!
# Encoding and decoding, part by part

How the encoding of a container follows from the encodings of its parts, and the decoding of one
from the decodings of its parts.  The statements on whole values are proved from these alone.
-/

namespace ScriptHost

/-- A computation that succeeds has succeeded in each of its two parts. -/
theorem bind_eq_ok
    {ε α β : Type}
    {x : Except ε α}
    {f : α → Except ε β}
    {result : β} :
    (x >>= f) = .ok result ↔ ∃ a, x = .ok a ∧ f a = .ok result := by
  cases x with
  | error fault =>
      simp [bind, Except.bind]
  | ok a =>
      simp [bind, Except.bind]

namespace HostValue

theorem encode_list_eq_ok {items : List HostValue} {value : Value} :
    (list items).encode = .ok value ↔
      ∃ values, encodeItems items = .ok values ∧ value = .list values := by
  rw [encode, bind_eq_ok]
  simp [eq_comm]

theorem encode_scope_eq_ok {entries : List (String × HostValue)} {value : Value} :
    (scope entries).encode = .ok value ↔
      ∃ vars, encodeEntries entries = .ok vars ∧ value = .scope vars := by
  rw [encode, bind_eq_ok]
  simp [eq_comm]

theorem encode_record_eq_ok
    {bare : Bool}
    {entries : List (String × HostValue)}
    {value : Value} :
    (record bare entries).encode = .ok value ↔
      ∃ vars, encodeEntries entries = .ok vars ∧ value = .scope vars := by
  rw [encode, bind_eq_ok]
  simp [eq_comm]

theorem encode_mapping_eq_ok {entries : List (HostValue × HostValue)} {value : Value} :
    (mapping entries).encode = .ok value ↔
      ∃ vars, encodeMapping entries = .ok vars ∧ value = .scope vars := by
  rw [encode, bind_eq_ok]
  simp [eq_comm]

theorem encodeItems_cons_eq_ok
    {item : HostValue}
    {rest : List HostValue}
    {values : List Value} :
    encodeItems (item :: rest) = .ok values ↔
      ∃ first others, item.encode = .ok first ∧ encodeItems rest = .ok others ∧
        values = first :: others := by
  simp only [encodeItems, bind_eq_ok, Except.ok.injEq]
  constructor
  · rintro ⟨first, encoded, others, encodedRest, rfl⟩
    exact ⟨first, others, encoded, encodedRest, rfl⟩
  · rintro ⟨first, others, encoded, encodedRest, rfl⟩
    exact ⟨first, encoded, others, encodedRest, rfl⟩

theorem encodeEntries_cons_eq_ok
    {name : String}
    {value : HostValue}
    {rest : List (String × HostValue)}
    {vars : List Variable} :
    encodeEntries ((name, value) :: rest) = .ok vars ↔
      ∃ first others, value.encode = .ok first ∧ encodeEntries rest = .ok others ∧
        vars = (name, first) :: others := by
  simp only [encodeEntries, bind_eq_ok, Except.ok.injEq]
  constructor
  · rintro ⟨first, encoded, others, encodedRest, rfl⟩
    exact ⟨first, others, encoded, encodedRest, rfl⟩
  · rintro ⟨first, others, encoded, encodedRest, rfl⟩
    exact ⟨first, encoded, others, encodedRest, rfl⟩

theorem encodeMapping_cons_eq_ok
    {key value : HostValue}
    {rest : List (HostValue × HostValue)}
    {vars : List Variable} :
    encodeMapping ((key, value) :: rest) = .ok vars ↔
      ∃ name first others, key.keyText = .ok name ∧ value.encode = .ok first ∧
        encodeMapping rest = .ok others ∧ vars = (name, first) :: others := by
  simp only [encodeMapping, bind_eq_ok, Except.ok.injEq]
  constructor
  · rintro ⟨name, named, first, encoded, others, encodedRest, rfl⟩
    exact ⟨name, first, others, named, encoded, encodedRest, rfl⟩
  · rintro ⟨name, first, others, named, encoded, encodedRest, rfl⟩
    exact ⟨name, named, first, encoded, others, encodedRest, rfl⟩

/-- Entries can be encoded if every value among them can. -/
theorem exists_encodeEntries
    {entries : List (String × HostValue)}
    (each : ∀ entry ∈ entries, ∃ encoded, entry.2.encode = .ok encoded) :
    ∃ vars, encodeEntries entries = .ok vars := by
  induction entries with
  | nil =>
      exact ⟨[], rfl⟩
  | cons entry rest ih =>
      obtain ⟨first, encodedFirst⟩ := each entry (by simp)
      obtain ⟨others, encodedOthers⟩ := ih fun other h => each other (List.mem_cons_of_mem _ h)
      exact ⟨(entry.1, first) :: others,
        encodeEntries_cons_eq_ok.2 ⟨first, others, encodedFirst, encodedOthers, rfl⟩⟩

/-- Encoding keeps the names of entries. -/
theorem names_encodeEntries
    {entries : List (String × HostValue)}
    {vars : List Variable}
    (encoded : encodeEntries entries = .ok vars) :
    Entries.names vars = Entries.names entries := by
  induction entries generalizing vars with
  | nil =>
      obtain rfl := Except.ok.inj encoded
      rfl
  | cons entry rest ih =>
      obtain ⟨first, others, -, encodedRest, rfl⟩ := encodeEntries_cons_eq_ok.1 encoded
      rw [Entries.names_cons, Entries.names_cons, ih encodedRest]

/-- The encoding of an entry is found under its name. -/
theorem get?_encodeEntries
    {entries : List (String × HostValue)}
    {vars : List Variable}
    (encoded : encodeEntries entries = .ok vars)
    {name : String}
    {value : HostValue}
    (found : Entries.get? entries name = some value) :
    ∃ encoding, value.encode = .ok encoding ∧ Entries.get? vars name = some encoding := by
  induction entries generalizing vars with
  | nil => cases found
  | cons entry rest ih =>
      obtain ⟨first, others, encodedFirst, encodedRest, rfl⟩ := encodeEntries_cons_eq_ok.1 encoded
      rw [Entries.get?_cons] at found
      by_cases same : entry.1 = name
      · rw [if_pos same, Option.some.injEq] at found
        subst found
        exact ⟨first, encodedFirst, by rw [Entries.get?_cons, if_pos same]⟩
      · rw [if_neg same] at found
        obtain ⟨encoding, encodes, there⟩ := ih encodedRest found
        exact ⟨encoding, encodes, by rw [Entries.get?_cons, if_neg same, there]⟩

/-- The same entries in another order have the same encodings, in that other order. -/
theorem exists_encodeEntries_of_perm
    {reordered entries : List (String × HostValue)}
    {vars : List Variable}
    (perm : reordered.Perm entries)
    (encoded : encodeEntries entries = .ok vars) :
    ∃ others, encodeEntries reordered = .ok others ∧ others.Perm vars := by
  induction perm generalizing vars with
  | nil => exact ⟨vars, encoded, .refl _⟩
  | cons entry _ ih =>
      obtain ⟨first, rest, encodedFirst, encodedRest, rfl⟩ := encodeEntries_cons_eq_ok.1 encoded
      obtain ⟨others, encodedOthers, perm⟩ := ih encodedRest
      exact ⟨(entry.1, first) :: others,
        encodeEntries_cons_eq_ok.2 ⟨first, others, encodedFirst, encodedOthers, rfl⟩,
        perm.cons _⟩
  | swap entry entry' rest =>
      obtain ⟨first, tail, encodedFirst, encodedTail, rfl⟩ := encodeEntries_cons_eq_ok.1 encoded
      obtain ⟨second, others, encodedSecond, encodedOthers, rfl⟩ :=
        encodeEntries_cons_eq_ok.1 encodedTail
      exact ⟨(entry'.1, second) :: (entry.1, first) :: others,
        encodeEntries_cons_eq_ok.2 ⟨second, _, encodedSecond,
          encodeEntries_cons_eq_ok.2 ⟨first, others, encodedFirst, encodedOthers, rfl⟩, rfl⟩,
        .swap _ _ _⟩
  | trans _ _ ihFirst ihSecond =>
      obtain ⟨middle, encodedMiddle, permSecond⟩ := ihSecond encoded
      obtain ⟨others, encodedOthers, permFirst⟩ := ihFirst encodedMiddle
      exact ⟨others, encodedOthers, permFirst.trans permSecond⟩

end HostValue

namespace Value

/-- No tag of the vocabulary names an error. -/
theorem isErrorTag_name (tag : Tag) : isErrorTag tag.name = false := by
  cases tag <;> decide

theorem decodeVariables_eq_mapValues (vars : List Variable) :
    decodeVariables vars = Entries.mapValues decode vars := by
  induction vars with
  | nil =>
      rfl
  | cons entry rest ih =>
      rw [decodeVariables, ih]
      rfl

theorem decode_scope (vars : List Variable) :
    (scope vars).decode = .scope (Entries.mapValues decode (Entries.ofPairs vars)) := by
  rw [decode, HostValue.scopeOf, decodeVariables_eq_mapValues, Entries.mapValues_ofPairs]

end Value

end ScriptHost
