import ScriptHost.Proofs.Codec.Encoding

/-!
# Engine values after a round trip

An engine value that goes out to the host and comes back is put into canonical form.  The form is
defined here by recursion on the value and without mention of the host:

* an error value becomes an exception that is carried as an object, with the text as its message;
* a value with any other tag outside the vocabulary becomes its text;
* a truth value has the number zero or one;
* a scope has each name once, where it first occurs, with the canonical form of the value that it
  has last;
* everything else comes back as it is, lists item by item.

The main statement is that encoding undoes decoding up to the canonical form.  It undoes decoding
exactly for the values that are canonical already, and `IsCanonical` lists them.

A host value can be carried by an engine although its encoding would be of another kind.  Such a
value does not come back as it was, and it is ruled out by `carriesObjects`.
-/

namespace ScriptHost

namespace Value

mutual

/-- Are all the host values that this value carries objects? -/
def carriesObjects : Value → Bool
  | object host => host.classify == .object
  -- what values share is a container, and containers are no objects
  | shared _ _ => false
  | list items => itemsCarryObjects items
  | scope vars => variablesCarryObjects vars
  | _ => true

def itemsCarryObjects : List Value → Bool
  | [] => true
  | item :: rest => carriesObjects item && itemsCarryObjects rest

def variablesCarryObjects : List Variable → Bool
  | [] => true
  | (_, value) :: rest => carriesObjects value && variablesCarryObjects rest

end

mutual

/-- A value as it comes back from the host. -/
def canonical : Value → Value
  | str text => str text
  | int number => int number
  | bool number => bool (if number.isZero then Number.ofNat 0 else Number.ofNat 1)
  | none => none
  | list items => list (canonicalItems items)
  | bytes content => bytes content
  | scope vars => scope (Entries.collapse (canonicalVariables vars))
  | object host => object host
  | shared number content => shared number content
  | tagged tag text _ _ =>
      if isErrorTag tag then object (.exception .fresh (text.getD ""))
      else str (text.getD "")

/-- The items of a list as they come back. -/
def canonicalItems : List Value → List Value
  | [] => []
  | item :: rest => canonical item :: canonicalItems rest

/-- Variables as they come back, repeated names included. -/
def canonicalVariables : List Variable → List Variable
  | [] => []
  | (name, value) :: rest => (name, canonical value) :: canonicalVariables rest

end

mutual

/-- Is a value canonical?  Every tag in it is of the vocabulary, every truth value zero or one, and
every scope has distinct names. -/
def IsCanonical : Value → Prop
  | bool number => number = Number.ofNat 0 ∨ number = Number.ofNat 1
  | list items => ItemsCanonical items
  | scope vars => (Entries.names vars).Nodup ∧ VariablesCanonical vars
  | tagged _ _ _ _ => False
  | _ => True

def ItemsCanonical : List Value → Prop
  | [] => True
  | item :: rest => IsCanonical item ∧ ItemsCanonical rest

def VariablesCanonical : List Variable → Prop
  | [] => True
  | (_, value) :: rest => IsCanonical value ∧ VariablesCanonical rest

end

theorem canonicalVariables_eq_mapValues (vars : List Variable) :
    canonicalVariables vars = Entries.mapValues canonical vars := by
  induction vars with
  | nil =>
      rfl
  | cons entry rest ih =>
      rw [canonicalVariables, ih]
      rfl

/-- The canonical form of a scope is that of the variables that are left of it. -/
theorem canonical_scope (vars : List Variable) :
    (scope vars).canonical = scope (Entries.mapValues canonical (Entries.ofPairs vars)) := by
  rw [canonical, ← Entries.ofPairs_eq_collapse, canonicalVariables_eq_mapValues,
    Entries.mapValues_ofPairs]

/-- Variables that come back canonical one by one do so together. -/
theorem encodeEntries_decode
    {vars : List Variable}
    (each : ∀ entry ∈ vars, entry.2.decode.encode = .ok entry.2.canonical) :
    HostValue.encodeEntries (Entries.mapValues decode vars) =
      .ok (Entries.mapValues canonical vars) := by
  induction vars with
  | nil =>
      rfl
  | cons entry rest ih =>
      have others := ih fun other h => each other (List.mem_cons_of_mem _ h)
      exact HostValue.encodeEntries_cons_eq_ok.2
        ⟨entry.2.canonical, Entries.mapValues canonical rest, each entry (by simp), others, rfl⟩

/-- An object is carried as it is. -/
theorem encode_of_classify
    {host : HostValue}
    (isObject : host.classify = .object) :
    host.encode = .ok (object host) := by
  cases host <;> simp [HostValue.classify] at isObject <;> rfl

mutual

/-- Encoding the host's form of a value gives its canonical form. -/
theorem encode_decode :
    (value : Value) → value.carriesObjects = true → value.decode.encode = .ok value.canonical
  | str _, _ => rfl
  | int _, _ => rfl
  | bool number, _ => by
      rw [decode, HostValue.encode, ofBool, canonical]
      cases number.isZero <;> rfl
  | none, _ => rfl
  | list items, h => by
      rw [carriesObjects] at h
      rw [decode, canonical, HostValue.encode_list_eq_ok]
      exact ⟨canonicalItems items, encode_decodeItems items h, rfl⟩
  | bytes _, _ => rfl
  | scope vars, h => by
      rw [carriesObjects] at h
      rw [decode_scope, canonical_scope, HostValue.encode_scope_eq_ok]
      refine ⟨_, encodeEntries_decode ?_, rfl⟩
      intro entry left
      exact encode_decodeVariables vars h entry (Entries.mem_of_mem_ofPairs left)
  | object host, h => by
      rw [carriesObjects, beq_iff_eq] at h
      rw [decode, canonical, encode_of_classify h]
  | shared _ _, h => by
      cases h
  | tagged tag text _ _, _ => by
      rw [decode, canonical]
      cases isErrorTag tag <;> rfl

theorem encode_decodeItems :
    (items : List Value) → itemsCarryObjects items = true →
      HostValue.encodeItems (decodeItems items) = .ok (canonicalItems items)
  | [], _ => rfl
  | item :: rest, h => by
      rw [itemsCarryObjects, Bool.and_eq_true] at h
      rw [decodeItems, canonicalItems, HostValue.encodeItems_cons_eq_ok]
      exact ⟨item.canonical, canonicalItems rest, encode_decode item h.1,
        encode_decodeItems rest h.2, rfl⟩

theorem encode_decodeVariables :
    (vars : List Variable) → variablesCarryObjects vars = true →
      ∀ entry ∈ vars, entry.2.decode.encode = .ok entry.2.canonical
  | [], _ => by
      intro entry h
      cases h
  | (name, value) :: rest, h => by
      intro entry member
      rw [variablesCarryObjects, Bool.and_eq_true] at h
      rcases List.mem_cons.1 member with rfl | member
      · exact encode_decode value h.1
      · exact encode_decodeVariables rest h.2 entry member

end

mutual

/-- The values that the canonical form leaves alone are the canonical ones. -/
theorem canonical_eq_self_iff : (value : Value) → (value.canonical = value ↔ value.IsCanonical)
  | str _ => by simp [canonical, IsCanonical]
  | int _ => by simp [canonical, IsCanonical]
  | bool number => by
      rw [canonical, IsCanonical, bool.injEq]
      constructor
      · intro same
        split at same
        · exact Or.inl same.symm
        · exact Or.inr same.symm
      · rintro (rfl | rfl) <;> rfl
  | none => by simp [canonical, IsCanonical]
  | list items => by
      rw [canonical, IsCanonical, list.injEq]
      exact canonicalItems_eq_self_iff items
  | bytes _ => by simp [canonical, IsCanonical]
  | scope vars => by
      have names : Entries.names (canonicalVariables vars) = Entries.names vars := by
        rw [canonicalVariables_eq_mapValues, Entries.names_mapValues]
      rw [canonical, IsCanonical, scope.injEq, ← Entries.ofPairs_eq_collapse,
        ← canonicalVariables_eq_self_iff vars]
      constructor
      · intro same
        have distinct : (Entries.names vars).Nodup := by
          rw [← same]
          exact Entries.nodup_names_ofPairs _
        refine ⟨distinct, ?_⟩
        rwa [(Entries.ofPairs_eq_self_iff _).2 (names ▸ distinct)] at same
      · rintro ⟨distinct, same⟩
        rw [same]
        exact (Entries.ofPairs_eq_self_iff vars).2 distinct
  | object _ => by simp [canonical, IsCanonical]
  | shared _ _ => by simp [canonical, IsCanonical]
  | tagged tag text number items => by
      rw [canonical, IsCanonical]
      cases isErrorTag tag <;> simp

theorem canonicalItems_eq_self_iff :
    (items : List Value) → (canonicalItems items = items ↔ ItemsCanonical items)
  | [] => by simp [canonicalItems, ItemsCanonical]
  | item :: rest => by
      rw [canonicalItems, ItemsCanonical, List.cons.injEq, canonical_eq_self_iff item,
        canonicalItems_eq_self_iff rest]

theorem canonicalVariables_eq_self_iff :
    (vars : List Variable) → (canonicalVariables vars = vars ↔ VariablesCanonical vars)
  | [] => by simp [canonicalVariables, VariablesCanonical]
  | (name, value) :: rest => by
      rw [canonicalVariables, VariablesCanonical, List.cons.injEq, Prod.mk.injEq,
        canonical_eq_self_iff value, canonicalVariables_eq_self_iff rest]
      simp

end

theorem variablesCanonical_iff (vars : List Variable) :
    VariablesCanonical vars ↔ ∀ entry ∈ vars, entry.2.IsCanonical := by
  induction vars with
  | nil =>
      simp [VariablesCanonical]
  | cons entry rest ih =>
      rw [VariablesCanonical, ih, List.forall_mem_cons]

mutual

/-- Canonical forms are canonical. -/
theorem isCanonical_canonical : (value : Value) → value.canonical.IsCanonical
  | str _ => by simp [canonical, IsCanonical]
  | int _ => by simp [canonical, IsCanonical]
  | bool number => by
      rw [canonical, IsCanonical]
      split
      · exact Or.inl rfl
      · exact Or.inr rfl
  | none => by simp [canonical, IsCanonical]
  | list items => by
      rw [canonical, IsCanonical]
      exact itemsCanonical_canonicalItems items
  | bytes _ => by simp [canonical, IsCanonical]
  | scope vars => by
      rw [canonical, IsCanonical, ← Entries.ofPairs_eq_collapse, variablesCanonical_iff]
      refine ⟨Entries.nodup_names_ofPairs _, ?_⟩
      intro entry left
      have each := (variablesCanonical_iff _).1 (variablesCanonical_canonicalVariables vars)
      exact each entry (Entries.mem_of_mem_ofPairs left)
  | object _ => by simp [canonical, IsCanonical]
  | shared _ _ => by simp [canonical, IsCanonical]
  | tagged tag text _ _ => by
      rw [canonical]
      cases isErrorTag tag <;> simp [IsCanonical]

theorem itemsCanonical_canonicalItems :
    (items : List Value) → ItemsCanonical (canonicalItems items)
  | [] => by simp [canonicalItems, ItemsCanonical]
  | item :: rest => by
      rw [canonicalItems, ItemsCanonical]
      exact ⟨isCanonical_canonical item, itemsCanonical_canonicalItems rest⟩

theorem variablesCanonical_canonicalVariables :
    (vars : List Variable) → VariablesCanonical (canonicalVariables vars)
  | [] => by simp [canonicalVariables, VariablesCanonical]
  | (name, value) :: rest => by
      rw [canonicalVariables, VariablesCanonical]
      exact ⟨isCanonical_canonical value, variablesCanonical_canonicalVariables rest⟩

end

/-- A value that carries objects only comes back from the host, and in its canonical form.  It
comes back unchanged exactly if it is canonical. -/
theorem encode_decode_eq_canonical
    {value : Value}
    (h : value.carriesObjects = true) :
    value.decode.encode = .ok value.canonical ∧
      value.canonical.canonical = value.canonical ∧
      (value.decode.encode = .ok value ↔ value.IsCanonical) := by
  have back := encode_decode value h
  refine ⟨back, ?_, ?_⟩
  · exact (canonical_eq_self_iff value.canonical).2 (isCanonical_canonical value)
  · rw [back, Except.ok.injEq]
    exact canonical_eq_self_iff value

/-- The start of 1970 as an object of the host. -/
def firstDate : HostValue :=
  .reference .fresh
    (.object "Date" (.ok "Thu Jan 01 1970 00:00:00 GMT+0000 (Coordinated Universal Time)"))

/-- A scope with a repeated name, an error, an unknown tag and a truth value out of range. -/
def irregularScope : Value :=
  scope [("x", tagged "KeyError" (some "lost") Option.none (some [])), ("y", bool .nan),
    ("x", list [tagged "Tuple" Option.none Option.none Option.none,
      object firstDate])]

theorem encode_decode_irregularScope :
    irregularScope.carriesObjects = true ∧
      irregularScope.decode.encode =
        .ok (scope [("x", list [str "", object firstDate]),
          ("y", bool (.ofNat 1))]) ∧
      ¬ irregularScope.IsCanonical := by
  have h : irregularScope.carriesObjects = true := rfl
  obtain ⟨back, -, unchanged⟩ := encode_decode_eq_canonical h
  refine ⟨h, back.trans rfl, ?_⟩
  intro regular
  have same : irregularScope.canonical = irregularScope :=
    Except.ok.inj (back.symm.trans (unchanged.2 regular))
  cases same

end Value
end ScriptHost
