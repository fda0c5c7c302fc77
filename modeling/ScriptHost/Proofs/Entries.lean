import Mathlib.Data.List.Induction
import Mathlib.Data.List.Nodup
import ScriptHost.Entries

/-!
# Laws of ordered entries

What writing, erasing and collecting entries do to the names and to the value at each name.

* Entries whose names are distinct are determined by their names and the value at each name.
* `collapse` says of a list of pairs, without writing them one after the other, which entries are
  left: every name once, where it first occurs, with the value that it has last.
* `ofPairs_eq_collapse`: writing pairs one after the other leaves exactly these entries.  Pairs with
  distinct names are left as they are.
* `overwrite` writes pairs over entries.  Names that are there keep their places.
* A record lists the same entries in another order, which depends on the names alone.
-/

namespace ScriptHost
namespace Entries

variable {α β : Type}

@[simp] theorem put_nil (name : String) (value : α) :
    put ([] : Entries α) name value = [(name, value)] := rfl

theorem put_cons
    (entry : String × α)
    (rest : Entries α)
    (name : String)
    (value : α) :
    put (entry :: rest) name value =
      if entry.1 = name then (entry.1, value) :: rest
      else entry :: put rest name value := by
  simp [put, putBy]

@[simp] theorem names_nil : names ([] : Entries α) = [] := rfl

@[simp] theorem names_cons (entry : String × α) (rest : Entries α) :
    names (entry :: rest) = entry.1 :: names rest := rfl

@[simp] theorem names_append (first second : Entries α) :
    names (first ++ second) = names first ++ names second := by
  simp [names]

@[simp] theorem names_mapValues (f : α → β) (entries : Entries α) :
    names (mapValues f entries) = names entries := by
  simp [names, mapValues]

/-- Writing a name that is there keeps the names; a new name goes to the end. -/
theorem names_put
    (entries : Entries α)
    (name : String)
    (value : α) :
    (entries.put name value).names =
      if name ∈ entries.names then entries.names else entries.names ++ [name] := by
  induction entries with
  | nil =>
      simp
  | cons entry rest ih =>
      rw [put_cons]
      by_cases same : entry.1 = name
      · simp [same]
      · have other : ¬ name = entry.1 := fun h => same h.symm
        rw [if_neg same]
        simp only [names_cons, ih, List.mem_cons, other, false_or]
        split <;> simp

/-- Writing keeps names distinct. -/
theorem nodup_names_put
    {entries : Entries α}
    (distinct : entries.names.Nodup)
    (name : String)
    (value : α) :
    (entries.put name value).names.Nodup := by
  rw [names_put]
  split
  · exact distinct
  · rename_i absent
    rw [List.nodup_append]
    refine ⟨distinct, by simp, ?_⟩
    intro a ha b hb
    rw [List.mem_singleton] at hb
    subst hb
    rintro rfl
    exact absent ha

theorem names_erase (entries : Entries α) (name : String) :
    (entries.erase name).names = entries.names.filter (· != name) := by
  rw [erase, names, names, List.filter_map]
  rfl

/-- Erasing keeps names distinct. -/
theorem nodup_names_erase
    {entries : Entries α}
    (distinct : entries.names.Nodup)
    (name : String) :
    (entries.erase name).names.Nodup := by
  rw [names_erase]
  exact distinct.filter _

@[simp] theorem get?_nil (name : String) :
    get? ([] : Entries α) name = none := rfl

theorem get?_cons
    (entry : String × α)
    (rest : Entries α)
    (name : String) :
    get? (entry :: rest) name =
      if entry.1 = name then some entry.2 else get? rest name := by
  simp [get?]

/-- The value at a name after a value was written. -/
theorem get?_put
    (entries : Entries α)
    (name : String)
    (value : α)
    (other : String) :
    (entries.put name value).get? other =
      if name = other then some value else entries.get? other := by
  induction entries with
  | nil =>
      simp [get?_cons]
  | cons entry rest ih =>
      rw [put_cons]
      by_cases same : entry.1 = name
      · rw [if_pos same, get?_cons, get?_cons, same]
        split <;> rfl
      · rw [if_neg same, get?_cons, get?_cons, ih]
        by_cases here : entry.1 = other
        · have apart : ¬ name = other := fun h => same (here.trans h.symm)
          simp [here, apart]
        · simp [here]

/-- Erasing a name leaves the values at the others. -/
theorem get?_erase_of_ne
    (entries : Entries α)
    {name other : String}
    (apart : other ≠ name) :
    (entries.erase name).get? other = entries.get? other := by
  induction entries with
  | nil => rfl
  | cons entry rest ih =>
      have others : erase (entry :: rest) name =
          if entry.1 = name then erase rest name else entry :: erase rest name := by
        simp [erase, List.filter_cons]
      rw [others, get?_cons]
      split
      · rename_i same
        rw [ih, if_neg fun here => apart (here.symm.trans same)]
      · rw [get?_cons, ih]

/-- A name without a value is no name of the entries. -/
theorem get?_eq_none_iff
    (entries : Entries α)
    (name : String) :
    entries.get? name = none ↔ name ∉ entries.names := by
  induction entries with
  | nil =>
      simp
  | cons entry rest ih =>
      rw [get?_cons]
      by_cases same : entry.1 = name
      · simp [same]
      · have other : ¬ name = entry.1 := fun h => same h.symm
        simp [same, other, ih]

/-- Entries with distinct names are determined by the names and the value at each. -/
theorem eq_of_names_of_get?
    {first second : Entries α}
    (distinct : first.names.Nodup)
    (sameNames : first.names = second.names)
    (sameValues : ∀ name, first.get? name = second.get? name) :
    first = second := by
  induction first generalizing second with
  | nil =>
      cases second with
      | nil =>
          rfl
      | cons entry rest =>
          simp at sameNames
  | cons entry rest ih =>
      cases second with
      | nil =>
          simp at sameNames
      | cons entry' rest' =>
          simp only [names_cons, List.cons.injEq, List.nodup_cons] at sameNames distinct
          obtain ⟨sameName, sameRest⟩ := sameNames
          obtain ⟨fresh, distinct⟩ := distinct
          have value : entry.2 = entry'.2 := by
            have here := sameValues entry.1
            rw [get?_cons, get?_cons] at here
            simpa [sameName] using here
          have others : rest = rest' := by
            apply ih distinct sameRest
            intro name
            by_cases same : entry.1 = name
            · have absent : name ∉ names rest := same ▸ fresh
              have absent' : name ∉ names rest' := sameRest ▸ absent
              rw [(get?_eq_none_iff rest name).2 absent,
                (get?_eq_none_iff rest' name).2 absent']
            · have there := sameValues name
              have same' : ¬ entry'.1 = name := sameName ▸ same
              rw [get?_cons, get?_cons, if_neg same, if_neg same'] at there
              exact there
          rw [others, Prod.ext sameName value]

@[simp] theorem ofPairs_nil : ofPairs ([] : List (String × α)) = [] := rfl

@[simp] theorem ofPairs_append_singleton
    (pairs : List (String × α))
    (pair : String × α) :
    ofPairs (pairs ++ [pair]) = (ofPairs pairs).put pair.1 pair.2 := by
  simp [ofPairs]

/-- Entries written one after the other have distinct names. -/
theorem nodup_names_ofPairs (pairs : List (String × α)) :
    (ofPairs pairs).names.Nodup := by
  induction pairs using List.reverseRecOn with
  | nil =>
      simp
  | append_singleton pairs pair ih =>
      rw [ofPairs_append_singleton]
      exact nodup_names_put ih pair.1 pair.2

/-- The names in the order of their first occurrences. -/
theorem names_ofPairs (pairs : List (String × α)) :
    (ofPairs pairs).names = (names pairs).eraseDups := by
  induction pairs using List.reverseRecOn with
  | nil =>
      simp
  | append_singleton pairs pair ih =>
      rw [ofPairs_append_singleton, names_put, ih, names_append, List.eraseDups_append]
      by_cases there : pair.1 ∈ names pairs
      · simp [there, List.removeAll]
      · simp [there, List.removeAll, List.eraseDups_cons]

/-- The value of the last pair with a name. -/
def last? (pairs : List (String × α)) (name : String) : Option α :=
  pairs.reverse.lookup name

@[simp] theorem last?_nil (name : String) :
    last? ([] : List (String × α)) name = none := rfl

theorem last?_append_singleton
    (pairs : List (String × α))
    (pair : String × α)
    (name : String) :
    last? (pairs ++ [pair]) name =
      if pair.1 = name then some pair.2 else last? pairs name := by
  unfold last?
  rw [List.reverse_append, List.reverse_singleton, List.singleton_append, List.lookup_cons]
  by_cases same : pair.1 = name
  · simp [same]
  · have other : (name == pair.1) = false := beq_false_of_ne fun h => same h.symm
    simp [same, other]

/-- The value at a name is the one written last. -/
theorem get?_ofPairs (pairs : List (String × α)) (name : String) :
    (ofPairs pairs).get? name = last? pairs name := by
  induction pairs using List.reverseRecOn with
  | nil =>
      simp
  | append_singleton pairs pair ih =>
      rw [ofPairs_append_singleton, get?_put, ih, last?_append_singleton]

/-- Every name of the pairs once, where it first occurs, with the value that it has last. -/
def collapse (pairs : List (String × α)) : Entries α :=
  (names pairs).eraseDups.filterMap fun name => (last? pairs name).map (Prod.mk name)

/-- A name has a last value exactly if it occurs. -/
theorem last?_eq_none_iff (pairs : List (String × α)) (name : String) :
    last? pairs name = none ↔ name ∉ names pairs := by
  induction pairs using List.reverseRecOn with
  | nil =>
      simp
  | append_singleton pairs pair ih =>
      rw [last?_append_singleton]
      by_cases same : pair.1 = name
      · simp [same]
      · have other : ¬ name = pair.1 := fun h => same h.symm
        simp [same, other, ih]

/-- The names of values given for a list of names, where each has one. -/
theorem names_filterMap
    (chosen : List String)
    (value? : String → Option α)
    (given : ∀ name ∈ chosen, value? name ≠ none) :
    names (chosen.filterMap fun name => (value? name).map (Prod.mk name)) = chosen := by
  induction chosen with
  | nil =>
      rfl
  | cons name rest ih =>
      obtain ⟨value, has⟩ := Option.ne_none_iff_exists'.1 (given name (by simp))
      have others := ih fun other h => given other (List.mem_cons_of_mem _ h)
      simp [has, others]

/-- The value at a name among values given for a list of names. -/
theorem get?_filterMap
    (chosen : List String)
    (value? : String → Option α)
    (name : String) :
    get? (chosen.filterMap fun name => (value? name).map (Prod.mk name)) name =
      if name ∈ chosen then value? name else none := by
  induction chosen with
  | nil =>
      simp
  | cons first rest ih =>
      rw [List.filterMap_cons]
      by_cases same : first = name
      · subst same
        cases has : value? first with
        | none =>
            simp [ih, has]
        | some value =>
            simp [get?_cons]
      · have other : ¬ name = first := fun h => same h.symm
        cases has : value? first with
        | none =>
            simp [ih, other]
        | some value =>
            simp [get?_cons, same, other, ih]

/-- Writing pairs one after the other keeps each name once, where it first occurs, with the value
that it has last. -/
theorem ofPairs_eq_collapse (pairs : List (String × α)) :
    ofPairs pairs = collapse pairs := by
  have given : ∀ name ∈ (names pairs).eraseDups, last? pairs name ≠ none := by
    intro name h none
    exact (last?_eq_none_iff pairs name).1 none (List.mem_eraseDups.1 h)
  apply eq_of_names_of_get? (nodup_names_ofPairs pairs)
  · rw [names_ofPairs, collapse, names_filterMap _ _ given]
  · intro name
    rw [get?_ofPairs, collapse, get?_filterMap]
    split
    · rfl
    · rename_i absent
      rw [List.mem_eraseDups] at absent
      exact (last?_eq_none_iff pairs name).2 absent

/-- A new name goes to the end. -/
theorem put_of_notMem
    {entries : Entries α}
    {name : String}
    (absent : name ∉ entries.names)
    (value : α) :
    entries.put name value = entries ++ [(name, value)] := by
  induction entries with
  | nil =>
      rfl
  | cons entry rest ih =>
      simp only [names_cons, List.mem_cons, not_or] at absent
      have other : ¬ entry.1 = name := fun h => absent.1 h.symm
      rw [put_cons, if_neg other, ih absent.2, List.cons_append]

/-- Pairs with distinct names are left as they are, and no others. -/
theorem ofPairs_eq_self_iff (pairs : List (String × α)) :
    ofPairs pairs = pairs ↔ (names pairs).Nodup := by
  constructor
  · intro same
    rw [← same]
    exact nodup_names_ofPairs pairs
  · intro distinct
    induction pairs using List.reverseRecOn with
    | nil =>
        rfl
    | append_singleton pairs pair ih =>
        rw [names_append, List.nodup_append] at distinct
        obtain ⟨before, -, apart⟩ := distinct
        have absent : pair.1 ∉ names pairs := fun h => apart pair.1 h pair.1 (by simp) rfl
        rw [ofPairs_append_singleton, ih before, put_of_notMem absent]

/-- Writing pairs again changes nothing. -/
@[simp] theorem ofPairs_ofPairs (pairs : List (String × α)) :
    ofPairs (ofPairs pairs) = ofPairs pairs :=
  (ofPairs_eq_self_iff _).2 (nodup_names_ofPairs pairs)

theorem mapValues_put
    (f : α → β)
    (entries : Entries α)
    (name : String)
    (value : α) :
    mapValues f (entries.put name value) = (mapValues f entries).put name (f value) := by
  induction entries with
  | nil =>
      rfl
  | cons entry rest ih =>
      simp only [mapValues, List.map_cons, put_cons] at ih ⊢
      split
      · rfl
      · rw [List.map_cons, ih]

/-- Values may be changed before or after the pairs are written. -/
theorem mapValues_ofPairs (f : α → β) (pairs : List (String × α)) :
    mapValues f (ofPairs pairs) = ofPairs (mapValues f pairs) := by
  induction pairs using List.reverseRecOn with
  | nil =>
      rfl
  | append_singleton pairs pair ih =>
      rw [ofPairs_append_singleton, mapValues_put, ih]
      simp [mapValues]

theorem mem_of_mem_put
    {entries : Entries α}
    {name : String}
    {value : α}
    {entry : String × α}
    (h : entry ∈ entries.put name value) :
    entry ∈ entries ∨ entry = (name, value) := by
  induction entries with
  | nil =>
      simpa using h
  | cons first rest ih =>
      rw [put_cons] at h
      split at h
      · rename_i same
        rcases List.mem_cons.1 h with rfl | h
        · exact Or.inr (by rw [same])
        · exact Or.inl (List.mem_cons_of_mem _ h)
      · rcases List.mem_cons.1 h with rfl | h
        · exact Or.inl (by simp)
        · rcases ih h with h | h
          · exact Or.inl (List.mem_cons_of_mem _ h)
          · exact Or.inr h

/-- Every entry is one of the pairs that were written. -/
theorem mem_of_mem_ofPairs
    {pairs : List (String × α)}
    {entry : String × α}
    (h : entry ∈ ofPairs pairs) :
    entry ∈ pairs := by
  induction pairs using List.reverseRecOn with
  | nil =>
      exact h
  | append_singleton pairs pair ih =>
      rw [ofPairs_append_singleton] at h
      rcases mem_of_mem_put h with before | rfl
      · exact List.mem_append_left _ (ih before)
      · simp

/-- The entries after pairs were written one after the other. -/
def overwrite (entries : Entries α) (pairs : List (String × α)) : Entries α :=
  pairs.foldl (fun written pair => written.put pair.1 pair.2) entries

@[simp] theorem overwrite_nil (entries : Entries α) :
    entries.overwrite [] = entries := rfl

@[simp] theorem overwrite_append_singleton
    (entries : Entries α)
    (pairs : List (String × α))
    (pair : String × α) :
    entries.overwrite (pairs ++ [pair]) = (entries.overwrite pairs).put pair.1 pair.2 := by
  simp [overwrite]

theorem ofPairs_append (pairs others : List (String × α)) :
    ofPairs (pairs ++ others) = (ofPairs pairs).overwrite others :=
  List.foldl_append

theorem get?_overwrite
    (entries : Entries α)
    (pairs : List (String × α))
    (name : String) :
    (entries.overwrite pairs).get? name = (last? pairs name).or (entries.get? name) := by
  induction pairs using List.reverseRecOn with
  | nil => simp
  | append_singleton pairs pair ih =>
      rw [overwrite_append_singleton, get?_put, ih, last?_append_singleton]
      split <;> rfl

theorem names_overwrite
    (entries : Entries α)
    (pairs : List (String × α))
    (known : ∀ name ∈ names pairs, name ∈ entries.names) :
    (entries.overwrite pairs).names = entries.names := by
  induction pairs using List.reverseRecOn with
  | nil => rfl
  | append_singleton pairs pair ih =>
      have before := ih fun name member => known name (by simp [member])
      rw [overwrite_append_singleton, names_put, before, if_pos (known pair.1 (by simp))]

theorem mem_of_last?_eq_some
    {pairs : List (String × α)}
    {name : String}
    {value : α}
    (last : last? pairs name = some value) :
    (name, value) ∈ pairs := by
  induction pairs using List.reverseRecOn with
  | nil =>
      simp at last
  | append_singleton pairs pair ih =>
      rw [last?_append_singleton] at last
      split at last
      · rename_i same
        obtain rfl : pair.2 = value := by simpa using last
        simp [← same]
      · exact List.mem_append_left _ (ih last)

theorem last?_cons (entry : String × α) (rest : List (String × α)) (name : String) :
    last? (entry :: rest) name =
      (last? rest name).or (if entry.1 = name then some entry.2 else none) := by
  induction rest using List.reverseRecOn with
  | nil => simpa using last?_append_singleton [] entry name
  | append_singleton rest pair ih =>
      rw [← List.cons_append, last?_append_singleton, last?_append_singleton, ih]
      split <;> rfl

theorem last?_filter_ne (pairs : List (String × α)) (key name : String) :
    last? (pairs.filter fun pair => pair.1 ≠ key) name =
      if key = name then none else last? pairs name := by
  induction pairs using List.reverseRecOn with
  | nil => simp
  | append_singleton pairs pair ih =>
      rw [List.filter_append, last?_append_singleton]
      by_cases same : pair.1 = key
      · have dropped : [pair].filter (fun pair => pair.1 ≠ key) = [] := by simp [same]
        rw [dropped, List.append_nil, ih, same]
        split <;> rfl
      · have kept : [pair].filter (fun pair => pair.1 ≠ key) = [pair] := by simp [same]
        rw [kept, last?_append_singleton, ih]
        by_cases here : pair.1 = name
        · have apart : ¬ key = name := fun h => same (here.trans h.symm)
          simp [here, apart]
        · simp [here]

theorem overwrite_cons
    (entry : String × α)
    (rest : Entries α)
    (pairs : List (String × α)) :
    overwrite (entry :: rest) pairs =
      (entry.1, (last? pairs entry.1).getD entry.2) ::
        overwrite rest (pairs.filter fun pair => pair.1 ≠ entry.1) := by
  induction pairs using List.reverseRecOn with
  | nil => simp
  | append_singleton pairs pair ih =>
      rw [overwrite_append_singleton, ih, put_cons, last?_append_singleton, List.filter_append]
      by_cases same : entry.1 = pair.1
      · simp [same]
      · simp [same, Ne.symm same]

/-- Writing values that look like the last ones at their names leaves the last ones looking the
same. -/
theorem last?_overwrite
    (look : α → β)
    (entries : Entries α)
    (pairs : List (String × α))
    (alike : ∀ name ∈ names pairs, (last? pairs name).map look = (last? entries name).map look)
    (name : String) :
    (last? (entries.overwrite pairs) name).map look = (last? entries name).map look := by
  induction entries generalizing pairs with
  | nil =>
      cases pairs with
      | nil => rfl
      | cons pair rest =>
          have there := alike pair.1 (by simp)
          have absent := (last?_eq_none_iff (pair :: rest) pair.1).1 (by simpa using there)
          simp at absent
  | cons entry rest ih =>
      have others := ih (pairs.filter fun pair => pair.1 ≠ entry.1) (by
        intro other member
        obtain ⟨known, apart⟩ : other ∈ names pairs ∧ ¬ entry.1 = other := by
          obtain ⟨pair, kept, rfl⟩ := List.mem_map.1 member
          obtain ⟨there, apart⟩ := List.mem_filter.1 kept
          exact ⟨List.mem_map_of_mem there, fun same => by simp [same] at apart⟩
        have before := alike other known
        rw [last?_cons, if_neg apart, Option.or_none] at before
        rw [last?_filter_ne, if_neg apart, before])
      rw [overwrite_cons, last?_cons, last?_cons, Option.map_or, Option.map_or, others]
      cases later : last? rest name with
      | some value => rfl
      | none =>
          by_cases here : entry.1 = name
          · subst here
            cases written : last? pairs entry.1 with
            | none => simp
            | some value =>
                have known : entry.1 ∈ names pairs := by
                  by_contra unknown
                  simp [(last?_eq_none_iff pairs entry.1).2 unknown] at written
                simpa [written, last?_cons, later] using alike entry.1 known
          · simp [here]

theorem get?_mapValues (f : α → β) (entries : Entries α) (name : String) :
    (mapValues f entries).get? name = (entries.get? name).map f := by
  induction entries with
  | nil =>
      rfl
  | cons entry rest ih =>
      change get? ((entry.1, f entry.2) :: mapValues f rest) name = _
      rw [get?_cons, get?_cons, ih]
      split <;> rfl

theorem last?_mapValues (f : α → β) (pairs : List (String × α)) (name : String) :
    last? (mapValues f pairs) name = (last? pairs name).map f := by
  rw [← get?_ofPairs, ← get?_ofPairs, ← mapValues_ofPairs, get?_mapValues]

/-! The order in which a record lists its entries. -/

theorem enumerate_perm (entries : Entries α) :
    entries.enumerate.Perm entries := by
  have others : (fun entry : String × α => (index? entry.1).isNone) =
      fun entry => !(index? entry.1).isSome := by
    funext entry
    cases index? entry.1 <;> rfl
  unfold enumerate
  rw [others]
  exact ((List.mergeSort_perm _ _).append_right _).trans (List.filter_append_perm _ _)

theorem nodup_names_enumerate
    {entries : Entries α}
    (distinct : entries.names.Nodup) :
    entries.enumerate.names.Nodup :=
  (((enumerate_perm entries).map Prod.fst).nodup_iff).2 distinct

theorem mem_names_enumerate (entries : Entries α) (name : String) :
    name ∈ entries.enumerate.names ↔ name ∈ entries.names :=
  ((enumerate_perm entries).map Prod.fst).mem_iff

theorem mem_of_get?_eq_some
    {entries : Entries α}
    {name : String}
    {value : α}
    (found : entries.get? name = some value) :
    (name, value) ∈ entries := by
  induction entries with
  | nil => cases found
  | cons entry rest ih =>
      rw [get?_cons] at found
      by_cases same : entry.1 = name
      · rw [if_pos same, Option.some.injEq] at found
        rw [← same, ← found]
        exact List.mem_cons_self
      · rw [if_neg same] at found
        exact List.mem_cons_of_mem _ (ih found)

theorem get?_eq_some_iff
    {entries : Entries α}
    (distinct : entries.names.Nodup)
    (name : String)
    (value : α) :
    entries.get? name = some value ↔ (name, value) ∈ entries := by
  refine ⟨mem_of_get?_eq_some, fun member => ?_⟩
  induction entries with
  | nil => cases member
  | cons entry rest ih =>
      obtain ⟨absent, distinctRest⟩ := List.nodup_cons.1 distinct
      rw [get?_cons]
      rcases List.mem_cons.1 member with rfl | later
      · exact if_pos rfl
      · have different : entry.1 ≠ name := by
          rintro rfl
          exact absent (List.mem_map.2 ⟨_, later, rfl⟩)
        rw [if_neg different]
        exact ih distinctRest later

theorem get?_enumerate
    {entries : Entries α}
    (distinct : entries.names.Nodup)
    (name : String) :
    entries.enumerate.get? name = entries.get? name := by
  apply Option.ext
  intro value
  rw [get?_eq_some_iff (nodup_names_enumerate distinct), get?_eq_some_iff distinct]
  exact (enumerate_perm entries).mem_iff

/-- The names as a record lists them. -/
def listed (names : List String) : List String :=
  (names.filter fun name => (index? name).isSome).mergeSort
      (fun a b => (index? a).getD 0 ≤ (index? b).getD 0) ++
    names.filter fun name => (index? name).isNone

theorem names_enumerate (entries : Entries α) :
    entries.enumerate.names = listed entries.names := by
  have sorted : ((entries.filter fun entry => (index? entry.1).isSome).mergeSort indexLe).map
      (·.1) = ((entries.filter fun entry => (index? entry.1).isSome).map (·.1)).mergeSort
        fun a b => (index? a).getD 0 ≤ (index? b).getD 0 :=
    List.map_mergeSort fun _ _ _ _ => rfl
  unfold enumerate listed names
  rw [List.map_append, sorted, List.filter_map, List.filter_map]
  rfl

/-- Taking out a name that is no array index leaves the order of the others. -/
theorem listed_filter_ne
    (names : List String)
    {name : String}
    (plain : index? name = none) :
    listed (names.filter (· ≠ name)) = (listed names).filter (· ≠ name) := by
  have indices : (names.filter (· ≠ name)).filter (fun other => (index? other).isSome) =
      names.filter fun other => (index? other).isSome := by
    rw [List.filter_filter]
    apply List.filter_congr
    intro other _
    by_cases same : other = name
    · simp [same, plain]
    · simp [same]
  have kept : ∀ other ∈ (names.filter fun other => (index? other).isSome).mergeSort
      (fun a b => (index? a).getD 0 ≤ (index? b).getD 0), decide (other ≠ name) = true := by
    intro other member
    have index := (List.mem_filter.1 ((List.mergeSort_perm _ _).mem_iff.1 member)).2
    apply decide_eq_true
    rintro rfl
    simp [plain] at index
  unfold listed
  rw [indices, List.filter_append, List.filter_eq_self.2 kept, List.filter_filter,
    List.filter_filter]
  simp only [Bool.and_comm]

theorem eraseDups_filter (p : String → Bool) (names : List String) :
    (names.filter p).eraseDups = names.eraseDups.filter p := by
  induction names using List.reverseRecOn with
  | nil => rfl
  | append_singleton names name ih =>
      rw [List.filter_append, List.eraseDups_append, List.eraseDups_append, ih, List.filter_append]
      by_cases there : name ∈ names <;> by_cases chosen : p name = true <;>
        simp [List.removeAll, chosen, there, List.eraseDups_cons]

end Entries
end ScriptHost
