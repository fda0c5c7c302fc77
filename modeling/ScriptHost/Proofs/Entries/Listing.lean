import ScriptHost.Proofs.Entries
import ScriptHost.Proofs.Number.Text

/-!
# The order of a record

A record lists its entries in an order of its own.  Names that are array indices come first.

* `index?_eq_some_iff`: a name is an array index if it is the numeral of a number up to the greatest
  index, without zeros in front.
* `RecordOrder` says of two lists of names that the second one is the first in a record's order.
* `recordOrder_enumerate`: this is how a record lists entries with distinct names.
* `MergedOrder` and `mergedOrder_enumerate`: how a record lists the names of entries that others were
  written over.
-/

namespace ScriptHost
namespace Entries

variable {α : Type}

theorem index?_repr (n : Nat) :
    index? n.repr = if maxIndex < n then none else some n := by
  have spelled : n.repr.toList = Decimal.digits n := Nat.toList_repr
  have nonempty : (Decimal.digits n).isEmpty = false :=
    List.isEmpty_eq_false_iff.2 Nat.toDigits_ne_nil
  have digit : (Decimal.digits n).all Char.isDigit = true :=
    List.all_eq_true.2 fun _ => Decimal.isDigit_of_mem_digits
  have unpadded := Decimal.unpadded_digits n
  simp only [index?, spelled, nonempty, digit, Decimal.value_digits]
  rw [if_neg (by simp), if_neg (by simpa using unpadded)]

/-- A name is an array index exactly if it is the numeral of one. -/
theorem index?_eq_some_iff {name : String} {n : Nat} :
    index? name = some n ↔ n ≤ maxIndex ∧ name = n.repr := by
  constructor
  · intro found
    rw [index?] at found
    split at found
    · cases found
    · rename_i row
      simp only [Bool.or_eq_true, not_or, List.isEmpty_iff, Bool.not_eq_true', Bool.not_eq_false,
        List.all_eq_true] at row
      split at found
      · cases found
      · rename_i unpadded
        split at found
        · cases found
        · rename_i small
          obtain rfl := Option.some.inj found
          refine ⟨Nat.le_of_not_lt small, String.toList_inj.1 ?_⟩
          rw [Nat.toList_repr]
          exact (Decimal.digits_value row.1 row.2 (by simpa using unpadded)).symm
  · rintro ⟨small, rfl⟩
    rw [index?_repr, if_neg (Nat.not_lt.2 small)]

/-- The second list has the names of the first one in a record's order: the array indices in
ascending order, and then the other names as they stand in the first list. -/
structure RecordOrder (given listed : List String) : Prop where
  perm : listed.Perm given
  parts : ∃ indices : List Nat, ∃ others : List String,
    listed = indices.map Nat.repr ++ others ∧
      indices.Pairwise (· < ·) ∧ (∀ index ∈ indices, index ≤ maxIndex) ∧
      others.Sublist given ∧ ∀ index ≤ maxIndex, index.repr ∉ others

/-- Names that are all array indices are the numerals of numbers. -/
theorem map_repr_filterMap_index?
    {names : List String}
    (each : ∀ name ∈ names, (index? name).isSome = true) :
    (names.filterMap index?).map Nat.repr = names := by
  induction names with
  | nil => rfl
  | cons name rest ih =>
      obtain ⟨eachFirst, eachRest⟩ := List.forall_mem_cons.1 each
      obtain ⟨n, found⟩ := Option.isSome_iff_exists.1 eachFirst
      rw [List.filterMap_cons_some found, List.map_cons, ih eachRest,
        ← (index?_eq_some_iff.1 found).2]

/-- A record lists entries with distinct names in its order. -/
theorem recordOrder_enumerate
    {entries : Entries α}
    (distinct : entries.names.Nodup) :
    RecordOrder entries.names entries.enumerate.names := by
  refine ⟨(enumerate_perm entries).map Prod.fst, ?_⟩
  rw [names_enumerate, listed]
  generalize entries.names = names at distinct
  generalize le_eq : (fun a b => decide ((index? a).getD 0 ≤ (index? b).getD 0)) = le
  generalize indexed_eq : (names.filter fun name => (index? name).isSome).mergeSort le = indexed
  have perm : indexed.Perm (names.filter fun name => (index? name).isSome) :=
    indexed_eq ▸ List.mergeSort_perm _ _
  have each : ∀ name ∈ indexed, (index? name).isSome = true := fun name member =>
    (List.mem_filter.1 (perm.mem_iff.1 member)).2
  have sorted : indexed.Pairwise fun a b => (index? a).getD 0 ≤ (index? b).getD 0 := by
    rw [← indexed_eq, ← le_eq]
    refine (List.pairwise_mergeSort ?_ ?_ _).imp fun before => of_decide_eq_true before
    · intro a b c first second
      simp only [decide_eq_true_eq] at first second ⊢
      exact first.trans second
    · intro a b
      simp only [Bool.or_eq_true, decide_eq_true_eq]
      exact Nat.le_total _ _
  have numerals := map_repr_filterMap_index? each
  have ascending : (indexed.filterMap index?).Pairwise (· ≤ ·) := by
    rw [List.pairwise_filterMap]
    refine sorted.imp fun before m foundFirst n foundSecond => ?_
    simpa [foundFirst, foundSecond] using before
  have apart : (indexed.filterMap index?).Nodup := by
    refine List.Nodup.of_map Nat.repr ?_
    rw [numerals]
    exact perm.nodup_iff.2 (distinct.filter _)
  refine ⟨indexed.filterMap index?, names.filter fun name => (index? name).isNone, ?_, ?_, ?_,
    List.filter_sublist, ?_⟩
  · rw [numerals]
  · exact (ascending.and apart).imp fun both => Nat.lt_of_le_of_ne both.1 both.2
  · intro index member
    obtain ⟨name, -, found⟩ := List.mem_filterMap.1 member
    exact (index?_eq_some_iff.1 found).1
  · intro index small member
    have none := (List.mem_filter.1 member).2
    rw [index?_eq_some_iff.2 ⟨small, rfl⟩] at none
    cases none

/-- The third list has the names of the other two, each once, in a record's order: the array indices
in ascending order, then the other names of the first list as they stand there, and then those that
are in the second list only, as they stand in it.  A name that is repeated stands where it is
first. -/
structure MergedOrder (given added listed : List String) : Prop where
  distinct : listed.Nodup
  mem_iff : ∀ name, name ∈ listed ↔ name ∈ given ∨ name ∈ added
  parts : ∃ indices : List Nat, ∃ front back : List String,
    listed = indices.map Nat.repr ++ (front ++ back) ∧
      indices.Pairwise (· < ·) ∧ (∀ index ∈ indices, index ≤ maxIndex) ∧
      front.Sublist given.eraseDups ∧ back.Sublist added.eraseDups ∧
      (∀ name ∈ back, name ∉ given) ∧ ∀ index ≤ maxIndex, index.repr ∉ front ++ back

/-- A record with entries that others were written over lists the names of both. -/
theorem mergedOrder_enumerate (pairs others : List (String × α)) :
    MergedOrder (names pairs) (names others) (ofPairs (pairs ++ others)).enumerate.names := by
  have distinct := nodup_names_ofPairs (pairs ++ others)
  obtain ⟨perm, indices, rest, listed, ascending, small, sublist, plain⟩ :=
    recordOrder_enumerate distinct
  refine ⟨nodup_names_enumerate distinct, fun name => ?_, ?_⟩
  · rw [mem_names_enumerate, names_ofPairs, List.mem_eraseDups, names_append, List.mem_append]
  · rw [names_ofPairs, names_append, List.eraseDups_append, List.removeAll, eraseDups_filter,
      List.sublist_append_iff] at sublist
    obtain ⟨front, back, rfl, ofFirst, ofSecond⟩ := sublist
    refine ⟨indices, front, back, listed, ascending, small, ofFirst,
      ofSecond.trans List.filter_sublist, fun name member => ?_, plain⟩
    simpa using (List.mem_filter.1 (ofSecond.subset member)).2

end Entries
end ScriptHost
