import Mathlib.Data.Finset.Card
import Mathlib.Data.Finset.Dedup
import ScriptHost.Bindings
import ScriptHost.Proofs.Codec.Encoding

/-!
# Laws of bindings

Bindings are kept in the order in which their names were set first, and hold what was set last.

* `setAll` sets variables one after the other.  All that was ever set, from the first variable on, is
  the history of bindings, and bindings are determined by it.
* `last?_eq_some_iff`: the last value at a name is the one that no later pair overwrites.
* `decode_scope_eq_toHost`: repeated names may be collapsed before the values are decoded, as
  bindings do, or after, as the decoding of a scope does.
* `bindings_of_history` puts together what can be seen of bindings with a given history.
-/

namespace ScriptHost

namespace Entries

variable {α : Type}

theorem has_eq_true_iff_mem_names (entries : Entries α) (name : String) :
    entries.has name = true ↔ name ∈ entries.names := by
  simp [has, names]

/-- The last value at a name is the value of the pair with this name that is followed by no other
one. -/
theorem last?_eq_some_iff
    {pairs : List (String × α)}
    {name : String}
    {value : α} :
    last? pairs name = some value ↔
      ∃ before after, pairs = before ++ (name, value) :: after ∧ name ∉ names after := by
  constructor
  · intro last
    induction pairs using List.reverseRecOn with
    | nil => simp at last
    | append_singleton pairs pair ih =>
        rw [last?_append_singleton] at last
        by_cases same : pair.1 = name
        · rw [if_pos same, Option.some.injEq] at last
          subst same last
          exact ⟨pairs, [], rfl, by simp⟩
        · rw [if_neg same] at last
          obtain ⟨before, after, rfl, absent⟩ := ih last
          refine ⟨before, after ++ [pair], by simp, ?_⟩
          rw [names_append, List.mem_append, names_cons, names_nil, List.mem_singleton]
          rintro (there | here)
          · exact absent there
          · exact same here.symm
  · rintro ⟨before, after, rfl, absent⟩
    induction after using List.reverseRecOn with
    | nil =>
        rw [last?_append_singleton]
        exact if_pos rfl
    | append_singleton after pair ih =>
        rw [names_append, List.mem_append, not_or] at absent
        have other : ¬ pair.1 = name := fun same => absent.2 (by simp [same])
        rw [← List.cons_append, ← List.append_assoc, last?_append_singleton, if_neg other]
        exact ih absent.1

end Entries

namespace Bindings

/-- The bindings after further variables were set, one after the other. -/
def setAll (bindings : Bindings) (sets : List Variable) : Bindings :=
  sets.foldl (fun bindings entry => bindings.set entry.1 entry.2) bindings

/-- Bindings remember no more of the past than the variables that were set. -/
theorem setAll_ofVariables (vars sets : List Variable) :
    (ofVariables vars).setAll sets = ofVariables (vars ++ sets) := by
  rw [setAll, ofVariables, ofVariables, List.foldl_append]

theorem ofVariables_eq (vars : List Variable) :
    ofVariables vars = ⟨Entries.ofPairs vars⟩ := by
  induction vars using List.reverseRecOn with
  | nil => rfl
  | append_singleton vars entry ih =>
      rw [Entries.ofPairs_append_singleton, ofVariables, List.foldl_append]
      change (ofVariables vars).set entry.1 entry.2 = _
      rw [ih]
      rfl

theorem ofVariables_of_nodup
    {vars : List Variable}
    (distinct : (Entries.names vars).Nodup) :
    ofVariables vars = ⟨vars⟩ := by
  rw [ofVariables_eq, (Entries.ofPairs_eq_self_iff vars).2 distinct]

theorem names_ofVariables (vars : List Variable) :
    (ofVariables vars).names = (Entries.names vars).eraseDups := by
  rw [ofVariables_eq, names, Entries.names_ofPairs]

theorem nodup_names_ofVariables (vars : List Variable) :
    (ofVariables vars).names.Nodup := by
  rw [ofVariables_eq]
  exact Entries.nodup_names_ofPairs vars

theorem get?_ofVariables (vars : List Variable) (name : String) :
    (ofVariables vars).get? name = Entries.last? vars name := by
  rw [ofVariables_eq, get?, Entries.get?_ofPairs]

/-- There are as many bindings as different names. -/
theorem size_ofVariables (vars : List Variable) :
    (ofVariables vars).size = (Entries.names vars).toFinset.card := by
  have names : (ofVariables vars).names.toFinset = (Entries.names vars).toFinset := by
    ext name
    simp [names_ofVariables]
  calc
    (ofVariables vars).size = (ofVariables vars).names.length := by
      rw [size, Bindings.names, Entries.names, List.length_map]
    _ = (ofVariables vars).names.toFinset.card :=
      (List.toFinset_card_of_nodup (nodup_names_ofVariables vars)).symm
    _ = (Entries.names vars).toFinset.card := by rw [names]

/-- The bindings of variables, as host values, are the entries of the decoded scope of the
variables. -/
theorem decode_scope_eq_toHost (vars : List Variable) :
    (Value.scope vars).decode = .scope (ofVariables vars).toHost := by
  rw [Value.decode_scope, ofVariables_eq, toHost, Value.decodeVariables_eq_mapValues,
    ← Entries.mapValues_ofPairs, Entries.ofPairs_ofPairs]

end Bindings

/-- Bindings are an insertion-ordered map.  After any variables, with names repeated or not, and any
further ones set one by one, the names are the different names of this history in the order of their
first occurrences, and the value at a name is the one that no later variable overwrites.  As host
values and as a text they are what the decoded scope of their history is. -/
theorem bindings_of_history (vars sets : List Variable) :
    let bindings := (Bindings.ofVariables vars).setAll sets
    let history := vars ++ sets
    (bindings.names = (Entries.names history).eraseDups ∧ bindings.names.Nodup ∧
        bindings.size = (Entries.names history).toFinset.card) ∧
      (∀ name,
        (∀ value, bindings.get? name = some value ↔
          ∃ before after, history = before ++ (name, value) :: after ∧
            name ∉ Entries.names after) ∧
        (bindings.get? name = none ↔ name ∉ Entries.names history) ∧
        (bindings.has name = true ↔ name ∈ Entries.names history)) ∧
      (Value.scope history).decode = .scope bindings.toHost ∧
      bindings.text = (Value.scope history).decode.format 1 := by
  intro bindings history
  have past : bindings = .ofVariables history := Bindings.setAll_ofVariables vars sets
  have names := Bindings.names_ofVariables history
  have decoded := Bindings.decode_scope_eq_toHost history
  rw [past]
  refine ⟨⟨names, Bindings.nodup_names_ofVariables history, Bindings.size_ofVariables history⟩,
    ?_, decoded, ?_⟩
  · intro name
    refine ⟨fun value => ?_, ?_, ?_⟩
    · rw [Bindings.get?_ofVariables, Entries.last?_eq_some_iff]
    · rw [Bindings.get?_ofVariables, Entries.last?_eq_none_iff]
    · rw [Bindings.has, Entries.has_eq_true_iff_mem_names, ← Bindings.names, names,
        List.mem_eraseDups]
  · rw [decoded, HostValue.format, Bindings.text]

end ScriptHost
