import ScriptHost.Proofs.FunctionTable

/-!
# Histories of a function table

A table is filled by additions, some of which may fail.

* `adding` is the table after additions, one after the other, and `accepted` are the additions that
  succeed.  The entries of the table are the accepted additions, in order.
* An addition fails only where names may not be repeated, and then only if its name was accepted
  before.
* What a name means is its last accepted addition or its first, by the policy.  Among distinct names
  the policies do not differ.
-/

namespace ScriptHost

namespace FunctionTable

variable {α : Type}

/-- The table after an addition; one that fails leaves the table as it is. -/
def afterAddition (table : FunctionTable α) (call : String × α) : FunctionTable α :=
  (table.add call.1 call.2).toOption.getD table

/-- The table after additions, one after the other. -/
def adding (table : FunctionTable α) (calls : List (String × α)) : FunctionTable α :=
  calls.foldl afterAddition table

/-- The additions that succeed, in order. -/
def accepted (table : FunctionTable α) : List (String × α) → List (String × α)
  | [] => []
  | call :: rest =>
      match table.add call.1 call.2 with
      | .ok after => call :: accepted after rest
      | .error _ => accepted table rest

theorem adding_cons
    (table : FunctionTable α)
    (call : String × α)
    (rest : List (String × α)) :
    table.adding (call :: rest) = (table.afterAddition call).adding rest := rfl

theorem adding_append
    (table : FunctionTable α)
    (first second : List (String × α)) :
    table.adding (first ++ second) = (table.adding first).adding second := by
  simp [adding]

theorem afterAddition_of_error
    {table : FunctionTable α}
    {call : String × α}
    {fault : Fault}
    (fails : table.add call.1 call.2 = .error fault) :
    table.afterAddition call = table := by
  rw [afterAddition, fails]
  rfl

theorem afterAddition_of_ok
    {table after : FunctionTable α}
    {call : String × α}
    (added : table.add call.1 call.2 = .ok after) :
    table.afterAddition call = { table with entries := table.entries ++ [call] } := by
  rw [afterAddition, added]
  exact add_eq_ok added

theorem policy_adding (table : FunctionTable α) (calls : List (String × α)) :
    (table.adding calls).policy = table.policy := by
  induction calls generalizing table with
  | nil => rfl
  | cons call rest ih =>
      rw [adding_cons, ih]
      cases added : table.add call.1 call.2 with
      | error fault => rw [afterAddition_of_error added]
      | ok after => rw [afterAddition_of_ok added]

/-- The entries are the accepted additions after those that were there. -/
theorem entries_adding (table : FunctionTable α) (calls : List (String × α)) :
    (table.adding calls).entries = table.entries ++ table.accepted calls := by
  induction calls generalizing table with
  | nil => simp [adding, accepted]
  | cons call rest ih =>
      rw [adding_cons, ih, accepted]
      cases added : table.add call.1 call.2 with
      | error fault => rw [afterAddition_of_error added]
      | ok after =>
          obtain rfl := add_eq_ok added
          rw [afterAddition_of_ok added]
          simp

/-- The one reason for which an addition fails. -/
theorem add_eq_error_iff
    (table : FunctionTable α)
    (name : String)
    (function : α)
    (fault : Fault) :
    table.add name function = .error fault ↔
      fault = .functionAlreadyRegistered name ∧ table.policy = .reject ∧ name ∈ table.names := by
  rw [← has_eq_true_iff]
  unfold add
  split
  · rename_i refused
    simp only [Bool.and_eq_true, decide_eq_true_eq] at refused
    simp [refused, eq_comm]
  · rename_i allowed
    simp only [Bool.and_eq_true, decide_eq_true_eq] at allowed
    simp [allowed]

/-- The entries are a beginning of all later ones. -/
theorem entries_prefix_adding
    (table : FunctionTable α)
    (calls later : List (String × α)) :
    (table.adding calls).entries <+: (table.adding (calls ++ later)).entries := by
  rw [adding_append, entries_adding (table.adding calls) later]
  exact List.prefix_append _ _

theorem isSome_resolve? (table : FunctionTable α) (name : String) :
    (table.resolve? name).isSome = table.has name := by
  cases taken : table.has name with
  | false =>
      unfold resolve?
      rw [filter_eq_nil_of_not_has taken]
      simp
  | true =>
      obtain ⟨entry, member, same⟩ := List.any_eq_true.1 taken
      have there : entry ∈ table.entries.filter (·.1 == name) := List.mem_filter.2 ⟨member, same⟩
      have found : ((table.entries.filter (·.1 == name)).map (·.2)) ≠ [] := by
        intro none
        rw [List.map_eq_nil_iff.1 none] at there
        cases there
      unfold resolve?
      split
      · simpa using found
      · simpa using found

/-- Where the latest registration counts, a name means the function that it was last added with. -/
theorem resolve?_of_last
    {before after : Entries α}
    {name : String}
    (last : name ∉ after.names)
    (function : α) :
    resolve? ⟨.shadow, before ++ (name, function) :: after⟩ name = some function := by
  simp [resolve?, List.filter_append, filter_eq_nil_of_notMem last]

/-- Elsewhere a name means the function that it was first added with. -/
theorem resolve?_of_first
    {policy : DuplicatePolicy}
    (earliest : policy ≠ .shadow)
    {before : Entries α}
    {name : String}
    (first : name ∉ before.names)
    (function : α)
    (after : Entries α) :
    resolve? ⟨policy, before ++ (name, function) :: after⟩ name = some function := by
  simp [resolve?, earliest, List.filter_append, filter_eq_nil_of_notMem first]

/-- Among distinct names all policies agree. -/
theorem resolve?_of_nodup
    {entries : Entries α}
    (distinct : entries.names.Nodup)
    (policy other : DuplicatePolicy)
    (name : String) :
    resolve? ⟨policy, entries⟩ name = resolve? ⟨other, entries⟩ name := by
  by_cases there : name ∈ entries.names
  · obtain ⟨⟨key, function⟩, member, rfl⟩ := List.mem_map.1 there
    obtain ⟨before, after, rfl⟩ := List.append_of_mem member
    rw [Entries.names_append, Entries.names_cons] at distinct
    obtain ⟨-, later, apart⟩ := List.nodup_append.1 distinct
    have last : key ∉ Entries.names after := (List.nodup_cons.1 later).1
    have first : key ∉ Entries.names before := fun earlier =>
      apart key earlier key List.mem_cons_self rfl
    have found : ∀ any : DuplicatePolicy,
        resolve? ⟨any, before ++ (key, function) :: after⟩ key = some function := by
      intro any
      by_cases latest : any = .shadow
      · subst latest
        exact resolve?_of_last last function
      · exact resolve?_of_first latest first function after
    rw [found policy, found other]
  · have missing : ∀ any : DuplicatePolicy, resolve? ⟨any, entries⟩ name = none := by
      intro any
      simp [resolve?, filter_eq_nil_of_notMem there]
    rw [missing policy, missing other]

/-- Where names may not be repeated, they stay distinct. -/
theorem nodup_names_adding
    {table : FunctionTable α}
    (strict : table.policy = .reject)
    (distinct : table.names.Nodup)
    (calls : List (String × α)) :
    (table.adding calls).names.Nodup := by
  induction calls generalizing table with
  | nil => exact distinct
  | cons call rest ih =>
      rw [adding_cons]
      cases added : table.add call.1 call.2 with
      | error fault =>
          rw [afterAddition_of_error added]
          exact ih strict distinct
      | ok after =>
          rw [afterAddition_of_ok added]
          refine ih strict ?_
          have free : call.1 ∉ table.names := by
            intro taken
            have refused := (add_eq_error_iff table call.1 call.2 _).2 ⟨rfl, strict, taken⟩
            rw [refused] at added
            cases added
          change (table.entries ++ [call]).names.Nodup
          rw [Entries.names_append, Entries.names_cons, Entries.names_nil]
          exact List.nodup_append.2 ⟨distinct, List.nodup_singleton _, by
            rintro name there _ member rfl
            exact free (List.mem_singleton.1 member ▸ there)⟩

/-- Additions of distinct names all succeed. -/
theorem accepted_of_nodup
    {table : FunctionTable α}
    {calls : List (String × α)}
    (distinct : (table.names ++ Entries.names calls).Nodup) :
    table.accepted calls = calls := by
  induction calls generalizing table with
  | nil => rfl
  | cons call rest ih =>
      rw [Entries.names_cons] at distinct
      have free : call.1 ∉ table.names := fun taken =>
        (List.nodup_append.1 distinct).2.2 _ taken _ List.mem_cons_self rfl
      rw [accepted]
      cases added : table.add call.1 call.2 with
      | error fault => exact absurd ((add_eq_error_iff table _ _ fault).1 added).2.2 free
      | ok after =>
          obtain rfl := add_eq_ok added
          dsimp only
          rw [ih]
          change ((table.entries ++ [call]).names ++ Entries.names rest).Nodup
          rw [Entries.names_append, List.append_assoc]
          exact distinct

@[simp] theorem names_empty (policy : DuplicatePolicy) :
    (empty policy : FunctionTable α).names = [] := rfl

/-- An empty table is filled with the accepted additions. -/
theorem adding_empty (policy : DuplicatePolicy) (calls : List (String × α)) :
    (empty policy).adding calls = ⟨policy, (empty policy).accepted calls⟩ := by
  have kept : ((empty policy).adding calls).policy = policy := policy_adding (empty policy) calls
  have entries : ((empty policy).adding calls).entries = (empty policy).accepted calls :=
    entries_adding (empty policy) calls
  exact congrArg₂ FunctionTable.mk kept entries

/-- Additions of distinct names fill an empty table in their order. -/
theorem adding_of_nodup
    (policy : DuplicatePolicy)
    {calls : List (String × α)}
    (distinct : (Entries.names calls).Nodup) :
    (empty policy).adding calls = ⟨policy, calls⟩ := by
  have all : (empty policy).accepted calls = calls := accepted_of_nodup (by simpa using distinct)
  rw [adding_empty, all]

/-- The table is what an empty one becomes by the additions, failing ones included. -/
structure FilledBy
    (policy : DuplicatePolicy)
    (calls : List (String × α))
    (table : FunctionTable α) : Prop where
  /-- A further addition fails exactly if names may not be repeated and its name was accepted. -/
  refuses : ∀ name function fault, table.add name function = .error fault ↔
    fault = .functionAlreadyRegistered name ∧ policy = .reject ∧
      name ∈ Entries.names ((empty policy).accepted calls)
  /-- An addition that fails changes nothing. -/
  unchanged : ∀ name function fault, table.add name function = .error fault →
    (empty policy).adding (calls ++ [(name, function)]) = table
  entries : table.entries = (empty policy).accepted calls
  grows : ∀ later, table.entries <+: ((empty policy).adding (calls ++ later)).entries
  registered : ∀ name, table.has name = true ↔ name ∈ Entries.names ((empty policy).accepted calls)
  resolves : ∀ name, (table.resolve? name).isSome = table.has name
  /-- Where the latest registration counts, a name means its last accepted addition. -/
  latest : policy = .shadow → ∀ before name function after,
    (empty policy).accepted calls = before ++ (name, function) :: after →
      name ∉ Entries.names after → table.resolve? name = some function
  /-- Elsewhere it means its first one. -/
  earliest : policy ≠ .shadow → ∀ before name function after,
    (empty policy).accepted calls = before ++ (name, function) :: after →
      name ∉ Entries.names before → table.resolve? name = some function
  strict : policy = .reject → table.names.Nodup
  /-- Among distinct names the policies do not differ. -/
  agrees : (Entries.names calls).Nodup → ∀ other : DuplicatePolicy,
    ((empty other).adding calls).entries = table.entries ∧
      ∀ name, ((empty other).adding calls).resolve? name = table.resolve? name

/-- What becomes of an empty table by any additions. -/
theorem filledBy_adding
    (policy : DuplicatePolicy)
    (calls : List (String × α)) :
    FilledBy policy calls ((empty policy).adding calls) := by
  constructor
  case refuses =>
    intro name function fault
    rw [add_eq_error_iff, adding_empty]
    rfl
  case unchanged =>
    intro name function fault fails
    rw [adding_append]
    exact afterAddition_of_error fails
  case entries => rw [adding_empty]
  case grows => exact entries_prefix_adding (empty policy) calls
  case registered =>
    intro name
    rw [has_eq_true_iff, adding_empty]
    rfl
  case resolves => exact isSome_resolve? _
  case latest =>
    rintro rfl before name function after parts last
    rw [adding_empty, parts]
    exact resolve?_of_last last function
  case earliest =>
    intro first before name function after parts free
    rw [adding_empty, parts]
    exact resolve?_of_first first free function after
  case strict =>
    intro strict
    refine nodup_names_adding strict ?_ calls
    rw [names_empty]
    exact List.nodup_nil
  case agrees =>
    intro distinct other
    rw [adding_of_nodup policy distinct, adding_of_nodup other distinct]
    exact ⟨rfl, resolve?_of_nodup distinct other policy⟩

example :
    ((empty .shadow).adding [("f", 1), ("g", 2), ("f", 3)]).resolve? "f" = some 3 ∧
      ((empty .first).adding [("f", 1), ("g", 2), ("f", 3)]).resolve? "f" = some 1 ∧
      ((empty .reject).adding [("f", 1), ("g", 2), ("f", 3)]).entries = [("f", 1), ("g", 2)] := by
  decide

end FunctionTable
end ScriptHost
