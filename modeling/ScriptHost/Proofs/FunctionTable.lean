import ScriptHost.Procedure
import ScriptHost.FunctionTable
import ScriptHost.Proofs.Entries

/-!
# Tables that grow by steps

A step changes a table of functions only if it is a registration that the table accepts.

* Replacing every registered function by another keeps the names, and what a name means is replaced
  with it.
* `registering` is the table after steps, one after the other.  Under the policy that the latest
  registration counts, a registered function is what its name means until the name is registered
  again.  Under every other policy it is what its name means for good, provided that the name was
  free.
-/

namespace ScriptHost

namespace FunctionTable

variable {α β : Type}

/-- Applies a function to everything that is registered. -/
def map (f : α → β) (table : FunctionTable α) : FunctionTable β :=
  ⟨table.policy, table.entries.mapValues f⟩

@[simp] theorem names_map (f : α → β) (table : FunctionTable α) :
    (table.map f).names = table.names :=
  Entries.names_mapValues f table.entries

theorem has_map (f : α → β) (table : FunctionTable α) (name : String) :
    (table.map f).has name = table.has name := by
  simp [has, map, Entries.has, Entries.mapValues, Function.comp_def]

theorem resolve?_map (f : α → β) (table : FunctionTable α) (name : String) :
    (table.map f).resolve? name = (table.resolve? name).map f := by
  have found : ((table.entries.mapValues f).filter (·.1 == name)).map (·.2) =
      ((table.entries.filter (·.1 == name)).map (·.2)).map f := by
    simp [Entries.mapValues, List.filter_map, Function.comp_def]
  unfold resolve?
  dsimp only [map]
  rw [found, List.getLast?_map, List.head?_map]
  by_cases latest : table.policy = .shadow <;> simp only [latest, if_true, if_false]

theorem add_map (f : α → β) (table : FunctionTable α) (name : String) (function : α) :
    (table.map f).add name (f function) = (table.add name function).map (map f) := by
  have policy : (table.map f).policy = table.policy := rfl
  unfold add
  simp only [has_map, policy]
  by_cases refused : (table.policy = .reject && table.has name) = true
  · simp only [if_pos refused, Except.map]
  · simp only [if_neg refused, Except.map]
    simp [map, Entries.mapValues]

theorem mem_of_resolve?_eq_some
    {table : FunctionTable α}
    {name : String}
    {function : α}
    (resolved : table.resolve? name = some function) :
    ∃ entry ∈ table.entries, entry.2 = function := by
  have found : function ∈ (table.entries.filter (·.1 == name)).map (·.2) := by
    rw [FunctionTable.resolve?] at resolved
    split at resolved
    · exact List.mem_of_getLast? resolved
    · exact List.mem_of_head? resolved
  obtain ⟨entry, member, rfl⟩ := List.mem_map.1 found
  exact ⟨entry, (List.mem_filter.1 member).1, rfl⟩

theorem add_eq_ok
    {table after : FunctionTable α}
    {name : String}
    {function : α}
    (added : table.add name function = .ok after) :
    after = { table with entries := table.entries ++ [(name, function)] } := by
  unfold add at added
  split at added
  · cases added
  · exact (Except.ok.inj added).symm

theorem resolve?_append_of_ne
    (policy : DuplicatePolicy)
    (entries : Entries α)
    {name other : String}
    (different : other ≠ name)
    (function : α) :
    resolve? ⟨policy, entries ++ [(other, function)]⟩ name = resolve? ⟨policy, entries⟩ name := by
  simp [resolve?, List.filter_append, different]

theorem resolve?_append_of_shadow
    (entries : Entries α)
    (name : String)
    (function : α) :
    resolve? ⟨.shadow, entries ++ [(name, function)]⟩ name = some function := by
  simp [resolve?, List.filter_append]

theorem has_eq_true_iff (table : FunctionTable α) (name : String) :
    table.has name = true ↔ name ∈ table.names := by
  simp [has, Entries.has, names, Entries.names]

theorem filter_eq_nil_of_notMem
    {entries : Entries α}
    {name : String}
    (absent : name ∉ entries.names) :
    entries.filter (·.1 == name) = [] := by
  rw [List.filter_eq_nil_iff]
  intro entry member same
  exact absent (List.mem_map.2 ⟨entry, member, by simpa using same⟩)

theorem filter_eq_nil_of_not_has
    {table : FunctionTable α}
    {name : String}
    (free : table.has name = false) :
    table.entries.filter (·.1 == name) = [] := by
  refine filter_eq_nil_of_notMem fun there => ?_
  rw [(has_eq_true_iff table name).2 there] at free
  cases free

theorem resolve?_append_of_not_has
    {table : FunctionTable α}
    {name : String}
    (free : table.has name = false)
    (function : α) :
    resolve? { table with entries := table.entries ++ [(name, function)] } name =
      some function := by
  simp [resolve?, List.filter_append, filter_eq_nil_of_not_has free]

theorem resolve?_append_of_has
    {table : FunctionTable α}
    {name : String}
    (earliest : table.policy ≠ .shadow)
    (taken : table.has name = true)
    (function : α) :
    resolve? { table with entries := table.entries ++ [(name, function)] } name =
      table.resolve? name := by
  obtain ⟨entry, member, same⟩ := List.any_eq_true.1 taken
  have there : entry ∈ table.entries.filter (·.1 == name) := List.mem_filter.2 ⟨member, same⟩
  unfold resolve?
  rw [if_neg earliest, if_neg earliest, List.filter_append, List.map_append,
    List.head?_append_of_ne_nil]
  intro none
  rw [List.map_eq_nil_iff.1 none] at there
  cases there

end FunctionTable

/-- The name that a function is registered under. -/
def Registration.usedName {φ : Type} (registration : Registration φ) : String :=
  registration.name.getD registration.ownName

namespace FunctionTable

variable {φ : Type}

/-- The table after a registration, which needs a name. -/
def register (table : FunctionTable (Adapter φ)) (registration : Registration φ) :
    Except Fault (FunctionTable (Adapter φ)) :=
  if registration.usedName = "" then .error .functionNameRequired
  else table.add registration.usedName registration.adapter

theorem register_eq_ok
    {table after : FunctionTable (Adapter φ)}
    {registration : Registration φ}
    (registered : table.register registration = .ok after) :
    after =
      { table with
        entries := table.entries ++ [(registration.usedName, registration.adapter)] } := by
  unfold register at registered
  split at registered
  · cases registered
  · exact add_eq_ok registered

theorem register_map
    (f : Adapter φ → Adapter φ)
    (table : FunctionTable (Adapter φ))
    (registration : Registration φ) :
    (table.map f).register { registration with adapter := f registration.adapter } =
      (table.register registration).map (map f) := by
  unfold register
  by_cases unnamed : registration.usedName = ""
  · rw [if_pos unnamed]
    exact if_pos unnamed
  · rw [if_neg unnamed, ← add_map]
    exact if_neg unnamed

/-- The table after a step: only a registration that is accepted changes it. -/
def afterStep (table : FunctionTable (Adapter φ)) : Step φ → FunctionTable (Adapter φ)
  | .register registration => (table.register registration).toOption.getD table
  | _ => table

/-- The table after steps, one after the other. -/
def registering (table : FunctionTable (Adapter φ)) (steps : List (Step φ)) :
    FunctionTable (Adapter φ) :=
  steps.foldl afterStep table

theorem registering_cons
    (table : FunctionTable (Adapter φ))
    (step : Step φ)
    (steps : List (Step φ)) :
    table.registering (step :: steps) = (table.afterStep step).registering steps := rfl

theorem registering_append
    (table : FunctionTable (Adapter φ))
    (first second : List (Step φ)) :
    table.registering (first ++ second) = (table.registering first).registering second := by
  simp [registering]

/-- A step leaves the table as it is, or adds the function that it registers. -/
theorem afterStep_cases (table : FunctionTable (Adapter φ)) (step : Step φ) :
    table.afterStep step = table ∨
      ∃ registration, step = .register registration ∧
        table.afterStep step =
          { table with
            entries := table.entries ++ [(registration.usedName, registration.adapter)] } := by
  cases step with
  | register registration =>
      dsimp only [afterStep]
      cases registered : table.register registration with
      | error fault => exact .inl rfl
      | ok after => exact .inr ⟨registration, rfl, register_eq_ok registered⟩
  | _ => exact .inl rfl

theorem policy_afterStep (table : FunctionTable (Adapter φ)) (step : Step φ) :
    (table.afterStep step).policy = table.policy := by
  rcases table.afterStep_cases step with same | ⟨_, -, added⟩
  · rw [same]
  · rw [added]

theorem policy_registering (table : FunctionTable (Adapter φ)) (steps : List (Step φ)) :
    (table.registering steps).policy = table.policy := by
  induction steps generalizing table with
  | nil => rfl
  | cons step steps ih => rw [registering_cons, ih, policy_afterStep]

theorem resolve?_afterStep_of_ne
    (table : FunctionTable (Adapter φ))
    {step : Step φ}
    {name : String}
    (apart : ∀ registration, step = .register registration → registration.usedName ≠ name) :
    (table.afterStep step).resolve? name = table.resolve? name := by
  rcases table.afterStep_cases step with same | ⟨registration, rfl, added⟩
  · rw [same]
  · rw [added]
    exact resolve?_append_of_ne table.policy table.entries (apart registration rfl) _

/-- Where the latest registration counts, a function is what its name means until the name is
registered again. -/
theorem resolve?_registering_of_shadow
    {table : FunctionTable (Adapter φ)}
    (latest : table.policy = .shadow)
    (earlier : List (Step φ))
    {registration : Registration φ}
    (named : registration.usedName ≠ "")
    {later : List (Step φ)}
    (last : ∀ other, .register other ∈ later → other.usedName ≠ registration.usedName) :
    (table.registering (earlier ++ .register registration :: later)).resolve?
      registration.usedName = some registration.adapter := by
  have now : ((table.registering earlier).afterStep (.register registration)).resolve?
      registration.usedName = some registration.adapter := by
    have policy := (policy_registering table earlier).trans latest
    simp only [afterStep, register, add, named, policy, if_false, reduceCtorEq, decide_false,
      Bool.false_and, Bool.false_eq_true, Except.toOption, Option.getD_some]
    exact resolve?_append_of_shadow _ _ _
  rw [registering_append, registering_cons]
  generalize (table.registering earlier).afterStep (.register registration) = reached at now ⊢
  induction later generalizing reached with
  | nil => exact now
  | cons step later ih =>
      rw [registering_cons]
      refine ih (fun other member => last other (List.mem_cons_of_mem _ member)) _ ?_
      rw [resolve?_afterStep_of_ne _ fun other same => last other (same ▸ List.mem_cons_self)]
      exact now

theorem has_afterStep
    {table : FunctionTable (Adapter φ)}
    {name : String}
    (taken : table.has name = true)
    (step : Step φ) :
    (table.afterStep step).has name = true := by
  rcases table.afterStep_cases step with same | ⟨registration, -, added⟩
  · rwa [same]
  · rw [added]
    obtain ⟨entry, member, same⟩ := List.any_eq_true.1 taken
    exact List.any_eq_true.2 ⟨entry, List.mem_append_left _ member, same⟩

theorem resolve?_registering_of_has
    {table : FunctionTable (Adapter φ)}
    (earliest : table.policy ≠ .shadow)
    {name : String}
    (taken : table.has name = true)
    (steps : List (Step φ)) :
    (table.registering steps).resolve? name = table.resolve? name := by
  induction steps generalizing table with
  | nil => rfl
  | cons step steps ih =>
      have kept : (table.afterStep step).resolve? name = table.resolve? name := by
        rcases table.afterStep_cases step with same | ⟨registration, rfl, added⟩
        · rw [same]
        · by_cases again : registration.usedName = name
          · rw [added, again]
            exact resolve?_append_of_has earliest taken _
          · exact resolve?_afterStep_of_ne table fun _ same =>
              Step.register.inj same ▸ again
      rw [registering_cons, ih (by rwa [policy_afterStep]) (has_afterStep taken step), kept]

/-- Where the earliest registration counts, a function is what its name means for good, provided
that the name was free. -/
theorem resolve?_registering_of_free
    {table : FunctionTable (Adapter φ)}
    (earliest : table.policy ≠ .shadow)
    {earlier : List (Step φ)}
    {registration : Registration φ}
    (named : registration.usedName ≠ "")
    (free : (table.registering earlier).has registration.usedName = false)
    (later : List (Step φ)) :
    (table.registering (earlier ++ .register registration :: later)).resolve?
      registration.usedName = some registration.adapter := by
  have now : (table.registering earlier).afterStep (.register registration) =
      { table.registering earlier with
        entries := (table.registering earlier).entries ++
          [(registration.usedName, registration.adapter)] } := by
    simp [afterStep, register, add, named, free, Except.toOption]
  have taken : ((table.registering earlier).afterStep (.register registration)).has
      registration.usedName = true := by
    rw [now]
    exact List.any_eq_true.2 ⟨_, List.mem_append_right _ List.mem_cons_self, by simp⟩
  have policy : ((table.registering earlier).afterStep (.register registration)).policy ≠
      .shadow := by
    rwa [policy_afterStep, policy_registering]
  rw [registering_append, registering_cons, resolve?_registering_of_has policy taken, now]
  exact resolve?_append_of_not_has free _

/-- What is found under a name after steps on a table.  It is told from any of the registrations of
the name among the steps, which need a name at all. -/
structure Finds
    (table : FunctionTable (Adapter φ))
    (steps : List (Step φ))
    (name : String)
    (found : Option (Adapter φ)) : Prop where
  resolves : found = (table.registering steps).resolve? name
  /-- Where the latest registration counts, it is the function that was registered last. -/
  latest : ∀ (registration : Registration φ) (earlier later : List (Step φ)),
    steps = earlier ++ .register registration :: later → registration.usedName = name →
      name ≠ "" → table.policy = .shadow →
        (∀ other, .register other ∈ later → other.usedName ≠ name) →
          found = some registration.adapter
  /-- Elsewhere it is the function that was registered when the name was free. -/
  earliest : ∀ (registration : Registration φ) (earlier later : List (Step φ)),
    steps = earlier ++ .register registration :: later → registration.usedName = name →
      name ≠ "" → table.policy ≠ .shadow → (table.registering earlier).has name = false →
        found = some registration.adapter
  /-- A registration of a name that is taken then changes nothing. -/
  taken : ∀ (registration : Registration φ) (earlier later : List (Step φ)),
    steps = earlier ++ .register registration :: later → registration.usedName = name →
      table.policy ≠ .shadow → (table.registering earlier).has name = true →
        found = (table.registering earlier).resolve? name

theorem finds_resolve?
    (table : FunctionTable (Adapter φ))
    (steps : List (Step φ))
    (name : String) :
    table.Finds steps name ((table.registering steps).resolve? name) where
  resolves := rfl
  latest := by
    rintro registration earlier later rfl rfl named policy last
    exact resolve?_registering_of_shadow policy earlier named last
  earliest := by
    rintro registration earlier later rfl rfl named policy free
    exact resolve?_registering_of_free policy named free later
  taken := by
    rintro registration earlier later rfl rfl policy there
    rw [registering_append]
    refine resolve?_registering_of_has ?_ there _
    rwa [policy_registering]

end FunctionTable
end ScriptHost
