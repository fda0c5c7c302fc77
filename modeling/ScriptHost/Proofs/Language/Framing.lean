import ScriptHost.Proofs.Language.Printing

/-!
# The frame of a run

A run changes its scope through the statements that assign and forget names, in the program or in a
module that it reaches, and through nothing else.

* `Framed` compares a scope with an earlier one, given the names that were assigned and forgotten in
  between: what is the same at the other names, and which order the names have kept.
* `Framed.put` and `Framed.erase` are the two ways in which a statement changes a scope.
* `framed_run`: whatever the outside answers, every scope that a run leaves is framed by its first
  one.
-/

namespace ScriptHost

/-- The first name stands before the second, somewhere in the list. -/
def Precedes (names : List String) (first second : String) : Prop :=
  [first, second].Sublist names

namespace Precedes

variable {names : List String}
variable {first second name : String}

theorem append (precedes : Precedes names first second) (more : List String) :
    Precedes (names ++ more) first second :=
  precedes.trans (List.sublist_append_left names more)

/-- Every name stands before one that is put at the end. -/
theorem append_singleton (member : first ∈ names) (last : String) :
    Precedes (names ++ [last]) first last :=
  List.Sublist.append (List.singleton_sublist.2 member) (List.Sublist.refl [last])

/-- A name at the end changes nothing about the order of other names. -/
theorem append_singleton_iff (apart : second ≠ name) :
    Precedes (names ++ [name]) first second ↔ Precedes names first second := by
  refine ⟨fun precedes => ?_, fun precedes => precedes.append [name]⟩
  obtain ⟨front, back, split, inFront, inBack⟩ := List.sublist_append_iff.1 precedes
  rcases List.sublist_singleton.1 inBack with rfl | rfl
  · rw [List.append_nil] at split
    rwa [Precedes, split]
  · have last := congrArg List.getLast? split
    simp [apart] at last

/-- Nor does taking out a name. -/
theorem filter_ne_iff (apartFirst : first ≠ name) (apartSecond : second ≠ name) :
    Precedes (names.filter (· != name)) first second ↔ Precedes names first second := by
  refine ⟨fun precedes => precedes.trans List.filter_sublist, fun precedes => ?_⟩
  have kept := precedes.filter (· != name)
  simpa [Precedes, apartFirst, apartSecond] using kept

end Precedes

namespace Entries

variable {α : Type}

/-- How entries come from earlier ones when names were assigned and forgotten in between. -/
structure Framed
    (assigned forgotten : String → Prop)
    (earlier later : Entries α) : Prop where
  distinct : later.names.Nodup
  /-- A name that was neither assigned nor forgotten has kept its value, or has none still. -/
  untouched : ∀ name, ¬ assigned name → ¬ forgotten name → later.get? name = earlier.get? name
  /-- A name that was not forgotten is there still. -/
  remaining : ∀ name ∈ earlier.names, ¬ forgotten name → name ∈ later.names
  /-- Names that were not forgotten have kept their order. -/
  ordered : ∀ first ∈ earlier.names, ∀ second ∈ earlier.names,
    ¬ forgotten first → ¬ forgotten second →
      (Precedes later.names first second ↔ Precedes earlier.names first second)
  /-- A new name comes after the earlier ones that were not forgotten. -/
  behind : ∀ old ∈ earlier.names, ¬ forgotten old →
    ∀ new ∈ later.names, new ∉ earlier.names → Precedes later.names old new

namespace Framed

variable {assigned forgotten : String → Prop}
variable {earlier later : Entries α}
variable {name : String}

theorem refl (distinct : earlier.names.Nodup) : Framed assigned forgotten earlier earlier where
  distinct := distinct
  untouched _ _ _ := rfl
  remaining _ member _ := member
  ordered _ _ _ _ _ _ := Iff.rfl
  behind _ _ _ _ member absent := (absent member).elim

/-- Writing an assigned name. -/
theorem put
    (framed : Framed assigned forgotten earlier later)
    (target : assigned name)
    (value : α) :
    Framed assigned forgotten earlier (later.put name value) := by
  have distinct := nodup_names_put framed.distinct name value
  have untouched : ∀ other, ¬ assigned other → ¬ forgotten other →
      (later.put name value).get? other = earlier.get? other := by
    intro other unassigned unforgotten
    have apart : name ≠ other := fun same => unassigned (same ▸ target)
    rw [get?_put, if_neg apart, framed.untouched other unassigned unforgotten]
  by_cases there : name ∈ later.names
  · have names : (later.put name value).names = later.names := by
      rw [names_put, if_pos there]
    refine ⟨distinct, untouched, ?_, ?_, ?_⟩
    · rw [names]
      exact framed.remaining
    · rw [names]
      exact framed.ordered
    · rw [names]
      exact framed.behind
  · have names : (later.put name value).names = later.names ++ [name] := by
      rw [names_put, if_neg there]
    -- The written name is none of the earlier ones that were not forgotten: these are there.
    have apart : ∀ old ∈ earlier.names, ¬ forgotten old → old ≠ name := by
      rintro old member unforgotten rfl
      exact there (framed.remaining old member unforgotten)
    refine ⟨distinct, untouched, fun old member unforgotten => ?_,
      fun first memberFirst second memberSecond keptFirst keptSecond => ?_,
      fun old member unforgotten new memberNew absent => ?_⟩
    · rw [names]
      exact List.mem_append_left _ (framed.remaining old member unforgotten)
    · rw [names, Precedes.append_singleton_iff (apart second memberSecond keptSecond)]
      exact framed.ordered first memberFirst second memberSecond keptFirst keptSecond
    · rw [names] at memberNew ⊢
      rcases List.mem_append.1 memberNew with before | last
      · exact (framed.behind old member unforgotten new before absent).append [name]
      · obtain rfl := List.mem_singleton.1 last
        exact .append_singleton (framed.remaining old member unforgotten) new

/-- Erasing a forgotten name. -/
theorem erase
    (framed : Framed assigned forgotten earlier later)
    (target : forgotten name) :
    Framed assigned forgotten earlier (later.erase name) := by
  have apart : ∀ other, ¬ forgotten other → other ≠ name := by
    rintro other unforgotten rfl
    exact unforgotten target
  refine ⟨nodup_names_erase framed.distinct name, fun other unassigned unforgotten => ?_,
    fun old member unforgotten => ?_,
    fun first memberFirst second memberSecond keptFirst keptSecond => ?_,
    fun old member unforgotten new memberNew absent => ?_⟩
  · rw [get?_erase_of_ne later (apart other unforgotten)]
    exact framed.untouched other unassigned unforgotten
  · rw [names_erase, List.mem_filter]
    exact ⟨framed.remaining old member unforgotten, by simpa using apart old unforgotten⟩
  · rw [names_erase, Precedes.filter_ne_iff (apart first keptFirst) (apart second keptSecond)]
    exact framed.ordered first memberFirst second memberSecond keptFirst keptSecond
  · rw [names_erase] at memberNew ⊢
    obtain ⟨there, other⟩ := List.mem_filter.1 memberNew
    rw [Precedes.filter_ne_iff (apart old unforgotten) (by simpa using other)]
    exact framed.behind old member unforgotten new there absent

end Framed

end Entries

namespace Language

/-- The program, or a module that it reaches through imports, assigns the name. -/
def Assigns (modules : String → Option Program) (program : Program) (name : String) : Prop :=
  ∃ reached expr, ReachedByImports modules program reached ∧ .assign name expr ∈ reached

/-- The program, or a module that it reaches through imports, forgets the name. -/
def Forgets (modules : String → Option Program) (program : Program) (name : String) : Prop :=
  ∃ reached, ReachedByImports modules program reached ∧ .forget name ∈ reached

section Runs

variable (debug : Bool)
variable (modules : String → Option Program)
variable {assigned forgotten : String → Prop}
variable {earlier : Entries Value}

theorem framed_runStatements
    {enter : Program → Entries Value → Interaction Completion}
    (last : Value)
    (program : Program)
    (scope : Entries Value)
    (assigns : ∀ name expr, .assign name expr ∈ program → assigned name)
    (forgets : ∀ name, .forget name ∈ program → forgotten name)
    (entered : ∀ name body, .importModule name ∈ program → modules name = some body →
      ∀ scope, Entries.Framed assigned forgotten earlier scope →
        (enter body scope).Returns fun completion =>
          Entries.Framed assigned forgotten earlier completion.scope)
    (framed : Entries.Framed assigned forgotten earlier scope) :
    (runStatements debug modules enter last program scope).Returns fun completion =>
      Entries.Framed assigned forgotten earlier completion.scope := by
  induction program generalizing last scope with
  | nil => exact framed
  | cons statement rest ih =>
      have further := fun last scope => ih last scope
        (fun name expr member => assigns name expr (List.mem_cons_of_mem _ member))
        (fun name member => forgets name (List.mem_cons_of_mem _ member))
        (fun name body member => entered name body (List.mem_cons_of_mem _ member))
      cases statement with
      | assign name expr =>
          have target := assigns name expr List.mem_cons_self
          refine (Interaction.returns_true (expr.eval debug scope)).bind fun value _ => ?_
          exact further _ _ (framed.put target value)
      | expression expr =>
          refine (Interaction.returns_true (expr.eval debug scope)).bind fun value _ => ?_
          exact further _ _ framed
      | forget name => exact further _ _ (framed.erase (forgets name List.mem_cons_self))
      | importModule name =>
          rw [runStatements]
          cases found : modules name with
          | none => exact framed
          | some body =>
              exact (entered name body List.mem_cons_self found scope framed).bind
                fun inner framedInner => further _ _ framedInner

/-- Within a program, the run of the program itself or of a module that it reaches changes the scope
through what the program assigns and forgets. -/
theorem framed_run
    (depth : Nat)
    {whole program : Program}
    (reached : ReachedByImports modules whole program)
    (scope : Entries Value)
    (framed : Entries.Framed (Assigns modules whole) (Forgets modules whole) earlier scope) :
    (run debug modules depth program scope).Returns fun completion =>
      Entries.Framed (Assigns modules whole) (Forgets modules whole) earlier completion.scope := by
  have assigns : ∀ reached, ReachedByImports modules whole reached →
      ∀ name expr, .assign name expr ∈ reached → Assigns modules whole name :=
    fun reached reaches name expr member => ⟨reached, expr, reaches, member⟩
  have forgets : ∀ reached, ReachedByImports modules whole reached →
      ∀ name, .forget name ∈ reached → Forgets modules whole name :=
    fun reached reaches name member => ⟨reached, reaches, member⟩
  induction depth generalizing program scope with
  | zero =>
      exact framed_runStatements debug modules _ program scope (assigns program reached)
        (forgets program reached) (fun _ _ _ _ _ _ => trivial) framed
  | succ depth ih =>
      exact framed_runStatements debug modules _ program scope (assigns program reached)
        (forgets program reached)
        (fun name body member found inner => ih (.imported reached member found) inner) framed

end Runs

end Language
end ScriptHost
