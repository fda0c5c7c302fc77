import ScriptHost.Session.Execution

/-!
# What actions do

`Action.on` is an action as a function: from a state to a result and the state that is left.  One
equation for each operation says what it does, so that later proofs never look into the definitions.

`Action.Keeps` is what an action guarantees: it keeps an invariant of the state, also if it stops
with a fault, and what it gives has a property.
-/

namespace ScriptHost

namespace Action

variable {τ α β : Type}

/-- What an action gives in a state, and the state that it leaves. -/
def on (action : Action τ α) (state : τ) : Except Fault α × τ :=
  action.run.run state

@[simp] theorem on_pure (value : α) (state : τ) :
    on (pure value : Action τ α) state = (.ok value, state) := rfl

@[simp] theorem on_throw (fault : Fault) (state : τ) :
    on (throw fault : Action τ α) state = (.error fault, state) := rfl

@[simp] theorem on_get (state : τ) :
    on (get : Action τ τ) state = (.ok state, state) := rfl

@[simp] theorem on_set (next state : τ) :
    on (set next : Action τ Unit) state = (.ok (), next) := rfl

@[simp] theorem on_modify (f : τ → τ) (state : τ) :
    on (modify f : Action τ Unit) state = (.ok (), f state) := rfl

@[simp] theorem on_ofExcept (result : Except Fault α) (state : τ) :
    on (ofExcept result : Action τ α) state = (result, state) := rfl

@[simp] theorem on_attempt (action : Action τ α) (state : τ) :
    on action.attempt state = (.ok (action.on state).1, (action.on state).2) := rfl

theorem on_bind (action : Action τ α) (next : α → Action τ β) (state : τ) :
    on (action >>= next) state =
      match action.on state with
      | (.ok value, after) => (next value).on after
      | (.error fault, after) => (.error fault, after) := by
  change on (ExceptT.bind action next) state = _
  rcases h : action.on state with ⟨result, after⟩
  have h : StateT.run (ExceptT.run action) state = (result, after) := h
  cases result with
  | ok value =>
      change ((ExceptT.run action >>= ExceptT.bindCont next).run state) = _
      simp only [StateT.run_bind, h]
      rfl
  | error fault =>
      change ((ExceptT.run action >>= ExceptT.bindCont next).run state) = _
      simp only [StateT.run_bind, h]
      rfl

@[simp] theorem on_map (f : α → β) (action : Action τ α) (state : τ) :
    on (f <$> action) state = ((action.on state).1.map f, (action.on state).2) := by
  rw [map_eq_pure_bind, on_bind]
  rcases action.on state with ⟨_ | value, after⟩ <;> rfl

theorem on_bind_of_ok
    {action : Action τ α}
    {next : α → Action τ β}
    {state after : τ}
    {value : α}
    (first : action.on state = (.ok value, after)) :
    (action >>= next).on state = (next value).on after := by
  rw [on_bind, first]

theorem on_bind_of_error
    {action : Action τ α}
    {next : α → Action τ β}
    {state after : τ}
    {fault : Fault}
    (first : action.on state = (.error fault, after)) :
    (action >>= next).on state = (.error fault, after) := by
  rw [on_bind, first]

theorem fst_on_bind_of_error
    {action : Action τ α}
    {next : α → Action τ β}
    {state : τ}
    {fault : Fault}
    (first : (action.on state).1 = .error fault) :
    ((action >>= next).on state).1 = .error fault := by
  rcases ran : action.on state with ⟨found, after⟩
  rw [ran] at first
  cases first
  rw [on_bind_of_error ran]

theorem on_bind_eq_ok
    {action : Action τ α}
    {next : α → Action τ β}
    {state last : τ}
    {result : β}
    (both : (action >>= next).on state = (.ok result, last)) :
    ∃ value after, action.on state = (.ok value, after) ∧
      (next value).on after = (.ok result, last) := by
  rw [on_bind] at both
  rcases h : action.on state with ⟨_ | value, after⟩
  · simp [h] at both
  · exact ⟨value, after, rfl, by simpa [h] using both⟩

/-- The action keeps the invariant, whatever it gives, and what it gives has the property. -/
def Keeps (invariant : τ → Prop) (property : α → Prop) (action : Action τ α) : Prop :=
  ∀ state, invariant state →
    invariant (action.on state).2 ∧ ∀ value, (action.on state).1 = .ok value → property value

section Keeps

variable {invariant : τ → Prop}
variable {property : α → Prop}

theorem keeps_ofExcept
    {result : Except Fault α}
    (holds : ∀ value, result = .ok value → property value) :
    Keeps invariant property (ofExcept result : Action τ α) :=
  fun _ kept => ⟨kept, holds⟩

theorem keeps_pure {value : α} (holds : property value) :
    Keeps invariant property (pure value : Action τ α) :=
  keeps_ofExcept fun _ same => Except.ok.inj same ▸ holds

theorem keeps_throw (fault : Fault) :
    Keeps invariant property (throw fault : Action τ α) :=
  fun _ kept => ⟨kept, fun _ same => nomatch same⟩

theorem keeps_modify
    {f : τ → τ}
    (kept : ∀ state, invariant state → invariant (f state)) :
    Keeps invariant (fun _ => True) (modify f : Action τ Unit) :=
  fun state before => ⟨kept state before, fun _ _ => trivial⟩

theorem keeps_get_bind
    {next : τ → Action τ α}
    (rest : ∀ state, invariant state → Keeps invariant property (next state)) :
    Keeps invariant property (get >>= next) := by
  intro state kept
  rw [on_bind_of_ok (on_get state)]
  exact rest state kept state kept

theorem Keeps.bind
    {action : Action τ α}
    {second : β → Prop}
    {next : α → Action τ β}
    (first : Keeps invariant property action)
    (rest : ∀ value, property value → Keeps invariant second (next value)) :
    Keeps invariant second (action >>= next) := by
  intro state before
  obtain ⟨kept, holds⟩ := first state before
  rcases ran : action.on state with ⟨fault | value, after⟩
  · rw [on_bind_of_error ran]
    rw [ran] at kept
    exact ⟨kept, fun _ same => nomatch same⟩
  · rw [on_bind_of_ok ran]
    rw [ran] at kept holds
    exact rest value (holds value rfl) after kept

theorem Keeps.attempt
    {action : Action τ α}
    (kept : Keeps invariant property action) :
    Keeps invariant (fun result => ∀ value, result = .ok value → property value)
      action.attempt := by
  intro state before
  obtain ⟨after, holds⟩ := kept state before
  rw [on_attempt]
  exact ⟨after, fun result same => Except.ok.inj same ▸ holds⟩

end Keeps

end Action
end ScriptHost
