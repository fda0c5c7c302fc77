import ScriptHost.Proofs.Codec.Encoding
import ScriptHost.Proofs.Session.Keeping

/-!
# Building scripts step by step

A script that is created from options is the one that an empty script becomes by single steps: a
variable is set, a function registered or a module added for each of the options, and the source is
parsed last.

* `performAll` performs steps in order up to the first that fails.
* Setting variables one by one encodes and stores them as the bulk does.  Registrations, modules and
  the source are handled alike on both ways.
* `create_built`: both ways succeed with the same session or fail with the same fault.
-/

namespace ScriptHost

namespace Session

variable {π σ μ : Type}

section Performing

variable (host : Host π σ)

/-- Performs steps in order, up to the first that fails. -/
def performAll : List (Step (HostFunction μ)) → Action (Session π σ μ) Unit
  | [] => pure ()
  | step :: rest => do
      let _ ← perform host step
      performAll rest

theorem performAll_append (first second : List (Step (HostFunction μ))) :
    (performAll host (first ++ second) : Action (Session π σ μ) Unit) = (do
      performAll host first
      performAll host second) := by
  induction first with
  | nil => simp [performAll]
  | cons step rest ih => simp [performAll, ih]

/-- The fault of several steps is that of the first one that fails. -/
theorem performAll_eq_error_iff
    (steps : List (Step (HostFunction μ)))
    (session : Session π σ μ)
    (fault : Fault) :
    ((performAll host steps).on session).1 = .error fault ↔
      ∃ earlier step later before after, steps = earlier ++ step :: later ∧
        (performAll host earlier).on session = (.ok (), before) ∧
        (perform host step).on before = (.error fault, after) := by
  constructor
  · intro fails
    induction steps generalizing session with
    | nil => cases fails
    | cons step rest ih =>
        rw [performAll] at fails
        rcases performed : (perform host step).on session with ⟨found | result, middle⟩
        · rw [Action.on_bind_of_error performed] at fails
          cases fails
          exact ⟨[], step, rest, session, middle, rfl, rfl, performed⟩
        · rw [Action.on_bind_of_ok performed] at fails
          obtain ⟨earlier, failing, later, before, after, parts, passed, stops⟩ := ih middle fails
          refine ⟨step :: earlier, failing, later, before, after, by rw [parts]; rfl, ?_, stops⟩
          rw [performAll, Action.on_bind_of_ok performed, passed]
  · rintro ⟨earlier, step, later, before, after, rfl, passed, stops⟩
    rw [performAll_append, Action.on_bind_of_ok passed, performAll, Action.on_bind_of_error stops]

theorem performAll_map_register (registrations : List (Registration (HostFunction μ))) :
    (performAll host (registrations.map .register) : Action (Session π σ μ) Unit) =
      registerAll registrations := by
  induction registrations with
  | nil => rfl
  | cons registration rest ih =>
      simp [performAll, registerAll, perform, performWith, ih]

theorem performAll_map_addModule (pairs : List (String × String)) :
    (performAll host (pairs.map fun pair => .addModule pair.1 pair.2) :
      Action (Session π σ μ) Unit) = addModules host pairs := by
  induction pairs with
  | nil => rfl
  | cons pair rest ih =>
      simp [performAll, addModules, perform, performWith, ih]

theorem on_perform_addVariable
    (name : String)
    (value : HostValue)
    (session : Session π σ μ) :
    (perform host (.addVariable name value)).on session =
      match value.encode with
      | .ok encoded =>
          (.ok .nothing, { session with bindings := session.bindings.set name encoded })
      | .error fault => (.error fault, session) := by
  rw [perform, performWith, addVariable]
  cases value.encode <;> rfl

/-- The session with variables set one after the other. -/
def setting (session : Session π σ μ) (vars : List Variable) : Session π σ μ :=
  { session with
    bindings := vars.foldl (fun bindings entry => bindings.set entry.1 entry.2) session.bindings }

/-- Setting host values one by one stores their encodings, up to the first that has none. -/
theorem on_performAll_map_addVariable
    (entries : List (String × HostValue))
    (session : Session π σ μ) :
    let performed :=
      (performAll host (entries.map fun entry => .addVariable entry.1 entry.2)).on session
    match HostValue.encodeEntries entries with
    | .ok vars => performed = (.ok (), session.setting vars)
    | .error fault => performed.1 = .error fault := by
  -- the bulk encodes every value before it stores the first; one by one, those before a value that
  -- has no encoding are stored already, so on a fault only the results can be compared
  induction entries generalizing session with
  | nil => rfl
  | cons entry rest ih =>
      obtain ⟨name, value⟩ := entry
      intro performed
      have performed_eq : performed = (do
          let _ ← perform host (.addVariable name value)
          performAll host (rest.map fun entry : String × HostValue =>
            .addVariable entry.1 entry.2)).on session := rfl
      have first := on_perform_addVariable host name value session
      cases encodes : value.encode with
      | error fault =>
          rw [encodes] at first
          rw [Action.on_bind_of_error first] at performed_eq
          rw [HostValue.encodeEntries, encodes, performed_eq]
          rfl
      | ok encoded =>
          rw [encodes] at first
          rw [Action.on_bind_of_ok first] at performed_eq
          have others := ih { session with bindings := session.bindings.set name encoded }
          rw [HostValue.encodeEntries, encodes, performed_eq]
          cases encodesRest : HostValue.encodeEntries rest <;> rw [encodesRest] at others
          · exact others
          · exact others

/-- The steps that build a script: those for its variables, its functions, its modules in a record's
order, and its source. -/
def buildingSteps
    (source : Option String)
    (entries : List (String × HostValue))
    (functions : List (Registration (HostFunction μ)))
    (modules : List (String × String)) : List (Step (HostFunction μ)) :=
  entries.map (fun entry => .addVariable entry.1 entry.2) ++
    functions.map .register ++
    (Entries.ofPairs modules).enumerate.map (fun pair => .addModule pair.1 pair.2) ++
    source.toList.map .parse

theorem performAll_toList_map_parse (source : Option String) :
    (performAll host (source.toList.map .parse) : Action (Session π σ μ) Unit) =
      match source with
      | none => pure ()
      | some source => parse host source := by
  cases source with
  | none => rfl
  | some source => simp [performAll, perform, performWith]

theorem performAll_buildingSteps
    (source : Option String)
    (entries : List (String × HostValue))
    (functions : List (Registration (HostFunction μ)))
    (modules : List (String × String)) :
    (performAll host (buildingSteps source entries functions modules) :
      Action (Session π σ μ) Unit) = (do
        performAll host (entries.map fun entry => .addVariable entry.1 entry.2)
        createRest host source functions modules) := by
  cases source <;>
    simp only [buildingSteps, createRest, performAll_append, performAll_map_register,
      performAll_map_addModule, performAll_toList_map_parse, bind_assoc]

/-- A session that is created has its variables set on an empty one before the rest follows. -/
theorem on_create
    (source : Option String)
    (entries : List (String × HostValue))
    (functions : List (Registration (HostFunction μ)))
    (modules : List (String × String))
    {session : Session π σ μ}
    (fresh : session.bindings = .empty) :
    (create host ⟨source, .host entries, functions, modules⟩).on session =
      match HostValue.encodeEntries entries with
      | .ok vars => (createRest host source functions modules).on (session.setting vars)
      | .error fault => (.error fault, session) := by
  cases encoded : HostValue.encodeEntries entries with
  | error fault =>
      have refused : initialBindings (.host entries) = .error fault := by
        rw [initialBindings, Bindings.ofHost, encoded]
        rfl
      rw [create, refused]
      rfl
  | ok vars =>
      have bound : initialBindings (.host entries) = .ok (Bindings.ofVariables vars) := by
        rw [initialBindings, Bindings.ofHost, encoded]
        rfl
      have set : session.setting vars =
          { session with bindings := Bindings.ofVariables vars } := by
        rw [setting, fresh]
        rfl
      rw [create, bound]
      change _ = (createRest host source functions modules).on (session.setting vars)
      rw [set]
      rfl

/-- Creating a session from options and building it step by step from an empty one come to the
same. -/
theorem on_create_eq_building
    (source : Option String)
    (entries : List (String × HostValue))
    (functions : List (Registration (HostFunction μ)))
    (modules : List (String × String))
    {session : Session π σ μ}
    (fresh : session.bindings = .empty) :
    let created := (create host ⟨source, .host entries, functions, modules⟩).on session
    let built := (performAll host (buildingSteps source entries functions modules)).on session
    created.1 = built.1 ∧ (created.1 = .ok () → created = built) := by
  intro created built
  have created_eq : created = _ := on_create host source entries functions modules fresh
  have built_eq : built = _ :=
    congrArg (Action.on · session) (performAll_buildingSteps host source entries functions modules)
  have setOneByOne := on_performAll_map_addVariable host entries session
  cases encoded : HostValue.encodeEntries entries with
  | error fault =>
      rw [encoded] at created_eq setOneByOne
      have built_fault : built.1 = .error fault := by
        rw [built_eq]
        exact Action.fst_on_bind_of_error setOneByOne
      rw [created_eq, built_fault]
      exact ⟨rfl, nofun⟩
  | ok vars =>
      rw [encoded] at created_eq setOneByOne
      have same : created = built := by
        rw [created_eq, built_eq, Action.on_bind_of_ok setOneByOne]
      exact ⟨congrArg Prod.fst same, fun _ => same⟩

end Performing

end Session

/-- Creating a script from options succeeds with the session to which the single steps lead from an
empty script, and it fails with the fault of the first step that fails. -/
theorem create_built
    {π σ μ : Type}
    (host : Host π σ)
    (source : Option String)
    (entries : List (String × HostValue))
    (functions : List (Registration (HostFunction μ)))
    (modules : List (String × String))
    (engineState : σ)
    (memory : μ)
    (policy : DuplicatePolicy) :
    let start : Session π σ μ := .empty engineState memory policy
    let steps := Session.buildingSteps source entries functions modules
    let created := (Session.create host ⟨source, .host entries, functions, modules⟩).on start
    (∀ session, created = (.ok (), session) ↔
      (Session.performAll host steps).on start = (.ok (), session)) ∧
    ∀ fault, created.1 = .error fault ↔
      ∃ earlier step later before after, steps = earlier ++ step :: later ∧
        (Session.performAll host earlier).on start = (.ok (), before) ∧
        (Session.perform host step).on before = (.error fault, after) := by
  intro start steps created
  obtain ⟨result_eq, same⟩ : created.1 = ((Session.performAll host steps).on start).1 ∧
      (created.1 = .ok () → created = (Session.performAll host steps).on start) :=
    Session.on_create_eq_building host source entries functions modules rfl
  constructor
  · intro session
    constructor
    · intro succeeds
      rw [← same (congrArg Prod.fst succeeds), succeeds]
    · intro succeeds
      rw [same (by rw [result_eq, succeeds]), succeeds]
  · intro fault
    rw [result_eq, Session.performAll_eq_error_iff]

end ScriptHost
