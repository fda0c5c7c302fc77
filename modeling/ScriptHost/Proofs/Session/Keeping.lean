import ScriptHost.Proofs.FunctionTable
import ScriptHost.Proofs.Session.Action

/-!
# What building a script keeps

Invariants of a session that the actions keep by which a script is built: compiling sources, storing
the results and registering functions.

* `KeptByLoading` says what an invariant needs for sources to be loaded.  What a source compiles to
  may have a property of its own, on which the invariant relies.
* `keeps_registerAll` is the same for functions.
* `keeps_createRest`: with both, everything that follows the variables when a session is created
  keeps the invariant.
-/

namespace ScriptHost

namespace Session

variable {π σ μ α : Type}
variable {host : Host π σ}
variable {invariant : Session π σ μ → Prop}
variable {compiled : String → Option π → Prop}

/-- The invariant does not depend on what compiling leaves behind, and what a source compiles to may
be stored as the program or as a module. -/
structure KeptByLoading
    (host : Host π σ)
    (invariant : Session π σ μ → Prop)
    (compiled : String → Option π → Prop) : Prop where
  notes : ∀ {session : Session π σ μ} engineState sources, invariant session →
    invariant { session with
      engineState := engineState
      journal := { session.journal with sources := sources } }
  compiles : ∀ {source state program},
    (host.engine.compile source state).1 = .ok program → compiled source program
  setsProgram : ∀ {session : Session π σ μ} {source program},
    invariant session → compiled source program → invariant { session with program := program }
  putsModule : ∀ {session : Session π σ μ} {source program} name,
    invariant session → compiled source program →
      invariant { session with modules := session.modules.put name ⟨source, program⟩ }

namespace KeptByLoading

variable (loading : KeptByLoading host invariant compiled)

include loading

theorem keeps_compile (source : String) :
    Action.Keeps invariant (compiled source) (compile host source) := by
  intro session kept
  rw [compile, Action.on_bind_of_ok (Action.on_get _)]
  rcases found : host.engine.compile source session.engineState with ⟨fault | program, after⟩
  · refine ⟨loading.notes _ _ kept, fun other same => ?_⟩
    cases same
  · refine ⟨loading.notes _ _ kept, fun other same => ?_⟩
    cases same
    exact loading.compiles (congrArg Prod.fst found)

theorem keeps_addModule (name source : String) :
    Action.Keeps invariant (fun _ => True) (addModule host name source) :=
  (loading.keeps_compile source).bind fun _ compiles =>
    Action.keeps_modify fun _ kept => loading.putsModule name kept compiles

theorem keeps_addModules (pairs : List (String × String)) :
    Action.Keeps invariant (fun _ => True) (addModules host pairs) := by
  induction pairs with
  | nil => exact Action.keeps_pure trivial
  | cons pair rest ih => exact (loading.keeps_addModule pair.1 pair.2).bind fun _ _ => ih

theorem keeps_parse (source : String) :
    Action.Keeps invariant (fun _ => True) (parse host source) := by
  refine (loading.keeps_compile source).bind fun program compiles => ?_
  refine (Action.keeps_modify fun _ kept => loading.setsProgram kept compiles).bind fun _ _ => ?_
  exact Action.keeps_get_bind fun session _ => loading.keeps_addModules _

end KeptByLoading

theorem on_register
    (registration : Registration (HostFunction μ))
    (session : Session π σ μ) :
    (register registration).on session =
      match session.functions.register registration with
      | .ok functions => (.ok (), { session with functions := functions })
      | .error fault => (.error fault, session) := by
  unfold register FunctionTable.register Registration.usedName
  by_cases unnamed : registration.name.getD registration.ownName = ""
  · simp [unnamed]
  · cases added : session.functions.add (registration.name.getD registration.ownName)
        registration.adapter <;>
      simp [unnamed, added, Action.on_bind]

section Registering

variable (sets : ∀ {session : Session π σ μ} functions, invariant session →
  invariant { session with functions := functions })

include sets

/-- Registering a function keeps what does not depend on the functions. -/
theorem keeps_register (registration : Registration (HostFunction μ)) :
    Action.Keeps invariant (fun _ => True) (register registration) := by
  intro session kept
  rw [on_register]
  cases session.functions.register registration with
  | error fault => exact ⟨kept, fun _ _ => trivial⟩
  | ok functions => exact ⟨sets functions kept, fun _ _ => trivial⟩

theorem keeps_registerAll (registrations : List (Registration (HostFunction μ))) :
    Action.Keeps invariant (fun _ => True) (registerAll registrations) := by
  induction registrations with
  | nil => exact Action.keeps_pure trivial
  | cons registration rest ih => exact (keeps_register sets registration).bind fun _ _ => ih

end Registering

/-- What follows the variables when a session is created. -/
def createRest
    (host : Host π σ)
    (source : Option String)
    (functions : List (Registration (HostFunction μ)))
    (modules : List (String × String)) : Action (Session π σ μ) Unit := do
  registerAll functions
  addModules host (Entries.ofPairs modules).enumerate
  match source with
  | none => pure ()
  | some source => parse host source

theorem create_eq (options : SessionOptions μ) :
    (create host options : Action (Session π σ μ) Unit) = (do
      let bindings ← Action.ofExcept (initialBindings options.vars)
      modify fun session => { session with bindings := bindings }
      createRest host options.source options.functions options.modules) := rfl

theorem KeptByLoading.keeps_createRest
    (loading : KeptByLoading host invariant compiled)
    (sets : ∀ {session : Session π σ μ} functions, invariant session →
      invariant { session with functions := functions })
    (source : Option String)
    (functions : List (Registration (HostFunction μ)))
    (modules : List (String × String)) :
    Action.Keeps invariant (fun _ => True) (createRest host source functions modules) := by
  refine (keeps_registerAll sets functions).bind fun _ _ => ?_
  refine (loading.keeps_addModules _).bind fun _ _ => ?_
  cases source with
  | none => exact Action.keeps_pure trivial
  | some source => exact loading.keeps_parse source

end Session
end ScriptHost
