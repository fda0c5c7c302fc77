import ScriptHost.Bindings
import ScriptHost.Engine
import ScriptHost.FunctionTable
import ScriptHost.Observer
import ScriptHost.Procedure

/-!
# Sessions

One script with everything that belongs to it: its program, variables, functions and modules.  The
operations here change the session and may stop with a fault; what they did before the fault stays
done.

* `parse` and `addModule` compile sources; parsing compiles every module again.
* `register` enters a function under its name.
* `create` builds a session from options, part by part.
-/

namespace ScriptHost

/-- A module: its source and what the source compiled to. -/
structure Module (π : Type) where
  source : String
  program : Option π

/-- What a session has done so far. -/
structure Journal (π : Type) where
  /-- The sources that were compiled. -/
  sources : List String
  /-- What the engine was told for each evaluation. -/
  requests : List (Request π)
  events : List Event
  logs : List LogEntry

namespace Journal

variable {π : Type}

/-- Nothing done. -/
def empty : Journal π := ⟨[], [], [], []⟩

/-- What was done since an earlier state of the journal. -/
def since (earlier later : Journal π) : Journal π where
  sources := later.sources.drop earlier.sources.length
  requests := later.requests.drop earlier.requests.length
  events := later.events.drop earlier.events.length
  logs := later.logs.drop earlier.logs.length

end Journal

/-- What stays the same for a session: its engine, and who watches it. -/
structure Host (π σ : Type) where
  engine : Engine π σ
  observer : Option Observer
  logger : Logger

/-- The state of a script, with programs of type `π`, an engine state of type `σ` and a host memory
of type `μ`. -/
structure Session (π σ μ : Type) where
  engineState : σ
  program : Option π
  bindings : Bindings
  functions : FunctionTable (Adapter (HostFunction μ))
  modules : Entries (Module π)
  memory : μ
  /-- What became of the containers that values share. -/
  revisions : Revisions
  journal : Journal π

/-- What changes a state and may stop with a fault; the changes made before the fault remain. -/
abbrev Action (τ α : Type) := ExceptT Fault (StateM τ) α

namespace Action

variable {τ α : Type}

/-- Carries on after a fault, with the fault as a value. -/
def attempt (action : Action τ α) : Action τ (Except Fault α) :=
  fun state => let (result, after) := action.run.run state; (.ok result, after)

/-- Stops if the result is a fault. -/
def ofExcept (result : Except Fault α) : Action τ α :=
  ExceptT.mk (pure result)

end Action

namespace Session

variable {π σ μ : Type}

/-- A script without program, variables, functions or modules. -/
def empty (engineState : σ) (memory : μ) (policy : DuplicatePolicy) : Session π σ μ where
  engineState := engineState
  program := none
  bindings := .empty
  functions := .empty policy
  modules := []
  memory := memory
  revisions := .empty
  journal := .empty

/-- The top-level variables as host values, as they are by now. -/
def hostVariables (session : Session π σ μ) : List (String × HostValue) :=
  (session.bindings.current session.revisions).toHost

/-- Notes an event and asks the observer about it; returns what the observer does. -/
def notify (host : Host π σ) (event : Event) : Action (Session π σ μ) Interference := do
  match host.observer with
  | none => pure .none
  | some observer =>
      let session ← get
      let earlier := session.journal.events
      set { session with journal := { session.journal with events := earlier ++ [event] } }
      Action.ofExcept (observer earlier event).interference

/-- Hands a value to the logger. -/
def log (host : Host π σ) (value : Value) : Action (Session π σ μ) Unit := do
  let session ← get
  let (logs, result) := 
    host.logger.log session.journal.logs (session.revisions.current value).decode
  set { session with journal := { session.journal with logs := logs } }
  Action.ofExcept result

/-- Compiles a source. -/
def compile (host : Host π σ) (source : String) : Action (Session π σ μ) (Option π) := do
  let session ← get
  let (result, engineState) := host.engine.compile source session.engineState
  set { session with
    engineState := engineState
    journal := { session.journal with sources := session.journal.sources ++ [source] } }
  match result with
  | .ok program => pure program
  | .error fault => throw (.malformed fault)

/-- Compiles the source of a module and stores it under its name. -/
def addModule (host : Host π σ) (name source : String) : Action (Session π σ μ) Unit := do
  let program ← compile host source
  modify fun session => { session with modules := session.modules.put name ⟨source, program⟩ }

/-- Compiles and stores modules in order, up to the first that cannot be compiled. -/
def addModules (host : Host π σ) : List (String × String) → Action (Session π σ μ) Unit
  | [] => pure ()
  | (name, source) :: rest => do
      addModule host name source
      addModules host rest

/-- Compiles the source of the program, and then every module again from its stored source. -/
def parse (host : Host π σ) (source : String) : Action (Session π σ μ) Unit := do
  let program ← compile host source
  modify fun session => { session with program := program }
  let session ← get
  addModules host (session.modules.mapValues Module.source)

/-- Sets a top-level variable. -/
def addVariable (name : String) (value : HostValue) : Action (Session π σ μ) Unit := do
  let encoded ← Action.ofExcept value.encode
  modify fun session => { session with bindings := session.bindings.set name encoded }

/-- Registers a function. -/
def register (registration : Registration (HostFunction μ)) : Action (Session π σ μ) Unit := do
  let name := registration.name.getD registration.ownName
  if name = "" then throw .functionNameRequired
  else
    let session ← get
    let functions ← Action.ofExcept (session.functions.add name registration.adapter)
    set { session with functions := functions }

/-- Registers functions in order. -/
def registerAll : List (Registration (HostFunction μ)) → Action (Session π σ μ) Unit
  | [] => pure ()
  | registration :: rest => do
      register registration
      registerAll rest

end Session

/-- The variables that a session starts with. -/
inductive InitialVariables where
  /-- The entries of a record. -/
  | host (entries : List (String × HostValue))
  | engine (vars : List Variable)

/-- The parts of a new session. -/
structure SessionOptions (μ : Type) where
  source : Option String
  vars : InitialVariables
  functions : List (Registration (HostFunction μ))
  /-- The sources of the modules by name. -/
  modules : List (String × String)

namespace Session

variable {π σ μ : Type}

/-- The bindings that a session starts with. -/
def initialBindings : InitialVariables → Except Fault Bindings
  | .host entries => Bindings.ofHost entries
  | .engine vars => .ok (Bindings.ofVariables vars)

/-- Builds a session: variables, then functions, then modules in a record's order, then the
program. -/
def create (host : Host π σ) (options : SessionOptions μ) : Action (Session π σ μ) Unit := do
  let bindings ← Action.ofExcept (initialBindings options.vars)
  modify fun session => { session with bindings := bindings }
  registerAll options.functions
  addModules host (Entries.ofPairs options.modules).enumerate
  match options.source with
  | none => pure ()
  | some source => parse host source

end Session

end ScriptHost
