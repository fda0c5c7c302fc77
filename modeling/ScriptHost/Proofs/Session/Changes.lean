import ScriptHost.Proofs.Session.Atomicity
import ScriptHost.Proofs.Session.Keeping
import ScriptHost.Proofs.Session.Parsing

/-!
# What functions make of the script that called them

While a script is executed, the functions that it calls may perform steps on it.

* Changes of the script are parsing, setting a variable and adding a module.  They leave alone the
  functions and everything that functions, the observer and the logger can tell.
* `Script.afterStep` says what a step makes of a script of the line language.  The script after an
  execution is the one at its start after the steps of the called functions, one after the other.
* `lookups` lists the moments at which an interaction looks a name up.  The table is then that of
  the start with the functions registered since.
-/

namespace ScriptHost

/-- Does the step change the program, the variables or the modules of a script? -/
def Step.isChange {φ : Type} : Step φ → Bool
  | .parse _ => true
  | .addVariable _ _ => true
  | .addModule _ _ => true
  | _ => false

/-- Does the step start an execution? -/
def Step.isExecution {φ : Type} : Step φ → Bool
  | .execute _ => true
  | _ => false

namespace Session

variable {π σ μ α : Type}

/-- What a change of the script leaves as it is. -/
structure Unaffected (first after : Session π σ μ) : Prop where
  functions : after.functions = first.functions
  memory : after.memory = first.memory
  revisions : after.revisions = first.revisions
  events : after.journal.events = first.journal.events
  logs : after.journal.logs = first.journal.logs

section Changes

variable (host : Host π σ)
variable (execute : Bool → Action (Session π σ μ) Execution)
variable (first : Session π σ μ)

theorem keptByLoading_unaffected :
    KeptByLoading host (Unaffected first) fun _ _ => True where
  notes _ _ unaffected := { unaffected with }
  compiles _ := trivial
  setsProgram unaffected _ := { unaffected with }
  putsModule _ unaffected _ := { unaffected with }

/-- A change that succeeds has nothing to say. -/
theorem keeps_unaffected_performWith
    {step : Step (HostFunction μ)}
    (change : step.isChange = true) :
    Action.Keeps (Unaffected first) (fun result => result = .nothing)
      (performWith host execute step) := by
  cases step with
  | parse source =>
      exact ((keptByLoading_unaffected host first).keeps_parse source).bind fun _ _ =>
        Action.keeps_pure rfl
  | addModule name source =>
      exact ((keptByLoading_unaffected host first).keeps_addModule name source).bind fun _ _ =>
        Action.keeps_pure rfl
  | addVariable name value =>
      refine Action.Keeps.bind ?_ fun _ (_ : True) => Action.keeps_pure rfl
      refine (Action.keeps_ofExcept fun _ _ => trivial).bind fun encoded (_ : True) => ?_
      exact Action.keeps_modify fun session unaffected => { unaffected with }
  | register _ => cases change
  | execute _ => cases change
  | snapshot _ _ => cases change
  | program => cases change

theorem unaffected_performWith
    {step : Step (HostFunction μ)}
    (change : step.isChange = true) :
    Unaffected first ((performWith host execute step).on first).2 :=
  (keeps_unaffected_performWith host execute first change first ⟨rfl, rfl, rfl, rfl, rfl⟩).1

theorem script_register
    (registration : Registration (HostFunction μ))
    (session : Session π σ μ) :
    ((performWith host execute (.register registration)).on session).2.script =
      { session.script with
        functions := session.functions.afterStep (.register registration) } := by
  have registered := on_register registration session
  dsimp only [FunctionTable.afterStep]
  rw [performWith, Action.on_bind, registered]
  cases session.functions.register registration <;> rfl

/-- A step that starts no execution changes the functions only by what it registers. -/
theorem functions_after
    {performed : PerformedStep π σ μ}
    (plain : performed.step.isExecution = false) :
    (performed.after host execute).functions =
      performed.session.functions.afterStep performed.step := by
  obtain ⟨session, step⟩ := performed
  cases step with
  | parse source => exact (unaffected_performWith host execute session rfl).functions
  | addVariable name value => exact (unaffected_performWith host execute session rfl).functions
  | addModule name source => exact (unaffected_performWith host execute session rfl).functions
  | register registration =>
      exact congrArg Script.functions (script_register host execute registration session)
  | execute debug => cases plain
  | snapshot name value => rfl
  | program => rfl

theorem ChangedBy.functions_eq
    {host : Host π σ}
    {execute : Bool → Action (Session π σ μ) Execution}
    {steps : List (PerformedStep π σ μ)}
    {first last : Session π σ μ}
    (changed : ChangedBy host execute steps first last)
    (plain : ∀ performed ∈ steps, performed.step.isExecution = false) :
    last.functions = first.functions.registering (steps.map PerformedStep.step) := by
  induction steps generalizing first with
  | nil => exact congrArg Script.functions changed
  | cons performed rest ih =>
      obtain ⟨same, others⟩ := changed
      have here := functions_after host execute (plain performed List.mem_cons_self)
      have before : performed.session.functions = first.functions :=
        congrArg Script.functions same
      rw [ih others fun other member => plain other (List.mem_cons_of_mem _ member), here, before]
      rfl

end Changes

section Lookups

variable (host : Host π σ)
variable (execute : Bool → Action (Session π σ μ) Execution)

/-- A moment at which an interaction looks a name up. -/
structure Lookup (π σ μ : Type) where
  function : String
  callName : String
  arguments : Arguments
  /-- The session at that moment. -/
  session : Session π σ μ

/-- The function that is found. -/
def Lookup.found (lookup : Lookup π σ μ) : Option (Adapter (HostFunction μ)) :=
  lookup.session.functions.resolve? lookup.function

/-- The steps that the function performs, if one is found. -/
def Lookup.steps (lookup : Lookup π σ μ) : List (PerformedStep π σ μ) :=
  (dispatchedCalls host execute lookup.function lookup.callName lookup.arguments
    lookup.session).flatMap HostCall.steps

/-- The moments at which names are looked up while an interaction is followed, in order. -/
def lookups : Interaction α → Session π σ μ → List (Lookup π σ μ)
  | .done _, _ => []
  | .fail _, _ => []
  | .log value next, session =>
      match (log host value).on session with
      | (.ok _, after) => lookups next after
      | (.error _, _) => []
  | .call function callName arguments next, session =>
      ⟨function, callName, arguments, session⟩ ::
        match (dispatch host execute function callName arguments).on session with
        | (.ok answer, after) => lookups (next answer) after
        | (.error _, _) => []

/-- The moments at which an execution looks names up, in order. -/
def executedLookups (debug : Bool) (session : Session π σ μ) : List (Lookup π σ μ) :=
  match session.program with
  | none => []
  | some program =>
      let event := Event.started debug session.bindings.size
      let started := session.noted host event
      match session.reaction host event with
      | .error _ => []
      | .ok _ =>
          lookups host execute (started.course host program debug)
            (started.begun host program debug)

theorem steps_hostCalls (interaction : Interaction α) (session : Session π σ μ) :
    (hostCalls host execute interaction session).flatMap HostCall.steps =
      (lookups host execute interaction session).flatMap (Lookup.steps host execute) := by
  induction interaction generalizing session with
  | done result => rfl
  | fail fault => rfl
  | log value next ih =>
      rw [hostCalls, lookups]
      rcases (log host value).on session with ⟨_ | _, after⟩
      · rfl
      · exact ih after
  | call function callName arguments next ih =>
      rw [hostCalls, lookups, List.flatMap_append, List.flatMap_cons]
      rcases (dispatch host execute function callName arguments).on session with
        ⟨_ | answer, after⟩
      · rfl
      · dsimp only
        rw [ih answer after]
        rfl

theorem steps_executedCalls (debug : Bool) (session : Session π σ μ) :
    (executedCalls host execute debug session).flatMap HostCall.steps =
      (executedLookups host execute debug session).flatMap (Lookup.steps host execute) := by
  rw [executedCalls, executedLookups]
  cases session.program with
  | none => rfl
  | some program =>
      dsimp only
      cases session.reaction host (.started debug session.bindings.size) with
      | error fault => rfl
      | ok interference => exact steps_hostCalls host execute _ _

variable {host execute}

/-- The table that a name is looked up in is that of the start with what the steps before have
registered. -/
theorem functions_lookup
    {interaction : Interaction α}
    {session : Session π σ μ}
    {earlier later : List (Lookup π σ μ)}
    {lookup : Lookup π σ μ}
    (moments : lookups host execute interaction session = earlier ++ lookup :: later)
    (plain : ∀ performed ∈ earlier.flatMap (Lookup.steps host execute),
      performed.step.isExecution = false) :
    lookup.session.functions = session.functions.registering
      ((earlier.flatMap (Lookup.steps host execute)).map PerformedStep.step) := by
  induction interaction generalizing session earlier with
  | done result => simp [lookups] at moments
  | fail fault => simp [lookups] at moments
  | log value next ih =>
      have same := congrArg Script.functions (script_log host session value)
      rw [lookups] at moments
      rcases logged : (log host value).on session with ⟨_ | _, after⟩ <;>
        rw [logged] at moments same
      · simp at moments
      · rw [ih moments plain]
        exact congrArg (FunctionTable.registering · _) same
  | call function callName arguments next ih =>
      have changed := dispatch_changedBy host execute function callName arguments session
      rw [lookups] at moments
      cases earlier with
      | nil =>
          obtain ⟨rfl, -⟩ := List.cons.inj moments
          rfl
      | cons head rest =>
          obtain ⟨rfl, others⟩ := List.cons.inj moments
          rw [List.flatMap_cons] at plain ⊢
          rcases answered : (dispatch host execute function callName arguments).on session with
            ⟨_ | answer, after⟩ <;> rw [answered] at others changed
          · simp at others
          · have here := changed.functions_eq fun performed member =>
              plain performed (List.mem_append_left _ member)
            rw [ih answer others fun performed member =>
              plain performed (List.mem_append_right _ member), here, List.map_append,
              FunctionTable.registering_append]
            rfl

theorem functions_executedLookup
    {debug : Bool}
    {session : Session π σ μ}
    {earlier later : List (Lookup π σ μ)}
    {lookup : Lookup π σ μ}
    (moments : executedLookups host execute debug session = earlier ++ lookup :: later)
    (plain : ∀ performed ∈ earlier.flatMap (Lookup.steps host execute),
      performed.step.isExecution = false) :
    lookup.session.functions = session.functions.registering
      ((earlier.flatMap (Lookup.steps host execute)).map PerformedStep.step) := by
  rw [executedLookups] at moments
  cases parsed : session.program with
  | none => simp [parsed] at moments
  | some program =>
      cases reacts : session.reaction host (.started debug session.bindings.size) with
      | error fault => simp [parsed, reacts] at moments
      | ok interference =>
          simp only [parsed, reacts] at moments
          have same := congrArg Script.functions
            (script_noted host session (.started debug session.bindings.size))
          rw [functions_lookup moments plain]
          exact congrArg (FunctionTable.registering · _) same

end Lookups

section Language

open ScriptHost.Language

variable (observer : Option Observer)
variable (logger : Logger)
variable {execute : Bool → Action (Session Program Unit μ) Execution}

/-- Every change of the script among the steps succeeds. -/
def ChangesSucceed
    (host : Host π σ)
    (execute : Bool → Action (Session π σ μ) Execution)
    (steps : List (PerformedStep π σ μ)) : Prop :=
  ∀ performed ∈ steps, performed.step.isChange = true →
    ∃ result, ((performWith host execute performed.step).on performed.session).1 = .ok result

/-- What a step makes of a script, where changes succeed. -/
def Script.afterStep (script : Script Program μ) : Step (HostFunction μ) → Script Program μ
  | .parse source =>
      { script with
        program := (Language.compile source).toOption
        modules := reloaded script.modules }
  | .addVariable name value =>
      { script with
        bindings := (value.encode.toOption.map (script.bindings.set name)).getD script.bindings }
  | .addModule name source =>
      { script with modules := script.modules.put name (load source) }
  | .register registration =>
      { script with functions := script.functions.afterStep (.register registration) }
  | _ => script

theorem script_parse
    {session after : Session Program Unit μ}
    {source : String}
    (succeeds : (parse (host observer logger) source).on session = (.ok (), after)) :
    after.script = session.script.afterStep (.parse source) := by
  cases compiled : Language.compile source with
  | error fault =>
      rw [on_parse_of_error observer logger session compiled] at succeeds
      cases succeeds
  | ok program =>
      obtain ⟨-, rfl⟩ := parse_eq_ok observer logger compiled succeeds
      have loaded := modules_parsed session source program
      rw [script, loaded]
      simp only [Script.afterStep, compiled, Except.toOption]
      rfl

theorem script_addModule
    {session after : Session Program Unit μ}
    {name source : String}
    (succeeds : (addModule (host observer logger) name source).on session = (.ok (), after)) :
    after.script = session.script.afterStep (.addModule name source) := by
  rw [on_addModule] at succeeds
  cases compiled : Language.compile source with
  | error fault => simp [compiled] at succeeds
  | ok program =>
      rw [compiled] at succeeds
      obtain ⟨-, rfl⟩ := Prod.mk.inj succeeds
      rfl

theorem script_addVariable
    {session after : Session Program Unit μ}
    {name : String}
    {value : HostValue}
    (succeeds : (addVariable name value).on session = (.ok (), after)) :
    after.script = session.script.afterStep (.addVariable name value) := by
  obtain ⟨encoded, middle, came, changed⟩ := Action.on_bind_eq_ok succeeds
  obtain ⟨encodes, rfl⟩ := Prod.mk.inj came
  obtain ⟨-, rfl⟩ := Prod.mk.inj changed
  simp only [Script.afterStep, encodes, Except.toOption]
  rfl

/-- Performing a step that changes the script is the change itself with nothing to say. -/
theorem of_bind_nothing
    {change : Action (Session Program Unit μ) Unit}
    {session : Session Program Unit μ}
    {result : StepResult Program}
    {performed : Action (Session Program Unit μ) (StepResult Program)}
    (performs : performed = change >>= fun _ => pure .nothing)
    (came : (performed.on session).1 = .ok result) :
    change.on session = (.ok (), (performed.on session).2) := by
  subst performs
  obtain ⟨_, middle, changed, last⟩ := Action.on_bind_eq_ok (Prod.ext came rfl)
  rw [changed]
  exact congrArg (Prod.mk _) (congrArg Prod.snd last)

theorem script_after
    {performed : PerformedStep Program Unit μ}
    (plain : performed.step.isExecution = false)
    (succeeds : performed.step.isChange = true →
      ∃ result, ((performWith (host observer logger) execute performed.step).on
        performed.session).1 = .ok result) :
    (performed.after (host observer logger) execute).script =
      performed.session.script.afterStep performed.step := by
  obtain ⟨session, step⟩ := performed
  cases step with
  | parse source =>
      obtain ⟨result, came⟩ := succeeds rfl
      exact script_parse observer logger (of_bind_nothing rfl came)
  | addVariable name value =>
      obtain ⟨result, came⟩ := succeeds rfl
      exact script_addVariable (of_bind_nothing rfl came)
  | addModule name source =>
      obtain ⟨result, came⟩ := succeeds rfl
      exact script_addModule observer logger (of_bind_nothing rfl came)
  | register registration => exact script_register _ execute registration session
  | execute debug => cases plain
  | snapshot name value => rfl
  | program => rfl

/-- What steps make of a script, one after the other. -/
def Script.following
    (script : Script Program μ)
    (steps : List (Step (HostFunction μ))) : Script Program μ :=
  steps.foldl Script.afterStep script

theorem ChangedBy.script_eq
    {steps : List (PerformedStep Program Unit μ)}
    {first last : Session Program Unit μ}
    (changed : ChangedBy (host observer logger) execute steps first last)
    (plain : ∀ performed ∈ steps, performed.step.isExecution = false)
    (succeed : ChangesSucceed (host observer logger) execute steps) :
    last.script = first.script.following (steps.map PerformedStep.step) := by
  induction steps generalizing first with
  | nil => exact changed
  | cons performed rest ih =>
      obtain ⟨same, others⟩ := changed
      have here := script_after observer logger (plain performed List.mem_cons_self)
        (succeed performed List.mem_cons_self)
      rw [ih others (fun other member => plain other (List.mem_cons_of_mem _ member))
        (fun other member => succeed other (List.mem_cons_of_mem _ member)), here, same]
      rfl

theorem program_following
    (script : Script Program μ)
    {steps : List (Step (HostFunction μ))}
    (unparsed : ∀ source, .parse source ∉ steps) :
    (script.following steps).program = script.program := by
  induction steps generalizing script with
  | nil => rfl
  | cons step rest ih =>
      have others := ih (script.afterStep step) fun source member =>
        unparsed source (List.mem_cons_of_mem _ member)
      refine Eq.trans others ?_
      cases step with
      | parse source => exact absurd List.mem_cons_self (unparsed source)
      | _ => rfl

/-- The program is that of the source that was parsed last. -/
theorem program_following_parse
    (script : Script Program μ)
    (earlier : List (Step (HostFunction μ)))
    (source : String)
    {later : List (Step (HostFunction μ))}
    (last : ∀ other, .parse other ∉ later) :
    (script.following (earlier ++ .parse source :: later)).program =
      (Language.compile source).toOption := by
  rw [Script.following, List.foldl_append]
  exact program_following _ last

theorem nodup_modules_afterStep
    {script : Script Program μ}
    (distinct : script.modules.names.Nodup)
    (step : Step (HostFunction μ)) :
    (script.afterStep step).modules.names.Nodup := by
  cases step with
  | parse source =>
      change (reloaded script.modules).names.Nodup
      rwa [names_reloaded]
  | addModule name source => exact Entries.nodup_names_put distinct name _
  | _ => exact distinct

theorem nodup_modules_following
    {script : Script Program μ}
    (distinct : script.modules.names.Nodup)
    (steps : List (Step (HostFunction μ))) :
    (script.following steps).modules.names.Nodup := by
  induction steps generalizing script with
  | nil => exact distinct
  | cons step rest ih => exact ih (nodup_modules_afterStep distinct step)

/-- A module stays as it was loaded until its name is added again: parsing compiles the same source
once more. -/
theorem get?_modules_following
    {script : Script Program μ}
    (distinct : script.modules.names.Nodup)
    {name source : String}
    (loaded : script.modules.get? name = some (load source))
    {steps : List (Step (HostFunction μ))}
    (last : ∀ other, .addModule name other ∉ steps) :
    (script.following steps).modules.get? name = some (load source) := by
  induction steps generalizing script with
  | nil => exact loaded
  | cons step rest ih =>
      refine ih (nodup_modules_afterStep distinct step) ?_ fun other member =>
        last other (List.mem_cons_of_mem _ member)
      cases step with
      | parse other =>
          have only : Entries.last? script.modules name = some (load source) := by
            rw [← Entries.get?_ofPairs, (Entries.ofPairs_eq_self_iff _).2 distinct, loaded]
          change (reloaded script.modules).get? name = _
          rw [get?_reloaded, only]
          rfl
      | addModule added other =>
          have apart : added ≠ name := by
            rintro rfl
            exact last other List.mem_cons_self
          change (script.modules.put added (load other)).get? name = _
          rw [Entries.get?_put, if_neg apart, loaded]
      | _ => exact loaded

theorem get?_modules_following_addModule
    {script : Script Program μ}
    (distinct : script.modules.names.Nodup)
    (earlier : List (Step (HostFunction μ)))
    (name source : String)
    {later : List (Step (HostFunction μ))}
    (last : ∀ other, .addModule name other ∉ later) :
    (script.following (earlier ++ .addModule name source :: later)).modules.get? name =
      some (load source) := by
  have before := nodup_modules_following distinct earlier
  have added : ((script.following earlier).afterStep (.addModule name source)).modules.get? name =
      some (load source) := by
    change ((script.following earlier).modules.put name (load source)).get? name = _
    rw [Entries.get?_put, if_pos rfl]
  rw [Script.following, List.foldl_append]
  exact get?_modules_following (nodup_modules_afterStep before _) added last

/-- What steps during an execution leave in its script, the variables apart. -/
structure Persists
    (steps : List (Step (HostFunction μ)))
    (session after : Session Program Unit μ) : Prop where
  script : after.script = { session.script.following steps with bindings := after.bindings }
  /-- The program is that of the source that was parsed last. -/
  program : ∀ (source : String) (earlier later : List (Step (HostFunction μ))),
    steps = earlier ++ .parse source :: later → (∀ other, .parse other ∉ later) →
      after.program = (Language.compile source).toOption
  /-- A module is there with the source that was added last. -/
  modules : session.modules.names.Nodup →
    ∀ (name source : String) (earlier later : List (Step (HostFunction μ))),
      steps = earlier ++ .addModule name source :: later →
        (∀ other, .addModule name other ∉ later) →
          after.modules.get? name = some (load source)

theorem persists_of_script_eq
    {steps : List (Step (HostFunction μ))}
    {session after : Session Program Unit μ}
    (left : after.script =
      { session.script.following steps with bindings := after.bindings }) :
    Persists steps session after where
  script := left
  program := by
    rintro source earlier later rfl last
    have program := congrArg Script.program left
    exact program.trans (program_following_parse _ earlier source last)
  modules := by
    rintro distinct name source earlier later rfl last
    have modules : after.modules = _ := congrArg Script.modules left
    rw [modules]
    exact get?_modules_following_addModule distinct earlier name source last

end Language

end Session
end ScriptHost
