import ScriptHost.Proofs.Language.Regularity
import ScriptHost.Proofs.Session.Changes

/-!
# Invariants of scripts

What holds of a script whatever is done to it and whatever its functions do.

* An invariant is `Lasting` if every single change of a script keeps it, as does taking over the
  scope that an evaluation hands back.  The values that calls answer with have a property of their
  own, which evaluations may rely on, and so have the programs of sources.
* Every piece of a session keeps a lasting invariant, also if it stops with a fault, and the
  invariant holds at every moment in the middle of an execution.
* `Arises` are the sessions that can come about from any options, those in the middle of executions
  included.
-/

namespace ScriptHost

namespace Session

variable {π σ μ α : Type}

/-- An invariant that lasts, with a property of the values that variables are set to and that calls
answer with, and one of the programs that sources compile to. -/
structure Lasting
    (host : Host π σ)
    (invariant : Session π σ μ → Prop)
    (property : Value → Prop)
    (compiled : String → Option π → Prop) : Prop where
  /-- Only the script counts. -/
  ofScript : ∀ {first last : Session π σ μ},
    invariant first → last.script = first.script → invariant last
  encoded : ∀ {value : HostValue} {encoded : Value}, value.encode = .ok encoded → property encoded
  failed : ∀ message, property (.makeError message)
  compiles : ∀ {source state program},
    (host.engine.compile source state).1 = .ok program → compiled source program
  setsProgram : ∀ {session : Session π σ μ} {source program},
    invariant session → compiled source program → invariant { session with program := program }
  putsModule : ∀ {session : Session π σ μ} {source program} name,
    invariant session → compiled source program →
      invariant { session with modules := session.modules.put name ⟨source, program⟩ }
  setsVariable : ∀ {session : Session π σ μ} {value} name,
    invariant session → property value →
      invariant { session with bindings := session.bindings.set name value }
  setsFunctions : ∀ {session : Session π σ μ} functions,
    invariant session → invariant { session with functions := functions }
  /-- The scope that an evaluation hands back may be taken over. -/
  evaluates : ∀ {session : Session π σ μ}, invariant session →
    ∀ program ∈ session.program, ∀ debug,
      (session.course host program debug).Yields property fun outcome =>
        ∀ later : Session π σ μ, invariant later → invariant (later.withScope outcome)

namespace Lasting

variable {host : Host π σ}
variable {invariant : Session π σ μ → Prop}
variable {property : Value → Prop}
variable {compiled : String → Option π → Prop}
variable (lasting : Lasting host invariant property compiled)

include lasting

section Changing

theorem keptByLoading : KeptByLoading host invariant compiled where
  notes _ _ kept := lasting.ofScript kept rfl
  compiles := lasting.compiles
  setsProgram := lasting.setsProgram
  putsModule := lasting.putsModule

theorem keeps_addVariable (name : String) (value : HostValue) :
    Action.Keeps invariant (fun _ => True) (addVariable name value) :=
  (Action.keeps_ofExcept fun _ encodes => lasting.encoded encodes).bind fun _ holds =>
    Action.keeps_modify fun _ kept => lasting.setsVariable name kept holds

/-- Building a session keeps the invariant if the variables that it starts with may be taken
over. -/
theorem keeps_create
    {options : SessionOptions μ}
    (taken : ∀ bindings, initialBindings options.vars = .ok bindings →
      ∀ session : Session π σ μ, invariant session →
        invariant { session with bindings := bindings }) :
    Action.Keeps invariant (fun _ => True) (create host options) := by
  rw [create_eq]
  refine (Action.keeps_ofExcept taken).bind fun bindings takes => ?_
  refine (Action.keeps_modify takes).bind fun _ _ => ?_
  exact lasting.keptByLoading.keeps_createRest lasting.setsFunctions _ _ _

end Changing

theorem keeps_of_script_eq
    {action : Action (Session π σ μ) α}
    (same : ∀ session, (action.on session).2.script = session.script) :
    Action.Keeps invariant (fun _ => True) action :=
  fun session kept => ⟨lasting.ofScript kept (same session), fun _ _ => trivial⟩

theorem keeps_notify (event : Event) :
    Action.Keeps invariant (fun _ => True) (notify host event) := by
  refine lasting.keeps_of_script_eq fun session => ?_
  rw [on_notify, script_noted]

theorem keeps_log (value : Value) :
    Action.Keeps invariant (fun _ => True) (log host value) :=
  lasting.keeps_of_script_eq fun session => script_log host session value

section Following

variable {execute : Bool → Action (Session π σ μ) Execution}
variable (executes : ∀ debug, Action.Keeps invariant (fun _ => True) (execute debug))

include executes

theorem keeps_performWith (step : Step (HostFunction μ)) :
    Action.Keeps invariant (fun _ => True) (performWith host execute step) := by
  cases step with
  | parse source =>
      exact (lasting.keptByLoading.keeps_parse source).bind fun _ _ => Action.keeps_pure trivial
  | addVariable name value =>
      exact (lasting.keeps_addVariable name value).bind fun _ _ => Action.keeps_pure trivial
  | addModule name source =>
      exact (lasting.keptByLoading.keeps_addModule name source).bind fun _ _ =>
        Action.keeps_pure trivial
  | register registration =>
      exact (keeps_register lasting.setsFunctions registration).bind fun _ _ =>
        Action.keeps_pure trivial
  | execute debug => exact (executes debug).bind fun _ _ => Action.keeps_pure trivial
  | snapshot name value => exact Action.keeps_get_bind fun _ _ => Action.keeps_pure trivial
  | program => exact Action.keeps_get_bind fun _ _ => Action.keeps_pure trivial

theorem keeps_runProcedure : (procedure : Procedure μ) →
    Action.Keeps invariant (fun _ => True) (runProcedure host execute procedure)
  | .finish _ => Action.keeps_ofExcept fun _ _ => trivial
  | .recall next =>
      Action.keeps_get_bind fun session _ => keeps_runProcedure (next session.memory)
  | .remember memory next => by
      refine Action.Keeps.bind (Action.keeps_modify ?_) fun _ _ => keeps_runProcedure next
      exact fun session kept => lasting.ofScript kept rfl
  | .inspect next =>
      Action.keeps_get_bind fun session _ => keeps_runProcedure (next session.hostVariables)
  | .revise number content next => by
      refine Action.Keeps.bind (Action.keeps_modify ?_) fun _ _ => keeps_runProcedure next
      exact fun session kept => lasting.ofScript kept rfl
  | .perform step next =>
      (keeps_performWith lasting executes step).attempt.bind fun result _ =>
        keeps_runProcedure (next (result.map StepResult.execution?))

omit executes in
theorem property_takeResult
    {mode : CallMode}
    {returned : HostValue}
    {value : Value}
    (taken : takeResult mode returned = .ok value) :
    property value := by
  cases mode with
  | immediate => exact lasting.encoded taken
  | suspending =>
      unfold takeResult at taken
      cases settled : returned.settle with
      | error fault => simp [settled] at taken
      | ok awaited =>
          rw [settled] at taken
          exact lasting.encoded taken

theorem keeps_answer
    (adapter : Adapter (HostFunction μ))
    (given : List Argument) :
    Action.Keeps invariant property (answer host execute adapter given) :=
  (lasting.keeps_runProcedure executes (adapter.function given)).bind fun _ _ =>
    Action.keeps_ofExcept fun _ taken => lasting.property_takeResult taken

omit executes in
theorem keeps_conclude
    (callName : String)
    {result : Except Fault Value}
    (holds : ∀ value, result = .ok value → property value) :
    Action.Keeps invariant property
      (conclude host callName result : Action (Session π σ μ) Value) := by
  have told : ∀ value : Value, property value → Action.Keeps invariant property (do
      let _ ← notify host (.returned callName value)
      pure value : Action (Session π σ μ) Value) := by
    intro value admissible
    exact (lasting.keeps_notify _).bind fun _ _ => Action.keeps_pure admissible
  cases result with
  | ok value => exact told value (holds value rfl)
  | error fault =>
      cases fault with
      | exception message =>
          refine (lasting.keeps_notify (.failed callName message)).bind fun interference _ => ?_
          exact told (.makeError (interference.message message)) (lasting.failed _)
      | _ => exact Action.keeps_throw _

theorem keeps_invoke
    (adapter : Adapter (HostFunction μ))
    (callName : String)
    (arguments : Arguments) :
    Action.Keeps invariant property (invoke host execute adapter callName arguments) := by
  rw [invoke_eq]
  refine Action.keeps_get_bind fun session _ => ?_
  refine (lasting.keeps_notify _).bind fun interference _ => ?_
  refine (lasting.keeps_answer executes adapter _).attempt.bind fun result holds => ?_
  exact lasting.keeps_conclude callName holds

theorem keeps_dispatch
    (function callName : String)
    (arguments : Arguments) :
    Action.Keeps invariant (fun answer => ∀ value ∈ answer, property value)
      (dispatch host execute function callName arguments) := by
  rw [dispatch_eq]
  refine Action.keeps_get_bind fun session _ => ?_
  cases session.functions.resolve? function with
  | none => exact Action.keeps_pure fun _ found => nomatch found
  | some adapter =>
      refine (lasting.keeps_invoke executes adapter callName arguments).bind fun value holds => ?_
      refine Action.keeps_pure fun other same => ?_
      cases same
      exact holds

theorem keeps_follow
    {result : α → Prop}
    {interaction : Interaction α}
    (yields : interaction.Yields property result) :
    Action.Keeps invariant result (follow host execute interaction) := by
  induction interaction with
  | done found => exact Action.keeps_pure yields
  | fail fault => exact Action.keeps_throw fault
  | log value next ih => exact (lasting.keeps_log value).bind fun _ _ => ih yields
  | call function callName arguments next ih =>
      exact (lasting.keeps_dispatch executes function callName arguments).bind
        fun answer admissible => ih answer (yields answer admissible)

theorem keeps_evaluated (debug : Bool) :
    Action.Keeps invariant
      (fun outcome => ∀ later : Session π σ μ, invariant later →
        invariant (later.withScope outcome))
      (evaluated host execute debug) := by
  intro session kept
  rw [on_evaluated]
  cases parsed : session.program with
  | none => exact ⟨kept, fun _ same => nomatch same⟩
  | some program =>
      let started := session.noted host (.started debug session.bindings.size)
      have script : started.script = session.script := script_noted host session _
      have keptStarted : invariant started := lasting.ofScript kept script
      have begun : invariant (started.begun host program debug) := lasting.ofScript keptStarted rfl
      have there : program ∈ started.program := by
        rw [show started.program = session.program from congrArg Script.program script, parsed]
        rfl
      dsimp only
      cases session.reaction host (.started debug session.bindings.size) with
      | error fault => exact ⟨keptStarted, fun _ same => nomatch same⟩
      | ok interference =>
          exact lasting.keeps_follow executes
            (lasting.evaluates keptStarted program there debug) _ begun

theorem keeps_completed_evaluated (debug : Bool) :
    Action.Keeps invariant (fun _ => True) (evaluated host execute debug >>= completed host) := by
  refine (lasting.keeps_evaluated executes debug).bind fun outcome taken => ?_
  refine (Action.keeps_modify taken).bind fun _ _ => ?_
  refine Action.keeps_get_bind fun session _ => ?_
  exact (lasting.keeps_notify _).bind fun _ _ => Action.keeps_pure trivial

end Following

theorem keeps_nested (depth : Nat) (debug : Bool) :
    Action.Keeps invariant (fun _ => True)
      (nested host depth debug : Action (Session π σ μ) Execution) := by
  induction depth generalizing debug with
  | zero => exact Action.keeps_throw _
  | succ depth ih =>
      rw [nested, execute_eq]
      exact lasting.keeps_completed_evaluated ih debug

section Moments

variable {execute : Bool → Action (Session π σ μ) Execution}
variable (executes : ∀ debug, Action.Keeps invariant (fun _ => True) (execute debug))

include executes

theorem of_mem_performedSteps : (procedure : Procedure μ) → (session : Session π σ μ) →
    invariant session →
      ∀ performed ∈ performedSteps host execute procedure session, invariant performed.session
  | .finish _, _, _, _, member => nomatch member
  | .recall next, session, kept, performed, member =>
      of_mem_performedSteps (next session.memory) session kept performed member
  | .remember memory next, session, kept, performed, member =>
      of_mem_performedSteps next { session with memory := memory } (lasting.ofScript kept rfl)
        performed member
  | .inspect next, session, kept, performed, member =>
      of_mem_performedSteps (next session.hostVariables) session kept performed member
  | .revise number content next, session, kept, performed, member =>
      of_mem_performedSteps next
        { session with revisions := session.revisions.revise number content }
        (lasting.ofScript kept rfl) performed member
  | .perform step next, session, kept, performed, member => by
      rcases List.mem_cons.1 member with rfl | member
      · exact kept
      · exact of_mem_performedSteps _ _ (lasting.keeps_performWith executes step session kept).1
          performed member

theorem of_mem_steps
    {lookup : Lookup π σ μ}
    (kept : invariant lookup.session)
    {performed : PerformedStep π σ μ}
    (member : performed ∈ lookup.steps host execute) :
    invariant performed.session := by
  unfold Lookup.steps dispatchedCalls at member
  cases resolved : lookup.session.functions.resolve? lookup.function with
  | none => simp [resolved] at member
  | some adapter =>
      simp only [resolved, invokedCalls] at member
      split at member
      · simp at member
      · rw [List.flatMap_singleton] at member
        refine lasting.of_mem_performedSteps executes _ _ ?_ performed member
        exact lasting.ofScript kept (script_noted host lookup.session _)

theorem of_mem_lookups
    {interaction : Interaction α}
    {session : Session π σ μ}
    (kept : invariant session)
    {lookup : Lookup π σ μ}
    (member : lookup ∈ lookups host execute interaction session) :
    invariant lookup.session := by
  induction interaction generalizing session with
  | done result => simp [lookups] at member
  | fail fault => simp [lookups] at member
  | log value next ih =>
      have after := (lasting.keeps_log value session kept).1
      rw [lookups] at member
      rcases logged : (log host value).on session with ⟨_ | _, left⟩ <;>
        rw [logged] at member after
      · simp at member
      · exact ih after member
  | call function callName arguments next ih =>
      have after := (lasting.keeps_dispatch executes function callName arguments session kept).1
      rw [lookups] at member
      rcases List.mem_cons.1 member with rfl | member
      · exact kept
      · rcases answered : (dispatch host execute function callName arguments).on session with
          ⟨_ | answer, left⟩ <;> rw [answered] at member after
        · simp at member
        · exact ih answer after member

theorem of_mem_executedLookups
    {debug : Bool}
    {session : Session π σ μ}
    (kept : invariant session)
    {lookup : Lookup π σ μ}
    (member : lookup ∈ executedLookups host execute debug session) :
    invariant lookup.session := by
  unfold executedLookups at member
  cases parsed : session.program with
  | none => simp [parsed] at member
  | some program =>
      simp only [parsed] at member
      split at member
      · simp at member
      · refine lasting.of_mem_lookups executes ?_ member
        exact lasting.ofScript kept (script_noted host session _)

end Moments

end Lasting

/-- What can come next.  A step may be performed, or the session is executed and looks a function
up, or a function that was looked up is about to perform a step. -/
inductive Leads (host : Host π σ) : Session π σ μ → Session π σ μ → Prop
  | stepped (session : Session π σ μ) (depth : Nat) (step : Step (HostFunction μ)) :
      Leads host session ((performWith host (nested host depth) step).on session).2
  | calling {session : Session π σ μ} {lookup : Lookup π σ μ} {depth : Nat} {debug : Bool} :
      lookup ∈ executedLookups host (nested host depth) debug session →
      Leads host session lookup.session
  | stepping {lookup : Lookup π σ μ} {performed : PerformedStep π σ μ} {depth : Nat} :
      performed ∈ lookup.steps host (nested host depth) →
      Leads host lookup.session performed.session

/-- The sessions of a host that can come about.  Steps may succeed or fail, and executions may be
followed into the calls that they make. -/
inductive Arises (host : Host π σ) : Session π σ μ → Prop
  | created {options : SessionOptions μ} {engineState : σ} {memory : μ}
      {policy : DuplicatePolicy} {session : Session π σ μ} :
      (create host options).on (.empty engineState memory policy) = (.ok (), session) →
      Arises host session
  | later {session next : Session π σ μ} :
      Arises host session → Leads host session next → Arises host next

theorem Lasting.of_leads
    {host : Host π σ}
    {invariant : Session π σ μ → Prop}
    {property : Value → Prop}
    {compiled : String → Option π → Prop}
    (lasting : Lasting host invariant property compiled)
    {session next : Session π σ μ}
    (leads : Leads host session next)
    (kept : invariant session) :
    invariant next := by
  cases leads with
  | stepped _ depth step =>
      exact (lasting.keeps_performWith (lasting.keeps_nested depth) step session kept).1
  | calling member => exact lasting.of_mem_executedLookups (lasting.keeps_nested _) kept member
  | stepping member => exact lasting.of_mem_steps (lasting.keeps_nested _) kept member

/-- A lasting invariant holds of every session that can come about, if it holds of the empty ones
and the variables that a session starts with may be taken over. -/
theorem Lasting.of_arises
    {host : Host π σ}
    {invariant : Session π σ μ → Prop}
    {property : Value → Prop}
    {compiled : String → Option π → Prop}
    (lasting : Lasting host invariant property compiled)
    (starts : ∀ engineState memory policy, invariant (.empty engineState memory policy))
    (taken : ∀ vars bindings, initialBindings vars = .ok bindings →
      ∀ session : Session π σ μ, invariant session →
        invariant { session with bindings := bindings })
    {session : Session π σ μ}
    (arises : Arises host session) :
    invariant session := by
  induction arises with
  | @created options engineState memory policy session created =>
      have creates : Action.Keeps invariant (fun _ => True) (create host options) :=
        lasting.keeps_create (taken options.vars)
      have kept := (creates _ (starts engineState memory policy)).1
      rwa [created] at kept
  | later _ leads ih => exact lasting.of_leads leads ih

section Names

variable (host : Host π σ)

/-- No two variables of the session have the same name. -/
def HasDistinctNames (session : Session π σ μ) : Prop :=
  session.bindings.names.Nodup

theorem lasting_hasDistinctNames :
    Lasting host (HasDistinctNames (μ := μ)) (fun _ => True) fun _ _ => True := by
  constructor
  case ofScript =>
    intro first last distinct same
    have bindings : last.bindings = first.bindings := congrArg Script.bindings same
    rwa [HasDistinctNames, bindings]
  case encoded => exact fun _ => trivial
  case failed => exact fun _ => trivial
  case compiles => exact fun _ => trivial
  case setsProgram => exact fun distinct _ => distinct
  case putsModule => exact fun _ distinct _ => distinct
  case setsVariable => exact fun name distinct _ => Entries.nodup_names_put distinct name _
  case setsFunctions => exact fun _ distinct => distinct
  case evaluates =>
    intro session _ program _ debug
    refine (Interaction.yields_true _ _).imp fun outcome _ later _ => ?_
    exact Bindings.nodup_names_ofVariables outcome.scope

/-- In every session that can come about, the variables have distinct names. -/
theorem hasDistinctNames_of_arises
    {host : Host π σ}
    {session : Session π σ μ}
    (arises : Arises host session) :
    session.HasDistinctNames := by
  refine (lasting_hasDistinctNames host).of_arises (fun _ _ _ => List.nodup_nil) ?_ arises
  intro vars bindings starts session _
  cases vars with
  | host entries =>
      obtain ⟨encoded, -, same⟩ := bind_eq_ok.1 starts
      cases same
      exact Bindings.nodup_names_ofVariables encoded
  | engine given =>
      cases starts
      exact Bindings.nodup_names_ofVariables given

end Names

end Session
end ScriptHost
