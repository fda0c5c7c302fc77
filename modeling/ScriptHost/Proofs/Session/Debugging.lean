import ScriptHost.Proofs.Language.Dispatching
import ScriptHost.Proofs.Language.Printing
import ScriptHost.Proofs.Session.Lockstep
import ScriptHost.Proofs.Session.Trace

/-!
# Executions under the debugger

Two executions of one session, one of them under the debugger, go on in lockstep if the engine does
the same in both.

* An observer that `IgnoresDebug` makes nothing of the debugger.  What it is told of the two
  executions is the same but for the start, so that `together_execute` holds whatever the functions
  do.
* `Logged` sessions keep their logs while functions run that start no executions.  An execution logs
  what its course logs, and nothing else.
-/

namespace ScriptHost

/-- The observer reacts alike to an execution under the debugger and to any other. -/
def Observer.IgnoresDebug (observer : Observer) : Prop :=
  ∀ earlier count debug debug',
    observer earlier (.started debug count) = observer earlier (.started debug' count) ∧
      ∀ later event,
        observer (earlier ++ .started debug count :: later) event =
          observer (earlier ++ .started debug' count :: later) event

namespace Session

open ScriptHost.Action ScriptHost.Language

variable {π σ μ α : Type}

/-- After what they had been told at first, the observers were told the same. -/
def SameSince (before before' : List Event) (first second : List Event) : Prop :=
  ∃ rest, first = before ++ rest ∧ second = before' ++ rest

section Starts

variable {host : Host π σ}
variable (session : Session π σ μ)

/-- What the observer has been told when an execution has started. -/
def startedEvents (host : Host π σ) (session : Session π σ μ) (debug : Bool) : List Event :=
  (session.noted host (.started debug session.bindings.size)).journal.events

theorem matches_started (debug debug' : Bool) :
    Matches (SameSince (startedEvents host session debug) (startedEvents host session debug'))
      (session.noted host (.started debug session.bindings.size))
      (session.noted host (.started debug' session.bindings.size)) := by
  have alike : Matches (fun _ _ => True) session session :=
    ⟨rfl, rfl, rfl, rfl, rfl, rfl, rfl, rfl, trivial⟩
  exact alike.noted ⟨[], (List.append_nil _).symm, (List.append_nil _).symm⟩

variable (ignores : ∀ observer ∈ host.observer, observer.IgnoresDebug)
include ignores

theorem reaction_started (debug debug' : Bool) (count : Nat) :
    session.reaction host (.started debug count) =
      session.reaction host (.started debug' count) := by
  unfold reaction
  cases watched : host.observer with
  | none => rfl
  | some observer =>
      dsimp only
      rw [(ignores observer watched _ count debug debug').1]

theorem watching_of_ignoresDebug (debug debug' : Bool) :
    Watching (SameSince (startedEvents host session debug) (startedEvents host session debug')) μ
      host host where
  engine := rfl
  logger := rfl
  reaction := by
    intro first second alike event
    obtain ⟨rest, told, told'⟩ := alike.events
    refine reactAlike_of_eq ?_
    unfold reaction
    cases watched : host.observer with
    | none => rfl
    | some observer =>
        have same := (ignores observer watched session.journal.events session.bindings.size debug
          debug').2 rest event
        simp only [startedEvents, noted, watched, List.append_assoc, List.singleton_append]
          at told told'
        simp only [told, told', same]
  noted := by
    intro first second alike event
    obtain ⟨rest, told, told'⟩ := alike.events
    unfold Session.noted
    cases host.observer with
    | none => exact ⟨rest, told, told'⟩
    | some observer => exact ⟨rest ++ [event], by simp [told], by simp [told']⟩

omit ignores in
theorem together_evaluation
    {program : π}
    {debug debug' : Bool}
    (asked : host.engine.evaluate (session.request program debug) session.engineState =
      host.engine.evaluate (session.request program debug') session.engineState) :
    Together
      (Matches (SameSince (startedEvents host session debug) (startedEvents host session debug')))
      (evaluation host program debug) (evaluation host program debug')
      (session.noted host (.started debug session.bindings.size))
      (session.noted host (.started debug' session.bindings.size)) := by
  have unnoted : ∀ event debug,
      host.engine.evaluate ((session.noted host event).request program debug)
          (session.noted host event).engineState =
        host.engine.evaluate (session.request program debug) session.engineState := by
    intro event debug
    unfold noted
    cases host.observer <;> rfl
  constructor
  · rw [on_evaluation, on_evaluation]
    unfold course
    rw [unnoted, unnoted, asked]
  · rw [on_evaluation, on_evaluation]
    refine { matches_started session debug debug' with engineState := ?_ }
    change (host.engine.evaluate _ _).2 = (host.engine.evaluate _ _).2
    rw [unnoted, unnoted, asked]

/-- An execution does the same under the debugger if the engine does. -/
theorem together_execute
    (depth : Nat)
    {program : π}
    (parsed : session.program = some program)
    {debug debug' : Bool}
    (asked : host.engine.evaluate (session.request program debug) session.engineState =
      host.engine.evaluate (session.request program debug') session.engineState) :
    Together
      (Matches (SameSince (startedEvents host session debug) (startedEvents host session debug')))
      (Session.execute host depth debug) (Session.execute host depth debug') session session := by
  have watching := watching_of_ignoresDebug session ignores debug debug'
  have onFirst := on_evaluated host (nested host depth) debug session
  have onSecond := on_evaluated host (nested host depth) debug' session
  rw [parsed] at onFirst onSecond
  dsimp only at onFirst onSecond
  rw [reaction_started session ignores debug debug'] at onFirst
  have evaluations : Together
      (Matches (SameSince (startedEvents host session debug) (startedEvents host session debug')))
      (evaluated host (nested host depth) debug) (evaluated host (nested host depth) debug')
      session session := by
    cases reacts : session.reaction host (.started debug' session.bindings.size) with
    | error fault =>
        rw [reacts] at onFirst onSecond
        exact together_of_on_eq onFirst onSecond (matches_started session debug debug')
    | ok interference =>
        rw [reacts] at onFirst onSecond
        refine ((together_evaluation session asked).bind fun interaction =>
          lockstep_follow watching (lockstep_nested watching depth) interaction).congr ?_ ?_
        · rw [onFirst, Action.on_bind_of_ok (on_evaluation ..)]
        · rw [onSecond, Action.on_bind_of_ok (on_evaluation ..)]
  rw [execute_eq, execute_eq]
  exact evaluations.bind fun outcome => lockstep_completed watching outcome

end Starts

/-- The functions start no execution, and these are the logs so far. -/
structure Logged (logs : List LogEntry) (session : Session π σ μ) : Prop where
  unnested : session.FunctionsUnnested
  logs : session.journal.logs = logs

section Logs

variable (host : Host π σ)
variable (execute : Bool → Action (Session π σ μ) Execution)
variable {logs : List LogEntry}

theorem Logged.noted
    {session : Session π σ μ}
    (logged : Logged logs session)
    (event : Event) :
    Logged logs (session.noted host event) := by
  unfold Session.noted
  cases host.observer with
  | none => exact logged
  | some observer => exact { logged with }

theorem keeps_logged_notify (event : Event) :
    Keeps (Logged logs) (fun _ => True)
      (notify host event : Action (Session π σ μ) Interference) := by
  intro session logged
  rw [on_notify]
  exact ⟨logged.noted host event, fun _ _ => trivial⟩

theorem keeps_logged_conclude (callName : String) (result : Except Fault Value) :
    Keeps (Logged logs) (fun _ => True)
      (conclude host callName result : Action (Session π σ μ) Value) := by
  have returned : ∀ value, Keeps (Logged logs) (fun _ => True)
      (do let _ ← notify host (.returned callName value); pure value : Action (Session π σ μ) _) :=
    fun value => (keeps_logged_notify host _).bind fun _ _ => keeps_pure trivial
  cases result with
  | ok value => exact returned value
  | error fault =>
      cases fault with
      | exception message => exact (keeps_logged_notify host _).bind fun _ _ => returned _
      | _ => exact keeps_throw _

/-- A call of a function that starts no execution logs nothing. -/
theorem keeps_logged_dispatch (function callName : String) (arguments : Arguments) :
    Keeps (Logged logs) (fun _ => True) (dispatch host execute function callName arguments) := by
  rw [dispatch_eq]
  refine keeps_get_bind fun session logged => ?_
  cases resolved : session.functions.resolve? function with
  | none => exact keeps_pure trivial
  | some adapter =>
      obtain ⟨entry, member, rfl⟩ := FunctionTable.mem_of_resolve?_eq_some resolved
      refine Keeps.bind ?_ fun _ (_ : True) => keeps_pure trivial
      rw [invoke_eq]
      refine keeps_get_bind fun session _ =>
        (keeps_logged_notify host _).bind fun interference _ => ?_
      let received := interference.arguments (session.given entry.2 callName arguments)
      have answered : Keeps (Logged logs) (fun _ => True)
          (answer host execute entry.2 received) := by
        intro further begun
        have silent := silent_answer host execute (logged.unnested entry member) received
          begun.unnested
        exact ⟨⟨silent.unnested, silent.logs.trans begun.logs⟩, fun _ _ => trivial⟩
      exact answered.attempt.bind fun result _ => keeps_logged_conclude host callName result

theorem keeps_logged_follow
    {calls : String → Prop}
    {interaction : Interaction α}
    (silent : interaction.Within False calls) :
    Keeps (Logged logs) (fun _ => True) (follow host execute interaction) := by
  induction interaction with
  | done result => exact keeps_pure trivial
  | fail fault => exact keeps_throw fault
  | log value next ih => exact silent.1.elim
  | call function callName arguments next ih =>
      exact (keeps_logged_dispatch host execute function callName arguments).bind
        fun answer _ => ih answer (silent.2.2 answer)

theorem logged_evaluated
    {debug : Bool}
    {session : Session π σ μ}
    (logged : Logged logs session)
    {program : π}
    (parsed : session.program = some program)
    {calls : String → Prop}
    (silent : ((session.noted host (.started debug session.bindings.size)).course host program
      debug).Within False calls) :
    Logged logs ((evaluated host execute debug).on session).2 := by
  have started := logged.noted host (.started debug session.bindings.size)
  have begun : Logged logs
      ((session.noted host (.started debug session.bindings.size)).begun host program debug) :=
    { started with }
  rw [on_evaluated, parsed]
  dsimp only
  split
  · exact started
  · exact (keeps_logged_follow host execute silent _ begun).1

/-- The end of an execution logs nothing. -/
theorem logs_execute (depth : Nat) (debug : Bool) (session : Session π σ μ) :
    ((Session.execute host depth debug).on session).2.journal.logs =
      ((evaluated host (nested host depth) debug).on session).2.journal.logs := by
  rw [execute_eq, on_bind]
  rcases (evaluated host (nested host depth) debug).on session with ⟨fault | outcome, ended⟩
  · rfl
  · dsimp only
    rw [on_completed]
    unfold Session.noted
    cases host.observer <;> rfl

end Logs

end Session
end ScriptHost
