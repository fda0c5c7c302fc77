import ScriptHost.Proofs.Session.Debugging

/-!
# What is printed under the debugger

Under the debugger `print` is no function: its arguments go to the log.

* `moments` lists what is done while an interaction is followed: the values that are logged and the
  calls of functions, each with the contents of the shared containers at this moment.
* `Prints` ties them to the calls that a program makes by the rules of its language, and
  `exists_prints` proves it of every interaction that logs nothing of its own.
* `execute_debugged`: without calls of `print` the debugger is not noticed, and with them the log
  receives their arguments in order.
-/

namespace ScriptHost

/-- What a program does to the outside. -/
inductive Deed where
  | log (value : Value)
  | call (call : Dispatch)

/-- What a call of the program is under the debugger: `print` logs its arguments. -/
def Dispatch.debugged (call : Dispatch) : List Deed :=
  if call.name = "print" then call.arguments.values.map .log else [.call call]

/-- Something that a program does, with the contents of the shared containers at this moment. -/
structure Moment where
  deed : Deed
  revisions : Revisions

/-- What a log receives that keeps values: the value as it is at the moment. -/
def Moment.entry? (moment : Moment) : Option LogEntry :=
  match moment.deed with
  | .log value => some (.value (moment.revisions.current value).decode)
  | .call _ => none

/-- The logger keeps all values and never throws. -/
def Logger.Accepts (logger : Logger) : Prop :=
  ∃ refusal, logger = .keeping refusal ∧ ∀ earlier value, refusal earlier value = none

namespace Session

open ScriptHost.Action ScriptHost.Language

variable {π σ μ α : Type}

/-- The session after values were logged. -/
def logging (session : Session π σ μ) (values : List Value) : Session π σ μ :=
  { session with
    journal := { session.journal with
      logs := session.journal.logs ++
        values.map fun value => .value (session.revisions.current value).decode } }

theorem logging_nil (session : Session π σ μ) : session.logging [] = session := by
  simp [logging]

theorem logging_cons (session : Session π σ μ) (value : Value) (rest : List Value) :
    session.logging (value :: rest) = (session.logging [value]).logging rest := by
  simp [logging]

section Moments

variable (host : Host π σ)
variable (execute : Bool → Action (Session π σ μ) Execution)

/-- What is done while an interaction is followed, in order.  A function that does not exist is not
called. -/
def moments : Interaction α → Session π σ μ → List Moment
  | .done _, _ => []
  | .fail _, _ => []
  | .log value next, session =>
      ⟨.log value, session.revisions⟩ ::
        match (log host value).on session with
        | (.ok _, after) => moments next after
        | (.error _, _) => []
  | .call function callName arguments next, session =>
      match (dispatch host execute function callName arguments).on session with
      | (.ok none, after) => moments (next none) after
      | (.ok (some value), after) =>
          ⟨.call ⟨callName, arguments, .ok value⟩, session.revisions⟩ ::
            moments (next (some value)) after
      | (.error fault, _) => [⟨.call ⟨callName, arguments, .error fault⟩, session.revisions⟩]

/-- What an execution does, in order. -/
def executedMoments (debug : Bool) (session : Session π σ μ) : List Moment :=
  match session.program with
  | none => []
  | some program =>
      let event := Event.started debug session.bindings.size
      let started := session.noted host event
      match session.reaction host event with
      | .error _ => []
      | .ok _ =>
          moments host execute (started.course host program debug)
            (started.begun host program debug)

theorem lookups_of_within
    {logs : Prop}
    {calls : String → Prop}
    {interaction : Interaction α}
    (within : interaction.Within logs calls)
    (session : Session π σ μ) :
    ∀ lookup ∈ lookups host execute interaction session, calls lookup.function := by
  induction interaction generalizing session with
  | done result => exact List.forall_mem_nil _
  | fail fault => exact List.forall_mem_nil _
  | log value next ih =>
      rw [lookups]
      split
      · exact ih within.2 _
      · exact List.forall_mem_nil _
  | call function callName arguments next ih =>
      rw [lookups]
      refine List.forall_mem_cons.2 ⟨within.1, ?_⟩
      split
      · exact ih _ (within.2.2 _) _
      · exact List.forall_mem_nil _

section Accepting

variable {host execute}
variable (accepts : host.logger.Accepts)
include accepts

theorem on_log_of_accepts (session : Session π σ μ) (value : Value) :
    (log host value).on session = (.ok (), session.logging [value]) := by
  obtain ⟨refusal, keeping, never⟩ := accepts
  simp [on_log, keeping, Logger.log, never, logging]

theorem on_follow_logAll (session : Session π σ μ) (values : List Value) :
    (follow host execute (Interaction.logAll values)).on session =
      (.ok (), session.logging values) := by
  induction values generalizing session with
  | nil => rw [logging_nil]; rfl
  | cons value rest ih =>
      rw [Interaction.logAll, on_follow_log, on_log_of_accepts accepts,
        logging_cons session value rest]
      exact ih _

theorem moments_logAll_bind
    (session : Session π σ μ)
    (values : List Value)
    (next : Interaction α) :
    moments host execute (Interaction.logAll values >>= fun _ => next) session =
      (values.map fun value => ⟨.log value, session.revisions⟩) ++
        moments host execute next (session.logging values) := by
  induction values generalizing session with
  | nil => rw [logging_nil]; rfl
  | cons value rest ih =>
      rw [Interaction.logAll, Interaction.log_bind, moments, on_log_of_accepts accepts,
        logging_cons session value rest, List.map_cons, List.cons_append]
      exact congrArg _ (ih _)

end Accepting

/-- An interaction makes the calls when it is followed under the debugger.  Those of `print` log
their arguments and give no value, all others are made, and nothing else is logged. -/
structure Prints
    (interaction : Interaction α)
    (session : Session π σ μ)
    (calls : List Dispatch) : Prop where
  way : interaction.Way calls ((follow host execute interaction.printing).on session).1
  deeds : (moments host execute interaction.printing session).map Moment.deed =
    calls.flatMap Dispatch.debugged
  answers : ∀ call ∈ calls, call.name = "print" → call.answer = .ok .none
  logs : ((follow host execute interaction.printing).on session).2.journal.logs =
    session.journal.logs ++
      (moments host execute interaction.printing session).filterMap Moment.entry?

section Following

variable {host execute}

theorem Prints.call_print
    (accepts : host.logger.Accepts)
    (arguments : Arguments)
    {next : Option Value → Interaction α}
    {session : Session π σ μ}
    {calls : List Dispatch}
    (further : Prints host execute (next (some .none)) (session.logging arguments.values) calls) :
    Prints host execute (.call "print" "print" arguments next) session
      (⟨"print", arguments, .ok .none⟩ :: calls) := by
  have followed :
      (follow host execute (Interaction.call "print" "print" arguments next).printing).on session =
        (follow host execute (next (some .none)).printing).on
          (session.logging arguments.values) := by
    rw [Interaction.printing_call_print, follow_bind,
      on_bind_of_ok (on_follow_logAll accepts session arguments.values)]
  have made : moments host execute (Interaction.call "print" "print" arguments next).printing
      session = (arguments.values.map fun value => ⟨.log value, session.revisions⟩) ++
        moments host execute (next (some .none)).printing (session.logging arguments.values) := by
    rw [Interaction.printing_call_print, moments_logAll_bind accepts]
  obtain ⟨way, deeds, answers, logs⟩ := further
  constructor
  · rw [followed]
    exact .answered "print" "print" arguments .none way
  · rw [made, List.map_append, deeds, List.flatMap_cons, List.map_map]
    rfl
  · exact List.forall_mem_cons.2 ⟨fun _ => rfl, answers⟩
  · have entries : (arguments.values.map fun value =>
        (⟨.log value, session.revisions⟩ : Moment)).filterMap Moment.entry? =
          arguments.values.map fun value => .value (session.revisions.current value).decode := by
      rw [List.filterMap_map]
      exact congrFun List.filterMap_eq_map arguments.values
    rw [followed, made, logs, List.filterMap_append, entries, ← List.append_assoc]
    rfl

theorem Prints.call_other
    {callName : String}
    (other : callName ≠ "print")
    (arguments : Arguments)
    {next : Option Value → Interaction α}
    {session : Session π σ μ}
    (unnested : session.FunctionsUnnested)
    (further : ∀ (answer : Option Value) (after : Session π σ μ), after.FunctionsUnnested →
      ∃ calls, Prints host execute (next answer) after calls) :
    ∃ calls, Prints host execute (.call callName callName arguments next) session calls := by
  have kept := (keeps_logged_dispatch host execute callName callName arguments session
    ⟨unnested, rfl⟩).1
  have debugged : ∀ answer, Dispatch.debugged ⟨callName, arguments, answer⟩ =
      [.call ⟨callName, arguments, answer⟩] := fun _ => if_neg other
  have followed := on_follow_call host execute session callName callName arguments
    fun answer => (next answer).printing
  rw [← Interaction.printing_call_other other] at followed
  rcases called : (dispatch host execute callName callName arguments).on session with
    ⟨fault | _ | value, after⟩
  · rw [called] at kept followed
    have made : moments host execute (Interaction.call callName callName arguments next).printing
        session = [⟨.call ⟨callName, arguments, .error fault⟩, session.revisions⟩] := by
      rw [Interaction.printing_call_other other, moments, called]
    refine ⟨[⟨callName, arguments, .error fault⟩], ?_, ?_, ?_, ?_⟩
    · rw [followed]
      exact .unanswered callName callName arguments fault next
    · rw [made, List.flatMap_singleton, debugged]
      rfl
    · exact List.forall_mem_singleton.2 fun same => absurd same other
    · rw [followed, made]
      exact kept.logs.trans (List.append_nil _).symm
  · rw [called] at kept followed
    have made : moments host execute (Interaction.call callName callName arguments next).printing
        session = moments host execute (next none).printing after := by
      rw [Interaction.printing_call_other other, moments, called]
    obtain ⟨calls, way, deeds, answers, logs⟩ := further none after kept.unnested
    refine ⟨calls, ?_, ?_, answers, ?_⟩
    · rw [followed]
      exact .unknown callName callName arguments way
    · rw [made]
      exact deeds
    · rw [followed, made, ← kept.logs]
      exact logs
  · rw [called] at kept followed
    have made : moments host execute (Interaction.call callName callName arguments next).printing
        session = ⟨.call ⟨callName, arguments, .ok value⟩, session.revisions⟩ ::
          moments host execute (next (some value)).printing after := by
      rw [Interaction.printing_call_other other, moments, called]
    obtain ⟨calls, way, deeds, answers, logs⟩ := further (some value) after kept.unnested
    refine ⟨⟨callName, arguments, .ok value⟩ :: calls, ?_, ?_, ?_, ?_⟩
    · rw [followed]
      exact .answered callName callName arguments value way
    · rw [made, List.map_cons, deeds, List.flatMap_cons, debugged]
      rfl
    · exact List.forall_mem_cons.2 ⟨fun same => absurd same other, answers⟩
    · rw [followed, made, ← kept.logs]
      exact logs

/-- Every interaction that logs nothing of its own is followed so under the debugger. -/
theorem exists_prints
    (accepts : host.logger.Accepts)
    {names : String → Prop}
    {interaction : Interaction α}
    (silent : interaction.Within False names)
    {session : Session π σ μ}
    (unnested : session.FunctionsUnnested) :
    ∃ calls, Prints host execute interaction session calls := by
  induction interaction generalizing session with
  | done result => exact ⟨[], .done result, rfl, List.forall_mem_nil _, (List.append_nil _).symm⟩
  | fail fault => exact ⟨[], .fail fault, rfl, List.forall_mem_nil _, (List.append_nil _).symm⟩
  | log value next ih => exact silent.1.elim
  | call function callName arguments next ih =>
      obtain ⟨-, rfl, within⟩ := silent
      by_cases same : callName = "print"
      · subst same
        obtain ⟨calls, further⟩ := ih _ (within _)
          (show (session.logging arguments.values).FunctionsUnnested from unnested)
        exact ⟨_, further.call_print accepts arguments⟩
      · exact Prints.call_other same arguments unnested fun answer _ => ih answer (within answer)

end Following

end Moments

/-- An execution is the same under the debugger and apart from it: it gives the same and leaves the
same variables, the observer is told the same after the start, and nothing is logged. -/
structure DebugUnnoticed (host : Host π σ) (depth : Nat) (session : Session π σ μ) : Prop where
  result : ((execute host depth true).on session).1 = ((execute host depth false).on session).1
  bindings : ((execute host depth true).on session).2.bindings =
    ((execute host depth false).on session).2.bindings
  events : ∃ rest, ∀ debug, ((execute host depth debug).on session).2.journal.events =
    startedEvents host session debug ++ rest
  logs : ∀ debug, ((execute host depth debug).on session).2.journal.logs = session.journal.logs

/-- What an execution under the debugger makes of the calls of `print` in a program. -/
structure DebugPrints
    (host : Host Program Unit)
    (depth : Nat)
    (program : Program)
    (session : Session Program Unit μ) : Prop where
  /-- No function of this name is looked up. -/
  lookups : ∀ lookup ∈ executedLookups host (nested host depth) true session,
    lookup.function ≠ "print"
  /-- The log receives what is logged, as it is at this moment. -/
  logs : ((execute host depth true).on session).2.journal.logs = session.journal.logs ++
    (executedMoments host (nested host depth) true session).filterMap Moment.entry?
  /-- Unless the observer refuses the start, the program makes calls by the rules of its language,
  in which `print` gives no value.  The arguments of these calls are what is logged, and all others
  are made. -/
  calls : (∃ interference,
      session.reaction host (.started true session.bindings.size) = .ok interference) →
    ∃ calls, ProgramCalls false session.importable (importLimit session.modules.length) program
        session.startScope calls
        (((evaluated host (nested host depth) true).on session).1.map Outcome.scope) ∧
      (executedMoments host (nested host depth) true session).map Moment.deed =
        calls.flatMap Dispatch.debugged ∧
      ∀ call ∈ calls, call.name = "print" → call.answer = .ok .none

section Language

variable {observer : Option Observer}
variable {logger : Logger}
variable {session : Session Program Unit μ}
variable {program : Program}

theorem course_noted
    (observer : Option Observer)
    (logger : Logger)
    (session : Session Program Unit μ)
    (program : Program)
    (event : Event)
    (debug : Bool) :
    (session.noted (Language.host observer logger) event).course (Language.host observer logger)
        program debug =
      evaluate (session.request program debug) := by
  cases observer <;> rfl

theorem evaluate_request_true (session : Session Program Unit μ) (program : Program) :
    evaluate (session.request program true) =
      (evaluate (session.request program false)).printing :=
  evaluate_printing (session.request program false)

theorem within_evaluate_request
    {calls : String → Prop}
    (allowed : ReachableCallsOnly session.importable calls program) :
    (evaluate (session.request program false)).Within False calls :=
  (within_run session.importable _ allowed _).bind fun _ => trivial

variable (depth : Nat)
variable (unnested : session.FunctionsUnnested)
variable (parsed : session.program = some program)
include unnested parsed

theorem debugUnnoticed_of_silent
    (ignores : ∀ watching ∈ observer, watching.IgnoresDebug)
    (silent : ReachableCallsOnly session.importable (· ≠ "print") program) :
    DebugUnnoticed (Language.host observer logger) depth session := by
  have within := within_evaluate_request silent
  have same : evaluate (session.request program false) =
      evaluate (session.request program true) := by
    rw [evaluate_request_true, Interaction.printing_of_within within]
  have together : Together
      (Matches (SameSince (startedEvents (Language.host observer logger) session false)
        (startedEvents (Language.host observer logger) session true)))
      (execute (Language.host observer logger) depth false)
      (execute (Language.host observer logger) depth true) session session :=
    together_execute session ignores depth parsed (congrArg (·, session.engineState) same)
  have quiet : ((execute (Language.host observer logger) depth false).on session).2.journal.logs =
      session.journal.logs := by
    rw [← course_noted observer logger session program
      (.started false session.bindings.size) false] at within
    rw [logs_execute]
    exact (logged_evaluated _ _ ⟨unnested, rfl⟩ parsed within).logs
  obtain ⟨rest, apart, under⟩ := together.after.events
  refine ⟨together.result, together.after.bindings, ⟨rest, ?_⟩, ?_⟩
  · rintro (_ | _)
    · exact apart
    · exact under
  · rintro (_ | _)
    · exact quiet
    · exact together.after.logs.trans quiet

omit unnested parsed in
theorem programCalls_of_way_evaluate
    {calls : List Dispatch}
    {result : Except Fault Outcome}
    (way : (evaluate (session.request program false)).Way calls result) :
    ProgramCalls false session.importable (importLimit session.modules.length) program
      session.startScope calls (result.map Outcome.scope) := by
  have course := course_eq none .printing false session program
  rw [course_noted, ← map_eq_pure_bind] at course
  rw [course] at way
  obtain ⟨before, rfl, ended⟩ := way.of_map
  have rules := programCalls_of_way false session.importable ended
  cases before <;> exact rules

theorem debugPrints_of_accepts (accepts : logger.Accepts) :
    DebugPrints (Language.host observer logger) depth program session := by
  let host := Language.host observer logger
  let plain := evaluate (session.request program false)
  let started := session.noted host (.started true session.bindings.size)
  have silent : plain.Within False fun _ => True :=
    within_evaluate_request (reachableCallsOnly_of_forall _ (fun _ => trivial) program)
  have course : started.course host program true = plain.printing :=
    (course_noted observer logger session program _ true).trans
      (evaluate_request_true session program)
  have noted : Logged session.journal.logs started := Logged.noted host ⟨unnested, rfl⟩ _
  have begun : Logged session.journal.logs (started.begun host program true) := { noted with }
  obtain ⟨calls, prints⟩ : ∃ calls, Prints host (nested host depth) plain
      (started.begun host program true) calls := exists_prints accepts silent begun.unnested
  have came := on_evaluated host (nested host depth) true session
  rw [parsed] at came
  dsimp only at came
  cases reacts : session.reaction host (.started true session.bindings.size) with
  | error fault =>
      have unlooked : executedLookups host (nested host depth) true session = [] := by
        simp [executedLookups, parsed, reacts]
      have unmade : executedMoments host (nested host depth) true session = [] := by
        simp [executedMoments, parsed, reacts]
      rw [reacts] at came
      refine ⟨?_, ?_, ?_⟩
      · rw [unlooked]
        exact List.forall_mem_nil _
      · rw [logs_execute, came, unmade]
        exact noted.logs.trans (List.append_nil _).symm
      · rintro ⟨interference, accepted⟩
        cases reacts.symm.trans accepted
  | ok interference =>
      have looked : executedLookups host (nested host depth) true session =
          lookups host (nested host depth) plain.printing (started.begun host program true) := by
        rw [← course]
        simp [executedLookups, parsed, reacts, started]
      have made : executedMoments host (nested host depth) true session =
          moments host (nested host depth) plain.printing (started.begun host program true) := by
        rw [← course]
        simp [executedMoments, parsed, reacts, started]
      rw [reacts] at came
      dsimp only at came
      rw [course] at came
      refine ⟨?_, ?_, fun _ => ⟨calls, ?_, ?_, prints.answers⟩⟩
      · rw [looked]
        exact lookups_of_within host _ silent.printing _
      · rw [logs_execute, came, made, prints.logs, begun.logs]
      · rw [came]
        exact programCalls_of_way_evaluate prints.way
      · rw [made]
        exact prints.deeds

end Language

end Session

open Session ScriptHost.Language

/-- The debugger changes nothing but what `print` does.  Let the functions of a script start no
executions.

* If neither the program nor a module that it reaches calls `print`, then an execution is the same
  with and without the debugger, for observers that do not look whether it is there.
* If the logger throws nothing, then under the debugger no function called `print` is looked up, and
  the log receives the arguments of the calls of `print` that the program makes, which give no
  value. -/
theorem execute_debugged
    {μ : Type}
    (observer : Option Observer)
    (logger : Logger)
    (depth : Nat)
    {session : Session Program Unit μ}
    (unnested : session.FunctionsUnnested)
    {program : Program}
    (parsed : session.program = some program) :
    let host := Language.host observer logger
    ((∀ watching ∈ observer, watching.IgnoresDebug) →
      ReachableCallsOnly session.importable (· ≠ "print") program →
        DebugUnnoticed host depth session) ∧
      (logger.Accepts → DebugPrints host depth program session) :=
  ⟨debugUnnoticed_of_silent depth unnested parsed, debugPrints_of_accepts depth unnested parsed⟩

/-- A session with a module that calls `greet`, which its program imports or not, and with a
function of the name `print`. -/
def printingSession (program : Program) : Session Program Unit Unit :=
  { Session.empty () () .shadow with
    program := some program
    functions := ⟨.shadow, [
      ("greet", ⟨.immediate, false, fun _ => .finish (.ok (.text "hi"))⟩),
      ("print", ⟨.immediate, false, fun _ => .finish (.ok (.text "hidden"))⟩)]⟩
    modules := [("greeting", ⟨"", some [.assign "x" (.call "greet" [])]⟩)] }

theorem functionsUnnested_printingSession (program : Program) :
    (printingSession program).FunctionsUnnested := by
  intro entry member given
  simp only [printingSession, List.mem_cons, List.not_mem_nil, or_false] at member
  rcases member with rfl | rfl <;> exact trivial

theorem execute_debugged_printingSession :
    let host := Language.host none (.keeping fun _ _ => none)
    DebugUnnoticed host 0 (printingSession [.importModule "greeting"]) ∧
      ((execute host 0 true).on (printingSession [
        .expression (.call "print" [.call "greet" [], .literal (.str "you")])])).2.journal.logs =
          [.value (.text "hi"), .value (.text "you")] := by
  intro host
  have accepts : Logger.Accepts (.keeping fun _ _ => none) := ⟨_, rfl, fun _ _ => rfl⟩
  have silent : ReachableCallsOnly (printingSession [.importModule "greeting"]).importable
      (· ≠ "print") [.importModule "greeting"] := by
    intro reached reaches
    have either : reached = [.importModule "greeting"] ∨
        reached = [.assign "x" (.call "greet" [])] := by
      induction reaches with
      | start => exact .inl rfl
      | imported _ member found ih =>
          rcases ih with rfl | rfl
          · obtain ⟨rfl⟩ := List.mem_singleton.1 member
            exact .inr (Option.some.inj found).symm
          · cases List.mem_singleton.1 member
    rcases either with rfl | rfl
    · exact List.forall_mem_singleton.2 trivial
    · exact List.forall_mem_singleton.2 ⟨by decide, trivial⟩
  have unwatched : ∀ watching ∈ (none : Option Observer), watching.IgnoresDebug := by
    rintro watching ⟨⟩
  obtain ⟨unnoticed, -⟩ := execute_debugged none (.keeping fun _ _ => none) 0
    (functionsUnnested_printingSession _) rfl
  obtain ⟨-, prints⟩ := execute_debugged none (.keeping fun _ _ => none) 0
    (functionsUnnested_printingSession
      [.expression (.call "print" [.call "greet" [], .literal (.str "you")])]) rfl
  refine ⟨unnoticed unwatched silent, (prints accepts).logs.trans ?_⟩
  rfl

end ScriptHost
