import ScriptHost.Proofs.Language.Joining
import ScriptHost.Proofs.Session.Detachment
import ScriptHost.Proofs.Session.Parsing

/-!
# Programs in two pieces

Executing a source and then another one is the same as executing the two joined by a newline, as
long as the called functions keep to themselves.

* An execution of the line language that succeeds is unpacked into its run and what stands around
  it.
* The joined execution is alike to the first one up to the end of the first piece, and from there on
  alike to the second.
* `execute_joined`: the joined execution succeeds with the same variables, makes the same calls and
  differs in the events only by the end and the start between the pieces.
-/

namespace ScriptHost

open ScriptHost.Language

/-- What a run hands back to the session. -/
def Language.Completion.outcome (completion : Completion) : Outcome :=
  ⟨completion.result, completion.scope⟩

namespace Session

variable {μ : Type}

/-- The run of a program in a scope, with the modules of the session. -/
def running
    (session : Session Program Unit μ)
    (debug : Bool)
    (program : Program)
    (scope : Entries Value) : Interaction Completion :=
  run debug session.importable (importLimit session.modules.length) program scope

/-- The scope that a run starts with. -/
def startScope (session : Session Program Unit μ) : Entries Value :=
  Entries.ofPairs session.bindings.toVariables

section Unpacking

variable (host : Host Program Unit)

/-- The session at the start of the evaluation. -/
def opened
    (session : Session Program Unit μ)
    (debug : Bool)
    (program : Program) : Session Program Unit μ :=
  (session.noted host (.started debug session.bindings.size)).begun host program debug

/-- The session after the end of the execution. -/
def closed (session : Session Program Unit μ) (outcome : Outcome) : Session Program Unit μ :=
  (session.withScope outcome).noted host (session.endEvent outcome)

end Unpacking

variable (observer : Option Observer)
variable (logger : Logger)
variable (depth : Nat)
variable (debug : Bool)

/-- The execution of the program succeeds: its run is completed and leaves the session `ended`. -/
structure Succeeds
    (session : Session Program Unit μ)
    (program : Program)
    (completion : Completion)
    (ended : Session Program Unit μ) : Prop where
  parsed : session.program = some program
  started : ∃ interference, session.reaction (host observer logger)
    (.started debug session.bindings.size) = .ok interference
  followed : (follow (host observer logger) (nested (host observer logger) depth)
    (session.running debug program session.startScope)).on
      (session.opened (host observer logger) debug program) = (.ok completion, ended)
  completed : ∃ interference, (ended.withScope completion.outcome).reaction (host observer logger)
    (ended.endEvent completion.outcome) = .ok interference

/-- What an execution gives to the host. -/
def executionOf (ended : Session Program Unit μ) (outcome : Outcome) : Execution :=
  ⟨ended.resultOf outcome, (ended.withScope outcome).hostVariables⟩

theorem course_eq (session : Session Program Unit μ) (program : Program) :
    (session.noted (host observer logger) (.started debug session.bindings.size)).course
        (host observer logger) program debug =
      session.running debug program session.startScope >>= fun completion =>
        pure completion.outcome := by
  have asked : (session.noted (host observer logger)
      (.started debug session.bindings.size)).request program debug =
        session.request program debug := by
    cases observer <;> rfl
  have count : (session.request program debug).modules.length = session.modules.length :=
    List.length_map _
  change evaluate (request _ program debug) = _
  rw [asked, evaluate, count]
  rfl

theorem succeeds_of_execute
    {session after : Session Program Unit μ}
    {program : Program}
    {execution : Execution}
    (parsed : session.program = some program)
    (ran : (execute (host observer logger) depth debug).on session = (.ok execution, after)) :
    ∃ completion ended,
      Succeeds observer logger depth debug session program completion ended ∧
        execution = ended.executionOf completion.outcome ∧
        after = ended.closed (host observer logger) completion.outcome := by
  rw [execute_eq] at ran
  obtain ⟨outcome, ended, came, last⟩ := Action.on_bind_eq_ok ran
  obtain ⟨found, interference, parsed', started, followed⟩ := evaluated_eq_ok _ _ came
  obtain rfl : program = found := by simpa [parsed] using parsed'
  dsimp only at followed
  rw [course_eq, follow_bind] at followed
  obtain ⟨completion, middle, ranThrough, handed⟩ := Action.on_bind_eq_ok followed
  obtain ⟨rfl, rfl⟩ : completion.outcome = outcome ∧ middle = ended := by
    simpa [follow] using handed
  rw [on_completed, Prod.mk.injEq] at last
  obtain ⟨reacts, left⟩ := last
  cases found : (middle.withScope completion.outcome).reaction (host observer logger)
      ((middle.withScope completion.outcome).endEvent completion.outcome) with
  | error fault => simp [found, Except.map] at reacts
  | ok more =>
      simp only [found, Except.map, Except.ok.injEq] at reacts
      exact ⟨completion, middle, ⟨parsed, ⟨interference, started⟩, ranThrough, ⟨more, found⟩⟩,
        reacts.symm, left.symm⟩

theorem Succeeds.execute_eq
    {session ended : Session Program Unit μ}
    {program : Program}
    {completion : Completion}
    (succeeds : Succeeds observer logger depth debug session program completion ended) :
    (execute (host observer logger) depth debug).on session =
      (.ok (ended.executionOf completion.outcome),
        ended.closed (host observer logger) completion.outcome) := by
  obtain ⟨interference, started⟩ := succeeds.started
  obtain ⟨more, completed⟩ := succeeds.completed
  have came : (evaluated (host observer logger) (nested (host observer logger) depth) debug).on
      session = (.ok completion.outcome, ended) := by
    rw [on_evaluated, succeeds.parsed]
    dsimp only
    rw [started]
    dsimp only
    rw [course_eq, follow_bind]
    exact Action.on_bind_of_ok succeeds.followed
  rw [Session.execute_eq, Action.on_bind_of_ok came, on_completed]
  change (((ended.withScope completion.outcome).reaction (host observer logger)
    (ended.endEvent completion.outcome)).map _, _) = _
  rw [completed]
  rfl

theorem Succeeds.executedCalls_eq
    {session ended : Session Program Unit μ}
    {program : Program}
    {completion : Completion}
    (succeeds : Succeeds observer logger depth debug session program completion ended) :
    executedCalls (host observer logger) (nested (host observer logger) depth) debug session =
      hostCalls (host observer logger) (nested (host observer logger) depth)
        (session.running debug program session.startScope)
        (session.opened (host observer logger) debug program) := by
  obtain ⟨interference, started⟩ := succeeds.started
  rw [executedCalls, succeeds.parsed]
  dsimp only
  rw [started]
  dsimp only
  rw [course_eq, hostCalls_bind]
  have followed := succeeds.followed
  rw [opened] at followed
  rw [followed]
  exact List.append_nil _

section Junction

variable {observer logger depth debug}

theorem alike_opened
    (host : Host Program Unit)
    (session : Session Program Unit μ)
    (debug : Bool)
    (program : Program) :
    Alike (session.opened host debug program) session := by
  have noted : Alike (session.noted host (.started debug session.bindings.size)) session :=
    alike_noted session (by simp [Event.isCall])
  exact ⟨noted.functions, noted.memory, noted.revisions, noted.logs, noted.calls⟩

theorem alike_closed
    (host : Host Program Unit)
    (session : Session Program Unit μ)
    (outcome : Outcome) :
    Alike (session.closed host outcome) session := by
  have noted : Alike ((session.withScope outcome).noted host (session.endEvent outcome))
      (session.withScope outcome) :=
    alike_noted _ (by simp [endEvent, Event.isCall])
  exact ⟨noted.functions, noted.memory, noted.revisions, noted.logs, noted.calls⟩

theorem alike_parsed
    (session : Session Program Unit μ)
    (source : String)
    (program : Program) :
    Alike (session.parsed source program) session :=
  ⟨rfl, rfl, rfl, rfl, rfl⟩

/-- The scope that a completed run leaves is the one that the next run starts with. -/
theorem startScope_of_succeeds
    {session ended next : Session Program Unit μ}
    {program : Program}
    {completion : Completion}
    (succeeds : Succeeds observer logger depth debug session program completion ended)
    (taken : next.bindings = .ofVariables completion.scope) :
    next.startScope = completion.scope := by
  have distinct := property_of_follow_eq_ok _ _
    (returns_run _ _ _ _ _ (Entries.nodup_names_ofPairs session.bindings.toVariables))
    succeeds.followed
  have self := (Entries.ofPairs_eq_self_iff completion.scope).2 distinct
  rw [startScope, taken, Bindings.ofVariables_eq, self]
  exact self

theorem resultOf_eq_of_alike
    {first second : Session Program Unit μ}
    (alike : Alike first second)
    (outcome : Outcome) :
    first.resultOf outcome = second.resultOf outcome := by
  rw [resultOf, resultOf, alike.revisions]

theorem completed_of_alike
    (ignores : ∀ watching ∈ observer, watching.IgnoresExecutions)
    {first second : Session Program Unit μ}
    (alike : Alike first second)
    {outcome : Outcome}
    (completed : ∃ interference, (first.withScope outcome).reaction (host observer logger)
      (first.endEvent outcome) = .ok interference) :
    ∃ interference, (second.withScope outcome).reaction (host observer logger)
      (second.endEvent outcome) = .ok interference := by
  obtain ⟨interference, reacts⟩ := completed
  refine ⟨interference, ?_⟩
  have calls : (second.withScope outcome).journal.events.filter Event.isCall =
      (first.withScope outcome).journal.events.filter Event.isCall := alike.calls.symm
  rw [endEvent, ← resultOf_eq_of_alike alike, reaction_eq_of_calls_eq ignores calls]
  exact reacts

/-- Two sessions that stand at the beginning of the first piece, and one that goes on from its
end. -/
structure Junction
    (one ready ended three : Session Program Unit μ)
    (completion : Completion) : Prop where
  start : Alike one ready
  bindings : ready.bindings = one.bindings
  modules : ready.modules = one.modules
  middle : Alike three ended
  taken : three.bindings = .ofVariables completion.scope
  importable : three.importable = one.importable
  count : three.modules.length = one.modules.length

theorem events_advanced (session : Session Program Unit μ) (progress : Progress μ) :
    (session.advanced progress).journal.events = session.journal.events ++ progress.events := rfl

theorem events_opened
    (host : Host Program Unit)
    (session : Session Program Unit μ)
    (debug : Bool)
    (program : Program) :
    (session.opened host debug program).journal.events =
      session.journal.events ++ recorded host [.started debug session.bindings.size] := by
  rw [opened, noted_eq_advanced]
  rfl

theorem events_closed
    (host : Host Program Unit)
    (session : Session Program Unit μ)
    (outcome : Outcome) :
    (session.closed host outcome).journal.events =
      session.journal.events ++ recorded host [.ended (succeeded (session.resultOf outcome))] := by
  rw [closed, noted_eq_advanced]
  rfl

/-- Two runs in sequence, and the progress that they make: the first takes `openedOne` to `endedOne`
and the second `openedThree` to `endedThree`.  From `opened` on the same progress leads to an alike
end. -/
structure Continued
    (openedOne opened openedThree endedOne endedThree : Session Program Unit μ)
    (before after : Progress μ) : Prop where
  beforeCalls : ∀ event ∈ before.events, event.isCall
  afterCalls : ∀ event ∈ after.events, event.isCall
  leftOne : endedOne = openedOne.advanced before
  leftThree : endedThree = openedThree.advanced after
  alike : Alike endedThree ((opened.advanced before).advanced after)

theorem Continued.events
    {host : Host Program Unit}
    {one ready three endedOne endedThree : Session Program Unit μ}
    {first second both : Program}
    {before after : Progress μ}
    (continued : Continued (one.opened host debug first) (ready.opened host debug both)
      (three.opened host debug second) endedOne endedThree before after) :
    endedOne.journal.events = one.journal.events ++
        recorded host [.started debug one.bindings.size] ++ before.events ∧
      endedThree.journal.events = three.journal.events ++
        recorded host [.started debug three.bindings.size] ++ after.events ∧
      (((ready.opened host debug both).advanced before).advanced after).journal.events =
        ready.journal.events ++ recorded host [.started debug ready.bindings.size] ++
          before.events ++ after.events := by
  refine ⟨?_, ?_, ?_⟩
  · rw [continued.leftOne, events_advanced, events_opened]
  · rw [continued.leftThree, events_advanced, events_opened]
  · rw [events_advanced, events_advanced, events_opened]

section Pieces

variable {one ready three endedOne endedThree : Session Program Unit μ}
variable {first second : Program}
variable {earlier later : Completion}

theorem running_joined
    (exist : ImportsExist one.importable first)
    (junction : Junction one ready endedOne three earlier) :
    ready.running debug (first ++ second) ready.startScope = (do
      let earlier ← one.running debug first one.startScope
      let later ← three.running debug second earlier.scope
      pure (earlier.after second later)) := by
  have importable : ready.importable = one.importable := by
    funext name
    rw [Session.importable, Session.importable, junction.modules]
  have scope : ready.startScope = one.startScope := by
    rw [startScope, startScope, junction.bindings]
  simp only [running, importable, scope, junction.modules, junction.importable, junction.count]
  exact run_append debug one.importable _ first second one.startScope exist

/-- The run of the joined program makes the progress of the first piece and then that of the second,
with the calls of both. -/
theorem follow_joined
    (ignores : ∀ watching ∈ observer, watching.IgnoresExecutions)
    (detached : one.FunctionsDetached)
    (exist : ImportsExist one.importable first)
    (succeedsOne : Succeeds observer logger depth debug one first earlier endedOne)
    (succeedsThree : Succeeds observer logger depth debug three second later endedThree)
    (junction : Junction one ready endedOne three earlier) :
    let host := Language.host observer logger
    let joined := ready.running debug (first ++ second) ready.startScope
    let opened := ready.opened host debug (first ++ second)
    ∃ before after,
      Continued (one.opened host debug first) opened (three.opened host debug second)
          endedOne endedThree before after ∧
        (follow host (nested host depth) joined).on opened =
          (.ok (earlier.after second later), (opened.advanced before).advanced after) ∧
        hostCalls host (nested host depth) joined opened =
          executedCalls host (nested host depth) debug one ++
            executedCalls host (nested host depth) debug three := by
  intro host joined opened
  have toReady : Alike (one.opened host debug first) opened :=
    (alike_opened host one debug first).trans
      (junction.start.trans (alike_opened host ready debug _).symm)
  have functionsOne := (alike_opened host one debug first).detached detached
  obtain ⟨before, beforeCalls, leftOne, onReady⟩ :=
    follow_eq_ok_of_alike _ ignores functionsOne toReady succeedsOne.followed
  have toMiddle : Alike (three.opened host debug second) (opened.advanced before) :=
    (alike_opened host three debug second).trans
      (junction.middle.trans (leftOne ▸ toReady.advanced before))
  have functionsThree := toMiddle.detached (toReady.symm.detached functionsOne)
  have scope := startScope_of_succeeds succeedsOne junction.taken
  obtain ⟨after, afterCalls, leftThree, onMiddle⟩ :=
    follow_eq_ok_of_alike _ ignores functionsThree toMiddle succeedsThree.followed
  rw [scope] at onMiddle
  have joined_eq : joined = _ := running_joined exist junction
  refine ⟨before, after, ⟨beforeCalls, afterCalls, leftOne, leftThree, ?_⟩, ?_, ?_⟩
  · rw [leftThree]
    exact toMiddle.advanced after
  · rw [joined_eq, follow_bind, Action.on_bind_of_ok onReady, follow_bind,
      Action.on_bind_of_ok onMiddle]
    rfl
  · rw [joined_eq, hostCalls_bind, onReady]
    dsimp only
    rw [hostCalls_bind, onMiddle, succeedsOne.executedCalls_eq, succeedsThree.executedCalls_eq,
      scope, hostCalls_eq_of_alike _ ignores _ functionsOne toReady,
      hostCalls_eq_of_alike _ ignores _ functionsThree toMiddle]
    exact congrArg _ (List.append_nil _)

/-- A piece without a statement leaves everything as it is. -/
theorem Succeeds.of_nil
    (succeeds : Succeeds observer logger depth debug three [] later endedThree) :
    later = ⟨.none, three.startScope⟩ ∧
      endedThree = three.opened (host observer logger) debug [] := by
  have followed := succeeds.followed
  rw [running, run_nil] at followed
  obtain ⟨completed, left⟩ : (⟨.none, three.startScope⟩ : Completion) = later ∧
      three.opened (host observer logger) debug [] = endedThree := by
    simpa [follow] using followed
  exact ⟨completed.symm, left.symm⟩

theorem scope_after
    (succeedsOne : Succeeds observer logger depth debug one first earlier endedOne)
    (succeedsThree : Succeeds observer logger depth debug three second later endedThree)
    (junction : Junction one ready endedOne three earlier) :
    (earlier.after second later).scope = later.scope := by
  cases second with
  | nil =>
      rw [succeedsThree.of_nil.1, startScope_of_succeeds succeedsOne junction.taken]
      rfl
  | cons statement rest => rfl

theorem alike_of_nil
    (succeedsThree : Succeeds observer logger depth debug three [] later endedThree)
    (junction : Junction one ready endedOne three earlier)
    {ended : Session Program Unit μ}
    (alike : Alike endedThree ended) :
    Alike endedOne ended := by
  have unmoved : Alike endedThree three := by
    rw [succeedsThree.of_nil.2]
    exact alike_opened _ three debug []
  exact junction.middle.symm.trans (unmoved.symm.trans alike)

theorem resultOf_after
    (succeedsThree : Succeeds observer logger depth debug three second later endedThree)
    (junction : Junction one ready endedOne three earlier)
    {ended : Session Program Unit μ}
    (alike : Alike endedThree ended) :
    ended.resultOf (earlier.after second later).outcome =
      if second.isEmpty then endedOne.resultOf earlier.outcome
      else endedThree.resultOf later.outcome := by
  cases second with
  | nil => exact (resultOf_eq_of_alike (alike_of_nil succeedsThree junction alike) _).symm
  | cons statement rest => exact (resultOf_eq_of_alike alike _).symm

theorem completed_after
    (ignores : ∀ watching ∈ observer, watching.IgnoresExecutions)
    (succeedsOne : Succeeds observer logger depth debug one first earlier endedOne)
    (succeedsThree : Succeeds observer logger depth debug three second later endedThree)
    (junction : Junction one ready endedOne three earlier)
    {ended : Session Program Unit μ}
    (alike : Alike endedThree ended) :
    let outcome := (earlier.after second later).outcome
    ∃ interference, (ended.withScope outcome).reaction (host observer logger)
      (ended.endEvent outcome) = .ok interference := by
  cases second with
  | nil =>
      exact completed_of_alike ignores (alike_of_nil succeedsThree junction alike)
        succeedsOne.completed
  | cons statement rest => exact completed_of_alike ignores alike succeedsThree.completed

theorem succeeds_joined
    (ignores : ∀ watching ∈ observer, watching.IgnoresExecutions)
    (detached : one.FunctionsDetached)
    (exist : ImportsExist one.importable first)
    (succeedsOne : Succeeds observer logger depth debug one first earlier endedOne)
    (succeedsThree : Succeeds observer logger depth debug three second later endedThree)
    (junction : Junction one ready endedOne three earlier)
    (parsed : ready.program = some (first ++ second)) :
    let host := Language.host observer logger
    let opened := ready.opened host debug (first ++ second)
    ∃ before after,
      Continued (one.opened host debug first) opened (three.opened host debug second)
          endedOne endedThree before after ∧
        Succeeds observer logger depth debug ready (first ++ second) (earlier.after second later)
          ((opened.advanced before).advanced after) ∧
        executedCalls host (nested host depth) debug ready =
          executedCalls host (nested host depth) debug one ++
            executedCalls host (nested host depth) debug three := by
  intro host opened
  obtain ⟨before, after, continued, followed, called⟩ :=
    follow_joined ignores detached exist succeedsOne succeedsThree junction
  have started : ∃ interference,
      ready.reaction host (.started debug ready.bindings.size) = .ok interference := by
    obtain ⟨interference, reacts⟩ := succeedsOne.started
    refine ⟨interference, ?_⟩
    rw [junction.bindings, reaction_eq_of_calls_eq ignores junction.start.calls.symm]
    exact reacts
  have succeeds : Succeeds observer logger depth debug ready (first ++ second)
      (earlier.after second later) ((opened.advanced before).advanced after) :=
    ⟨parsed, started, followed,
      completed_after ignores succeedsOne succeedsThree junction continued.alike⟩
  exact ⟨before, after, continued, succeeds, succeeds.executedCalls_eq.trans called⟩

end Pieces

theorem Succeeds.modules_eq
    (ignores : ∀ watching ∈ observer, watching.IgnoresExecutions)
    {session ended : Session Program Unit μ}
    {program : Program}
    {completion : Completion}
    (detached : session.FunctionsDetached)
    (succeeds : Succeeds observer logger depth debug session program completion ended) :
    ended.modules = session.modules := by
  have opened := alike_opened (host observer logger) session debug program
  obtain ⟨progress, -, left, -⟩ :=
    follow_eq_ok_of_alike _ ignores (opened.detached detached) (opened.trans opened.symm)
      succeeds.followed
  rw [left, Session.opened, noted_eq_advanced]
  rfl

/-- Parsing the joined source, and parsing the second one after the first was executed, stand in the
right places. -/
theorem junction_parsed
    (ignores : ∀ watching ∈ observer, watching.IgnoresExecutions)
    {start ended : Session Program Unit μ}
    (detached : start.FunctionsDetached)
    {a : String}
    {first : Program}
    {completion : Completion}
    (succeeds : Succeeds observer logger depth debug (start.parsed a first) first completion ended)
    (b joined : String)
    (second both : Program) :
    Junction (start.parsed a first) (start.parsed joined both) ended
      ((ended.closed (host observer logger) completion.outcome).parsed b second) completion := by
  have detachedOne := (alike_parsed start a first).detached detached
  have kept : (ended.closed (host observer logger) completion.outcome).modules =
      reloaded start.modules := by
    rw [← modules_parsed start a first, ← succeeds.modules_eq ignores detachedOne, closed,
      noted_eq_advanced]
    rfl
  refine ⟨(alike_parsed start a first).trans (alike_parsed start joined both).symm, rfl, rfl,
    (alike_parsed _ b second).trans (alike_closed _ ended completion.outcome), ?_, ?_, ?_⟩
  · change (ended.closed (host observer logger) completion.outcome).bindings = _
    rw [closed, noted_eq_advanced]
    rfl
  · exact importable_parsed_of_reloaded kept a b first second
  · rw [length_modules_parsed, kept, ← modules_parsed start a first]

theorem bindings_closed
    (host : Host Program Unit)
    (session : Session Program Unit μ)
    (outcome : Outcome) :
    (session.closed host outcome).bindings = .ofVariables outcome.scope := by
  rw [closed, noted_eq_advanced]
  rfl

end Junction

end Session

open Session

/-- Splitting a program across two executions cannot be seen in the variables.  If a source is
executed without stopping at an import of a module that is not there, and then another one, then the
two joined by a newline can be executed from the same start.  The joined execution leaves the same
variables and makes the same calls.  Its events lack the end and the start between the pieces, and
its result is that of the second piece, unless this has no statement.

The functions keep to themselves, and the observer may heed the calls before an event but not the
executions: others could count the executions and act upon that. -/
theorem execute_joined
    {μ : Type}
    (observer : Option Observer)
    (ignores : ∀ watching ∈ observer, watching.IgnoresExecutions)
    (logger : Logger)
    (depth : Nat)
    (debug : Bool)
    {start one two three four : Session Program Unit μ}
    (detached : start.FunctionsDetached)
    {a b : String}
    {first second : Program}
    {earlier later : Execution}
    (compiledFirst : Language.compile a = .ok first)
    (compiledSecond : Language.compile b = .ok second)
    (imports : ∀ name, .importModule name ∈ first → name ∈ start.modules.names)
    (parsedFirst : (parse (host observer logger) a).on start = (.ok (), one))
    (ranFirst : (execute (host observer logger) depth debug).on one = (.ok earlier, two))
    (parsedSecond : (parse (host observer logger) b).on two = (.ok (), three))
    (ranSecond : (execute (host observer logger) depth debug).on three = (.ok later, four)) :
    let host := Language.host observer logger
    let calls := executedCalls host (nested host depth) debug
    ∃ (joined : Execution) (ready last : Session Program Unit μ),
      (parse host (a ++ "\n" ++ b)).on start = (.ok (), ready) ∧
        (execute host depth debug).on ready = (.ok joined, last) ∧
        last.bindings = four.bindings ∧
        joined.vars = later.vars ∧
        (last.memory = four.memory ∧ last.revisions = four.revisions ∧
          last.journal.logs = four.journal.logs) ∧
        calls ready = calls one ++ calls three ∧
        (∃ before after okFirst okSecond,
          (∀ event ∈ before ++ after, event.isCall) ∧
            two.journal.events = start.journal.events ++
              recorded host [.started debug start.bindings.size] ++ before ++
              recorded host [.ended okFirst] ∧
            four.journal.events = two.journal.events ++
              recorded host [.started debug two.bindings.size] ++ after ++
              recorded host [.ended okSecond] ∧
            last.journal.events = start.journal.events ++
              recorded host [.started debug start.bindings.size] ++ before ++ after ++
              recorded host [.ended (if second.isEmpty then okFirst else okSecond)]) ∧
        joined.result = if second.isEmpty then earlier.result else later.result := by
  intro host calls
  obtain ⟨compiling, rfl⟩ := parse_eq_ok observer logger compiledFirst parsedFirst
  obtain ⟨completion, endedOne, succeedsOne, rfl, rfl⟩ :=
    succeeds_of_execute observer logger depth debug rfl ranFirst
  obtain ⟨-, rfl⟩ := parse_eq_ok observer logger compiledSecond parsedSecond
  obtain ⟨completion', endedThree, succeedsThree, rfl, rfl⟩ :=
    succeeds_of_execute observer logger depth debug rfl ranSecond
  have junction := junction_parsed ignores detached succeedsOne b (a ++ "\n" ++ b) second
    (first ++ second)
  have exist : ImportsExist (start.parsed a first).importable first := fun name member =>
    importable_parsed_isSome compiling a first (imports name member)
  obtain ⟨before, after, continued, succeeds, called⟩ :=
    succeeds_joined ignores ((alike_parsed start a first).detached detached) exist succeedsOne
      succeedsThree junction rfl
  have scope := scope_after succeedsOne succeedsThree junction
  have result := resultOf_after succeedsThree junction continued.alike
  obtain ⟨eventsOne, eventsThree, eventsJoined⟩ := continued.events
  have callEvents : ∀ event ∈ before.events ++ after.events, event.isCall := by
    intro event member
    exact (List.mem_append.1 member).elim (continued.beforeCalls event) (continued.afterCalls event)
  have closing := (alike_closed host _ (completion.after second completion').outcome).trans
    (continued.alike.symm.trans (alike_closed host endedThree completion'.outcome).symm)
  refine ⟨_, _, _, on_parse observer logger start
    (compile_append_newline compiledFirst compiledSecond) compiling, succeeds.execute_eq,
    ?_, ?_, ⟨closing.memory, closing.revisions, closing.logs⟩, called,
    ⟨before.events, after.events, succeeded (endedOne.resultOf completion.outcome),
      succeeded (endedThree.resultOf completion'.outcome), callEvents, ?_, ?_, ?_⟩, result⟩
  · rw [bindings_closed, bindings_closed]
    exact congrArg Bindings.ofVariables scope
  · simp only [executionOf, hostVariables, withScope, Completion.outcome, scope,
      continued.alike.revisions]
  · rw [events_closed, eventsOne]
    rfl
  · rw [events_closed, eventsThree]
    rfl
  · rw [events_closed, result, apply_ite succeeded, eventsJoined]
    rfl

/-- A session with a function that tells its first call from the later ones, and a module that calls
it. -/
def tickingSession : Session Program Unit Bool :=
  { Session.empty () false .shadow with
    functions := ⟨.shadow, [("tick", ⟨.immediate, false, fun _ => .recall fun ticked =>
      .remember true (.finish (.ok (.text (if ticked then "again" else "first"))))⟩)]⟩
    modules := [("clock", ⟨"y = tick()", none⟩)] }

/-- The run of a source in the session. -/
def tickingRun : Except Fault Execution × Session Program Unit Bool :=
  (execute (Language.host (some fun _ _ => .proceed) .printing) 0 false).on
    (tickingSession.parsed "import clock\nx = tick()"
      [.importModule "clock", .assign "x" (.call "tick" [])])

/-- The run of the second source in the session that the first run leaves. -/
def laterTickingRun : Except Fault Execution × Session Program Unit Bool :=
  (execute (Language.host (some fun _ _ => .proceed) .printing) 0 false).on
    (tickingRun.2.parsed "z = x\ntick()"
      [.assign "z" (.variable "x"), .expression (.call "tick" [])])

/-- The check of the first run, which can be evaluated. -/
def tickingRunIsExpected : Bool :=
  match tickingRun.1, tickingRun.2.modules with
  | .ok ⟨.ok .null, [("y", .text "first"), ("x", .text "again")]⟩,
    [("clock", ⟨"y = tick()", some [.assign "y" (.call "tick" [])]⟩)] => true
  | _, _ => false

theorem tickingRun_gives :
    tickingRun.1 = .ok ⟨.ok .null, [("y", .text "first"), ("x", .text "again")]⟩ ∧
      tickingRun.2.modules = [("clock", ⟨"y = tick()", some [.assign "y" (.call "tick" [])]⟩)] := by
  have expected : tickingRunIsExpected = true := by
    decide +kernel
  unfold tickingRunIsExpected at expected
  split at expected
  · next result modules => exact ⟨result, modules⟩
  · cases expected

/-- The check of the second run. -/
def laterTickingRunIsExpected : Bool :=
  match laterTickingRun.1, laterTickingRun.2.bindings.toVariables with
  | .ok ⟨.ok (.text "again"), [("y", .text "first"), ("x", .text "again"), ("z", .text "again")]⟩,
    [("y", .str "first"), ("x", .str "again"), ("z", .str "again")] => true
  | _, _ => false

theorem laterTickingRun_gives :
    laterTickingRun.1 = .ok ⟨.ok (.text "again"),
        [("y", .text "first"), ("x", .text "again"), ("z", .text "again")]⟩ ∧
      laterTickingRun.2.bindings.toVariables =
        [("y", .str "first"), ("x", .str "again"), ("z", .str "again")] := by
  have expected : laterTickingRunIsExpected = true := by
    decide +kernel
  unfold laterTickingRunIsExpected at expected
  split at expected
  · next result bindings => exact ⟨result, bindings⟩
  · cases expected

theorem execute_joined_tickingSession :
    let host := Language.host (some fun _ _ => .proceed) .printing
    ∃ (joined : Execution) (ready last : Session Program Unit Bool),
      (parse host ("import clock\nx = tick()" ++ "\n" ++ "z = x\ntick()")).on tickingSession =
          (.ok (), ready) ∧
        (execute host 0 false).on ready = (.ok joined, last) ∧
        last.bindings.toVariables =
          [("y", .str "first"), ("x", .str "again"), ("z", .str "again")] ∧
        joined.result = .ok (.text "again") := by
  intro host
  have compiledFirst : Language.compile "import clock\nx = tick()" =
      .ok [.importModule "clock", .assign "x" (.call "tick" [])] := by
    with_unfolding_all rfl
  have compiledSecond : Language.compile "z = x\ntick()" =
      .ok [.assign "z" (.variable "x"), .expression (.call "tick" [])] := by
    with_unfolding_all rfl
  have compiledClock : Language.compile "y = tick()" = .ok [.assign "y" (.call "tick" [])] := by
    with_unfolding_all rfl
  have compiling : ∀ stored, ModulesCompile [("clock", ⟨"y = tick()", stored⟩)] := by
    intro stored entry member
    obtain rfl := List.mem_singleton.1 member
    exact ⟨_, compiledClock⟩
  have detached : tickingSession.FunctionsDetached := by
    intro entry member arguments
    obtain rfl := List.mem_singleton.1 member
    exact fun _ => trivial
  have imports : ∀ name, Statement.importModule name ∈
      [Statement.importModule "clock", .assign "x" (.call "tick" [])] →
        name ∈ tickingSession.modules.names := by
    intro name member
    simpa [tickingSession] using member
  obtain ⟨first, stored⟩ := tickingRun_gives
  obtain ⟨second, bound⟩ := laterTickingRun_gives
  rw [laterTickingRun] at second bound
  generalize done : tickingRun.2 = two at stored second bound
  have ignores : ∀ watching ∈ some (fun _ _ => .proceed),
      Observer.IgnoresExecutions watching := by
    simp [Observer.IgnoresExecutions]
  obtain ⟨joined, ready, last, parsed, ran, bindings, -, -, -, -, result⟩ :=
    execute_joined _ ignores .printing 0 false detached compiledFirst compiledSecond imports
      (on_parse _ _ tickingSession compiledFirst (compiling none)) (Prod.ext first done)
      (on_parse _ _ two compiledSecond (stored ▸ compiling _)) (Prod.ext second rfl)
  exact ⟨joined, ready, last, parsed, ran, by rw [bindings, bound], result⟩

end ScriptHost
