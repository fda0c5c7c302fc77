import ScriptHost.Proofs.Language.Inlining
import ScriptHost.Proofs.Session.Indistinct
import ScriptHost.Proofs.Session.Splitting

/-!
# Executing imports and the statements they stand for

An execution of a program that imports a module, beside that of the program with the statements of
the module in the place of the import.

* Sessions that hold different programs cannot be told apart while the programs are evaluated, so
  that runs can be compared from where any of them starts.
* A module is reached up to its first import of a missing module.  Where the statements before that
  fail, those after it do not matter.
* `evaluated_import_inlined`: the two executions give the same, unless the module stops at an import
  of a module that is not there.
-/

namespace ScriptHost

open ScriptHost.Language

/-- A host of the line language with another bound on the nesting of imports. -/
def Language.hostWithin
    (limit : Nat → Nat)
    (observer : Option Observer)
    (logger : Logger) : Host Program Unit :=
  ⟨engineWithin limit, observer, logger⟩

theorem Language.host_eq_hostWithin (observer : Option Observer) (logger : Logger) :
    host observer logger = hostWithin importLimit observer logger := by
  rw [host, engine_eq_engineWithin, hostWithin]

namespace Session

variable {μ : Type}

/-- The session with another program. -/
def holding (session : Session Program Unit μ) (program : Program) : Session Program Unit μ :=
  { session with program := some program }

@[simp] theorem program_holding (session : Session Program Unit μ) (program : Program) :
    (session.holding program).program = some program := rfl

/-- The run of a program in which imports may nest as deep as the number says. -/
def runningWithin
    (session : Session Program Unit μ)
    (debug : Bool)
    (bound : Nat)
    (program : Program) : Interaction Completion :=
  run debug session.importable bound program session.startScope

/-- The session at the start of the evaluation of a program. -/
def starting
    (session : Session Program Unit μ)
    (host : Host Program Unit)
    (debug : Bool)
    (program : Program) : Session Program Unit μ :=
  (session.holding program).opened host debug program

/-- The evaluation of the program comes to an end with imports nested at most as deep as the number
says, if it begins at all. -/
def EndsWithin
    (host : Host Program Unit)
    (depth : Nat)
    (debug : Bool)
    (bound : Nat)
    (session : Session Program Unit μ)
    (program : Program) : Prop :=
  ∀ interference,
    session.reaction host (.started debug session.bindings.size) = .ok interference →
    ¬ CutOff host (nested host depth) (session.runningWithin debug bound program)
      (session.starting host debug program)

/-- The program `first` comes to its end, and then the statements of `body` do up to an import of a
missing module.  What came of the statements so far is `outcome`, in the session `ended`. -/
structure StopsAt
    (host : Host Program Unit)
    (depth : Nat)
    (debug : Bool)
    (session : Session Program Unit μ)
    (first body before : Program)
    (missing : String)
    (outcome : Outcome)
    (ended : Session Program Unit μ) : Prop where
  entered : ImportsExist session.importable first
  split : ∃ rest, body = before ++ .importModule missing :: rest
  exist : ImportsExist session.importable before
  absent : session.importable missing = none
  reached : (evaluated host (nested host depth) debug).on (session.holding (first ++ before)) =
    (.ok outcome, ended)

section Executing

variable (depth : Nat)
variable (debug : Bool)
variable {limit : Nat → Nat}
variable {observer : Option Observer}
variable {logger : Logger}
variable {session : Session Program Unit μ}

theorem course_holding (program : Program) :
    let host := hostWithin limit observer logger
    let held := session.holding program
    (held.noted host (.started debug held.bindings.size)).course host program debug =
      Completion.outcome <$>
        session.runningWithin debug (limit session.modules.length) program := by
  intro host held
  have asked : (held.noted host (.started debug held.bindings.size)).request program debug =
      session.request program debug := by
    cases observer <;> rfl
  have count : (session.request program debug).modules.length = session.modules.length :=
    List.length_map _
  change evaluateWithin limit (request _ program debug) = _
  rw [asked, evaluateWithin, count, map_eq_pure_bind]
  rfl

theorem indistinct_holding (session : Session Program Unit μ) (one two : Program) :
    Indistinct (session.holding one) (session.holding two) :=
  ⟨rfl, rfl, rfl, rfl, rfl⟩

theorem indistinct_starting
    (host : Host Program Unit)
    (session : Session Program Unit μ)
    (one two : Program) :
    Indistinct (session.starting host debug one) (session.starting host debug two) := by
  have noted : Indistinct
      ((session.holding one).noted host (.started debug session.bindings.size))
      ((session.holding two).noted host (.started debug session.bindings.size)) :=
    (indistinct_holding session one two).noted _
  exact ⟨noted.functions, noted.memory, noted.revisions, noted.events, noted.logs⟩

theorem detached_holding
    (detached : session.FunctionsDetached)
    (program : Program) :
    (session.holding program).FunctionsDetached :=
  detached

theorem detached_starting
    (host : Host Program Unit)
    (detached : session.FunctionsDetached)
    (program : Program) :
    (session.starting host debug program).FunctionsDetached :=
  detached.of_functions_eq (congrArg Script.functions (script_noted host (session.holding program)
    (.started debug session.bindings.size)))

section Started

variable {interference : Interference}
variable (started : session.reaction (hostWithin limit observer logger)
  (.started debug session.bindings.size) = .ok interference)
include started

theorem evaluated_holding (program : Program) :
    let host := hostWithin limit observer logger
    (evaluated host (nested host depth) debug).on (session.holding program) =
      (Completion.outcome <$> follow host (nested host depth)
        (session.runningWithin debug (limit session.modules.length) program)).on
          (session.starting host debug program) := by
  intro host
  have reacts : (session.holding program).reaction host
      (.started debug (session.holding program).bindings.size) = .ok interference := started
  rw [on_evaluated, program_holding]
  dsimp only
  rw [reacts]
  dsimp only
  rw [course_holding, follow_map]
  rfl

theorem executedCalls_holding (program : Program) :
    let host := hostWithin limit observer logger
    executedCalls host (nested host depth) debug (session.holding program) =
      hostCalls host (nested host depth)
        (session.runningWithin debug (limit session.modules.length) program)
        (session.starting host debug program) := by
  intro host
  have reacts : (session.holding program).reaction host
      (.started debug (session.holding program).bindings.size) = .ok interference := started
  rw [executedCalls, program_holding]
  dsimp only
  rw [reacts]
  dsimp only
  rw [course_holding, hostCalls_map]
  rfl

/-- The evaluation of a program, told by its run from where any program starts. -/
theorem evaluated_holding_from
    (detached : session.FunctionsDetached)
    (third program : Program) :
    let host := hostWithin limit observer logger
    let run := session.runningWithin debug (limit session.modules.length) program
    let came := (follow host (nested host depth) run).on (session.starting host debug third)
    ((evaluated host (nested host depth) debug).on (session.holding program)).1 =
        came.1.map Completion.outcome ∧
      Indistinct came.2
        ((evaluated host (nested host depth) debug).on (session.holding program)).2 ∧
      executedCalls host (nested host depth) debug (session.holding program) =
        hostCalls host (nested host depth) run (session.starting host debug third) := by
  intro host run came
  have from_third := indistinct_starting debug host session third program
  have functions := detached_starting debug host detached third
  obtain ⟨result, left⟩ := indistinct_follow host (nested host depth) run functions from_third
  rw [evaluated_holding depth debug started, executedCalls_holding depth debug started,
    Action.on_map]
  exact ⟨congrArg (Except.map Completion.outcome) result, left,
    hostCalls_of_indistinct host (nested host depth) run functions from_third⟩

end Started

/-- If the observer refuses the start, then it does not matter which program is to be executed. -/
theorem executeAlike_of_refused
    {fault : Fault}
    (detached : session.FunctionsDetached)
    (refused : session.reaction (hostWithin limit observer logger)
      (.started debug session.bindings.size) = .error fault)
    (whole : Prop)
    (one two : Program) :
    ExecuteAlike (hostWithin limit observer logger) depth debug whole (session.holding one)
      (session.holding two) := by
  let host := hostWithin limit observer logger
  have refuses : ∀ program, (session.holding program).reaction host
      (.started debug (session.holding program).bindings.size) = .error fault := fun _ => refused
  have evaluates : ∀ program,
      (evaluated host (nested host depth) debug).on (session.holding program) =
        (.error fault, (session.holding program).noted host
          (.started debug session.bindings.size)) := by
    intro program
    rw [on_evaluated, program_holding]
    dsimp only
    rw [refuses]
    rfl
  have calls : ∀ program,
      executedCalls host (nested host depth) debug (session.holding program) = [] := by
    intro program
    rw [executedCalls, program_holding]
    dsimp only
    rw [refuses]
  have held := indistinct_holding session one two
  refine executeAlike_of_evaluated host depth debug (detached_holding detached one) held rfl
    ?_ ?_ ?_ ?_
  · rw [evaluates, evaluates]
  · intro _
    rw [evaluates, evaluates]
  · rw [calls, calls]
  · rw [evaluates, evaluates]
    exact held.noted _

theorem map_scope_upTo (second : Program) (result : Except Fault Completion) :
    (result.map (Completion.upTo second)).map Completion.scope =
      (result.map Completion.outcome).map Outcome.scope := by
  cases result with
  | error fault => rfl
  | ok completion => exact congrArg Except.ok (completion.scope_upTo second)

theorem map_upTo_of_ne_nil
    {second : Program}
    (nonempty : second ≠ [])
    (result : Except Fault Completion) :
    result.map (Completion.upTo second) = result := by
  cases result with
  | error fault => rfl
  | ok completion => exact congrArg Except.ok (completion.upTo_of_ne_nil nonempty)

/-- Runs that are followed alike belong to executions that end alike. -/
theorem executeAlike_of_followed
    {interference : Interference}
    (detached : session.FunctionsDetached)
    (started : session.reaction (hostWithin limit observer logger)
      (.started debug session.bindings.size) = .ok interference)
    {one two : Program}
    (second third : Program)
    (same : let host := hostWithin limit observer logger
      followed host (nested host depth) (Completion.upTo second <$>
          session.runningWithin debug (limit session.modules.length) one)
          (session.starting host debug third) =
        followed host (nested host depth) (Completion.upTo second <$>
          session.runningWithin debug (limit session.modules.length) two)
          (session.starting host debug third)) :
    ExecuteAlike (hostWithin limit observer logger) depth debug (second ≠ [])
      (session.holding one) (session.holding two) := by
  let host := hostWithin limit observer logger
  simp only [followed, follow_map, Action.on_map, hostCalls_map, Prod.mk.injEq] at same
  obtain ⟨⟨result, ended⟩, calls⟩ := same
  obtain ⟨resultOne, leftOne, callsOne⟩ :=
    evaluated_holding_from depth debug started detached third one
  obtain ⟨resultTwo, leftTwo, callsTwo⟩ :=
    evaluated_holding_from depth debug started detached third two
  have scopes := congrArg (Except.map Completion.scope) result
  rw [map_scope_upTo, map_scope_upTo] at scopes
  refine executeAlike_of_evaluated host depth debug (detached_holding detached one)
    (indistinct_holding session one two) rfl ?_ ?_ ?_ ?_
  · rw [resultOne, resultTwo, scopes]
  · intro nonempty
    rw [map_upTo_of_ne_nil nonempty, map_upTo_of_ne_nil nonempty] at result
    rw [resultOne, resultTwo, result]
  · rw [callsOne, callsTwo, calls]
  · exact leftOne.symm.trans (ended ▸ leftTwo)

section Importing

variable {first : Program}
variable {name : String} {body : Program} (found : session.importable name = some body)
variable (second : Program)

section Nested

variable (host : Host Program Unit)
variable {bound more : Nat}
variable (exist : ImportsExist session.importable first)
variable {before : Program} (reaches : Reaches session.importable body before)

include found exist reaches

/-- An import and the statements that it stands for are followed alike, if one of the two is not cut
off with imports nested less deep. -/
theorem followed_import_inlined
    (within : bound < more)
    {start : Session Program Unit μ}
    (uncut :
      ¬ CutOff host (nested host depth)
          (session.runningWithin debug bound (first ++ .importModule name :: second)) start ∨
        ¬ CutOff host (nested host depth)
          (session.runningWithin debug bound (first ++ (before ++ second))) start) :
    followed host (nested host depth) (Completion.upTo second <$>
        session.runningWithin debug more (first ++ .importModule name :: second)) start =
      followed host (nested host depth) (Completion.upTo second <$>
        session.runningWithin debug more (first ++ (before ++ second))) start := by
  have deeper := fun program => (truncates_run debug session.importable (Nat.le_of_lt within)
    program session.startScope).map (Completion.upTo second)
  rcases uncut with importing | inlined
  · have uncut := (cutOff_map host (nested host depth) (Completion.upTo second) _ start).not.2
      importing
    have toInlined := truncates_import_inlined debug exist found second bound session.startScope
      reaches
    exact (followed_of_truncates host _ (deeper _) uncut).trans
      (followed_of_truncates host _ (toInlined.trans (deeper _)) uncut).symm
  · have uncut := (cutOff_map host (nested host depth) (Completion.upTo second) _ start).not.2
      inlined
    have toImporting := truncates_inlined_import debug exist found second bound session.startScope
      reaches
    have further := (truncates_run debug session.importable within
      (first ++ .importModule name :: second) session.startScope).map (Completion.upTo second)
    exact (followed_of_truncates host _ (toImporting.trans further) uncut).trans
      (followed_of_truncates host _ (deeper _) uncut).symm

theorem executeAlike_import_inlined
    (detached : session.FunctionsDetached)
    (within : bound < limit session.modules.length)
    (ends :
      EndsWithin (hostWithin limit observer logger) depth debug bound session
          (first ++ .importModule name :: second) ∨
        EndsWithin (hostWithin limit observer logger) depth debug bound session
          (first ++ (before ++ second))) :
    ExecuteAlike (hostWithin limit observer logger) depth debug (second ≠ [])
      (session.holding (first ++ .importModule name :: second))
      (session.holding (first ++ (before ++ second))) := by
  cases reacts : session.reaction (hostWithin limit observer logger)
      (.started debug session.bindings.size) with
  | error fault => exact executeAlike_of_refused depth debug detached reacts _ _ _
  | ok interference =>
      rcases ends with importing | inlined
      · exact executeAlike_of_followed depth debug detached reacts second _
          (followed_import_inlined depth debug found second _ exist reaches within
            (.inl (importing interference reacts)))
      · exact executeAlike_of_followed depth debug detached reacts second _
          (followed_import_inlined depth debug found second _ exist reaches within
            (.inr (inlined interference reacts)))

end Nested

/-- What follows an import of a missing module in a program does not matter. -/
theorem executeAlike_of_lacking
    (detached : session.FunctionsDetached)
    (lacking : ¬ ImportsExist session.importable first)
    (one two : Program) :
    ExecuteAlike (hostWithin limit observer logger) depth debug (second ≠ [])
      (session.holding (first ++ one)) (session.holding (first ++ two)) := by
  cases reacts : session.reaction (hostWithin limit observer logger)
      (.started debug session.bindings.size) with
  | error fault => exact executeAlike_of_refused depth debug detached reacts _ _ _
  | ok interference =>
      refine executeAlike_of_followed depth debug detached reacts second [] ?_
      have same : ∀ program,
          session.runningWithin debug (limit session.modules.length) (first ++ program) =
            session.runningWithin debug (limit session.modules.length) first := fun program =>
        run_append_of_lacking debug session.importable lacking _ program _
      rw [same one, same two]

end Importing

section Stopping

variable {first before rest : Program}
variable {missing : String}
variable (second : Program)

theorem running_missing
    (bound : Nat)
    (entered : ImportsExist session.importable first)
    (exist : ImportsExist session.importable before)
    (absent : session.importable missing = none) :
    session.runningWithin debug bound
        (first ++ ((before ++ .importModule missing :: rest) ++ second)) =
      session.runningWithin debug bound (first ++ before) >>= fun completion =>
        pure ⟨moduleNotFound missing, completion.scope⟩ := by
  rw [List.append_assoc, ← List.append_assoc, List.cons_append]
  exact run_append_missing debug session.importable (entered.append _ exist) absent bound _ _

theorem upTo_running_append
    (bound : Nat)
    (entered : ImportsExist session.importable first)
    (exist : ImportsExist session.importable before) :
    Completion.upTo second <$> session.runningWithin debug bound (first ++ (before ++ second)) =
      session.runningWithin debug bound (first ++ before) >>= fun earlier =>
        Completion.upTo second <$> run debug session.importable bound second earlier.scope := by
  rw [← List.append_assoc]
  exact upTo_run_append debug session.importable (entered.append _ exist) bound second _

section Unreached

variable {interference : Interference}
variable (detached : session.FunctionsDetached)
variable (started : session.reaction (hostWithin limit observer logger)
  (.started debug session.bindings.size) = .ok interference)
variable (entered : ImportsExist session.importable first)
variable (exist : ImportsExist session.importable before)
variable (absent : session.importable missing = none)
variable (unreached : ∀ outcome ended,
  ¬ StopsAt (hostWithin limit observer logger) depth debug session first
    (before ++ .importModule missing :: rest) before missing outcome ended)

include detached started entered exist absent unreached

theorem fails_of_unreached (third : Program) :
    let host := hostWithin limit observer logger
    ∃ fault after, (follow host (nested host depth) (session.runningWithin debug
      (limit session.modules.length) (first ++ before))).on (session.starting host debug third) =
        (.error fault, after) := by
  intro host
  obtain ⟨result, -, -⟩ := evaluated_holding_from depth debug started detached third
    (first ++ before)
  rcases came : (follow host (nested host depth) (session.runningWithin debug
      (limit session.modules.length) (first ++ before))).on (session.starting host debug third) with
    ⟨fault | completion, after⟩
  · exact ⟨fault, after, rfl⟩
  · rw [came] at result
    exact absurd ⟨entered, ⟨rest, rfl⟩, exist, absent, Prod.ext result rfl⟩
      (unreached completion.outcome _)

/-- Where the statements before the import of a missing module fail, it does not matter what comes
after them. -/
theorem followed_of_unreached (third : Program) :
    let host := hostWithin limit observer logger
    followed host (nested host depth) (Completion.upTo second <$>
        session.runningWithin debug (limit session.modules.length) (first ++ (before ++ second)))
        (session.starting host debug third) =
      followed host (nested host depth) (Completion.upTo second <$>
        session.runningWithin debug (limit session.modules.length)
          (first ++ ((before ++ .importModule missing :: rest) ++ second)))
        (session.starting host debug third) := by
  intro host
  obtain ⟨fault, after, fails⟩ :=
    fails_of_unreached depth debug detached started entered exist absent unreached third
  rw [upTo_running_append debug second _ entered exist,
    running_missing debug second _ entered exist absent, map_bind,
    followed_bind_of_error host _ fails, followed_bind_of_error host _ fails]

/-- If the program with the statements of the module is not cut off, then neither is the one without
those that it does not reach. -/
theorem uncut_of_unreached
    {bound : Nat}
    (within : bound < limit session.modules.length)
    (third : Program)
    (uncut : let host := hostWithin limit observer logger
      ¬ CutOff host (nested host depth) (session.runningWithin debug bound
        (first ++ ((before ++ .importModule missing :: rest) ++ second)))
        (session.starting host debug third)) :
    let host := hostWithin limit observer logger
    ¬ CutOff host (nested host depth)
      (session.runningWithin debug bound (first ++ (before ++ second)))
      (session.starting host debug third) := by
  intro host
  obtain ⟨fault, after, fails⟩ :=
    fails_of_unreached depth debug detached started entered exist absent unreached third
  dsimp only at uncut
  rw [running_missing debug second _ entered exist absent, cutOff_bind, not_or] at uncut
  have same := followed_of_truncates host (nested host depth)
    (truncates_run debug session.importable (Nat.le_of_lt within) (first ++ before)
      session.startScope) uncut.1
  have fails' : (follow host (nested host depth) (session.runningWithin debug bound
      (first ++ before))).on (session.starting host debug third) = (.error fault, after) :=
    (congrArg Prod.fst same).symm.trans fails
  rw [← cutOff_map host (nested host depth) (Completion.upTo second),
    upTo_running_append debug second _ entered exist, cutOff_bind, not_or]
  refine ⟨uncut.1, ?_⟩
  rintro ⟨completion, ended, completes, -⟩
  rw [fails'] at completes
  cases completes

theorem executeAlike_of_unreached
    {name : String}
    (found : session.importable name = some (before ++ .importModule missing :: rest))
    {bound : Nat}
    (within : bound < limit session.modules.length)
    (ends :
      EndsWithin (hostWithin limit observer logger) depth debug bound session
          (first ++ .importModule name :: second) ∨
        EndsWithin (hostWithin limit observer logger) depth debug bound session
          (first ++ ((before ++ .importModule missing :: rest) ++ second))) :
    ExecuteAlike (hostWithin limit observer logger) depth debug (second ≠ [])
      (session.holding (first ++ .importModule name :: second))
      (session.holding (first ++ ((before ++ .importModule missing :: rest) ++ second))) := by
  have reaches : Reaches session.importable (before ++ .importModule missing :: rest) before :=
    ⟨exist, .inr ⟨missing, rest, rfl, absent⟩⟩
  have further := executeAlike_of_followed depth debug detached started second []
    (followed_of_unreached depth debug second detached started entered exist absent unreached [])
  refine ExecuteAlike.trans ?_ further
  rcases ends with importing | inlined
  · exact executeAlike_import_inlined depth debug found second entered reaches detached within
      (.inl importing)
  · have uncut := uncut_of_unreached depth debug second detached started entered exist absent
      unreached within _ (inlined interference started)
    exact executeAlike_of_followed depth debug detached started second _
      (followed_import_inlined depth debug found second _ entered reaches within (.inr uncut))

end Unreached

/-- The statements of a module that stops end the whole program with an error value. -/
theorem evaluated_of_stopsAt
    {body : Program}
    {outcome : Outcome}
    {ended : Session Program Unit μ}
    (detached : session.FunctionsDetached)
    (stops : StopsAt (hostWithin limit observer logger) depth debug session first body before
      missing outcome ended) :
    let host := hostWithin limit observer logger
    let inlined := session.holding (first ++ (body ++ second))
    ∃ left,
      (evaluated host (nested host depth) debug).on inlined =
          (.ok ⟨moduleNotFound missing, outcome.scope⟩, left) ∧
        Indistinct ended left ∧
        executedCalls host (nested host depth) debug inlined =
          executedCalls host (nested host depth) debug (session.holding (first ++ before)) := by
  intro host inlined
  obtain ⟨rest, rfl⟩ := stops.split
  obtain ⟨_, interference, -, started, -⟩ := evaluated_eq_ok _ _ stops.reached
  have started : session.reaction host (.started debug session.bindings.size) =
    .ok interference := started
  have reached := stops.reached
  rw [evaluated_holding depth debug started, Action.on_map] at reached
  obtain ⟨result, left, calls⟩ := evaluated_holding_from depth debug started detached
    (first ++ before) (first ++ ((before ++ .importModule missing :: rest) ++ second))
  rw [running_missing debug second _ stops.entered stops.exist stops.absent,
    ← map_eq_pure_bind] at result left calls
  rw [follow_map, Action.on_map] at result left
  rw [hostCalls_map] at calls
  rcases came : (follow host (nested host depth) (session.runningWithin debug
      (limit session.modules.length) (first ++ before))).on
        (session.starting host debug (first ++ before)) with ⟨fault | completion, after⟩
  · rw [came] at reached
    simp [Except.map] at reached
  · rw [came] at reached result left
    obtain ⟨rfl, rfl⟩ : completion.outcome = outcome ∧ after = ended := by
      simpa [Except.map] using reached
    exact ⟨_, Prod.ext result rfl, left,
      calls.trans (executedCalls_holding depth debug started _).symm⟩

end Stopping

/-- An execution that ends with an import has no result. -/
theorem result_none_of_import
    {first : Program}
    {name : String}
    {body : Program}
    (exist : ImportsExist session.importable first)
    (found : session.importable name = some body)
    {last : Outcome}
    {left : Session Program Unit μ}
    (came : (evaluated (hostWithin limit observer logger)
      (nested (hostWithin limit observer logger) depth) debug).on
        (session.holding (first ++ [.importModule name])) = (.ok last, left)) :
    last.result = .none := by
  obtain ⟨program, interference, parsed, -, followed⟩ := evaluated_eq_ok _ _ came
  rw [program_holding] at parsed
  obtain rfl := Option.some.inj parsed
  dsimp only at followed
  rw [course_holding] at followed
  have returns : (Completion.outcome <$> session.runningWithin debug (limit session.modules.length)
      (first ++ [.importModule name])).Returns fun outcome => outcome.result = .none :=
    (returns_none_of_import debug exist found _ _).bind fun completion none => none
  have none := property_of_follow_eq_ok _ _ returns followed
  exact none

end Executing

end Session

open Session

/-- Importing a module is the same as having its statements in the place of the import.  If one of
the two evaluations comes to an end with imports nested less deep than the bound allows, then the
executions reject with the same fault or leave the same scope, with the same calls, events and logs,
and with the same result if anything follows the import.

The exception is a module that is entered and stops at an import of a module that is not there.  In
the place of the import, it ends the whole program with an error value.  Imported, it leaves what it
did so far and the program goes on behind the import. -/
theorem evaluated_import_inlined
    {μ : Type}
    (limit : Nat → Nat)
    (observer : Option Observer)
    (logger : Logger)
    (depth : Nat)
    (debug : Bool)
    {session : Session Program Unit μ}
    (detached : session.FunctionsDetached)
    {name : String}
    {body : Program}
    (registered : session.importable name = some body)
    (first second : Program)
    {bound : Nat}
    (within : bound < limit session.modules.length) :
    let host := hostWithin limit observer logger
    let importing := first ++ .importModule name :: second
    let inlined := first ++ (body ++ second)
    ((¬ ∃ before missing outcome ended,
        StopsAt host depth debug session first body before missing outcome ended) →
      EndsWithin host depth debug bound session importing ∨
        EndsWithin host depth debug bound session inlined →
          ExecuteAlike host depth debug (second ≠ []) (session.holding importing)
            (session.holding inlined)) ∧
      ∀ before missing outcome ended,
        StopsAt host depth debug session first body before missing outcome ended →
          (∃ left,
            (evaluated host (nested host depth) debug).on (session.holding inlined) =
                (.ok ⟨moduleNotFound missing, outcome.scope⟩, left) ∧
              Indistinct ended left ∧
              executedCalls host (nested host depth) debug (session.holding inlined) =
                executedCalls host (nested host depth) debug
                  (session.holding (first ++ before))) ∧
            (EndsWithin host depth debug bound session importing ∨
                EndsWithin host depth debug bound session (first ++ (before ++ second)) →
              ExecuteAlike host depth debug (second ≠ []) (session.holding importing)
                (session.holding (first ++ (before ++ second)))) ∧
            (second = [] → ∀ last left,
              (evaluated host (nested host depth) debug).on (session.holding importing) =
                (.ok last, left) → last.result = .none) := by
  intro host importing inlined
  refine ⟨fun passes ends => ?_, fun before missing outcome ended stops => ⟨?_, ?_, ?_⟩⟩
  · by_cases entered : ImportsExist session.importable first
    · by_cases exist : ImportsExist session.importable body
      · exact executeAlike_import_inlined depth debug registered second entered (.self _ exist)
          detached within ends
      · obtain ⟨before, missing, rest, rfl, exist, absent⟩ := exists_missing _ exist
        cases reacts : session.reaction host (.started debug session.bindings.size) with
        | error fault => exact executeAlike_of_refused depth debug detached reacts _ _ _
        | ok interference =>
            exact executeAlike_of_unreached depth debug second detached reacts entered exist absent
              (fun outcome ended stops => passes ⟨before, missing, outcome, ended, stops⟩)
              registered within ends
    · exact executeAlike_of_lacking depth debug second detached entered _ _
  · exact evaluated_of_stopsAt depth debug second detached stops
  · obtain ⟨rest, split⟩ := stops.split
    exact executeAlike_import_inlined depth debug registered second stops.entered
      ⟨stops.exist, .inr ⟨missing, rest, split, stops.absent⟩⟩ detached within
  · rintro rfl last left came
    exact result_none_of_import depth debug stops.entered registered came

/-- A session with a module that calls a function, and one that stops after that. -/
def clockSession : Session Program Unit Bool :=
  { tickingSession with
    modules := [
      ("clock", ⟨"", some [.assign "y" (.call "tick" [])]⟩),
      ("broken", ⟨"", some [.assign "z" (.call "tick" []), .importModule "gone",
        .expression (.call "tick" [])]⟩)] }

theorem evaluated_import_inlined_clockSession :
    let host := Language.host (some fun _ _ => .proceed) .printing
    let last : Program := [.expression (.call "tick" [])]
    let stopping : Program :=
      [.assign "z" (.call "tick" []), .importModule "gone", .expression (.call "tick" [])]
    ExecuteAlike host 0 false (last ≠ []) (clockSession.holding (.importModule "clock" :: last))
        (clockSession.holding (.assign "y" (.call "tick" []) :: last)) ∧
      ExecuteAlike host 0 false (last ≠ []) (clockSession.holding (.importModule "broken" :: last))
        (clockSession.holding (.assign "z" (.call "tick" []) :: last)) ∧
      ∃ left, (evaluated host (nested host 0) false).on
        (clockSession.holding (stopping ++ last)) =
          (.ok ⟨moduleNotFound "gone", [("z", .str "first")]⟩, left) := by
  intro host last stopping
  have detached : clockSession.FunctionsDetached := by
    intro entry member arguments
    obtain rfl := List.mem_singleton.1 member
    exact fun _ => trivial
  have within : 1 < importLimit clockSession.modules.length := by decide
  have clock : clockSession.importable "clock" = some [.assign "y" (.call "tick" [])] := rfl
  have broken : clockSession.importable "broken" = some stopping := rfl
  have passes : ¬ ∃ before missing outcome ended, StopsAt host 0 false clockSession []
      [.assign "y" (.call "tick" [])] before missing outcome ended := by
    rintro ⟨before, missing, outcome, ended, stops⟩
    obtain ⟨rest, split⟩ := stops.split
    have member : Statement.importModule missing ∈ [Statement.assign "y" (.call "tick" [])] := by
      simp [split]
    simp at member
  have ends : ∀ name ∈ ["clock", "broken"], EndsWithin host 0 false 1 clockSession
      (.importModule name :: last) := by
    intro name member added _
    have uncut : CutOff host (nested host 0) (clockSession.runningWithin false 1
        (.importModule name :: last)) (clockSession.starting host false
          (.importModule name :: last)) = False := by
      rcases List.mem_pair.1 member with rfl | rfl <;> rfl
    simp [uncut]
  have result : ((evaluated host (nested host 0) false).on (clockSession.holding
      [.assign "z" (.call "tick" [])])).1 = .ok ⟨.none, [("z", .str "first")]⟩ := rfl
  have stops : StopsAt host 0 false clockSession [] stopping [.assign "z" (.call "tick" [])] "gone"
      ⟨.none, [("z", .str "first")]⟩ ((evaluated host (nested host 0) false).on
        (clockSession.holding [.assign "z" (.call "tick" [])])).2 :=
    ⟨by simp [ImportsExist], ⟨_, rfl⟩, by simp [ImportsExist], rfl, Prod.ext result rfl⟩
  obtain ⟨whole, -⟩ := evaluated_import_inlined importLimit (some fun _ _ => .proceed) .printing 0
    false detached clock [] last within
  obtain ⟨-, stopping⟩ := evaluated_import_inlined importLimit (some fun _ _ => .proceed) .printing
    0 false detached broken [] last within
  obtain ⟨⟨left, ended, -⟩, goesOn, -⟩ := stopping _ _ _ _ stops
  exact ⟨whole passes (.inl (ends _ (by simp))), goesOn (.inl (ends _ (by simp))), left, ended⟩

end ScriptHost
