import ScriptHost.Proofs.Language.Literal
import ScriptHost.Proofs.Session.Framing
import ScriptHost.Proofs.Session.Trace

/-!
# Executing literals

A text that is a literal has the same value on its own and as the source of a script.

* An evaluation that ends at once is told to the observer, and its scope becomes the variables.
  Nothing is called and nothing is logged.
* The scope that a literal leaves is the one that it starts with.
* `execute_literal`: which texts are literals, and what executing them does to a script.
-/

namespace ScriptHost

namespace Session

open ScriptHost.Language

variable {μ : Type}

section Immediate

variable (host : Host Program Unit)
variable (depth : Nat)
variable (debug : Bool)

/-- The course of an execution whose evaluation ends at once. -/
theorem on_execute_of_course_eq_done
    {session : Session Program Unit μ}
    {program : Program}
    {outcome : Outcome}
    (parsed : session.program = some program)
    (ends : (session.noted host (.started debug session.bindings.size)).course host program debug =
      .done outcome) :
    (execute host depth debug).on session =
      match session.reaction host (.started debug session.bindings.size) with
      | .error fault => (.error fault, session.noted host (.started debug session.bindings.size))
      | .ok _ => (completed host outcome).on (session.opened host debug program) := by
  rw [execute_eq, Action.on_bind, on_evaluated, parsed]
  dsimp only
  rw [ends]
  cases session.reaction host (.started debug session.bindings.size) <;> rfl

theorem executedLookups_of_course_eq_done
    {session : Session Program Unit μ}
    {program : Program}
    {outcome : Outcome}
    (parsed : session.program = some program)
    (ends : (session.noted host (.started debug session.bindings.size)).course host program debug =
      .done outcome) :
    executedLookups host (nested host depth) debug session = [] := by
  rw [executedLookups, parsed]
  dsimp only
  rw [ends]
  cases session.reaction host (.started debug session.bindings.size) <;> rfl

theorem snd_on_completed (session : Session Program Unit μ) (outcome : Outcome) :
    ((completed host outcome).on session).2 = session.closed host outcome := by
  rw [on_completed]
  rfl

/-- An execution whose evaluation ends at once leaves the session alike, and if the scope is that of
the start, it leaves the script. -/
theorem frame_of_course_eq_done
    {session : Session Program Unit μ}
    {program : Program}
    {outcome : Outcome}
    (parsed : session.program = some program)
    (ends : (session.noted host (.started debug session.bindings.size)).course host program debug =
      .done outcome)
    (left : Bindings.ofVariables outcome.scope = session.bindings) :
    let after := ((execute host depth debug).on session).2
    Alike after session ∧ after.script = session.script := by
  intro after
  have after_eq : after = _ :=
    congrArg Prod.snd (on_execute_of_course_eq_done host depth debug parsed ends)
  cases reacts : session.reaction host (.started debug session.bindings.size) with
  | error fault =>
      rw [reacts] at after_eq
      rw [after_eq]
      exact ⟨alike_noted session (by simp [Event.isCall]), script_noted host session _⟩
  | ok interference =>
      rw [reacts] at after_eq
      dsimp only at after_eq
      rw [snd_on_completed] at after_eq
      have opened : (session.opened host debug program).script = session.script :=
        script_noted host session _
      have closed : (completed host outcome).on (session.opened host debug program) =
          (_, (session.opened host debug program).closed host outcome) :=
        Prod.ext rfl (snd_on_completed host _ outcome)
      rw [after_eq]
      constructor
      · exact (alike_closed host _ outcome).trans (alike_opened host session debug program)
      · rw [script_completed host closed, opened, left]
        rfl

end Immediate

/-- A scope with distinct names becomes the variables that it was made from. -/
theorem ofVariables_startScope
    {session : Session Program Unit μ}
    (distinct : session.HasDistinctNames) :
    Bindings.ofVariables session.startScope = session.bindings := by
  rw [startScope_eq_entries distinct]
  exact Bindings.ofVariables_of_nodup distinct

variable (observer : Option Observer)
variable (logger : Logger)

theorem reaction_of_proceeds
    (proceeds : ∀ watching ∈ observer, watching.Proceeds)
    (session : Session Program Unit μ)
    (event : Event) :
    ∃ interference, session.reaction (host observer logger) event = .ok interference := by
  cases observer with
  | none => exact ⟨.none, rfl⟩
  | some watching => exact exists_reaction_eq_ok _ rfl (proceeds watching rfl) session event

/-- The evaluation of a script whose program is that of a literal ends at once. -/
theorem course_literal
    {text : String}
    {value : Value}
    (made : literal text = .ok value)
    {program : Program}
    (compiled : Language.compile text = .ok program)
    (debug : Bool)
    (session : Session Program Unit μ) :
    (session.noted (host observer logger) (.started debug session.bindings.size)).course
        (host observer logger) program debug = .done ⟨value, session.startScope⟩ := by
  obtain ⟨-, expr, -, -, found, known⟩ := (literal_eq_ok_iff_compile text value).1 made
  obtain rfl : [.expression expr] = program := Except.ok.inj (found.symm.trans compiled)
  have bindings : (session.noted (host observer logger)
      (.started debug session.bindings.size)).bindings = session.bindings :=
    congrArg Script.bindings (script_noted (host observer logger) session _)
  change evaluate (request _ [.expression expr] debug) = _
  rw [request, evaluate_of_literalValue? known, bindings]
  rfl

/-- What a literal means to the host does not depend on the session. -/
theorem resultOf_literal
    {text : String}
    {value : Value}
    (made : literal text = .ok value)
    (session : Session Program Unit μ)
    (scope : List Variable) :
    Language.engine.expression text = .ok (session.resultOf ⟨value, scope⟩) := by
  rw [Engine.expression, resultOf, Value.current_of_regular _ _ (regular_literal made)]
  simp [engine, made]

end Session

open Session ScriptHost.Language

/-- Texts as literals and as programs.  A text is a literal if and only if it has no terminator and
its program is one expression of literals, lists and scopes.  Executing a script with such a source
looks no function up, logs nothing and leaves the script as it was; unless the observer throws, it
gives what the text gives on its own.  That the variables have distinct names is no restriction:
see `hasDistinctNames_of_arises`. -/
theorem execute_literal
    (text : String)
    {μ : Type}
    (observer : Option Observer)
    (logger : Logger)
    (depth : Nat)
    (debug : Bool) :
    let host := Language.host observer logger
    ((∃ value, literal text = .ok value) ↔
      ∃ tokens expr, tokenize text = .ok tokens ∧
        (∀ token ∈ tokens, token.kind ≠ .terminator) ∧
        Language.compile text = .ok [.expression expr] ∧ expr.IsLiteral) ∧
    ∀ value, literal text = .ok value →
      ∀ (session : Session Program Unit μ) (program : Program),
        Language.compile text = .ok program → session.program = some program →
        session.HasDistinctNames →
          let ran := (execute host depth debug).on session
          executedLookups host (nested host depth) debug session = [] ∧
            Alike ran.2 session ∧ ran.2.script = session.script ∧
            ((∀ watching ∈ observer, watching.Proceeds) →
              ∃ execution, ran.1 = .ok execution ∧
                host.engine.expression text = .ok execution.result) := by
  intro host
  refine ⟨exists_literal_iff text, ?_⟩
  intro value made session program compiled parsed distinct ran
  have ends := course_literal observer logger made compiled debug session
  obtain ⟨alike, script⟩ :=
    frame_of_course_eq_done host depth debug parsed ends (ofVariables_startScope distinct)
  refine ⟨executedLookups_of_course_eq_done host depth debug parsed ends, alike, script, ?_⟩
  intro proceeds
  obtain ⟨interference, started⟩ :=
    reaction_of_proceeds observer logger proceeds session (.started debug session.bindings.size)
  have ran_eq : ran = _ := on_execute_of_course_eq_done host depth debug parsed ends
  rw [started] at ran_eq
  dsimp only at ran_eq
  rw [on_completed] at ran_eq
  dsimp only at ran_eq
  obtain ⟨more, completes⟩ := reaction_of_proceeds observer logger proceeds
    ((session.opened host debug program).withScope ⟨value, session.startScope⟩)
    (((session.opened host debug program).withScope ⟨value, session.startScope⟩).endEvent
      ⟨value, session.startScope⟩)
  rw [completes] at ran_eq
  rw [ran_eq]
  exact ⟨_, rfl, resultOf_literal made _ _⟩

/-- A script with a literal for a source, and with names that a program could refer to. -/
def labelledOptions : SessionOptions Unit where
  source := some "\x7ba: [\"x\"]\x7d"
  vars := .host [("a", .text "bound")]
  functions := [⟨some "b", "", ⟨.immediate, false, fun _ => .finish (.ok .null)⟩⟩]
  modules := [("m", "a")]

def labelledSession : Session Program Unit Unit :=
  ((create (host none .printing) labelledOptions).on (.empty () () .shadow)).2

/-- The check of the session, which can be evaluated. -/
def labelledSessionIsExpected : Bool :=
  match ((create (host none .printing) labelledOptions).on (.empty () () .shadow)).1,
    labelledSession.program, labelledSession.bindings.toVariables with
  | .ok (), some [.expression (.scope [("a", .list [.literal (.str "x")])])],
    [("a", .str "bound")] => true
  | _, _, _ => false

theorem labelledSession_holds :
    ((create (host none .printing) labelledOptions).on (.empty () () .shadow)).1 = .ok () ∧
      labelledSession.program =
        some [.expression (.scope [("a", .list [.literal (.str "x")])])] ∧
      labelledSession.bindings.toVariables = [("a", .str "bound")] := by
  have expected : labelledSessionIsExpected = true := by
    decide +kernel
  unfold labelledSessionIsExpected at expected
  split at expected
  · next created program bindings => exact ⟨created, program, bindings⟩
  · cases expected

theorem execute_literal_labelledSession :
    let ran := (execute (host none .printing) 0 true).on labelledSession
    ran.2.bindings.toVariables = [("a", .str "bound")] ∧
      ∃ execution, ran.1 = .ok execution ∧
        (host none .printing).engine.expression "\x7ba: [\"x\"]\x7d" = .ok execution.result := by
  obtain ⟨created, parsed, bound⟩ := labelledSession_holds
  have arises : Arises (host none .printing) labelledSession := .created (Prod.ext created rfl)
  have scanned : tokenize "\x7ba: [\"x\"]\x7d" = .ok [⟨.punctuation, "\x7b"⟩, ⟨.name, "a"⟩,
      ⟨.punctuation, ":"⟩, ⟨.punctuation, "["⟩, ⟨.string, "x"⟩, ⟨.punctuation, "]"⟩,
      ⟨.punctuation, "\x7d"⟩] := by
    with_unfolding_all rfl
  have compiled : Language.compile "\x7ba: [\"x\"]\x7d" =
      .ok [.expression (.scope [("a", .list [.literal (.str "x")])])] := by
    rw [compile_of_tokenize scanned]
    cbv
  have made : literal "\x7ba: [\"x\"]\x7d" = .ok (.scope [("a", .list [.str "x"])]) := by
    rw [literal, scanned]
    cbv
  obtain ⟨-, -, script, outcome⟩ := (execute_literal "\x7ba: [\"x\"]\x7d" none .printing 0
    true).2 _ made labelledSession _ compiled parsed (hasDistinctNames_of_arises arises)
  have unwatched : ∀ watching ∈ (none : Option Observer), watching.Proceeds := by
    rintro watching ⟨⟩
  refine ⟨?_, outcome unwatched⟩
  rw [← bound]
  exact congrArg (fun script : Script Program Unit => script.bindings.toVariables) script

end ScriptHost
