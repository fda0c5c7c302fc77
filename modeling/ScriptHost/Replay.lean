import ScriptHost.Engine

/-!
# Replaying engines

An engine that follows a prepared course instead of a language.  Its programs are numbered copies of
their sources, each evaluation takes the next of a list of prepared outcomes, and sources that start
with certain words are refused.
-/

namespace ScriptHost
namespace Replay

/-- A call that an evaluation makes. -/
structure PreparedCall where
  function : String
  callName : String
  arguments : Arguments

/-- What an evaluation does: it logs, calls, and then throws or returns. -/
structure PreparedOutcome where
  result : Value
  scope : List Variable
  logs : List Value
  calls : List PreparedCall
  /-- Is the value of the last call returned in place of the result? -/
  useLast : Bool
  fault : Option Fault
  deriving Inhabited

/-- What a replaying engine is given in advance. -/
structure Plan where
  /-- The compilations, counted from one, that are refused. -/
  failAt : List Nat
  /-- The value of every literal. -/
  literal : Value

/-- How far a replaying engine has come. -/
structure State where
  /-- The outcomes still to be taken. -/
  outcomes : List PreparedOutcome
  /-- How many sources were given to be compiled. -/
  compilations : Nat
  /-- How many programs were made. -/
  programs : Nat

/-- Does the text start with the word? -/
def startsWith (text word : String) : Bool :=
  word.toList.isPrefixOf text.toList

/-- Makes the calls one after the other; the last value counts, `none` standing for a function that
does not exist. -/
def makeCalls : Value → List PreparedCall → Interaction Value
  | last, [] => .done last
  | _, prepared :: rest =>
      .call prepared.function prepared.callName prepared.arguments fun answer =>
        makeCalls (answer.getD .none) rest

/-- The course of a prepared outcome. -/
def PreparedOutcome.interaction (outcome : PreparedOutcome) : Interaction Outcome := do
  Interaction.logAll outcome.logs
  let last ← makeCalls .none outcome.calls
  match outcome.fault with
  | some fault => .fail fault
  | none => pure ⟨if outcome.useLast then last else outcome.result, outcome.scope⟩

/-- Compiles a source by numbering it, unless it is to be refused. -/
def compile (plan : Plan) (source : String) (state : State) :
    Except SourceFault (Option String) × State :=
  let counted := { state with compilations := state.compilations + 1 }
  if startsWith source "!tok" || plan.failAt.contains counted.compilations then
    (.error (.refused "tokenize" source), counted)
  else if startsWith source "!parse" then (.error (.refused "parse" source), counted)
  else if startsWith source "!undef" then (.ok none, counted)
  else
    let serial := counted.programs + 1
    (.ok (some (source ++ "#" ++ String.ofList (Decimal.digits serial))),
      { counted with programs := serial })

/-- Takes the next prepared outcome. -/
def evaluate (state : State) : Interaction Outcome × State :=
  match state.outcomes with
  | [] => (.fail (.raised .error "No prepared outcome"), state)
  | outcome :: rest => (outcome.interaction, { state with outcomes := rest })

/-- The value of a literal. -/
def literal (plan : Plan) (text : String) : Except SourceFault Value :=
  if startsWith text "!tok" then .error (.refused "literal" text) else .ok plan.literal

/-- The engine that follows a plan. -/
def engine (plan : Plan) : Engine String State where
  compile := compile plan
  evaluate _ state := evaluate state
  literal := literal plan

/-- The state before the first use. -/
def initial (outcomes : List PreparedOutcome) : State := ⟨outcomes, 0, 0⟩

end Replay
end ScriptHost
