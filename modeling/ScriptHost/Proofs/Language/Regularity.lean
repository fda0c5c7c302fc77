import ScriptHost.Proofs.Codec.Regular
import ScriptHost.Proofs.Language.Reading
import ScriptHost.Proofs.Language.Running

/-!
# Regular programs

Programs bring no irregular values into a script.

* Every literal in the program of a source is regular: the readers make numbers, texts, truth values
  and nothing else.
* `Interaction.Yields` says that a property holds of the result at every end of an interaction, as
  long as the calls are answered by admissible values.
* If calls are answered by regular values, the evaluation of a regular program leaves a regular
  scope.  The error value of a missing module can only be the result.
-/

namespace ScriptHost

namespace Language

open Value

mutual

/-- Every literal in the expression is regular. -/
def Expr.Regular : Expr → Prop
  | .literal value => value.Regular
  | .variable _ => True
  | .call _ arguments => ExprsRegular arguments
  | .list members => ExprsRegular members
  | .scope members => MembersRegular members

def ExprsRegular : List Expr → Prop
  | [] => True
  | first :: rest => first.Regular ∧ ExprsRegular rest

def MembersRegular : List (String × Expr) → Prop
  | [] => True
  | (_, first) :: rest => first.Regular ∧ MembersRegular rest

end

def Statement.Regular : Statement → Prop
  | .assign _ expr => expr.Regular
  | .expression expr => expr.Regular
  | .importModule _ => True
  | .forget _ => True

/-- Every literal in the program is regular. -/
def ProgramRegular (program : Program) : Prop :=
  ∀ statement ∈ program, statement.Regular

/-- What is read has the property. -/
def Reads {α : Type} (property : α → Prop) (read : Except SourceFault (α × List Token)) : Prop :=
  ∀ piece rest, read = .ok (piece, rest) → property piece

section Reads

variable {α β : Type}
variable {property : α → Prop}

theorem reads_error (fault : SourceFault) : Reads property (.error fault) := by
  intro piece rest read
  cases read

theorem reads_ok {piece : α} (holds : property piece) (rest : List Token) :
    Reads property (.ok (piece, rest)) := by
  intro other after read
  cases read
  exact holds

theorem Reads.map
    {read : Except SourceFault (α × List Token)}
    {other : β → Prop}
    {f : α → β}
    (reads : Reads property read)
    (holds : ∀ piece, property piece → other (f piece)) :
    Reads other (read.map (onPiece f)) := by
  cases read with
  | error fault => exact reads_error fault
  | ok pair => exact reads_ok (holds pair.1 (reads pair.1 pair.2 rfl)) pair.2

end Reads

theorem regular_wordLiteral
    {word : String}
    {value : Value}
    (found : wordLiteral? word = some value) :
    value.Regular := by
  unfold wordLiteral? at found
  split at found
  · cases found
    exact regular_ofBool true
  · split at found
    · cases found
      exact regular_ofBool false
    · split at found
      · cases found
        simp [Value.Regular]
      · cases found

theorem reads_expression_step
    (tokens : List Token)
    (onItems : ∀ inner : List Token, inner.length < tokens.length →
      ∀ close, Reads ExprsRegular (readItems close inner))
    (onEntries : ∀ inner : List Token, inner.length < tokens.length →
      Reads MembersRegular (readEntries inner)) :
    Reads Expr.Regular (readExpression tokens) := by
  cases tokens with
  | nil =>
      rw [readExpression_nil]
      exact reads_error _
  | cons token rest =>
      rw [readExpression_cons]
      cases token.kind with
      | terminator => exact reads_error _
      | number => exact reads_ok (by simp [Expr.Regular, Value.Regular]) rest
      | string => exact reads_ok (by simp [Expr.Regular, Value.Regular]) rest
      | name =>
          dsimp only
          cases found : wordLiteral? token.text with
          | some value =>
              refine reads_ok ?_ rest
              rw [Expr.Regular]
              exact regular_wordLiteral found
          | none =>
              cases rest with
              | nil => exact reads_ok (by simp [Expr.Regular]) []
              | cons next inner =>
                  dsimp only
                  by_cases opening : next.isMark "(" = true
                  · rw [if_pos opening]
                    refine (onItems inner (length_lt_cons_cons _ _ _) ")").map
                      fun arguments regular => ?_
                    rwa [Expr.Regular]
                  · rw [if_neg opening]
                    exact reads_ok (by simp [Expr.Regular]) _
      | punctuation =>
          dsimp only
          by_cases bracket : token.text = "["
          · rw [if_pos bracket]
            refine (onItems rest (by simp) "]").map fun members regular => ?_
            rwa [Expr.Regular]
          · rw [if_neg bracket]
            by_cases brace : token.text = "\x7b"
            · rw [if_pos brace]
              refine (onEntries rest (by simp)).map fun members regular => ?_
              rwa [Expr.Regular]
            · rw [if_neg brace]
              exact reads_error _

theorem reads_items_step
    (close : String)
    (tokens : List Token)
    (onExpression : Reads Expr.Regular (readExpression tokens))
    (onItems : ∀ inner : List Token, inner.length < tokens.length →
      Reads ExprsRegular (readItems close inner)) :
    Reads ExprsRegular (readItems close tokens) := by
  cases tokens with
  | nil =>
      rw [readItems_nil]
      exact reads_error _
  | cons token rest =>
      rw [readItems_cons]
      by_cases closing : token.isMark close = true
      · rw [if_pos closing]
        exact reads_ok (by simp [ExprsRegular]) rest
      rw [if_neg closing]
      cases read : readExpression (token :: rest) with
      | error fault => exact reads_error fault
      | ok pair =>
          obtain ⟨first, after⟩ := pair
          have shorter := length_lt_of_pair read
          have regular := onExpression first after read
          cases after with
          | nil => exact reads_error _
          | cons next others =>
              dsimp only
              by_cases ending : next.isMark close = true
              · rw [if_pos ending]
                exact reads_ok (by simp [ExprsRegular, regular]) others
              · rw [if_neg ending]
                cases expectText "," next with
                | some fault => exact reads_error fault
                | none =>
                    have fewer : others.length < (token :: rest).length := by
                      simp only [List.length_cons] at shorter ⊢
                      omega
                    exact (onItems others fewer).map fun more regularMore => ⟨regular, regularMore⟩

theorem reads_entries_step
    (tokens : List Token)
    (onExpression : ∀ inner : List Token, inner.length < tokens.length →
      Reads Expr.Regular (readExpression inner))
    (onEntries : ∀ inner : List Token, inner.length < tokens.length →
      Reads MembersRegular (readEntries inner)) :
    Reads MembersRegular (readEntries tokens) := by
  cases tokens with
  | nil =>
      rw [readEntries_nil]
      exact reads_error _
  | cons token rest =>
      rw [readEntries_cons]
      by_cases closing : token.isMark "\x7d" = true
      · rw [if_pos closing]
        exact reads_ok (by simp [MembersRegular]) rest
      rw [if_neg closing]
      by_cases ended : token.kind = .terminator
      · rw [if_pos ended]
        exact reads_error _
      rw [if_neg ended]
      by_cases unnamed : token.kind ≠ .name
      · rw [if_pos unnamed]
        exact reads_error _
      rw [if_neg unnamed]
      cases rest with
      | nil => exact reads_error _
      | cons colon body =>
          dsimp only
          cases expectText ":" colon with
          | some fault => exact reads_error fault
          | none =>
              dsimp only
              cases read : readExpression body with
              | error fault => exact reads_error fault
              | ok pair =>
                  obtain ⟨first, after⟩ := pair
                  have shorter := length_lt_of_pair read
                  have regular := onExpression body (length_lt_cons_cons _ _ _) first after read
                  cases after with
                  | nil => exact reads_error _
                  | cons next others =>
                      dsimp only
                      by_cases ending : next.isMark "\x7d" = true
                      · rw [if_pos ending]
                        exact reads_ok (by simp [MembersRegular, regular]) others
                      · rw [if_neg ending]
                        cases expectText "," next with
                        | some fault => exact reads_error fault
                        | none =>
                            have fewer : others.length < (token :: colon :: body).length := by
                              simp only [List.length_cons] at shorter ⊢
                              omega
                            exact (onEntries others fewer).map fun more regularMore =>
                              ⟨regular, regularMore⟩

theorem readers_regular (tokens : List Token) :
    Reads Expr.Regular (readExpression tokens) ∧
      (∀ close, Reads ExprsRegular (readItems close tokens)) ∧
      Reads MembersRegular (readEntries tokens) := by
  -- by the number of tokens; items use the expression at the same number, which comes first
  induction size : tokens.length using Nat.strongRecOn generalizing tokens with
  | _ n ih =>
      subst size
      have onExpression := reads_expression_step tokens
        (fun inner fewer => (ih _ fewer inner rfl).2.1)
        (fun inner fewer => (ih _ fewer inner rfl).2.2)
      refine ⟨onExpression, ?_, ?_⟩
      · intro close
        exact reads_items_step close tokens onExpression
          (fun inner fewer => (ih _ fewer inner rfl).2.1 close)
      · exact reads_entries_step tokens
          (fun inner fewer => (ih _ fewer inner rfl).1)
          (fun inner fewer => (ih _ fewer inner rfl).2.2)

theorem reads_expressionStatement (tokens : List Token) :
    Reads Statement.Regular ((readExpression tokens).map (onPiece .expression)) :=
  (readers_regular tokens).1.map fun _ regular => regular

theorem regular_keywordStatement
    {keyword name : String}
    {made : Statement}
    (found : keywordStatement? keyword name = some made) :
    made.Regular := by
  unfold keywordStatement? at found
  split at found
  · cases found
    trivial
  · split at found
    · cases found
      trivial
    · cases found

theorem reads_statement (first : Token) (rest : List Token) :
    Reads Statement.Regular (readStatement (first :: rest)) := by
  cases rest with
  | nil =>
      rw [readStatement_singleton]
      exact reads_expressionStatement _
  | cons second rest =>
      rw [readStatement_cons_cons]
      by_cases named : first.kind = .name
      · rw [if_pos named]
        cases found : (if second.kind = .name then keywordStatement? first.text second.text
            else none) with
        | some made =>
            refine reads_ok ?_ rest
            split at found
            · exact regular_keywordStatement found
            · cases found
        | none =>
            dsimp only
            by_cases assigned : second.text = "="
            · rw [if_pos assigned]
              exact (readers_regular rest).1.map fun _ regular => regular
            · rw [if_neg assigned]
              exact reads_expressionStatement _
      · rw [if_neg named]
        exact reads_expressionStatement _

theorem regular_program
    (tokens : List Token)
    {read : Program}
    (reads : program tokens = .ok read) :
    ProgramRegular read := by
  induction size : tokens.length using Nat.strongRecOn generalizing tokens read with
  | _ n ih =>
      subst size
      cases tokens with
      | nil =>
          rw [program_nil] at reads
          cases reads
          simp [ProgramRegular]
      | cons token rest =>
          rw [program_cons] at reads
          by_cases ended : token.kind = .terminator
          · rw [if_pos ended] at reads
            exact ih rest.length (by simp) rest reads rfl
          rw [if_neg ended] at reads
          cases made : readStatement (token :: rest) with
          | error fault =>
              rw [made] at reads
              cases reads
          | ok pair =>
              obtain ⟨first, after⟩ := pair
              have shorter := length_lt_of_pair made
              have regular := reads_statement token rest first after made
              rw [made] at reads
              cases after with
              | nil =>
                  cases reads
                  simpa [ProgramRegular] using regular
              | cons next others =>
                  dsimp only at reads
                  by_cases last : next.kind = .terminator
                  · rw [if_pos last] at reads
                    cases further : program others with
                    | error fault =>
                        rw [further] at reads
                        cases reads
                    | ok more =>
                        rw [further] at reads
                        cases reads
                        have fewer : others.length < (token :: rest).length := by
                          simp only [List.length_cons] at shorter ⊢
                          omega
                        have regularMore := ih others.length fewer others further rfl
                        intro statement member
                        rcases List.mem_cons.1 member with rfl | member
                        · exact regular
                        · exact regularMore statement member
                  · rw [if_neg last] at reads
                    cases reads

theorem regular_compile
    {source : String}
    {compiled : Program}
    (compiles : compile source = .ok compiled) :
    ProgramRegular compiled := by
  unfold compile at compiles
  cases scanned : tokenize source with
  | error fault =>
      rw [scanned] at compiles
      cases compiles
  | ok tokens =>
      rw [scanned] at compiles
      exact regular_program tokens compiles

end Language

namespace Interaction

variable {α β : Type}

/-- The result has the property at every end, as long as the calls are answered by admissible
values. -/
def Yields (admissible : Value → Prop) (property : α → Prop) : Interaction α → Prop
  | done result => property result
  | fail _ => True
  | log _ next => Yields admissible property next
  | call _ _ _ next =>
      ∀ answer, (∀ value ∈ answer, admissible value) → Yields admissible property (next answer)

theorem Yields.imp
    {admissible : Value → Prop}
    {first second : α → Prop}
    {interaction : Interaction α}
    (holds : interaction.Yields admissible first)
    (implies : ∀ result, first result → second result) :
    interaction.Yields admissible second := by
  induction interaction with
  | done result => exact implies result holds
  | fail fault => trivial
  | log value next ih => exact ih holds
  | call function callName arguments next ih =>
      exact fun answer admitted => ih answer (holds answer admitted)

theorem yields_true (admissible : Value → Prop) (interaction : Interaction α) :
    interaction.Yields admissible fun _ => True := by
  induction interaction with
  | done result => trivial
  | fail fault => trivial
  | log value next ih => exact ih
  | call function callName arguments next ih => exact fun answer _ => ih answer

theorem Yields.bind
    {admissible : Value → Prop}
    {first : α → Prop}
    {second : β → Prop}
    {interaction : Interaction α}
    {f : α → Interaction β}
    (holds : interaction.Yields admissible first)
    (step : ∀ result, first result → (f result).Yields admissible second) :
    (interaction >>= f).Yields admissible second := by
  induction interaction with
  | done result => exact step result holds
  | fail fault => trivial
  | log value next ih => exact ih holds
  | call function callName arguments next ih =>
      intro answer answered
      exact ih answer (holds answer answered)

end Interaction

namespace Language

open Value

theorem yields_callFunction (debug : Bool) (function : String) (values : List Value) :
    (callFunction debug function values).Yields Value.Regular Value.Regular := by
  unfold callFunction
  split
  · refine (Interaction.yields_true _ (Interaction.logAll values)).bind fun _ _ => ?_
    simp [Interaction.Yields, Value.Regular]
  · intro answer answered
    cases answer with
    | none => trivial
    | some value => exact answered value rfl

section Evaluation

variable (debug : Bool)
variable {scope : Entries Value}

mutual

theorem yields_eval (regularScope : ∀ entry ∈ scope, entry.2.Regular) :
    (expr : Expr) → expr.Regular →
      (expr.eval debug scope).Yields Value.Regular Value.Regular
  | .literal value, regular => by
      rw [Expr.Regular] at regular
      rw [Expr.eval]
      exact regular
  | .variable name, _ => by
      rw [Expr.eval]
      cases found : scope.get? name with
      | none => trivial
      | some value => exact regularScope _ (Entries.mem_of_get?_eq_some found)
  | .call function arguments, regular => by
      rw [Expr.Regular] at regular
      rw [Expr.eval]
      exact (yields_evalItems regularScope arguments regular).bind fun values _ =>
        yields_callFunction debug function values
  | .list members, regular => by
      rw [Expr.Regular] at regular
      rw [Expr.eval]
      refine (yields_evalItems regularScope members regular).bind fun values regularValues => ?_
      change (Value.list values).Regular
      rwa [Value.Regular]
  | .scope members, regular => by
      rw [Expr.Regular] at regular
      rw [Expr.eval]
      refine (yields_evalEntries regularScope members regular).bind fun vars regularVars => ?_
      change (Value.scope vars).Regular
      rwa [Value.Regular]

theorem yields_evalItems (regularScope : ∀ entry ∈ scope, entry.2.Regular) :
    (exprs : List Expr) → ExprsRegular exprs →
      (evalItems debug scope exprs).Yields Value.Regular ItemsRegular
  | [], _ => by
      rw [evalItems]
      simp [Interaction.Yields, ItemsRegular]
  | first :: rest, regular => by
      rw [evalItems]
      refine (yields_eval regularScope first regular.1).bind fun value regularValue => ?_
      refine (yields_evalItems regularScope rest regular.2).bind fun others regularOthers => ?_
      exact ⟨regularValue, regularOthers⟩

theorem yields_evalEntries (regularScope : ∀ entry ∈ scope, entry.2.Regular) :
    (members : List (String × Expr)) → MembersRegular members →
      (evalEntries debug scope members).Yields Value.Regular VariablesRegular
  | [], _ => by
      rw [evalEntries]
      simp [Interaction.Yields, VariablesRegular]
  | (_, first) :: rest, regular => by
      rw [evalEntries]
      refine (yields_eval regularScope first regular.1).bind fun value regularValue => ?_
      refine (yields_evalEntries regularScope rest regular.2).bind fun others regularOthers => ?_
      exact ⟨regularValue, regularOthers⟩

end

end Evaluation

end Language
end ScriptHost
