import ScriptHost.Language.Program
import ScriptHost.Language.Token
import ScriptHost.Number.Decimal

/-!
# Reading programs

From tokens to programs.  Every reader takes its piece from the front of the tokens and returns the
tokens after it together with the proof that they are fewer, so that reading ends.

* `expression` reads one expression, `statement` one statement and `program` everything.
* Separators and the sign of assignment are recognised by their text alone, so a string of that text
  serves as well as the mark.
-/

namespace ScriptHost
namespace Language

/-- A piece read from the front of some tokens, and what stands after it. -/
structure Parsed (α : Type) (tokens : List Token) where
  value : α
  rest : List Token
  shorter : rest.length < tokens.length

/-- The literal that a word stands for. -/
def wordLiteral? (word : String) : Option Value :=
  if word = "true" then some (.ofBool true)
  else if word = "false" then some (.ofBool false)
  else if word = "none" then some .none
  else none

/-- The number that a number token spells; with a second point it spells none. -/
def tokenNumber (text : String) : Number :=
  (Number.parse? text.toList).getD .nan

/-- What is wrong with a token in the place of the wanted text, if anything. -/
def expectText (wanted : String) (token : Token) : Option SourceFault :=
  if token.kind = .terminator then some .unexpectedEnd
  else if token.text = wanted then none
  else some (.expectedToken wanted token.text)

mutual

/-- Reads an expression. -/
def expression : (tokens : List Token) → Except SourceFault (Parsed Expr tokens)
  | [] => .error .unexpectedEnd
  | token :: rest =>
      match token.kind with
      | .terminator => .error .unexpectedEnd
      | .number => .ok ⟨.literal (.int (tokenNumber token.text)), rest, by simp⟩
      | .string => .ok ⟨.literal (.str token.text), rest, by simp⟩
      | .name =>
          match wordLiteral? token.text with
          | some value => .ok ⟨.literal value, rest, by simp⟩
          | none =>
              match rest with
              | [] => .ok ⟨.variable token.text, [], by simp⟩
              | next :: inner =>
                  if next.isMark "(" then
                    match items ")" inner with
                    | .error fault => .error fault
                    | .ok arguments =>
                        .ok ⟨.call token.text arguments.value, arguments.rest, by
                          have := arguments.shorter
                          simp only [List.length_cons]
                          omega⟩
                  else .ok ⟨.variable token.text, next :: inner, by simp⟩
      | .punctuation =>
          if token.text = "[" then
            match items "]" rest with
            | .error fault => .error fault
            | .ok members =>
                .ok ⟨.list members.value, members.rest, by
                  have := members.shorter
                  simp only [List.length_cons]
                  omega⟩
          else if token.text = "\x7b" then
            match entries rest with
            | .error fault => .error fault
            | .ok members =>
                .ok ⟨.scope members.value, members.rest, by
                  have := members.shorter
                  simp only [List.length_cons]
                  omega⟩
          else .error (.unexpectedToken token.text)
termination_by tokens => 2 * tokens.length

/-- Reads expressions up to the closing mark; a separator may stand before it. -/
def items (close : String) :
    (tokens : List Token) → Except SourceFault (Parsed (List Expr) tokens)
  | [] => .error .unexpectedEnd
  | token :: rest =>
      if token.isMark close then .ok ⟨[], rest, by simp⟩
      else
        match expression (token :: rest) with
        | .error fault => .error fault
        | .ok ⟨_, [], _⟩ => .error .unexpectedEnd
        | .ok ⟨first, next :: others, shorter⟩ =>
            have fewer : others.length + 1 < rest.length + 1 := by simpa using shorter
            if next.isMark close then
              .ok ⟨[first], others, by simp only [List.length_cons]; omega⟩
            else
              match expectText "," next with
              | some fault => .error fault
              | none =>
                  match items close others with
                  | .error fault => .error fault
                  | .ok more =>
                      .ok ⟨first :: more.value, more.rest, by
                        have := more.shorter
                        simp only [List.length_cons]
                        omega⟩
termination_by tokens => 2 * tokens.length + 1

/-- Reads the entries of a scope up to the closing brace; a separator may stand before it. -/
def entries : (tokens : List Token) → Except SourceFault (Parsed (List (String × Expr)) tokens)
  | [] => .error .unexpectedEnd
  | token :: rest =>
      if token.isMark "\x7d" then .ok ⟨[], rest, by simp⟩
      else if token.kind = .terminator then .error .unexpectedEnd
      else if token.kind ≠ .name then .error (.expectedName token.text)
      else
        match rest with
        | [] => .error .unexpectedEnd
        | colon :: body =>
            match expectText ":" colon with
            | some fault => .error fault
            | none =>
                match expression body with
                | .error fault => .error fault
                | .ok ⟨_, [], _⟩ => .error .unexpectedEnd
                | .ok ⟨first, next :: others, shorter⟩ =>
                    have fewer : others.length + 1 < body.length := by simpa using shorter
                    if next.isMark "\x7d" then
                      .ok ⟨[(token.text, first)], others, by simp only [List.length_cons]; omega⟩
                    else
                      match expectText "," next with
                      | some fault => .error fault
                      | none =>
                          match entries others with
                          | .error fault => .error fault
                          | .ok more =>
                              .ok ⟨(token.text, first) :: more.value, more.rest, by
                                have := more.shorter
                                simp only [List.length_cons]
                                omega⟩
termination_by tokens => 2 * tokens.length + 1

end

/-- The statement that a keyword before a name makes. -/
def keywordStatement? (keyword name : String) : Option Statement :=
  if keyword = "import" then some (.importModule name)
  else if keyword = "forget" then some (.forget name)
  else none

/-- Reads an expression as a statement. -/
def expressionStatement (tokens : List Token) : Except SourceFault (Parsed Statement tokens) :=
  match expression tokens with
  | .error fault => .error fault
  | .ok value => .ok ⟨.expression value.value, value.rest, value.shorter⟩

/-- Reads a statement. -/
def statement : (tokens : List Token) → Except SourceFault (Parsed Statement tokens)
  | first :: second :: rest =>
      if first.kind = .name then
        match (if second.kind = .name then keywordStatement? first.text second.text else none) with
        | some made =>
            .ok ⟨made, rest, by simp only [List.length_cons]; omega⟩
        | none =>
            if second.text = "=" then
              match expression rest with
              | .error fault => .error fault
              | .ok value =>
                  .ok ⟨.assign first.text value.value, value.rest, by
                    have := value.shorter
                    simp only [List.length_cons]
                    omega⟩
            else expressionStatement (first :: second :: rest)
      else expressionStatement (first :: second :: rest)
  | tokens => expressionStatement tokens

/-- Reads statements, each ended by a terminator or by the end of the tokens. -/
def program : List Token → Except SourceFault Program
  | [] => .ok []
  | token :: rest =>
      if token.kind = .terminator then program rest
      else
        match statement (token :: rest) with
        | .error fault => .error fault
        | .ok ⟨first, [], _⟩ => .ok [first]
        | .ok ⟨first, next :: others, shorter⟩ =>
            have fewer : others.length + 1 < rest.length + 1 := by simpa using shorter
            if next.kind = .terminator then
              match program others with
              | .error fault => .error fault
              | .ok more => .ok (first :: more)
            else .error (.unexpectedToken next.text)
termination_by tokens => tokens.length

/-- The program of a source. -/
def compile (source : String) : Except SourceFault Program :=
  match tokenize source with
  | .error fault => .error fault
  | .ok tokens => program tokens

theorem compile_of_tokenize
    {source : String}
    {tokens : List Token}
    (scanned : tokenize source = .ok tokens) :
    compile source = program tokens := by
  rw [compile, scanned]

mutual

/-- The value of an expression that refers to no name. -/
def Expr.literalValue? : Expr → Option Value
  | .literal value => some value
  | .variable _ => none
  | .call _ _ => none
  | .list members => (literalItems? members).map .list
  | .scope members => (literalEntries? members).map .scope

/-- The values of expressions that refer to no name. -/
def literalItems? : List Expr → Option (List Value)
  | [] => some []
  | first :: rest => do
      let value ← first.literalValue?
      let others ← literalItems? rest
      some (value :: others)

/-- The variables of scope entries that refer to no name. -/
def literalEntries? : List (String × Expr) → Option (List Variable)
  | [] => some []
  | (name, first) :: rest => do
      let value ← first.literalValue?
      let others ← literalEntries? rest
      some ((name, value) :: others)

end

/-- The value of a text that is one expression without names. -/
def literal (text : String) : Except SourceFault Value :=
  match tokenize text with
  | .error fault => .error fault
  | .ok tokens =>
      match expression tokens with
      | .error fault => .error fault
      | .ok parsed =>
          if parsed.rest.isEmpty then
            match parsed.value.literalValue? with
            | some value => .ok value
            | none => .error .notLiteral
          else .error (.trailingInput text)

end Language
end ScriptHost
