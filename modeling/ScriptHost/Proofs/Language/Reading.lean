import ScriptHost.Language.Parser

/-!
# Readers without their proofs of progress

The readers of the language return their piece together with the rest of the tokens and the proof
that the rest is shorter.  Here the proof is dropped: each reader becomes a function to pairs of a
piece and a rest, with the equations that its recursion follows.  Facts about reading are proved
from these equations, by induction on the number of tokens.
-/

namespace ScriptHost
namespace Language

/-- What was read and what stands after it. -/
def Parsed.pair {α : Type} {tokens : List Token} (parsed : Parsed α tokens) : α × List Token :=
  (parsed.value, parsed.rest)

/-- An expression from the front of the tokens, and the rest. -/
def readExpression (tokens : List Token) : Except SourceFault (Expr × List Token) :=
  (expression tokens).map Parsed.pair

/-- Items up to the closing mark, and the rest. -/
def readItems (close : String) (tokens : List Token) :
    Except SourceFault (List Expr × List Token) :=
  (items close tokens).map Parsed.pair

/-- The entries of a scope up to the closing brace, and the rest. -/
def readEntries (tokens : List Token) :
    Except SourceFault (List (String × Expr) × List Token) :=
  (entries tokens).map Parsed.pair

/-- A statement from the front of the tokens, and the rest. -/
def readStatement (tokens : List Token) : Except SourceFault (Statement × List Token) :=
  (statement tokens).map Parsed.pair

/-- A piece that was read, changed. -/
def onPiece {α β : Type} (f : α → β) (read : α × List Token) : β × List Token :=
  (f read.1, read.2)

/-- What stands after two tokens is shorter. -/
theorem length_lt_cons_cons (first second : Token) (rest : List Token) :
    rest.length < (first :: second :: rest).length := by
  simp only [List.length_cons]
  omega

theorem length_lt_of_pair
    {α : Type}
    {tokens : List Token}
    {parsed : Except SourceFault (Parsed α tokens)}
    {piece : α}
    {rest : List Token}
    (read : parsed.map Parsed.pair = .ok (piece, rest)) :
    rest.length < tokens.length := by
  cases parsed with
  | error fault =>
      cases read
  | ok parsed =>
      cases read
      exact parsed.shorter

theorem readExpression_nil : readExpression [] = .error .unexpectedEnd := by
  rw [readExpression, expression]
  rfl

theorem readExpression_cons (token : Token) (rest : List Token) :
    readExpression (token :: rest) =
      match token.kind with
      | .terminator => .error .unexpectedEnd
      | .number => .ok (.literal (.int (tokenNumber token.text)), rest)
      | .string => .ok (.literal (.str token.text), rest)
      | .name =>
          match wordLiteral? token.text with
          | some value => .ok (.literal value, rest)
          | none =>
              match rest with
              | [] => .ok (.variable token.text, [])
              | next :: inner =>
                  if next.isMark "(" then
                    (readItems ")" inner).map (onPiece (.call token.text))
                  else .ok (.variable token.text, next :: inner)
      | .punctuation =>
          if token.text = "[" then (readItems "]" rest).map (onPiece .list)
          else if token.text = "\x7b" then (readEntries rest).map (onPiece .scope)
          else .error (.unexpectedToken token.text) := by
  obtain ⟨kind, text⟩ := token
  rw [readExpression, expression.eq_def]
  cases kind with
  | terminator =>
      rfl
  | number =>
      rfl
  | string =>
      rfl
  | name =>
      dsimp only
      cases wordLiteral? text with
      | some value =>
          rfl
      | none =>
          cases rest with
          | nil =>
              rfl
          | cons next inner =>
              dsimp only
              by_cases opening : next.isMark "(" = true
              · rw [if_pos opening, if_pos opening, readItems]
                cases items ")" inner <;> rfl
              · rw [if_neg opening, if_neg opening]
                rfl
  | punctuation =>
      dsimp only
      by_cases bracket : text = "["
      · rw [if_pos bracket, if_pos bracket, readItems]
        cases items "]" rest <;> rfl
      · rw [if_neg bracket, if_neg bracket]
        by_cases brace : text = "\x7b"
        · rw [if_pos brace, if_pos brace, readEntries]
          cases entries rest <;> rfl
        · rw [if_neg brace, if_neg brace]
          rfl

theorem readItems_nil (close : String) : readItems close [] = .error .unexpectedEnd := by
  rw [readItems, items]
  rfl

theorem readItems_cons (close : String) (token : Token) (rest : List Token) :
    readItems close (token :: rest) =
      if token.isMark close then .ok ([], rest)
      else
        match readExpression (token :: rest) with
        | .error fault => .error fault
        | .ok (_, []) => .error .unexpectedEnd
        | .ok (first, next :: others) =>
            if next.isMark close then .ok ([first], others)
            else
              match expectText "," next with
              | some fault => .error fault
              | none => (readItems close others).map (onPiece (first :: ·)) := by
  rw [readItems, items.eq_def, readExpression]
  dsimp only
  by_cases closing : token.isMark close = true
  · rw [if_pos closing, if_pos closing]
    rfl
  · rw [if_neg closing, if_neg closing]
    cases expression (token :: rest) with
    | error fault =>
        rfl
    | ok parsed =>
        obtain ⟨first, after, shorter⟩ := parsed
        cases after with
        | nil =>
            rfl
        | cons next others =>
            change Except.map _ (if _ then _ else _) = if _ then _ else _
            by_cases ending : next.isMark close = true
            · rw [if_pos ending, if_pos ending]
              rfl
            · rw [if_neg ending, if_neg ending]
              cases expectText "," next with
              | some fault =>
                  rfl
              | none =>
                  rw [readItems]
                  cases items close others <;> rfl

theorem readEntries_nil : readEntries [] = .error .unexpectedEnd := by
  rw [readEntries, entries]
  rfl

theorem readEntries_cons (token : Token) (rest : List Token) :
    readEntries (token :: rest) =
      if token.isMark "\x7d" then .ok ([], rest)
      else if token.kind = .terminator then .error .unexpectedEnd
      else if token.kind ≠ .name then .error (.expectedName token.text)
      else
        match rest with
        | [] => .error .unexpectedEnd
        | colon :: body =>
            match expectText ":" colon with
            | some fault => .error fault
            | none =>
                match readExpression body with
                | .error fault => .error fault
                | .ok (_, []) => .error .unexpectedEnd
                | .ok (first, next :: others) =>
                    if next.isMark "\x7d" then .ok ([(token.text, first)], others)
                    else
                      match expectText "," next with
                      | some fault => .error fault
                      | none => (readEntries others).map (onPiece ((token.text, first) :: ·)) := by
  rw [readEntries, entries.eq_def]
  dsimp only
  by_cases closing : token.isMark "\x7d" = true
  · rw [if_pos closing, if_pos closing]
    rfl
  rw [if_neg closing, if_neg closing]
  by_cases terminator : token.kind = .terminator
  · rw [if_pos terminator, if_pos terminator]
    rfl
  rw [if_neg terminator, if_neg terminator]
  by_cases other : token.kind ≠ .name
  · rw [if_pos other, if_pos other]
    rfl
  rw [if_neg other, if_neg other]
  cases rest with
  | nil =>
      rfl
  | cons colon body =>
      dsimp only
      rw [readExpression]
      cases expectText ":" colon with
      | some fault =>
          rfl
      | none =>
          cases expression body with
          | error fault =>
              rfl
          | ok parsed =>
              obtain ⟨first, after, shorter⟩ := parsed
              cases after with
              | nil =>
                  rfl
              | cons next others =>
                  change Except.map _ (if _ then _ else _) = if _ then _ else _
                  by_cases ending : next.isMark "\x7d" = true
                  · rw [if_pos ending, if_pos ending]
                    rfl
                  · rw [if_neg ending, if_neg ending]
                    cases expectText "," next with
                    | some fault =>
                        rfl
                    | none =>
                        rw [readEntries]
                        cases entries others <;> rfl

theorem expressionStatement_pair (tokens : List Token) :
    (expressionStatement tokens).map Parsed.pair =
      (readExpression tokens).map (onPiece .expression) := by
  rw [expressionStatement, readExpression]
  cases expression tokens <;> rfl

theorem readStatement_singleton (token : Token) :
    readStatement [token] = (readExpression [token]).map (onPiece .expression) := by
  rw [readStatement, statement, expressionStatement_pair]
  simp

theorem readStatement_cons_cons (first second : Token) (rest : List Token) :
    readStatement (first :: second :: rest) =
      if first.kind = .name then
        match (if second.kind = .name then keywordStatement? first.text second.text else none) with
        | some made => .ok (made, rest)
        | none =>
            if second.text = "=" then (readExpression rest).map (onPiece (.assign first.text))
            else (readExpression (first :: second :: rest)).map (onPiece .expression)
      else (readExpression (first :: second :: rest)).map (onPiece .expression) := by
  rw [readStatement, statement]
  by_cases named : first.kind = .name
  · rw [if_pos named, if_pos named]
    cases (if second.kind = .name then keywordStatement? first.text second.text else none) with
    | some made =>
        rfl
    | none =>
        dsimp only
        by_cases assigned : second.text = "="
        · rw [if_pos assigned, if_pos assigned, readExpression]
          cases expression rest <;> rfl
        · rw [if_neg assigned, if_neg assigned, expressionStatement_pair]
  · rw [if_neg named, if_neg named, expressionStatement_pair]

theorem program_nil : program [] = .ok [] := by
  rw [program]

theorem program_cons (token : Token) (rest : List Token) :
    program (token :: rest) =
      if token.kind = .terminator then program rest
      else
        match readStatement (token :: rest) with
        | .error fault => .error fault
        | .ok (first, []) => .ok [first]
        | .ok (first, next :: others) =>
            if next.kind = .terminator then (program others).map (first :: ·)
            else .error (.unexpectedToken next.text) := by
  rw [program.eq_def, readStatement]
  dsimp only
  by_cases terminator : token.kind = .terminator
  · rw [if_pos terminator, if_pos terminator]
  · rw [if_neg terminator, if_neg terminator]
    cases statement (token :: rest) with
    | error fault =>
        rfl
    | ok parsed =>
        obtain ⟨first, after, shorter⟩ := parsed
        cases after with
        | nil =>
            rfl
        | cons next others =>
            dsimp only [Except.map, Parsed.pair]
            by_cases ended : next.kind = .terminator
            · rw [if_pos ended, if_pos ended]
              cases program others <;> rfl
            · rw [if_neg ended, if_neg ended]

end Language
end ScriptHost
