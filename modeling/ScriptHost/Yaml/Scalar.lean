import ScriptHost.Text.Hex
import ScriptHost.Text.Utf16
import ScriptHost.Yaml.Tree.Basic

/-!
# The text of scalars

What a scalar says, once its quotes, escapes, indentation and line breaks are taken away.

* `foldLines` joins the lines of a plain or single quoted scalar: one line break becomes a blank,
  and each line break after the first is kept.
* `plainText?`, `singleQuotedText?` and `doubleQuotedText?` read a scalar as it is spelled.
* `BlockText.read?` reads the lines of a block scalar as its head asks for.
-/

namespace ScriptHost
namespace Yaml

/-- The parts of a text between its line feeds. -/
def splitLines : List Char → List (List Char)
  | [] => [[]]
  | '\n' :: rest => [] :: splitLines rest
  | c :: rest =>
      match splitLines rest with
      | first :: others => (c :: first) :: others
      | [] => [[c]]

/-- Drops a carriage return at the end. -/
def dropReturn (text : List Char) : List Char :=
  if text.getLast? == some '\r' then text.dropLast else text

/-- Joins the lines after the first, each after the separator that is due; the last one keeps the
blanks at its end. -/
def foldRest (separator : Char) : List (List Char) → List Char
  | [] => []
  | [last] => separator :: last.dropWhile isBlank
  | text :: rest =>
      let body := trimRight ((dropReturn text).dropWhile isBlank)
      if body.isEmpty then
        if separator = '\n' then '\n' :: foldRest '\n' rest else foldRest '\n' rest
      else separator :: (body ++ foldRest ' ' rest)

/-- Joins the lines of a scalar. -/
def foldLines (text : List Char) : List Char :=
  match splitLines text with
  | [] => []
  | [only] => only
  | first :: rest => trimRight (dropReturn first) ++ foldRest ' ' rest

/-- The text of a plain scalar, if it may start as it does. -/
def plainText? (text : List Char) : Option (List Char) :=
  if text.head?.any fun c => "\t,%|>@\x60".toList.contains c then none
  else some (foldLines text)

/-- Reads quotes that are written twice as one. -/
def undouble : List Char → List Char
  | '\'' :: '\'' :: rest => '\'' :: undouble rest
  | c :: rest => c :: undouble rest
  | [] => []

/-- Is a text with quotes closed by the given quote? -/
def isClosed (quote : Char) (text : List Char) : Bool :=
  1 < text.length && text.getLast? == some quote

/-- The text of a single quoted scalar, if it is closed. -/
def singleQuotedText? (text : List Char) : Option (List Char) :=
  if isClosed '\'' text then some (undouble (foldLines text.tail.dropLast)) else none

/-- The character that an escape of one letter stands for. -/
def escaped? (c : Char) : Option Char :=
  [('0', '\x00'), ('a', '\x07'), ('b', '\x08'), ('e', '\x1b'), ('f', '\x0c'), ('n', '\n'),
    ('r', '\r'), ('t', '\t'), ('v', '\x0b'), ('N', '\u0085'), ('_', '\u00a0'), ('L', '\u2028'),
    ('P', '\u2029'), (' ', ' '), ('"', '"'), ('/', '/'), ('\\', '\\'), ('\t', '\t')].lookup c

/-- How many hexadecimal digits follow an escape with this letter. -/
def hexLength? (c : Char) : Option Nat :=
  [('x', 2), ('u', 4), ('U', 8)].lookup c

/-- Where the reading of a double quoted scalar stands. -/
inductive QuoteState where
  | text
  /-- After blanks, last first, which count unless the line ends after them. -/
  | blanks (run : List Char)
  /-- After a line break and this many more. -/
  | folding (more : Nat)
  /-- After an escaped line break, whose following blanks do not count. -/
  | glued
  /-- After a backslash. -/
  | escape
  /-- Among the digits of a character's number. -/
  | digits (missing value : Nat)

namespace QuoteState

/-- Does the line end here? -/
def atBreak : List Char → Bool
  | '\n' :: _ => true
  | '\r' :: '\n' :: _ => true
  | _ => false

/-- What is added, as character numbers, when a state is left before these characters. -/
def flush (state : QuoteState) (text : List Char) : List Nat :=
  match state with
  | blanks run => if atBreak text then [] else run.reverse.map Char.toNat
  | folding 0 => [0x20]
  | folding more => List.replicate more 0x0a
  | _ => []

/-- Does a state go on with this character, given those after it? -/
def holds (state : QuoteState) (c : Char) (rest : List Char) : Bool :=
  match state with
  | text => false
  | blanks _ => isBlank c
  | folding _ => isBlank c || c == '\n' || (c == '\r' && rest.head? == some '\n')
  | glued => isBlank c
  | escape => true
  | digits _ _ => true

end QuoteState

/-- Reads a double quoted scalar after its opening quote as character numbers, among which there
may be halves of a pair.  Only the last quote is not escaped, and it may be missing. -/
def doubleQuotedNumbers : QuoteState → List Char → Option (List Nat)
  | state, [] => some (state.flush [])
  | .escape, '\r' :: '\n' :: rest => doubleQuotedNumbers .glued rest
  | .escape, c :: rest =>
      match escaped? c, hexLength? c with
      | some made, _ => (doubleQuotedNumbers .text rest).map (made.toNat :: ·)
      | none, some length => doubleQuotedNumbers (.digits length 0) rest
      | none, none => if c = '\n' then doubleQuotedNumbers .glued rest else none
  | .digits missing value, c :: rest =>
      match Hex.digitValue? c with
      | none => none
      | some digit =>
          let number := 16 * value + digit
          if 1 < missing then doubleQuotedNumbers (.digits (missing - 1) number) rest
          else if 0x10ffff < number then none
          else (doubleQuotedNumbers .text rest).map (number :: ·)
  | state, c :: rest =>
      if state.holds c rest then
        match state with
        | .blanks run => doubleQuotedNumbers (.blanks (c :: run)) rest
        | .folding more => doubleQuotedNumbers (.folding (if c = '\n' then more + 1 else more)) rest
        | other => doubleQuotedNumbers other rest
      else
        let before := state.flush (c :: rest)
        if c = '"' then some before
        else
          let after :=
            if c = '\\' then doubleQuotedNumbers .escape rest
            else if c = '\n' then doubleQuotedNumbers (.folding 0) rest
            else if c = '\r' && rest.head? == some '\n' then doubleQuotedNumbers .text rest
            else if isBlank c then doubleQuotedNumbers (.blanks [c]) rest
            else (doubleQuotedNumbers .text rest).map (c.toNat :: ·)
          after.map (before ++ ·)

/-- Characters from their numbers, where two halves of a pair next to each other are one character
and a half by itself is replaced. -/
def joinPairs (numbers : List Nat) : List Char :=
  (Utf16.pieces numbers).map Utf16.Piece.shown

/-- The text of a double quoted scalar, if it is closed and every escape in it is known. -/
def doubleQuotedText? (text : List Char) : Option (List Char) :=
  if isClosed '"' text then (doubleQuotedNumbers .text text.tail).map joinPairs else none

/-- What becomes of the line breaks at the end of a block scalar. -/
inductive Chomping where
  | clip
  | strip
  | keep
  deriving DecidableEq, Repr

/-- The head of a block scalar. -/
structure BlockHead where
  folded : Bool
  /-- The indentation that is asked for, zero if none is. -/
  indent : Nat
  chomping : Chomping
  /-- The comment after it. -/
  comment : List Char
  /-- How many units it has, through the end of its line. -/
  length : Nat

namespace BlockHead

/-- Reads the indicators of a head; each kind may be given once. -/
def indicators? (head : BlockHead) : List Char → Option BlockHead
  | [] => some head
  | c :: rest =>
      if head.chomping = .clip && c == '-' then indicators? { head with chomping := .strip } rest
      else if head.chomping = .clip && c == '+' then
        indicators? { head with chomping := .keep } rest
      else if head.indent = 0 && '1' ≤ c && c ≤ '9' then
        indicators? { head with indent := c.toNat - '0'.toNat } rest
      else none

/-- Reads what stands between the indicators and the end of the line. -/
def fillers? (head : BlockHead) (spaced : Bool) : List Token → Option BlockHead
  | [] => some head
  | token :: rest =>
      let longer := { head with length := head.length + units token.text }
      match token.kind with
      | .space => fillers? longer true rest
      | .newline => fillers? longer spaced rest
      | .comment =>
          if spaced then fillers? { longer with comment := token.text.tail } spaced rest else none
      | _ => none

/-- The head that tokens spell. -/
def read? : List Token → Option BlockHead
  | [] => none
  | token :: rest => do
      let head ← indicators? ⟨token.text.head? == some '>', 0, .clip, [], units token.text⟩
        token.text.tail
      head.fillers? false rest

end BlockHead

/-- A line of a block scalar. -/
structure BlockLine where
  /-- How many spaces it starts with. -/
  indent : Nat
  body : List Char

namespace BlockLine

/-- Splits the indentation off a line. -/
def ofText (text : List Char) : BlockLine :=
  ⟨indentOf text, text.dropWhile (· == ' ')⟩

/-- Does the line hold nothing but spaces? -/
def isEmpty (line : BlockLine) : Bool := line.body == [] || line.body == ['\r']

/-- The spaces of a line beyond the given indentation. -/
def extra (line : BlockLine) (trim : Nat) : List Char := List.replicate (line.indent - trim) ' '

end BlockLine

namespace BlockText

/-- Joins the lines of a literal block. -/
def literal (trim : Nat) : List BlockLine → List Char
  | [] => []
  | [line] => line.extra trim ++ dropReturn line.body
  | line :: rest => line.extra trim ++ dropReturn line.body ++ '\n' :: literal trim rest

/-- Joins the lines of a folded block, given the separator that is due and whether the line before
was indented further than the text. -/
def folded (trim : Nat) (separator : List Char) (further : Bool) : List BlockLine → List Char
  | [] => []
  | line :: rest =>
      let body := dropReturn line.body
      if trim < line.indent || body.head? == some '\t' then
        let due :=
          if separator = [' '] then ['\n']
          else if !further && separator = ['\n'] then ['\n', '\n']
          else separator
        due ++ line.extra trim ++ body ++ folded trim ['\n'] true rest
      else if body.isEmpty then
        if separator = ['\n'] then '\n' :: folded trim separator further rest
        else folded trim ['\n'] further rest
      else separator ++ body ++ folded trim [' '] false rest

/-- How many lines are left when the lines at the end that hold nothing are taken away. -/
def filledCount (lines : List BlockLine) : Nat :=
  (lines.reverse.dropWhile BlockLine.isEmpty).length

/-- The indentation of the text: the one that is asked for, or else that of the first line that
holds something, which no empty line before it may exceed. -/
def trim? (outer : Nat) (head : BlockHead) (atRoot : Bool) (lines : List BlockLine) : Option Nat :=
  let leading := lines.takeWhile BlockLine.isEmpty
  let asked := outer + head.indent
  let least :=
    if head.indent = 0 then leading.foldl (fun n line => max n line.indent) asked else asked
  match lines.dropWhile BlockLine.isEmpty with
  | [] => none
  | first :: _ =>
      let trim := if head.indent = 0 then first.indent else least
      if first.indent < least || (trim = 0 && !atRoot) then none else some trim

/-- The line breaks at the end that are kept. -/
def kept (trim : Nat) (text : List Char) (lines : List BlockLine) : List Char :=
  let all := text ++ lines.flatMap fun line => '\n' :: line.extra trim
  if all.getLast? == some '\n' then all else all ++ ['\n']

/-- The text of a block scalar in a node with the indentation `outer`. -/
def read? (outer : Nat) (head : BlockHead) (atRoot : Bool) (source : List Char) :
    Option (List Char) :=
  let lines := if source.isEmpty then [] else (splitLines source).map BlockLine.ofText
  let filled := filledCount lines
  if filled = 0 then
    if head.chomping = .keep && !lines.isEmpty then
      some (List.replicate (max 1 (lines.length - 1)) '\n')
    else some []
  else do
    let trim ← trim? outer head atRoot (lines.take filled)
    -- Empty lines at the end that are indented further than the text belong to it.
    let further := (lines.drop filled).reverse.dropWhile fun line => line.indent ≤ trim
    let count := filled + further.length
    let leading := (lines.take filled).takeWhile BlockLine.isEmpty
    let body := (lines.take count).drop leading.length
    if body.any fun line => !(dropReturn line.body).isEmpty && line.indent < trim then none
    else
      let before := leading.flatMap fun line => line.extra trim ++ ['\n']
      let text := before ++
        (if head.folded then folded trim [] false body else literal trim body)
      match head.chomping with
      | .strip => some text
      | .clip => some (text ++ ['\n'])
      | .keep => some (kept trim text (lines.drop count))

end BlockText

end Yaml
end ScriptHost
