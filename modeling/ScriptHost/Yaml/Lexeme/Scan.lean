import ScriptHost.Yaml.Lexeme.Basic

/-!
# Cutting a text into lexemes

`scan` cuts a YAML text into lexemes from left to right.  Between two lexemes it keeps only a mode,
the depth of flow collections, and the two columns that decide in which lines a scalar goes on.

* Outside of documents whole lines are read: directives, comments and empty lines.
* Inside a document a line starts with its indentation and its marks, and then holds nodes.
* Inside a flow collection line breaks are gaps like any other.
* A scalar goes on in the next line while `continues` allows it.
-/

namespace ScriptHost
namespace Yaml

/-- Where in the structure of a text scanning stands. -/
inductive Mode where
  /-- Before or between documents. -/
  | stream
  | document
  | flow
  deriving DecidableEq, Repr

/-- May a scalar go on in the line that starts here?  The line is empty, or it is indented by at
least `least` spaces; where none are needed it must not mark the start or end of a document. -/
def continues (least : Nat) (text : List Char) : Bool :=
  if least = 0 then !isMarker text
  else
    match text.dropWhile (· == ' ') with
    | '\n' :: _ => true
    | '\r' :: '\n' :: _ => true
    | _ => least ≤ indentOf text

/-- Is there nothing left in the line but blanks and a comment? -/
def atLineEnd (text : List Char) : Bool :=
  match text.dropWhile isBlank with
  | [] => true
  | '#' :: _ => true
  | '\n' :: _ => true
  | '\r' :: '\n' :: _ => true
  | _ => false

/-- The part of a line before a comment that is set off by a blank. -/
def beforeComment : List Char → List Char
  | [] => []
  | c :: rest => if isBlank c && rest.head? == some '#' then [] else c :: beforeComment rest

/-- The rest of a single quoted scalar through its closing quote, if it has one. -/
def singleSpan? : List Char → Option (List Char)
  | [] => none
  | '\'' :: '\'' :: rest => (singleSpan? rest).map fun text => '\'' :: '\'' :: text
  | '\'' :: _ => some ['\'']
  | c :: rest => (singleSpan? rest).map (c :: ·)

/-- The rest of a double quoted scalar through its closing quote, if it has one. -/
def doubleSpan? : List Char → Option (List Char)
  | [] => none
  | '\\' :: c :: rest => (doubleSpan? rest).map fun text => '\\' :: c :: text
  | '"' :: _ => some ['"']
  | c :: rest => (doubleSpan? rest).map (c :: ·)

/-- At most the given number of characters, up to the end of the last line in which a scalar goes
on. -/
def heldSpan (least : Nat) : Nat → List Char → List Char
  | 0, _ => []
  | _ + 1, [] => []
  | count + 1, '\n' :: rest =>
      if continues least rest then '\n' :: heldSpan least count rest else []
  | count + 1, '\r' :: '\n' :: rest =>
      if continues least rest then '\r' :: heldSpan least count ('\n' :: rest) else []
  | count + 1, c :: rest => c :: heldSpan least count rest

/-- The text of a quoted scalar with its quotes.  One that is never closed takes all the rest. -/
def quotedSpan (least : Nat) (text : List Char) : List Char :=
  let closed? :=
    match text with
    | '\'' :: rest => (singleSpan? rest).map ('\'' :: ·)
    | c :: rest => (doubleSpan? rest).map (c :: ·)
    | [] => none
  match closed? with
  | none => text
  | some span => heldSpan least span.length text

/-- Does a plain scalar end before a gap that these characters follow? -/
def endsAfterGap (flow : Bool) (rest : List Char) : Bool :=
  rest.head? == some '#' || (flow && rest.head?.any isFlowMark)

/-- The characters of a plain scalar; `gap` holds, last first, the gaps after what was taken, which
count only if the scalar goes on after them. -/
def plainSpan (flow : Bool) (least : Nat) : List Char → List Char → List Char
  | _, [] => []
  | gap, '\r' :: '\n' :: rest =>
      if endsAfterGap flow rest || !continues least rest then []
      else plainSpan flow least ('\n' :: '\r' :: gap) rest
  | gap, c :: rest =>
      if c = ':' then
        if endsWord rest || (flow && rest.head?.any isFlowMark) then []
        else gap.reverse ++ ':' :: plainSpan flow least [] rest
      else if c = '\r' then
        gap.reverse ++ '\r' ::
          (if endsAfterGap flow rest then [] else plainSpan flow least [] rest)
      else if isGap c then
        if endsAfterGap flow rest || (c == '\n' && !continues least rest) then []
        else plainSpan flow least (c :: gap) rest
      else if flow && isFlowMark c then []
      else gap.reverse ++ c :: plainSpan flow least [] rest

/-- The lines of a text, each with its end. -/
def segments : List Char → List (List Char)
  | [] => []
  | '\n' :: rest => ['\n'] :: segments rest
  | c :: rest =>
      match segments rest with
      | [] => [[c]]
      | first :: others => (c :: first) :: others

/-- Does a line with its end hold nothing but spaces? -/
def isEmptySegment (segment : List Char) : Bool :=
  match segment.dropWhile (· == ' ') with
  | ['\n'] => true
  | ['\r', '\n'] => true
  | _ => false

/-- The lines from the start in which a block scalar goes on. -/
def heldSegments (least : Nat) : List (List Char) → List (List Char)
  | [] => []
  | segment :: rest =>
      if continues least segment then segment :: heldSegments least rest else []

/-- May this line be left off at the end of a block scalar whose text is indented by `indent`? -/
def isDroppable (indent : Nat) (segment : List Char) : Bool :=
  let body := segment.reverse
  let body := if body.head? == some '\n' then body.tail else body
  let body := if body.head? == some '\r' then body.tail else body
  body.all (· == ' ') && body.length ≤ indent

/-- Leaves off lines at the end, last line first, but never the very first line. -/
def dropSegments (indent : Nat) : List (List Char) → List (List Char)
  | [] => []
  | [segment] => [segment]
  | segment :: rest =>
      if isDroppable indent segment then dropSegments indent rest else segment :: rest

/-- How the head of a block scalar asks for its lines to be taken. -/
structure BlockRequest where
  /-- The indentation that is asked for beyond that of the surrounding node. -/
  indent : Option Nat
  /-- Are empty lines at the end kept? -/
  keep : Bool

/-- What the head of a block scalar asks for. -/
def blockRequest (request : BlockRequest) : List Char → BlockRequest
  | '+' :: rest => blockRequest { request with keep := true } rest
  | '-' :: rest => blockRequest request rest
  | c :: rest =>
      if '1' ≤ c && c ≤ '9' then
        blockRequest { request with indent := some (c.toNat - '1'.toNat) } rest
      else request
  | [] => request

/-- The lines of a block scalar, and the least indentation of its lines. -/
def blockSpan (least : Nat) (request : BlockRequest) (text : List Char) : List Char × Nat :=
  let all := segments text
  let leading := all.takeWhile isEmptySegment
  let below := all.dropWhile isEmptySegment
  let indent := indentOf (below.headD [])
  let entered := least ≤ indent
  let inner :=
    if !entered then least
    else
      match request.indent with
      | none => indent
      | some extra => extra + (if least = 0 then 1 else least)
  let taken := leading ++ (if entered then heldSegments inner below else [])
  let after := text.drop taken.flatten.length
  let span :=
    if (after.dropWhile (· == ' ')).head? == some '\t' then
      taken.flatten ++ after.takeWhile isGap
    else if request.keep then taken.flatten
    else (dropSegments indent taken.reverse).reverse.flatten
  (span, inner)

/-- Where scanning stands. -/
structure Cursor where
  rest : List Char
  /-- The least indentation of the lines in which a scalar goes on. -/
  least : Nat
  /-- The column in which the node at hand starts. -/
  column : Nat
  /-- Has a node just ended that may be the key of a flow collection? -/
  afterKey : Bool
  /-- How many flow collections are open. -/
  level : Nat
  /-- The lexemes so far, last first. -/
  found : List Lexeme

namespace Cursor

/-- The start of a text. -/
def start (text : List Char) : Cursor := ⟨text, 0, 0, false, 0, []⟩

/-- Notes a lexeme that takes no characters. -/
def note (kind : LexemeKind) (c : Cursor) : Cursor :=
  { c with found := ⟨kind, []⟩ :: c.found }

/-- Takes characters as a lexeme; no characters are no lexeme. -/
def take (count : Nat) (c : Cursor) : Cursor :=
  if count = 0 then c
  else { c with rest := c.rest.drop count, found := .ofText (c.rest.take count) :: c.found }

/-- Takes characters while they satisfy a condition. -/
def takeWhile (p : Char → Bool) (c : Cursor) : Cursor :=
  c.take (c.rest.takeWhile p).length

/-- Takes a scalar, which may be empty. -/
def takeScalar (text : List Char) (c : Cursor) : Cursor :=
  { c with rest := c.rest.drop text.length, found := ⟨.scalar, text⟩ :: c.found }

/-- Takes blanks. -/
def takeBlanks (c : Cursor) : Cursor := c.takeWhile isBlank

/-- Takes what is left of the line. -/
def takeLine (c : Cursor) : Cursor := c.take (line c.rest).length

/-- Takes a line break. -/
def takeBreak (c : Cursor) : Cursor :=
  match c.rest with
  | '\n' :: _ => c.take 1
  | '\r' :: '\n' :: _ => c.take 2
  | _ => c

/-- Takes the name of an anchor or an alias with its mark. -/
def takeName (c : Cursor) : Cursor :=
  c.takeWhile fun ch => !(isGap ch || isFlowMark ch)

/-- Can this character be written in a tag as it is? -/
def isTagChar (c : Char) : Bool :=
  c.isAlphanum || "-#;/?:@&=+$_.!~*'()".toList.contains c

/-- How many characters the rest of a tag has; an escaped byte has three. -/
def tagLength : List Char → Nat
  | [] => 0
  | '%' :: a :: b :: rest =>
      if isHex a && isHex b then 3 + tagLength rest else 0
  | c :: rest => if isTagChar c then 1 + tagLength rest else 0
where
  /-- Is this a hexadecimal digit? -/
  isHex (c : Char) : Bool := c.isDigit || ('a' ≤ c && c ≤ 'f') || ('A' ≤ c && c ≤ 'F')

/-- Takes a tag. -/
def takeTag (c : Cursor) : Cursor :=
  match c.rest with
  | _ :: '<' :: rest =>
      let body := rest.takeWhile fun ch => !isGap ch && ch != '>'
      let closed := (rest.drop body.length).head? == some '>'
      c.take (2 + body.length + if closed then 1 else 0)
  | _ :: rest => c.take (1 + tagLength rest)
  | [] => c

/-- Takes the tags, anchors and marks before a node; at most the given number. -/
def takeProperties : Nat → Cursor → Cursor
  | 0, c => c
  | count + 1, c =>
      match c.rest with
      | [] => c
      | ch :: rest =>
          if ch = '!' then takeProperties count c.takeTag.takeBlanks
          else if ch = '&' then takeProperties count c.takeName.takeBlanks
          else if (ch == '-' || ch == '?' || ch == ':') &&
              (endsWord rest || (0 < c.level && rest.head?.any isFlowMark)) then
            let c :=
              if c.level = 0 then { c with least := c.column + 1 }
              else { c with afterKey := false }
            takeProperties count (c.take 1).takeBlanks
          else c

/-- The mode in which nodes are read at the depth of the cursor. -/
def nodeMode (c : Cursor) : Mode :=
  if c.level = 0 then .document else .flow

/-- Takes a quoted scalar. -/
def takeQuoted (c : Cursor) : Mode × Cursor :=
  (c.nodeMode, c.take (quotedSpan c.least c.rest).length)

/-- Takes a plain scalar. -/
def takePlain (c : Cursor) : Mode × Cursor :=
  (c.nodeMode, c.takeScalar (plainSpan (0 < c.level) c.least [] c.rest))

/-- Takes the marks at the start of a line, each of which moves the column; at most the given
number. -/
def blockStart : Nat → Cursor → Cursor
  | 0, c => c
  | count + 1, c =>
      match c.rest with
      | [] => c
      | ch :: rest =>
          if (ch == '-' || ch == '?' || ch == ':') && endsWord rest then
            let width := 1 + (rest.takeWhile isBlank).length
            let c := (c.take 1).takeBlanks
            blockStart count { c with least := c.column + 1, column := c.column + width }
          else c

/-- Takes the start of a line: a mark of the document, or its indentation and marks. -/
def lineStart (c : Cursor) : Mode × Cursor :=
  if isDocumentStart c.rest then (.document, { c.take 3 with least := 0, column := 0 })
  else if isDocumentEnd c.rest then (.stream, { c.take 3 with least := 0, column := 0 })
  else
    let column := indentOf c.rest
    let c := { c.take column with column := column }
    let c := if column < c.least && !endsWord (c.rest.drop 1) then { c with least := column } else c
    (.document, blockStart c.rest.length c)

/-- Takes a line outside of documents, or opens a document. -/
def stream (c : Cursor) : Mode × Cursor :=
  let c := if c.rest.head? == some '\ufeff' then c.take 1 else c
  if c.rest.head? == some '%' then
    (.stream, (c.take (trimRight (beforeComment (line c.rest))).length).takeBlanks.takeLine)
  else if atLineEnd c.rest then (.stream, c.takeBlanks.takeLine.takeBreak)
  else (c.note .opening).lineStart

/-- Takes the next node of a block, or the end of the line. -/
def document (c : Cursor) : Mode × Cursor :=
  let c := takeProperties c.rest.length c.takeBlanks
  match line c.rest with
  | [] => c.takeBreak.lineStart
  | ch :: more =>
      match (Lexeme.ofText [ch]).kind with
      | .comment => c.takeLine.takeBreak.lineStart
      | .mapOpen | .seqOpen => (.flow, { c.take 1 with afterKey := false, level := 1 })
      | .mapClose | .seqClose => (.document, c.take 1)
      | .aliased => (.document, c.takeName)
      | .singleQuoted | .doubleQuoted => c.takeQuoted
      | .blockHeader =>
          let request := blockRequest ⟨none, false⟩ more
          let c := c.takeWhile fun ch => !isGap ch && ch != '#'
          let c := c.takeBlanks.takeLine.takeBreak
          let (span, least) := blockSpan c.least request c.rest
          ({ c with least := least }.takeScalar span).lineStart
      | _ => c.takePlain

/-- Takes the gaps inside a flow collection, at most the given number of lines; gives the
indentation of the line that it comes to, if that is a new one. -/
def takeGaps : Nat → Option Nat → Cursor → Option Nat × Cursor
  | 0, indent, c => (indent, c)
  | count + 1, indent, c =>
      let broken := c.takeBreak
      if broken.rest.length < c.rest.length then
        let width := indentOf broken.rest
        takeGaps count (some width) ({ broken.take width with column := width }.takeBlanks)
      else if c.rest.head?.any isBlank then takeGaps count indent c.takeBlanks
      else (indent, c)

/-- Takes commas, at most the given number. -/
def takeCommas : Nat → Cursor → Cursor
  | 0, c => c
  | count + 1, c =>
      if c.rest.head? == some ',' then
        takeCommas count { (c.take 1).takeBlanks with afterKey := false }
      else c

/-- Takes the next part of a flow collection.  A line with too little indentation breaks the
collection off, unless it closes it right at the edge. -/
def flow (c : Cursor) : Mode × Cursor :=
  let (indent, c) := takeGaps (c.rest.length + 1) none c
  let here := line c.rest
  let outside :=
    match indent with
    | none => false
    | some width => (width < c.least && here.head? != some '#') || (width == 0 && isMarker here)
  let closing := indent.any (· + 1 == c.least) && c.level == 1 &&
    (here.head? == some ']' || here.head? == some '\x7d')
  if outside && !closing then ({ c with level := 0 }.note .rupture).lineStart
  else
    let c := takeProperties c.rest.length (takeCommas c.rest.length c)
    match line c.rest with
    | [] => (.flow, c)
    | ch :: more =>
        match (Lexeme.ofText [ch]).kind with
        | .comment => (.flow, c.takeLine)
        | .mapOpen | .seqOpen => (.flow, { c.take 1 with afterKey := false, level := c.level + 1 })
        | .mapClose | .seqClose =>
            let c := { c.take 1 with afterKey := true, level := c.level - 1 }
            (c.nodeMode, c)
        | .aliased => (.flow, c.takeName)
        | .singleQuoted | .doubleQuoted => { c with afterKey := true }.takeQuoted
        | .colon =>
            let valueFollows := c.afterKey || endsWord (c.rest.drop 1) || more.head? == some ','
            let c := { c with afterKey := false }
            if valueFollows then (.flow, (c.take 1).takeBlanks) else c.takePlain
        | _ => { c with afterKey := false }.takePlain

/-- Takes the next lexemes. -/
def next : Mode → Cursor → Mode × Cursor
  | .stream => stream
  | .document => document
  | .flow => flow

/-- Takes lexemes until the text is used up, in at most the given number of rounds. -/
def run : Nat → Mode → Cursor → List Lexeme
  | 0, _, c => c.found.reverse
  | rounds + 1, mode, c =>
      if c.rest.isEmpty then c.found.reverse
      else
        let (mode, c) := next mode c
        run rounds mode c

end Cursor

/-- The lexemes of a text.  A round that takes nothing is followed by one that does, so that twice
the length of the text is enough. -/
def scan (text : List Char) : List Lexeme :=
  Cursor.run (2 * text.length + 2) .stream (.start text)

end Yaml
end ScriptHost
