/-!
# Lexemes of a YAML text

The smallest parts of a YAML text: marks, names, comments, scalars, and the blanks and line breaks
between them.  Apart from a scalar, a lexeme is known by how it is spelled, and `Lexeme.ofText`
gives it its kind.

* Lengths are counted in sixteen-bit units, of which a character beyond the basic plane has two.
* A carriage return belongs to a line break only before a line feed; elsewhere it is a gap between
  words that does not end the line.
-/

namespace ScriptHost
namespace Yaml

/-- Is this a blank within a line? -/
def isBlank (c : Char) : Bool := c == ' ' || c == '\t'

/-- Is this a gap between words? -/
def isGap (c : Char) : Bool := isBlank c || c == '\n' || c == '\r'

/-- Is this one of the marks that structure flow collections? -/
def isFlowMark (c : Char) : Bool :=
  c == ',' || c == '[' || c == ']' || c == '\x7b' || c == '\x7d'

/-- Does a word end before these characters? -/
def endsWord : List Char → Bool
  | [] => true
  | c :: _ => isGap c

/-- The characters up to the end of the line. -/
def line : List Char → List Char
  | [] => []
  | '\n' :: _ => []
  | '\r' :: '\n' :: _ => []
  | c :: rest => c :: line rest

/-- Drops the blanks at the end. -/
def trimRight (text : List Char) : List Char :=
  (text.reverse.dropWhile isBlank).reverse

/-- Do these characters mark the start of a document? -/
def isDocumentStart : List Char → Bool
  | '-' :: '-' :: '-' :: rest => endsWord rest
  | _ => false

/-- Do these characters mark the end of a document? -/
def isDocumentEnd : List Char → Bool
  | '.' :: '.' :: '.' :: rest => endsWord rest
  | _ => false

/-- Do these characters mark the start or the end of a document? -/
def isMarker (text : List Char) : Bool :=
  isDocumentStart text || isDocumentEnd text

/-- How many spaces the text starts with. -/
def indentOf (text : List Char) : Nat :=
  (text.takeWhile (· == ' ')).length

/-- How many sixteen-bit units a character has. -/
def unitsOf (c : Char) : Nat := if c.toNat < 0x10000 then 1 else 2

/-- How many sixteen-bit units a text has. -/
def units (text : List Char) : Nat :=
  text.foldl (fun n c => n + unitsOf c) 0

/-- The kinds of lexeme. -/
inductive LexemeKind where
  | byteOrderMark
  /-- The place where a document begins without a mark. -/
  | opening
  /-- The place where a flow collection is broken off. -/
  | rupture
  | documentStart
  | documentEnd
  | newline
  | dash
  | question
  | colon
  | mapOpen
  | mapClose
  | seqOpen
  | seqClose
  | comma
  | space
  | comment
  | directive
  | aliased
  | anchor
  | tag
  /-- A plain scalar, or the lines of a block scalar. -/
  | scalar
  | singleQuoted
  | doubleQuoted
  /-- The head of a block scalar. -/
  | blockHeader
  /-- What cannot stand by itself. -/
  | stray
  deriving DecidableEq, Repr

/-- A part of a text. -/
structure Lexeme where
  kind : LexemeKind
  text : List Char
  deriving DecidableEq, Repr

namespace Lexeme

/-- The kind of a lexeme that is told by its first character. -/
def kindOfHead : List Char → LexemeKind
  | [] => .newline
  | c :: _ =>
      if isBlank c then .space
      else ([('#', .comment), ('%', .directive), ('*', .aliased), ('&', .anchor), ('!', .tag),
        ('\'', .singleQuoted), ('"', .doubleQuoted), ('|', .blockHeader),
        ('>', .blockHeader)].lookup c).getD .stray

/-- The marks that are lexemes by themselves. -/
def marks : List (List Char × LexemeKind) :=
  [("\ufeff".toList, .byteOrderMark), ("---".toList, .documentStart), ("...".toList, .documentEnd),
    (['\n'], .newline), (['\r', '\n'], .newline), (['-'], .dash), (['?'], .question),
    ([':'], .colon), (['\x7b'], .mapOpen), (['\x7d'], .mapClose), (['['], .seqOpen),
    ([']'], .seqClose), ([','], .comma)]

/-- The lexeme that a text spells. -/
def ofText (text : List Char) : Lexeme :=
  ⟨(marks.lookup text).getD (kindOfHead text), text⟩

end Lexeme

namespace LexemeKind

/-- Can this stand between nodes without meaning anything? -/
def isFiller : LexemeKind → Bool
  | space | comment | newline => true
  | _ => false

end LexemeKind

end Yaml
end ScriptHost
