import ScriptHost.Fault

/-!
# Tokens

The words of the line language.  Blanks and comments stand between tokens and leave no trace; a
newline or a semicolon is a token, since it ends a statement.

* `Token.scan` reads the tokens of a text from left to right; a number or a name extends as far as
  it can.
-/

namespace ScriptHost
namespace Language

/-- The kinds of token. -/
inductive TokenKind where
  | number
  | string
  | name
  | punctuation
  /-- The end of a statement. -/
  | terminator
  deriving DecidableEq, Repr

/-- A token; the text of a string stands without its quotes. -/
structure Token where
  kind : TokenKind
  text : String
  deriving DecidableEq, Repr

namespace Token

/-- The marks that are tokens by themselves. -/
def marks : List Char := "()[]\x7b\x7d,:=".toList

/-- Does this character end a statement? -/
def isTerminator (c : Char) : Bool := c == '\n' || c == ';'

/-- Is this a blank between tokens? -/
def isBlank (c : Char) : Bool := c == ' ' || c == '\t' || c == '\r'

/-- Can this character continue a number? -/
def isNumberChar (c : Char) : Bool := c.isDigit || c == '.'

/-- Can this character start a name? -/
def isNameStart (c : Char) : Bool := c.isAlpha || c == '_'

/-- Can this character continue a name? -/
def isNameChar (c : Char) : Bool := c.isAlphanum || c == '_'

/-- Does a number start with this character before these others? -/
def startsNumber (c : Char) (rest : List Char) : Bool :=
  c.isDigit || (c == '-' && rest.head?.any Char.isDigit)

/-- Is this the punctuation mark of the given text? -/
def isMark (token : Token) (text : String) : Bool :=
  token.kind = .punctuation && token.text == text

/-- Puts a token before those that follow. -/
def before
    (kind : TokenKind)
    (text : List Char)
    (others : Except SourceFault (List Token)) : Except SourceFault (List Token) :=
  match others with
  | .ok tokens => .ok (⟨kind, String.ofList text⟩ :: tokens)
  | .error fault => .error fault

theorem length_dropWhile_le (p : Char → Bool) (cs : List Char) :
    (cs.dropWhile p).length ≤ cs.length :=
  (List.dropWhile_sublist p).length_le

/-- The tokens of a text. -/
def scan : List Char → Except SourceFault (List Token)
  | [] => .ok []
  | c :: rest =>
      if isTerminator c then before .terminator [c] (scan rest)
      else if isBlank c then scan rest
      else if c = '#' then scan (rest.dropWhile (· != '\n'))
      else if startsNumber c rest then
        before .number (c :: rest.takeWhile isNumberChar) (scan (rest.dropWhile isNumberChar))
      else if c = '"' then
        if rest.contains '"' then
          before .string (rest.takeWhile (· != '"')) (scan (rest.dropWhile (· != '"')).tail)
        else .error .unterminatedString
      else if isNameStart c then
        before .name (c :: rest.takeWhile isNameChar) (scan (rest.dropWhile isNameChar))
      else if marks.contains c then before .punctuation [c] (scan rest)
      else .error (.unexpectedUnit (Utf16.leadingUnit c))
termination_by cs => cs.length
decreasing_by
  all_goals simp only [List.length_cons]
  · omega
  · omega
  · have := length_dropWhile_le (· != '\n') rest; omega
  · have := length_dropWhile_le isNumberChar rest; omega
  · have := length_dropWhile_le (· != '"') rest
    rw [List.length_tail]
    omega
  · have := length_dropWhile_le isNameChar rest; omega
  · omega

end Token

/-- The tokens of a source. -/
def tokenize (source : String) : Except SourceFault (List Token) :=
  Token.scan source.toList

end Language
end ScriptHost
