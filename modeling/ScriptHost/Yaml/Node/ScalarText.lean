import ScriptHost.Text.Quoted
import ScriptHost.Text.Utf8
import ScriptHost.Yaml.Directive
import ScriptHost.Yaml.Node.Basic

/-!
# Writing scalars

The text of a scalar inside a flow collection.  A scalar keeps the style in which it was written as
far as that still says the same; a text that would be read as something else is quoted, and one that
is too long is folded over lines.

* `numberText` writes a number in the format it was written in.
* `plainText`, `singleText` and `doubleText` write text in the three styles.
* `foldText` breaks a text into lines of about `lineWidth` units.
-/

namespace ScriptHost
namespace Yaml
namespace Scalar

/-- How long a line should be at most. -/
def lineWidth : Nat := 80

/-- How long a line may be in any case. -/
def leastWidth : Nat := 20

/-- What a scalar is written into. -/
structure Setting where
  schema : Schema
  /-- The indentation of its lines. -/
  indent : Nat
  /-- Is it a key without a mark, which has to stay on one line? -/
  isKey : Bool
  /-- How much of its first line is taken already. -/
  taken : Option Nat

/-! ## Numbers -/

/-- The magnitude of a whole number. -/
def wholeMagnitude? : Number → Option (Bool × Nat)
  | .finite negative significand exponent =>
      (Number.wholeMagnitude? significand exponent).map (negative && significand != 0, ·)
  | _ => none

/-- A number with as many digits as it takes and an exponent. -/
def exponentText : Number → List Char
  | .finite negative significand exponent =>
      if significand = 0 then "0e+0".toList
      else
        let (coefficient, power) := Number.shortest significand exponent
        let all := Decimal.digits coefficient
        let point := (all.length : Int) + power - 1
        let mark := 'e' :: (if point < 0 then '-' else '+') :: Decimal.digits point.natAbs
        (if negative then ['-'] else []) ++
          match Number.dropTrailingZeros all with
          | [] => mark
          | [d] => d :: mark
          | d :: rest => d :: '.' :: (rest ++ mark)
  | other => other.text.toList

/-- The infinities and what is not a number, as they are written. -/
def notFiniteText? : Number → Option (List Char)
  | .nan => some ".nan".toList
  | .infinite negative => some (if negative then "-.inf".toList else ".inf".toList)
  | .finite .. => none

/-- A number in decimal, with at least the given number of digits after the point unless it has an
exponent. -/
def decimalText (fractionDigits : Nat) (x : Number) : List Char :=
  let text := if x.isNegativeZero then ['-', '0'] else x.text.toList
  if fractionDigits = 0 || text.contains 'e' then text
  else
    let whole := text.takeWhile (· != '.')
    let fraction := (text.drop whole.length).drop 1
    whole ++ '.' :: (fraction ++ List.replicate (fractionDigits - fraction.length) '0')

/-- A number with at least two digits before anything else. -/
def padTwo (text : List Char) : List Char :=
  List.replicate (2 - text.length) '0' ++ text

/-- Cuts a text off at a row of six zeros before nothing but digits. -/
def cutZeros : List Char → List Char
  | [] => []
  | c :: rest =>
      if (c :: rest).take 6 = List.replicate 6 '0' && (c :: rest).all Char.isDigit then []
      else c :: cutZeros rest

/-- A number in base sixty. -/
def sexagesimalText : Number → List Char
  | .finite negative significand exponent =>
      let (numerator, denominator) := Number.magnitudeRatio significand exponent
      let whole := numerator / denominator
      let rest := numerator % denominator
      let seconds := Number.ofRatio false (whole % 60 * denominator + rest) denominator
      let minutes := whole / 60
      let parts :=
        if minutes < 60 then [Decimal.digits minutes]
        else [Decimal.digits (minutes / 60), Decimal.digits (minutes % 60)]
      let parts := (parts ++ [seconds.text.toList]).map padTwo
      cutZeros ((if negative && significand != 0 then ['-'] else []) ++
        List.intercalate [':'] parts)
  | other => other.text.toList

/-- A number in the format it was written in. -/
def numberText (schema : Schema) (plainTag : Bool) (resolution : Resolution) (x : Number) :
    List Char :=
  let inBase (base : Nat) (mark : String) : List Char :=
    match wholeMagnitude? x with
    | some (negative, n) =>
        if negative && schema = .core then decimalText 0 x
        else (if negative then ['-'] else []) ++ mark.toList ++ Nat.toDigits base n
    | none => decimalText 0 x
  match notFiniteText? x with
  | some text => text
  | none =>
      match resolution.format with
      | some .binary => inBase 2 "0b"
      | some .octal => inBase 8 (if schema = .core then "0o" else "0")
      | some .hexadecimal => inBase 16 "0x"
      | some .exponent => exponentText x
      | some .sexagesimal => sexagesimalText x
      | none => decimalText (if plainTag then resolution.fractionDigits else 0) x

/-! ## Folding -/

/-- The units of a text; the second unit of a character is nothing by itself. -/
def spread (text : List Char) : Array (Option Char) :=
  (text.flatMap fun c => if unitsOf c = 1 then [some c] else [some c, none]).toArray

/-- The characters of units. -/
def gather (units : List (Option Char)) : List Char := units.filterMap id

/-- How far folding has come. -/
structure Folding where
  position : Nat
  previous : Option Char
  /-- The last blank at which the line may be broken. -/
  split : Option Nat
  /-- Where the line is full. -/
  full : Int
  /-- Where lines are broken, last first, and whether a character is cut off by the break. -/
  folds : List (Int × Bool)
  /-- The last escape. -/
  escapeStart : Int
  escapeEnd : Int

/-- Is this a character that a line is not broken next to? -/
def isBreakBlank (c : Char) : Bool := c == ' ' || c == '\n' || c == '\t'

/-- The position of the next character after blanks that run over the end of a line. -/
def skipBlanks (text : Array (Option Char)) : Nat → Option Char → Nat → Nat
  | 0, _, position => position
  | fuel + 1, previous, position =>
      if previous == some ' ' || previous == some '\t' then
        skipBlanks text fuel (text[position]?.join) (position + 1)
      else position

/-- Finds where a text is broken into lines, in at most the given number of steps; none if that
cannot be done. -/
def findFolds (quoted : Bool) (indent step : Nat) (text : Array (Option Char)) :
    Nat → Folding → Option (List (Int × Bool))
  | 0, f => some f.folds
  | fuel + 1, f =>
      match text[f.position]? with
      | none => some f.folds
      | some unit =>
          let isEscape := quoted && unit == some '\\'
          let width :=
            match text[f.position + 1]?.join with
            | some 'x' => 3
            | some 'u' => 5
            | some 'U' => 9
            | _ => 1
          let i := if isEscape then f.position + width else f.position
          let f := if isEscape then
              { f with escapeStart := f.position, escapeEnd := i }
            else f
          if unit == some '\n' then
            findFolds quoted indent step text fuel
              { f with
                position := i + 1
                previous := unit
                full := (i + indent + step : Nat)
                split := none }
          else
            let next := text[i + 1]?
            let breakable := unit == some ' ' && f.previous.any (!isBreakBlank ·) &&
              next.any fun u => !u.any isBreakBlank
            let f := if breakable then { f with split := some i } else f
            let isSplit := f.split.any (0 < ·)
            if (i : Int) < f.full then
              findFolds quoted indent step text fuel { f with position := i + 1, previous := unit }
            else if isSplit then
              let place : Int := f.split.getD 0
              findFolds quoted indent step text fuel
                { f with
                  position := i + 1
                  previous := unit
                  folds := (place, false) :: f.folds
                  full := place + step
                  split := none }
            else if quoted then
              let blank := f.previous == some ' ' || f.previous == some '\t'
              let i := if blank then skipBlanks text text.size unit (i + 1) else i
              let place : Int := if f.escapeEnd + 1 < i then (i : Int) - 2 else f.escapeStart - 1
              if f.folds.any fun fold => fold.1 == place && fold.2 then none
              else
                findFolds quoted indent step text fuel
                  { f with
                    position := i + 1
                    previous := text[i]?.join
                    folds := (place, true) :: f.folds
                    full := place + step
                    split := none }
            else
              findFolds quoted indent step text fuel { f with position := i + 1, previous := unit }

/-- Breaks a text into lines; `quoted` allows a line to be broken anywhere by an escape. -/
def foldText (quoted : Bool) (setting : Setting) (text : List Char) : List Char :=
  let indent := setting.indent
  let step := max (1 + leastWidth) (1 + lineWidth - indent)
  let all := spread text
  if all.size ≤ step then text
  else
    let atOnce := setting.taken.any (lineWidth - leastWidth < ·)
    let full : Int :=
      match setting.taken with
      | some taken => if atOnce then (lineWidth : Int) - indent else (lineWidth : Int) - taken
      | none => (lineWidth : Int) - indent
    let start : Folding :=
      ⟨0, none, none, full, if atOnce then [(0, false)] else [], -1, -1⟩
    match findFolds quoted indent step all (all.size + 1) start with
    | none => text
    | some [] => text
    | some found =>
        let folds := found.reverse
        let margin := '\n' :: List.replicate indent ' '
        let slice (a b : Nat) : List Char := gather (all.toList.drop a |>.take (b - a))
        let stops := (folds.drop 1).map (fun fold => if fold.1 = 0 then all.size else fold.1.toNat) ++
          [all.size]
        let first := slice 0 (folds.headD (0, false)).1.toNat
        (folds.zip stops).foldl
          (fun done entry =>
            let ((place, cut), stop) := entry
            if place = 0 then margin ++ slice 0 stop
            else
              let at' := place.toNat
              let cutOff := if cut then slice at' (at' + 1) ++ ['\\'] else []
              done ++ cutOff ++ margin ++ slice (at' + 1) stop)
          first

/-! ## Text -/

/-- The escape of a character that has been written with four digits. -/
def shortEscape (a b c d : Char) : List Char :=
  let code := [a, b, c, d]
  match [("0000", "\\0"), ("0007", "\\a"), ("000b", "\\v"), ("001b", "\\e"), ("0085", "\\N"),
    ("00a0", "\\_"), ("2028", "\\L"), ("2029", "\\P")].lookup (String.ofList code) with
  | some text => text.toList
  | none => if a = '0' && b = '0' then ['\\', 'x', c, d] else '\\' :: 'u' :: code

/-- Takes further line breaks, but not one right before the closing quote; gives their number. -/
def takeBreaks : List Char → Nat × List Char
  | '\\' :: 'n' :: c :: rest =>
      if c = '"' then (0, '\\' :: 'n' :: c :: rest)
      else
        let (count, after) := takeBreaks (c :: rest)
        (count + 1, after)
  | other => (0, other)

/-- Writes a text between double quotes with shorter escapes, and with line breaks as lines of their
own if `spaced`; in at most the given number of steps. -/
def reescape (spaced : Bool) (indent : Nat) : Nat → List Char → List Char
  | 0, text => text
  | _ + 1, [] => []
  | fuel + 1, ' ' :: '\\' :: 'n' :: rest =>
      '\\' :: ' ' :: reescape spaced indent fuel ('\\' :: 'n' :: rest)
  | fuel + 1, '\\' :: 'u' :: a :: b :: c :: d :: rest =>
      shortEscape a b c d ++ reescape spaced indent fuel rest
  | fuel + 1, '\\' :: 'n' :: rest =>
      if !spaced || rest.head? == some '"' then '\\' :: 'n' :: reescape spaced indent fuel rest
      else
        let (count, after) := takeBreaks rest
        List.replicate (2 + count) '\n' ++ List.replicate indent ' ' ++
          (if after.head? == some ' ' then ['\\'] else []) ++ reescape spaced indent fuel after
  | fuel + 1, '\\' :: c :: rest => '\\' :: c :: reescape spaced indent fuel rest
  | fuel + 1, c :: rest => c :: reescape spaced indent fuel rest

/-- A text between double quotes. -/
def doubleText (setting : Setting) (text : List Char) : List Char :=
  let quoted := (Quoted.quote (String.ofList text)).toList
  let spaced := !setting.isKey && 40 ≤ units quoted
  let escaped := reescape spaced setting.indent (quoted.length + 1) quoted
  if setting.isKey then escaped else foldText true setting escaped

/-- Puts an empty line after each row of line breaks. -/
def spaceBreaks (indent : Nat) : List Char → List Char
  | [] => []
  | '\n' :: rest =>
      if rest.head? == some '\n' then '\n' :: spaceBreaks indent rest
      else '\n' :: '\n' :: (List.replicate indent ' ' ++ spaceBreaks indent rest)
  | c :: rest => c :: spaceBreaks indent rest

/-- Does a blank stand next to a line break? -/
def hasBrokenBlank : List Char → Bool
  | a :: b :: rest =>
      (isBlank a && b == '\n') || (a == '\n' && isBlank b) || hasBrokenBlank (b :: rest)
  | _ => false

/-- A text between single quotes, or double quotes where those cannot hold it. -/
def singleText (setting : Setting) (text : List Char) : List Char :=
  if (setting.isKey && text.contains '\n') || hasBrokenBlank text then doubleText setting text
  else
    let doubled := text.flatMap fun c => if c = '\'' then ['\'', '\''] else [c]
    let quoted := '\'' :: (spaceBreaks setting.indent doubled ++ ['\''])
    if setting.isKey then quoted else foldText false setting quoted

/-- A text between the quotes that need fewer escapes. -/
def quotedText (setting : Setting) (text : List Char) : List Char :=
  if text.contains '"' && !text.contains '\'' then singleText setting text
  else doubleText setting text

/-- Would a text without quotes be cut short or taken for something else by its marks? -/
def needsQuotes (text : List Char) : Bool :=
  let first := text.head?
  let last := text.getLast?
  first.any (fun c => "\n\t ,[]#&*!|>'\"%@\x60".toList.contains c || isFlowMark c) ||
    text == ['?'] || text == ['-'] ||
    ((first == some '?' || first == some '-') && (text.drop 1).head?.any isBlank) ||
    pairs text || last.any fun c => "\n\t :-".toList.contains c
where
  /-- Do two characters next to each other need quotes? -/
  pairs : List Char → Bool
    | a :: b :: rest =>
        ((a == '\n' || a == ':') && isBlank b) || (isBlank a && b == '\n') ||
          ((a == '\n' || isBlank a) && b == '#') || pairs (b :: rest)
    | _ => false

/-- A text without quotes, if it can do without. -/
def plainText (setting : Setting) (isText : Bool) (text : List Char) : List Char :=
  let spaced := spaceBreaks setting.indent text
  if (setting.isKey && text.contains '\n') || text.any isFlowMark || needsQuotes text ||
      (isText && setting.schema.takes spaced) then quotedText setting text
  else if setting.isKey then spaced
  else foldText false setting spaced

/-- Is this a control character, which only double quotes can hold? -/
def isControl (c : Char) : Bool :=
  let n := c.toNat
  n ≤ 0x08 || (0x0b ≤ n && n ≤ 0x1f) || (0x7f ≤ n && n ≤ 0x9f)

/-- A text in the given style. -/
def styledText (setting : Setting) (style : ScalarStyle) (isText : Bool) (text : List Char) :
    List Char :=
  if style = .doubleQuoted || text.any isControl then doubleText setting text
  else
    match style with
    | .singleQuoted => singleText setting text
    | .block => quotedText setting text
    | _ => plainText setting isText text

/-- The lines of a text cut at the given width. -/
def cutLines (width : Nat) : Nat → List Char → List (List Char)
  | 0, text => [text]
  | fuel + 1, text =>
      if text.length ≤ width then [text]
      else text.take width :: cutLines width fuel (text.drop width)

/-- Bytes in base sixty-four, cut into lines. -/
def bytesText (setting : Setting) (style : ScalarStyle) (content : List UInt8) : List Char :=
  let text := Base64.encode content
  let width := max (lineWidth - setting.indent) leastWidth
  let lines := cutLines width text.length text
  let joined :=
    if style = .doubleQuoted then text
    else List.intercalate (if style = .block then ['\n'] else [' ']) lines
  styledText setting style false joined

/-- The text of a scalar with the given tag. -/
def render (setting : Setting) (tag : Option String) (scalar : Scalar) : List Char :=
  match scalar.resolution.datum with
  | .null =>
      if (Rule.null.read? scalar.text).isSome then scalar.text else "null".toList
  | .bool value =>
      let own := Schema.untagged setting.schema false scalar.text
      if own.datum == .bool value then scalar.text
      else if value then "true".toList
      else "false".toList
  | .number x =>
      numberText setting.schema (tag.isNone || tag == some (standardTag "float"))
        scalar.resolution x
  | .text value =>
      if setting.schema = .legacy && value = "<<" && tag.isNone then value.toList
      else styledText setting scalar.style true value.toList
  | .bytes content => bytesText setting scalar.style content
  | .instant value => value.dateText
  | .merge => "<<".toList

/-- The text of a scalar by itself, where it is the key of an entry. -/
def nameText (scalar : Scalar) : String :=
  match scalar.resolution.datum with
  | .null => ""
  | .bool value => if value then "true" else "false"
  | .number x => x.text
  | .text value => value
  | .bytes content => Utf8.decode content
  | .instant value => value.longText
  | .merge => "Symbol(<<)"

end Scalar
end Yaml
end ScriptHost
