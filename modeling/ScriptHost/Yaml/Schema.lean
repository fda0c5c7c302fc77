import ScriptHost.Text.Base64
import ScriptHost.Text.Hex
import ScriptHost.Yaml.Instant
import ScriptHost.Yaml.Scalar

/-!
# Schemas

What a scalar means.  A schema is a list of rules; a rule belongs to a tag and says which texts it
reads and as what.  A plain scalar without a tag is read by the first rule that takes its text, a
scalar with a tag by the first rule of that tag; a scalar that no rule takes is text.

* The core schema knows null, truth values and numbers.
* The schema of version 1.1 has more spellings of these, instants, and the merge key.
-/

namespace ScriptHost
namespace Yaml

/-- The content of a scalar. -/
inductive Datum where
  | null
  | bool (value : Bool)
  | number (value : Number)
  | text (value : String)
  | bytes (content : List UInt8)
  | instant (value : Instant)
  /-- The key under which a mapping takes over the entries of others. -/
  | merge
  deriving DecidableEq, Repr

namespace Datum

/-- Are two contents the same as keys?  Contents that are objects never are. -/
def same : Datum → Datum → Bool
  | null, null => true
  | bool a, bool b => a == b
  | number a, number b => a.equals b
  | text a, text b => a == b
  | _, _ => false

end Datum

/-- The spelling of a number, where it is not plain decimal. -/
inductive NumberFormat where
  | binary
  | octal
  | hexadecimal
  | exponent
  /-- In base sixty, with colons. -/
  | sexagesimal
  deriving DecidableEq, Repr

/-- What a rule makes of a text. -/
structure Resolution where
  datum : Datum
  format : Option NumberFormat
  /-- How many digits after the point were written, if the last of them is zero. -/
  fractionDigits : Nat
  deriving DecidableEq, Repr

namespace Resolution

/-- A content with nothing to be said of its spelling. -/
def plain (datum : Datum) : Resolution := ⟨datum, none, 0⟩

/-- A number in some spelling. -/
def formatted (format : NumberFormat) (value : Number) : Resolution :=
  ⟨.number value, some format, 0⟩

end Resolution

/-- What the names of the standard tags start with. -/
def standard : String := "tag:yaml.org,2002:"

/-- The full name of a standard tag. -/
def standardTag (name : String) : String := standard ++ name

/-- A rule of a schema. -/
structure Rule where
  tag : String
  /-- Does the rule count only for keys, unless its tag is given? -/
  keyOnly : Bool
  read? : List Char → Option Resolution

namespace Rule

/-- A rule that knows its texts one by one. -/
def ofWords (tag : String) (words : List (String × Datum)) : Rule where
  tag := standardTag tag
  keyOnly := false
  read? text := (words.lookup (String.ofList text)).map .plain

/-- A rule for numbers. -/
def ofNumber (tag : String) (read? : List Char → Option Resolution) : Rule :=
  ⟨standardTag tag, false, read?⟩

/-- Null in its spellings, of which one is no text at all. -/
def null : Rule :=
  ofWords "null" (["", "~", "null", "Null", "NULL"].map fun word => (word, .null))

/-- The texts of a truth value. -/
def truth (value : Bool) (words : List String) : Rule :=
  ofWords "bool" (words.map fun word => (word, .bool value))

/-- The infinities and what is not a number. -/
def notFinite : Rule :=
  ofWords "float" (
    ([".nan", ".NaN", ".NAN"].map fun word => (word, Datum.number .nan)) ++
    ([".inf", ".Inf", ".INF"].flatMap fun word =>
      [(word, Datum.number (.infinite false)), ("+" ++ word, .number (.infinite false)),
        ("-" ++ word, .number (.infinite true))]))

/-- The value of digits in a base. -/
def valueIn (base : Nat) (digits : List Char) : Nat :=
  digits.foldl (fun n c => base * n + (Hex.digitValue? c).getD 0) 0

/-- Is this a digit of the base? -/
def isDigitOf (base : Nat) (c : Char) : Bool :=
  (Hex.digitValue? c).any (· < base)

/-- Whole numbers in a base, behind a mark. -/
def inBase (base : Nat) (mark : Char) (format : NumberFormat) : Rule :=
  ofNumber "int" fun
    | '0' :: c :: digits =>
        if c = mark && !digits.isEmpty && digits.all (isDigitOf base) then
          some (.formatted format (Number.ofNat (valueIn base digits)))
        else none
    | _ => none

/-- Whole numbers in decimal. -/
def decimal : Rule :=
  ofNumber "int" fun text =>
    let (negative, digits) := Decimal.splitSign text
    if !digits.isEmpty && digits.all Char.isDigit then
      some (.plain (.number (Number.ofDecimal negative (Decimal.value digits) 0)))
    else none

/-- How many digits after the point count, given those written: all if the last is zero. -/
def fractionDigits (fraction : List Char) : Nat :=
  if fraction.getLast? == some '0' then fraction.length else 0

/-- Numbers with an exponent. -/
def exponent : Rule :=
  ofNumber "float" fun text =>
    if text.any fun c => c == 'e' || c == 'E' then
      (Number.parse? text).map (Resolution.formatted .exponent)
    else none

/-- Numbers with a point. -/
def float : Rule :=
  ofNumber "float" fun text =>
    let (_, unsigned) := Decimal.splitSign text
    match unsigned.dropWhile Char.isDigit with
    | '.' :: fraction =>
        if fraction.all Char.isDigit then
          (Number.parse? text).map fun x => ⟨.number x, none, fractionDigits fraction⟩
        else none
    | _ => none

/-- Drops the underscores, which may stand between digits. -/
def dropUnderscores (text : List Char) : List Char := text.filter (· != '_')

/-- Is this a digit or an underscore? -/
def isDigitOrLine (c : Char) : Bool := c.isDigit || c == '_'

/-- A whole number from a sign and digits in a base; without digits it is not a number. -/
def signedIn (base : Nat) (negative : Bool) (digits : List Char) : Number :=
  let digits := dropUnderscores digits
  if digits.isEmpty then .nan else Number.ofMagnitude negative (valueIn base digits)

/-- Signed whole numbers in a base, behind a mark, with underscores. -/
def signedInBase (base : Nat) (mark : List Char) (format : NumberFormat) : Rule :=
  ofNumber "int" fun text =>
    let (negative, unsigned) := Decimal.splitSign text
    let digits := unsigned.drop mark.length
    if mark.isPrefixOf unsigned && !digits.isEmpty &&
        digits.all (fun c => isDigitOf base c || c == '_') then
      some (.formatted format (signedIn base negative digits))
    else none

/-- Whole numbers in decimal, with underscores. -/
def underscored : Rule :=
  ofNumber "int" fun text =>
    let (negative, digits) := Decimal.splitSign text
    if digits.head?.any Char.isDigit && digits.all isDigitOrLine then
      some (.plain (.number (signedIn 10 negative digits)))
    else none

/-- The rest of a text after a whole part that may be missing. -/
def afterWhole (unsigned : List Char) : List Char :=
  if unsigned.head?.any Char.isDigit then unsigned.dropWhile isDigitOrLine else unsigned

/-- A number with underscores; what spells none is not a number. -/
def looseNumber (text : List Char) : Number :=
  (Number.parse? (dropUnderscores text)).getD .nan

/-- Numbers with an exponent, with underscores. -/
def underscoredExponent : Rule :=
  ofNumber "float" fun text =>
    let (_, unsigned) := Decimal.splitSign text
    let rest := afterWhole unsigned
    let rest := match rest with
      | '.' :: more => more.dropWhile isDigitOrLine
      | other => other
    if !rest.isEmpty && (Decimal.exponent? rest).isSome then
      some (.formatted .exponent (looseNumber text))
    else none

/-- Numbers with a point, with underscores. -/
def underscoredFloat : Rule :=
  ofNumber "float" fun text =>
    let (_, unsigned) := Decimal.splitSign text
    match afterWhole unsigned with
    | '.' :: fraction =>
        if fraction.all isDigitOrLine then
          some ⟨.number (looseNumber text), none, fractionDigits (dropUnderscores fraction)⟩
        else none
    | _ => none

/-- The parts of a text between its colons. -/
def splitColons : List Char → List (List Char)
  | [] => [[]]
  | ':' :: rest => [] :: splitColons rest
  | c :: rest =>
      match splitColons rest with
      | first :: others => (c :: first) :: others
      | [] => [[c]]

/-- Is this a part of a number in base sixty after the first? -/
def isSixtieth : List Char → Bool
  | [a] => a.isDigit
  | [a, b] => '0' ≤ a && a ≤ '5' && b.isDigit
  | _ => false

/-- The number that parts in base sixty spell; the last may have a fraction. -/
def sixtieths (negative : Bool) (parts : List (List Char)) : Number :=
  let parts := parts.map dropUnderscores
  let whole := parts.dropLast.foldl (fun n part => 60 * n + Decimal.value part) 0
  let last := (Number.parse? (parts.getLastD [])).getD .nan
  match Number.add (Number.ofNat (60 * whole)) last with
  | .finite sign significand power => .finite (sign != negative) significand power
  | .infinite sign => .infinite (sign != negative)
  | .nan => .nan

/-- Numbers in base sixty; `fraction` says whether a point is written. -/
def sexagesimal (tag : String) (fraction : Bool) : Rule :=
  ofNumber tag fun text =>
    let (negative, unsigned) := Decimal.splitSign text
    let parts := splitColons unsigned
    match parts with
    | first :: second :: others =>
        let rest := second :: others
        let last := rest.getLastD []
        let wholeLast := last.takeWhile (· != '.')
        let tail := last.drop wholeLast.length
        let tailFits :=
          if fraction then tail.head? == some '.' && tail.tail.all isDigitOrLine
          else tail.isEmpty
        if first.head?.any Char.isDigit && first.all isDigitOrLine &&
            rest.dropLast.all isSixtieth && isSixtieth wholeLast && tailFits then
          some (.formatted .sexagesimal (sixtieths negative parts))
        else none
    | _ => none

/-- Instants. -/
def timestamp : Rule :=
  ⟨standardTag "timestamp", false, fun text => (Instant.parse? text).map fun i => .plain (.instant i)⟩

/-- The merge key. -/
def mergeKey : Rule :=
  ⟨standardTag "merge", true, fun text => if text = ['<', '<'] then some (.plain .merge) else none⟩

end Rule

/-- A schema. -/
inductive Schema where
  | core
  /-- The schema of version 1.1. -/
  | legacy
  deriving DecidableEq, Repr

namespace Schema

/-- The rules of a schema in order. -/
def rules : Schema → List Rule
  | core =>
      [.null, .truth true ["true", "True", "TRUE"], .truth false ["false", "False", "FALSE"],
        .inBase 8 'o' .octal, .decimal, .inBase 16 'x' .hexadecimal, .notFinite, .exponent, .float]
  | legacy =>
      [.null,
        .truth true ["Y", "y", "Yes", "yes", "YES", "True", "true", "TRUE", "On", "on", "ON"],
        .truth false ["N", "n", "No", "no", "NO", "False", "false", "FALSE", "Off", "off", "OFF"],
        .signedInBase 2 ['0', 'b'] .binary, .signedInBase 8 ['0'] .octal, .underscored,
        .signedInBase 16 ['0', 'x'] .hexadecimal, .notFinite, .underscoredExponent,
        .underscoredFloat, .mergeKey, .sexagesimal "int" false, .sexagesimal "float" true,
        .timestamp]

/-- A scalar that is text. -/
def asText (text : List Char) : Resolution := .plain (.text (String.ofList text))

/-- What a plain scalar without a tag means. -/
def untagged (schema : Schema) (isKey : Bool) (text : List Char) : Resolution :=
  (schema.rules.findSome? fun rule =>
    if rule.keyOnly && !isKey then none else rule.read? text).getD (asText text)

/-- Is there a rule that takes this text, so that it would not be read as text? -/
def takes (schema : Schema) (text : List Char) : Bool :=
  schema.rules.any fun rule => (rule.read? text).isSome

/-- What a scalar with a tag means; the core schema refuses an instant that is none. -/
def tagged? (schema : Schema) (tag : String) (text : List Char) : Option Resolution :=
  if tag = standardTag "binary" then some (.plain (.bytes (Base64.decode text)))
  else if schema = .core && tag = standardTag "merge" then some (.plain .merge)
  else if schema = .core && tag = standardTag "timestamp" then Rule.timestamp.read? text
  else
    some ((schema.rules.findSome? fun rule =>
      if rule.tag = tag then rule.read? text else none).getD (asText text))

end Schema

end Yaml
end ScriptHost
