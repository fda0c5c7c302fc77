import ScriptHost.Number.Basic

/-!
# Decimal text of numbers

Reading and writing numbers in decimal.

* `Number.ofDecimal` rounds `± digits * 10 ^ exponent` to the nearest number.
* `Number.parse?` reads a decimal literal: a sign, digits around at most one point, an exponent.
* `Number.shortest` finds the fewest digits that read back as the given number, and of those the
  ones nearest to it.
* `Number.text` lays the digits out: positionally while the point falls between `10 ^ -6` and
  `10 ^ 21`, with an exponent beyond.
-/

namespace ScriptHost

namespace Decimal

/-- The value of a decimal digit. -/
def digitValue (c : Char) : Nat := c.toNat - '0'.toNat

/-- The natural number that a row of decimal digits spells. -/
def value (digits : List Char) : Nat :=
  digits.foldl (fun n c => 10 * n + digitValue c) 0

/-- The digits of a natural number in base ten. -/
def digits (n : Nat) : List Char := Nat.toDigits 10 n

/-- An integer with a minus sign if it is negative. -/
def integerText (n : Int) : String :=
  if n < 0 then String.ofList ('-' :: digits n.natAbs)
  else String.ofList (digits n.natAbs)

/-- Splits a leading sign off; `true` stands for minus. -/
def splitSign : List Char → Bool × List Char
  | '-' :: rest => (true, rest)
  | '+' :: rest => (false, rest)
  | rest => (false, rest)

/-- The power of ten written at the end of a literal: nothing, or `e` and a signed integer. -/
def exponent? : List Char → Option Int
  | [] => some 0
  | mark :: rest =>
      let (negative, body) := splitSign rest
      if (mark = 'e' || mark = 'E') && !body.isEmpty && body.all Char.isDigit then
        some (if negative then -(value body : Int) else (value body : Int))
      else none

end Decimal

namespace Number

open Decimal

/-- The number nearest to `± coefficient * 10 ^ exponent`.  Magnitudes far outside the range of
numbers are settled without forming the power of ten. -/
def ofDecimal
    (negative : Bool)
    (coefficient : Nat)
    (exponent : Int) : Number :=
  let size : Int := (Nat.toDigits 10 coefficient).length + exponent
  if coefficient = 0 then zero negative
  else if 400 < size then infinite negative
  else if size < -400 then zero negative
  else if 0 ≤ exponent then ofMagnitude negative (coefficient * Nat.pow 10 exponent.toNat)
  else ofRatio negative coefficient (Nat.pow 10 (-exponent).toNat)

/-- Reads a decimal literal, such as `12`, `-0.5`, `1.` or `1e-7`. -/
def parse? (literal : List Char) : Option Number :=
  let (negative, unsigned) := splitSign literal
  let whole := unsigned.takeWhile Char.isDigit
  let afterWhole := unsigned.dropWhile Char.isDigit
  let (fraction, tail) :=
    match afterWhole with
    | '.' :: rest => (rest.takeWhile Char.isDigit, rest.dropWhile Char.isDigit)
    | rest => ([], rest)
  if whole.isEmpty && fraction.isEmpty then none
  else
    match exponent? tail with
    | some exponent =>
        some (ofDecimal negative (value (whole ++ fraction)) (exponent - (fraction.length : Int)))
    | none => none

/-- Reads a number by its text: a decimal literal or one of the words for what is not finite. -/
def ofText? (text : String) : Option Number :=
  if text = "NaN" then some nan
  else if text = "Infinity" then some (infinite false)
  else if text = "-Infinity" then some (infinite true)
  else parse? text.toList

/-- The ratio that a positive finite number is. -/
def magnitudeRatio
    (significand : Nat)
    (exponent : Int) : Nat × Nat :=
  if 0 ≤ exponent then (significand * Nat.pow 2 exponent.toNat, 1)
  else (significand, Nat.pow 2 (-exponent).toNat)

/-- The two multiples of `10 ^ power` between which a positive ratio lies, as coefficients, the
nearer one first; of two equally near the even one comes first. -/
def candidates
    (numerator denominator : Nat)
    (power : Int) : List Nat :=
  let (p, q) :=
    if 0 ≤ power then (numerator, denominator * Nat.pow 10 power.toNat)
    else (numerator * Nat.pow 10 (-power).toNat, denominator)
  let low := p / q
  let twice := 2 * (p % q)
  if twice < q then [low, low + 1]
  else if q < twice then [low + 1, low]
  else if low % 2 = 0 then [low, low + 1]
  else [low + 1, low]

/-- The decimal magnitude of a positive ratio: the least `n` with the ratio below `10 ^ n`. -/
def decimalMagnitude (numerator denominator : Nat) : Int :=
  let guess : Int :=
    (Nat.toDigits 10 numerator).length - (Nat.toDigits 10 denominator).length
  let (p, q) :=
    if 0 ≤ guess then (numerator, denominator * Nat.pow 10 guess.toNat)
    else (numerator * Nat.pow 10 (-guess).toNat, denominator)
  if p < q then guess else guess + 1

/-- The first candidate that reads back as the given number, counting its digits up from `count`;
at most `tries` counts are tried. -/
def shortestFrom
    (x : Number)
    (numerator denominator : Nat)
    (magnitude : Int) : Nat → Nat → Nat × Int
  | count, 0 => (numerator / denominator, magnitude - (count : Int))
  | count, tries + 1 =>
      let power := magnitude - (count : Int)
      match (candidates numerator denominator power).find?
          (fun c => ofDecimal false c power == x) with
      | some coefficient => (coefficient, power)
      | none => shortestFrom x numerator denominator magnitude (count + 1) tries

/-- The fewest decimal digits that read back as a positive finite number, as a coefficient and a
power of ten. -/
def shortest (significand : Nat) (exponent : Int) : Nat × Int :=
  let (numerator, denominator) := magnitudeRatio significand exponent
  shortestFrom (finite false significand exponent) numerator denominator
    (decimalMagnitude numerator denominator) 1 17

/-- Drops the zeros at the end of a row of digits. -/
def dropTrailingZeros (ds : List Char) : List Char :=
  (ds.reverse.dropWhile (· == '0')).reverse

/-- Lays out a row of digits whose decimal point stands `point` places after its start. -/
def layout (ds : List Char) (point : Int) : List Char :=
  let count : Int := ds.length
  if count ≤ point && point ≤ 21 then ds ++ List.replicate (point - count).toNat '0'
  else if 0 < point && point ≤ 21 then
    ds.take point.toNat ++ '.' :: ds.drop point.toNat
  else if -6 < point && point ≤ 0 then
    '0' :: '.' :: (List.replicate (-point).toNat '0' ++ ds)
  else
    let power := point - 1
    let mark := 'e' :: (if power < 0 then '-' else '+') :: digits power.natAbs
    match ds with
    | [] => mark
    | [d] => d :: mark
    | d :: rest => d :: '.' :: (rest ++ mark)

/-- The text of a positive finite number. -/
def magnitudeText (significand : Nat) (exponent : Int) : List Char :=
  let (coefficient, power) := shortest significand exponent
  let all := digits coefficient
  layout (dropTrailingZeros all) ((all.length : Int) + power)

/-- The text of a number.  Both zeros are written `0`. -/
def text (x : Number) : String :=
  match x.safeInteger? with
  | some n => integerText n
  | none =>
      match x with
      | nan => "NaN"
      | infinite negative => if negative then "-Infinity" else "Infinity"
      | finite negative significand exponent =>
          if significand = 0 then "0"
          else
            let body := magnitudeText significand exponent
            String.ofList (if negative then '-' :: body else body)

end Number

end ScriptHost
