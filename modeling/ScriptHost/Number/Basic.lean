/-!
# Numbers

The numbers that scripts and hosts exchange are double-precision floating-point numbers.  They are
kept here in exact form, as a sign, a whole significand and a power of two, so that every operation
is ordinary arithmetic on whole numbers.

* A finite number stands for `± significand * 2 ^ exponent`.  In normal form the significand has at
  most `53` binary digits, and the exponent is as small as that allows but never below `-1074`.
* `ofRatio` rounds a positive ratio to the nearest number, a tie going to the even significand.
* `ofNat` is exact below `2 ^ 53`, and `safeInteger?` reads such a number back.
-/

namespace ScriptHost

/-- A double-precision number. -/
inductive Number where
  /-- The result of an operation that has none. -/
  | nan
  /-- A magnitude beyond every finite number. -/
  | infinite (negative : Bool)
  /-- The number `± significand * 2 ^ exponent`. -/
  | finite (negative : Bool) (significand : Nat) (exponent : Int)
  deriving DecidableEq, Repr, Inhabited

namespace Number

/-- The least exponent of a finite number. -/
def minExponent : Int := -1074

/-- The greatest exponent of a finite number. -/
def maxExponent : Int := 971

/-- Significands stay below this bound. -/
def significandBound : Nat := Nat.pow 2 53

/-- Zero with the given sign. -/
def zero (negative : Bool) : Number := finite negative 0 minExponent

/-- A finite number, or the infinity it overflows to. -/
def bounded
    (negative : Bool)
    (significand : Nat)
    (exponent : Int) : Number :=
  if maxExponent < exponent then infinite negative
  else finite negative significand exponent

/-- The whole number nearest to a ratio; a tie goes to the even neighbour. -/
def roundDiv (numerator denominator : Nat) : Nat :=
  let quotient := numerator / denominator
  let twice := 2 * (numerator % denominator)
  if twice < denominator then quotient
  else if denominator < twice then quotient + 1
  else quotient + quotient % 2

/-- The ratio `numerator / denominator` divided by `2 ^ exponent`, again as a ratio. -/
def scaled
    (numerator denominator : Nat)
    (exponent : Int) : Nat × Nat :=
  if 0 ≤ exponent then (numerator, denominator * Nat.pow 2 exponent.toNat)
  else (numerator * Nat.pow 2 (-exponent).toNat, denominator)

/-- The exponent at which a positive ratio has a significand of `53` binary digits, or the least
exponent if the ratio is too small for that. -/
def unitExponent (numerator denominator : Nat) : Int :=
  let guess : Int := (numerator.log2 : Int) - (denominator.log2 : Int) - 52
  let (p, q) := scaled numerator denominator guess
  max minExponent (if p / q < Nat.pow 2 52 then guess - 1 else guess)

/-- The number nearest to `± numerator / denominator`; a tie goes to the even significand. -/
def ofRatio
    (negative : Bool)
    (numerator denominator : Nat) : Number :=
  if numerator = 0 then zero negative
  else
    let exponent := unitExponent numerator denominator
    let (p, q) := scaled numerator denominator exponent
    let significand := roundDiv p q
    if significand = significandBound then bounded negative (Nat.pow 2 52) (exponent + 1)
    else bounded negative significand exponent

/-- The number nearest to `± n`; below `2 ^ 53` it is `n` itself. -/
def ofMagnitude (negative : Bool) (n : Nat) : Number :=
  if n = 0 then zero negative
  else if n < significandBound then
    finite negative (n * Nat.pow 2 (52 - n.log2)) (-((52 - n.log2 : Nat) : Int))
  else ofRatio negative n 1

/-- The number nearest to a natural number. -/
def ofNat (n : Nat) : Number := ofMagnitude false n

/-- The number nearest to an integer. -/
def ofInt (n : Int) : Number := ofMagnitude (decide (n < 0)) n.natAbs

/-- The exact value of a finite number as a whole number, if it is one. -/
def wholeMagnitude?
    (significand : Nat)
    (exponent : Int) : Option Nat :=
  if 0 ≤ exponent then some (significand * Nat.pow 2 exponent.toNat)
  else if significand % Nat.pow 2 (-exponent).toNat = 0 then
    some (significand / Nat.pow 2 (-exponent).toNat)
  else none

/-- The integer that a number is, if it is one below `2 ^ 53` in magnitude; negative zero is
none. -/
def safeInteger? : Number → Option Int
  | finite negative significand exponent =>
      match wholeMagnitude? significand exponent with
      | some n =>
          if significandBound ≤ n then none
          else if negative then (if n = 0 then none else some (-(n : Int)))
          else some (n : Int)
      | none => none
  | _ => none

/-- Is this one of the two zeros? -/
def isZero : Number → Bool
  | finite _ significand _ => significand == 0
  | _ => false

/-- Is this the zero with a negative sign? -/
def isNegativeZero : Number → Bool
  | finite true 0 _ => true
  | _ => false

/-- Numeric equality: the two zeros are equal and `nan` differs from itself. -/
def equals (x y : Number) : Bool :=
  if x.isZero && y.isZero then true
  else if x = nan then false
  else x == y

/-- Equality of keys: as numeric equality, but `nan` is one key. -/
def sameKey (x y : Number) : Bool :=
  (x == nan && y == nan) || x.equals y

/-- The signed significand of a finite number once its exponent is lowered to `exponent`. -/
def signedAt
    (negative : Bool)
    (significand : Nat)
    (own exponent : Int) : Int :=
  let magnitude : Int := (significand * Nat.pow 2 (own - exponent).toNat : Nat)
  if negative then -magnitude else magnitude

/-- The exact value `sum * 2 ^ exponent`, rounded. -/
def ofDyadic (sum : Int) (exponent : Int) : Number :=
  if 0 ≤ exponent then ofRatio (decide (sum < 0)) (sum.natAbs * Nat.pow 2 exponent.toNat) 1
  else ofRatio (decide (sum < 0)) sum.natAbs (Nat.pow 2 (-exponent).toNat)

/-- The sum of two numbers, rounded once. -/
def add : Number → Number → Number
  | nan, _ => nan
  | _, nan => nan
  | infinite a, infinite b => if a = b then infinite a else nan
  | infinite a, finite .. => infinite a
  | finite .., infinite b => infinite b
  | finite a m e, finite b n f =>
      let exponent := min e f
      let sum := signedAt a m e exponent + signedAt b n f exponent
      if sum = 0 then zero (a && b) else ofDyadic sum exponent

end Number

end ScriptHost
