/-!
# Bytes in base sixty-four

Four letters stand for three bytes.  Reading takes the letters up to the first padding mark and
passes over every other character; two or three letters at the end stand for one or two bytes, and
a single letter for none.  Of a character outside the letters' alphabet only the low bytes of its
sixteen-bit units are looked at.
-/

namespace ScriptHost
namespace Base64

/-- The letters in the order of their values. -/
def letters : List Char :=
  "ABCDEFGHIJKLMNOPQRSTUVWXYZabcdefghijklmnopqrstuvwxyz0123456789+/".toList

/-- The value of a letter; the last two have a second spelling. -/
def value? (c : Char) : Option Nat :=
  if c = '-' then some 62
  else if c = '_' then some 63
  else letters.findIdx? (· == c)

/-- The bytes of a row of values. -/
def bytes : List Nat → List UInt8
  | a :: b :: c :: d :: rest =>
      UInt8.ofNat (4 * a + b / 16) :: UInt8.ofNat (16 * (b % 16) + c / 4) ::
        UInt8.ofNat (64 * (c % 4) + d) :: bytes rest
  | [a, b, c] => [UInt8.ofNat (4 * a + b / 16), UInt8.ofNat (16 * (b % 16) + c / 4)]
  | [a, b] => [UInt8.ofNat (4 * a + b / 16)]
  | _ => []

/-- The low bytes of the sixteen-bit units of a character. -/
def lowBytes (c : Char) : List Char :=
  if c.toNat < 0x10000 then [Char.ofNat (c.toNat % 256)]
  else
    let offset := c.toNat - 0x10000
    [Char.ofNat (offset / 0x400 % 256), Char.ofNat (offset % 0x400 % 256)]

/-- The bytes that a text spells. -/
def decode (text : List Char) : List UInt8 :=
  bytes (((text.flatMap lowBytes).takeWhile (· != '=')).filterMap value?)

/-- The letter of a value. -/
def letter (n : Nat) : Char := letters.getD n 'A'

/-- The text that spells bytes, padded to whole groups of four. -/
def encode : List UInt8 → List Char
  | x :: y :: z :: rest =>
      letter (x.toNat / 4) :: letter (16 * (x.toNat % 4) + y.toNat / 16) ::
        letter (4 * (y.toNat % 16) + z.toNat / 64) :: letter (z.toNat % 64) :: encode rest
  | [x, y] =>
      [letter (x.toNat / 4), letter (16 * (x.toNat % 4) + y.toNat / 16),
        letter (4 * (y.toNat % 16)), '=']
  | [x] => [letter (x.toNat / 4), letter (16 * (x.toNat % 4)), '=', '=']
  | [] => []

end Base64
end ScriptHost
