import ScriptHost.Text.Quoted

/-!
# Bytes in hexadecimal

Each byte is written as two lower-case digits, with nothing between them.
-/

namespace ScriptHost
namespace Hex

/-- Two digits for a byte. -/
def byteText (byte : UInt8) : List Char :=
  [Quoted.hexDigit (byte.toNat / 16), Quoted.hexDigit byte.toNat]

/-- The digits of all bytes in order. -/
def text (bytes : List UInt8) : String :=
  String.ofList (bytes.flatMap byteText)

/-- The value of a hexadecimal digit in either case. -/
def digitValue? (c : Char) : Option Nat :=
  if c.isDigit then some (c.toNat - '0'.toNat)
  else if 'a' ≤ c && c ≤ 'f' then some (c.toNat - 'a'.toNat + 10)
  else if 'A' ≤ c && c ≤ 'F' then some (c.toNat - 'A'.toNat + 10)
  else none

/-- The number that a row of hexadecimal digits spells. -/
def value? (digits : List Char) : Option Nat :=
  digits.foldl
    (fun n? c => n?.bind fun n => (digitValue? c).map (16 * n + ·))
    (some 0)

/-- Reads pairs of digits as bytes. -/
def parse? : List Char → Option (List UInt8)
  | [] => some []
  | a :: b :: rest => do
      let high ← digitValue? a
      let low ← digitValue? b
      let tail ← parse? rest
      pure (UInt8.ofNat (16 * high + low) :: tail)
  | [_] => none

end Hex
end ScriptHost
