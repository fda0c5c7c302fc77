import ScriptHost.Text.Utf16

/-!
# Quoted text

Text between double quotes, with what a reader could not see written as escapes: the quote, the
backslash, everything below the blank, and halves of characters.  All other characters stand for
themselves.

`quoteUnits` quotes any row of code units and `quote` those of a text, in which there are no halves.
-/

namespace ScriptHost
namespace Quoted

/-- A hexadecimal digit in lower case. -/
def hexDigit (n : Nat) : Char := Nat.digitChar (n % 16)

/-- How a character is written between quotes. -/
def escape (c : Char) : List Char :=
  if c = '"' then ['\\', '"']
  else if c = '\\' then ['\\', '\\']
  else if c = '\x08' then ['\\', 'b']
  else if c = '\x0c' then ['\\', 'f']
  else if c = '\n' then ['\\', 'n']
  else if c = '\r' then ['\\', 'r']
  else if c = '\t' then ['\\', 't']
  else if c.toNat < 0x20 then
    ['\\', 'u', '0', '0', hexDigit (c.toNat / 16), hexDigit c.toNat]
  else [c]

/-- How a piece of a row of code units is written between quotes. -/
def escapePiece : Utf16.Piece → List Char
  | .char c => escape c
  | .half number =>
      ['\\', 'u', hexDigit (number / 4096), hexDigit (number / 256), hexDigit (number / 16),
        hexDigit number]

/-- Code units between double quotes, escaped where needed. -/
def quoteUnits (units : List UInt16) : String :=
  String.ofList
    ('"' :: ((Utf16.pieces (units.map UInt16.toNat)).flatMap escapePiece ++ ['"']))

/-- The text between double quotes, escaped where needed. -/
def quote (text : String) : String :=
  quoteUnits (Utf16.units text)

/-- A text is quoted character by character. -/
theorem quote_eq (text : String) :
    quote text = String.ofList ('"' :: (text.toList.flatMap escape ++ ['"'])) := by
  rw [quote, quoteUnits, Utf16.pieces_units, List.flatMap_map]
  rfl

end Quoted
end ScriptHost
