/-!
# Text in code units

Text as a row of code units of sixteen bits.  A character beyond the first 65536 takes two of them, a
high half and a low half.  A row may hold halves by themselves, and no text is such a row.

* `Utf16.units` are the code units of a text, and `Utf16.pieces` what a row of numbers spells.
* `Utf16.pieces_units`: the code units of a text spell its characters.
-/

namespace ScriptHost
namespace Utf16

/-- The first code unit of a character. -/
def leadingUnit (c : Char) : UInt16 :=
  if c.toNat < 0x10000 then .ofNat c.toNat else .ofNat (0xd800 + (c.toNat - 0x10000) / 0x400)

/-- The code units of a character. -/
def charUnits (c : Char) : List UInt16 :=
  leadingUnit c ::
    if c.toNat < 0x10000 then [] else [.ofNat (0xdc00 + (c.toNat - 0x10000) % 0x400)]

/-- The code units of a text. -/
def units (text : String) : List UInt16 :=
  text.toList.flatMap charUnits

/-- What one or two numbers of a row spell. -/
inductive Piece where
  | char (c : Char)
  /-- One half of a character without the other. -/
  | half (number : Nat)

/-- The character that shows a piece, where one that stands for all shows a half. -/
def Piece.shown : Piece → Char
  | char c => c
  | half _ => '\ufffd'

def isHighHalf (number : Nat) : Bool := 0xd800 ≤ number && number ≤ 0xdbff

def isLowHalf (number : Nat) : Bool := 0xdc00 ≤ number && number ≤ 0xdfff

/-- What a number spells by itself. -/
def single (number : Nat) : Piece :=
  if isHighHalf number || isLowHalf number then .half number else .char (.ofNat number)

/-- The character that two halves make. -/
def join (high low : Nat) : Char :=
  .ofNat (0x10000 + 0x400 * (high - 0xd800) + (low - 0xdc00))

/-- What a row of numbers spells: a high half and a low half next to each other are one
character. -/
def pieces : List Nat → List Piece
  | [] => []
  | [number] => [single number]
  | first :: second :: rest =>
      if isHighHalf first && isLowHalf second then .char (join first second) :: pieces rest
      else single first :: pieces (second :: rest)

/-- A row of code units as far as a text can show it. -/
def shown (units : List UInt16) : String :=
  String.ofList ((pieces (units.map UInt16.toNat)).map Piece.shown)

theorem pieces_cons_of_not_isHighHalf
    {number : Nat}
    (whole : isHighHalf number = false)
    (rest : List Nat) :
    pieces (number :: rest) = single number :: pieces rest := by
  cases rest with
  | nil => rfl
  | cons second others => simp [pieces, whole]

/-- The numbers between the halves are no characters. -/
theorem toNat_lt_or_gt (c : Char) :
    c.toNat < 0xd800 ∨ 0xdfff < c.toNat ∧ c.toNat < 0x110000 := by
  have valid : c.val.toNat.isValidChar := c.valid
  exact valid

theorem pieces_charUnits_append (c : Char) (rest : List Nat) :
    pieces ((charUnits c).map UInt16.toNat ++ rest) = .char c :: pieces rest := by
  have valid := toNat_lt_or_gt c
  unfold charUnits leadingUnit
  by_cases small : c.toNat < 0x10000
  · have whole : isHighHalf c.toNat = false := by
      rw [isHighHalf]
      simp only [Bool.and_eq_false_iff, decide_eq_false_iff_not]
      omega
    have notLow : isLowHalf c.toNat = false := by
      rw [isLowHalf]
      simp only [Bool.and_eq_false_iff, decide_eq_false_iff_not]
      omega
    have number : (UInt16.ofNat c.toNat).toNat = c.toNat := by
      rw [UInt16.toNat_ofNat', Nat.mod_eq_of_lt small]
    rw [if_pos small, if_pos small, List.map_singleton, number, List.singleton_append,
      pieces_cons_of_not_isHighHalf whole, single, whole, notLow]
    simp
  · have high : (UInt16.ofNat (0xd800 + (c.toNat - 0x10000) / 0x400)).toNat =
        0xd800 + (c.toNat - 0x10000) / 0x400 := by
      rw [UInt16.toNat_ofNat', Nat.mod_eq_of_lt (by omega)]
    have low : (UInt16.ofNat (0xdc00 + (c.toNat - 0x10000) % 0x400)).toNat =
        0xdc00 + (c.toNat - 0x10000) % 0x400 := by
      rw [UInt16.toNat_ofNat', Nat.mod_eq_of_lt (by omega)]
    have paired : (isHighHalf (0xd800 + (c.toNat - 0x10000) / 0x400) &&
        isLowHalf (0xdc00 + (c.toNat - 0x10000) % 0x400)) = true := by
      simp only [isHighHalf, isLowHalf, Bool.and_eq_true, decide_eq_true_eq]
      omega
    have joined : join (0xd800 + (c.toNat - 0x10000) / 0x400)
        (0xdc00 + (c.toNat - 0x10000) % 0x400) = c := by
      have sum : 0x10000 + 0x400 * (0xd800 + (c.toNat - 0x10000) / 0x400 - 0xd800) +
          (0xdc00 + (c.toNat - 0x10000) % 0x400 - 0xdc00) = c.toNat := by
        omega
      rw [join, sum, Char.ofNat_toNat]
    rw [if_neg small, if_neg small, List.map_cons, List.map_singleton, high, low,
      List.cons_append, List.singleton_append, pieces, if_pos paired, joined]

/-- The code units of a text spell its characters. -/
theorem pieces_units (text : String) :
    pieces ((units text).map UInt16.toNat) = text.toList.map .char := by
  unfold units
  induction text.toList with
  | nil => rfl
  | cons c rest ih =>
      rw [List.flatMap_cons, List.map_append, pieces_charUnits_append, ih, List.map_cons]

end Utf16
end ScriptHost
