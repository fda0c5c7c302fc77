import Mathlib.Data.List.Induction
import Mathlib.Data.Nat.Digits.Defs
import ScriptHost.Number.Decimal
import ScriptHost.Proofs.Text.Reading

/-!
# The text of a number

* The text of a number holds digits, a point, signs and letters, so that no newline is in it.
* An integer is written as its digits, with a minus before them if it is negative, and is told by
  its text.  Digits spell one number, and without needless zeros in front they are its digits.
* A number that is an integer below `2 ^ 53` in magnitude is written as this integer, and the text
  of the integer is read as the number.
-/

namespace ScriptHost

namespace Decimal

theorem isDigit_of_mem_digits
    {n : Nat}
    {c : Char}
    (member : c ∈ digits n) :
    c.isDigit = true :=
  Nat.isDigit_of_mem_toDigits (by decide) (by decide) member

theorem exists_digits_eq_cons (n : Nat) :
    ∃ c rest, digits n = c :: rest ∧ c.isDigit = true := by
  obtain ⟨c, rest, starts⟩ := List.exists_cons_of_ne_nil (Nat.toDigits_ne_nil (b := 10) (n := n))
  exact ⟨c, rest, starts, isDigit_of_mem_digits (starts ▸ List.mem_cons_self)⟩

theorem value_digits (n : Nat) : value (digits n) = n :=
  Nat.ofDigitChars_ten_toDigits

theorem splitSign_digits (n : Nat) : splitSign (digits n) = (false, digits n) := by
  obtain ⟨c, rest, starts, digit⟩ := exists_digits_eq_cons n
  have minus : c ≠ '-' := by
    rintro rfl
    cases digit
  have plus : c ≠ '+' := by
    rintro rfl
    cases digit
  rw [starts, splitSign.eq_3 _ (by simp [minus]) (by simp [plus])]

theorem digits_injective : Function.Injective digits := by
  intro m n same
  calc
    m = Nat.ofDigitChars 10 (digits m) 0 := Nat.ofDigitChars_ten_toDigits.symm
    _ = Nat.ofDigitChars 10 (digits n) 0 := by rw [same]
    _ = n := Nat.ofDigitChars_ten_toDigits

/-- A number is not written with zeros in front. -/
theorem unpadded_digits (n : Nat) :
    ¬ (1 < (digits n).length ∧ (digits n).head? = some '0') := by
  induction n using Nat.strongRecOn with
  | ind n ih =>
      rintro ⟨long, zero⟩
      by_cases single : n < 10
      · rw [digits, Nat.toDigits_of_lt_base single] at long
        exact absurd long (by simp)
      · rw [digits, Nat.toDigits_of_base_le (by decide) (by omega),
          List.head?_append_of_ne_nil _ Nat.toDigits_ne_nil] at zero
        by_cases short : n / 10 < 10
        · have positive : n / 10 ≠ 0 := by omega
          simp [Nat.toDigits_of_lt_base short, positive] at zero
        · have further : 1 < (digits (n / 10)).length := by
            rw [digits, Nat.toDigits_of_base_le (by decide) (by omega), List.length_append]
            have some : 0 < (Nat.toDigits 10 (n / 10 / 10)).length := Nat.length_toDigits_pos
            exact Nat.lt_add_of_pos_left some
          exact ih (n / 10) (by omega) ⟨further, zero⟩

theorem digitChar_digitValue
    {c : Char}
    (digit : c.isDigit = true) :
    digitValue c < 10 ∧ Nat.digitChar (digitValue c) = c := by
  have bounds : 48 ≤ c.toNat ∧ c.toNat ≤ 57 := by
    simpa [Char.isDigit, Char.le_def, UInt32.le_iff_toNat_le] using digit
  have value : digitValue c = c.toNat - 48 := rfl
  refine ⟨by omega, ?_⟩
  apply Char.toNat_inj.1
  rw [Nat.toNat_digitChar_of_lt_ten (by omega), value]
  omega

/-- Digits that do not start with a zero are those of the number that they spell. -/
theorem digits_value_cons
    {first : Char}
    {rest : List Char}
    (nonzero : first ≠ '0')
    (row : ∀ c ∈ first :: rest, c.isDigit = true) :
    0 < value (first :: rest) ∧ digits (value (first :: rest)) = first :: rest := by
  induction rest using List.reverseRecOn with
  | nil =>
      obtain ⟨small, spelled⟩ := digitChar_digitValue (row first List.mem_cons_self)
      have single : value [first] = digitValue first := by
        simp [value]
      have positive : digitValue first ≠ 0 := by
        intro zero
        rw [zero] at spelled
        exact nonzero spelled.symm
      rw [single]
      exact ⟨by omega, by rw [digits, Nat.toDigits_of_lt_base small, spelled]⟩
  | append_singleton rest last ih =>
      rw [← List.cons_append] at row ⊢
      obtain ⟨positive, spelled⟩ := ih fun c member => row c (List.mem_append_left _ member)
      obtain ⟨small, spelledLast⟩ := digitChar_digitValue (row last (by simp))
      have longer : value (first :: rest ++ [last]) =
          10 * value (first :: rest) + digitValue last := by
        simp [value]
      rw [longer]
      refine ⟨by omega, ?_⟩
      rw [digits, ← Nat.toDigits_append_toDigits (by decide) positive small,
        Nat.toDigits_of_lt_base small, spelledLast]
      exact congrArg (· ++ [last]) spelled

/-- Digits without needless zeros in front are those of the number that they spell. -/
theorem digits_value
    {row : List Char}
    (nonempty : row ≠ [])
    (digit : ∀ c ∈ row, c.isDigit = true)
    (unpadded : ¬ (1 < row.length ∧ row.head? = some '0')) :
    digits (value row) = row := by
  obtain ⟨first, rest, rfl⟩ := List.exists_cons_of_ne_nil nonempty
  by_cases nonzero : first = '0'
  · subst nonzero
    cases rest with
    | nil => rfl
    | cons second rest => exact absurd ⟨by simp, rfl⟩ unpadded
  · exact (digits_value_cons nonzero digit).2

theorem digits_append_inj
    {m n : Nat}
    {rest more : List Char}
    (stops : Stops Char.isDigit rest)
    (stops' : Stops Char.isDigit more)
    (same : digits m ++ rest = digits n ++ more) :
    m = n ∧ rest = more := by
  obtain ⟨rows, others⟩ := row_append_inj (fun _ => isDigit_of_mem_digits)
    (fun _ => isDigit_of_mem_digits) stops stops' same
  exact ⟨digits_injective rows, others⟩

theorem minus_ne_digits_append
    (n : Nat)
    (rest more : List Char) :
    '-' :: rest ≠ digits n ++ more := by
  obtain ⟨c, others, starts, digit⟩ := exists_digits_eq_cons n
  rw [starts]
  intro same
  rw [← (List.cons.inj same).1] at digit
  exact absurd digit (by decide)

theorem toList_integerText (n : Int) :
    (integerText n).toList = if n < 0 then '-' :: digits n.natAbs else digits n.natAbs := by
  unfold integerText
  split_ifs <;> rw [String.toList_ofList]

/-- An integer is told by its text, whatever follows the digits. -/
theorem integerText_append_inj
    {m n : Int}
    {rest more : List Char}
    (stops : Stops Char.isDigit rest)
    (stops' : Stops Char.isDigit more)
    (same : (integerText m).toList ++ rest = (integerText n).toList ++ more) :
    m = n ∧ rest = more := by
  rw [toList_integerText, toList_integerText] at same
  split_ifs at same with below below' below'
  · obtain ⟨magnitudes, others⟩ := digits_append_inj stops stops' (List.cons.inj same).2
    exact ⟨by omega, others⟩
  · exact absurd same (minus_ne_digits_append _ _ _)
  · exact absurd same.symm (minus_ne_digits_append _ _ _)
  · obtain ⟨magnitudes, others⟩ := digits_append_inj stops stops' same
    exact ⟨by omega, others⟩

theorem newline_notMem_digits (n : Nat) : '\n' ∉ digits n := by
  intro member
  exact absurd (isDigit_of_mem_digits member) (by decide)

theorem newline_notMem_integerText (n : Int) : '\n' ∉ (integerText n).toList := by
  rw [toList_integerText]
  split_ifs <;> simp [newline_notMem_digits]

end Decimal

namespace Number

open Decimal

theorem newline_notMem_dropTrailingZeros
    {ds : List Char}
    (plain : '\n' ∉ ds) :
    '\n' ∉ dropTrailingZeros ds := by
  intro member
  have kept := (List.dropWhile_sublist _).subset (List.mem_reverse.1 member)
  exact plain (List.mem_reverse.1 kept)

theorem newline_notMem_layout
    {ds : List Char}
    (plain : '\n' ∉ ds)
    (point : Int) :
    '\n' ∉ layout ds point := by
  have taken : ∀ count, '\n' ∉ ds.take count := fun _ member => plain (List.mem_of_mem_take member)
  have dropped : ∀ count, '\n' ∉ ds.drop count := fun _ member =>
    plain (List.mem_of_mem_drop member)
  unfold layout
  dsimp only
  split
  · simp [plain]
  · split
    · simp [taken, dropped]
    · split
      · simp [plain]
      · have mark : '\n' ∉ 'e' :: (if point - 1 < 0 then '-' else '+') ::
            digits (point - 1).natAbs := by
          split <;> simp [newline_notMem_digits]
        split
        · exact mark
        · exact List.not_mem_cons_of_ne_of_not_mem (List.ne_of_not_mem_cons plain) mark
        · simp_all

theorem newline_notMem_magnitudeText
    (significand : Nat)
    (exponent : Int) :
    '\n' ∉ magnitudeText significand exponent :=
  newline_notMem_layout (newline_notMem_dropTrailingZeros (newline_notMem_digits _)) _

theorem newline_notMem_text (x : Number) : '\n' ∉ x.text.toList := by
  unfold text
  cases x.safeInteger? with
  | some n => exact newline_notMem_integerText n
  | none =>
      cases x with
      | nan => simp
      | infinite negative => cases negative <;> simp
      | finite negative significand exponent =>
          dsimp only
          split_ifs <;> simp [newline_notMem_magnitudeText]

theorem wholeMagnitude?_shifted (n shift : Nat) :
    wholeMagnitude? (n * Nat.pow 2 shift) (-(shift : Int)) = some n := by
  unfold wholeMagnitude?
  split
  next whole =>
      obtain rfl : shift = 0 := by omega
      simp
  next fractional => simp

theorem safeInteger?_zero (negative : Bool) :
    (zero negative).safeInteger? = if negative then none else some 0 := by
  have whole : wholeMagnitude? 0 minExponent = some 0 := by
    simp [wholeMagnitude?]
  cases negative <;> simp [zero, safeInteger?, whole, significandBound]

/-- A magnitude below `2 ^ 53` is read back exactly. -/
theorem safeInteger?_ofInt
    {n : Int}
    (small : n.natAbs < significandBound) :
    (ofInt n).safeInteger? = some n := by
  rw [ofInt, ofMagnitude, if_pos small]
  split
  next zeroed =>
      obtain rfl : n = 0 := Int.natAbs_eq_zero.1 zeroed
      exact safeInteger?_zero false
  next other =>
      have inside : ¬ significandBound ≤ n.natAbs := by
        omega
      rw [safeInteger?, wholeMagnitude?_shifted]
      dsimp only
      rw [if_neg inside, if_neg other]
      split
      next negative =>
          have below : n < 0 := by simpa using negative
          exact congrArg some (by omega)
      next positive =>
          have above : ¬ n < 0 := by simpa using positive
          exact congrArg some (by omega)

theorem isNegativeZero_of_safeInteger
    {x : Number}
    {n : Int}
    (whole : x.safeInteger? = some n) :
    x.isNegativeZero = false := by
  unfold isNegativeZero
  split
  · next exponent =>
      have zeroed : wholeMagnitude? 0 exponent = some 0 := by
        simp [wholeMagnitude?]
      simp [safeInteger?, zeroed, significandBound] at whole
  · rfl

theorem text_of_safeInteger
    {x : Number}
    {n : Int}
    (whole : x.safeInteger? = some n) :
    x.text = integerText n := by
  unfold text
  rw [whole]

theorem text_negativeZero : (zero true).text = integerText 0 := by
  unfold text
  rw [safeInteger?_zero]
  rfl

theorem parse?_of_splitSign
    {literal : List Char}
    {negative : Bool}
    {n : Nat}
    (signed : splitSign literal = (negative, digits n)) :
    parse? literal = some (ofDecimal negative n 0) := by
  have digit : ∀ c ∈ digits n, c.isDigit = true := fun _ => isDigit_of_mem_digits
  have taken := takeWhile_row_append digit (stops_nil _)
  have dropped := dropWhile_row_append digit (stops_nil _)
  rw [List.append_nil] at taken dropped
  have filled : (digits n).isEmpty = false := by
    obtain ⟨c, rest, starts, -⟩ := exists_digits_eq_cons n
    rw [starts]
    rfl
  simp [parse?, signed, taken, dropped, filled, exponent?, value_digits]

/-- A magnitude below `2 ^ 53` is far from where decimals overflow. -/
theorem ofDecimal_of_small
    (negative : Bool)
    {n : Nat}
    (small : n < significandBound) :
    ofDecimal negative n 0 = ofMagnitude negative n := by
  have short : (Nat.toDigits 10 n).length ≤ 16 :=
    Nat.toDigits_length 10 n 16 (by decide) (small.trans (by decide))
  unfold ofDecimal
  dsimp only
  split_ifs with zeroed high low whole
  · rw [zeroed, ofMagnitude, if_pos rfl]
  · omega
  · omega
  · simp
  · exact absurd le_rfl whole

/-- The text of an integer below `2 ^ 53` in magnitude is read as this integer. -/
theorem parse?_integerText
    {n : Int}
    (small : n.natAbs < significandBound) :
    parse? (integerText n).toList = some (ofInt n) := by
  rw [ofInt, toList_integerText]
  split
  · next negative =>
      rw [parse?_of_splitSign rfl, ofDecimal_of_small _ small, decide_eq_true negative]
  · next positive =>
      rw [parse?_of_splitSign (splitSign_digits _), ofDecimal_of_small _ small,
        decide_eq_false positive]

end Number
end ScriptHost
