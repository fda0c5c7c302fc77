import Mathlib.Algebra.Order.Field.Power
import Mathlib.Data.Rat.Cast.Order
import Mathlib.Tactic
import ScriptHost.Number.Basic

/-!
# The number nearest to an integer

Whole numbers of any size are rounded when they become numbers.  Here it is shown that
`Number.ofInt` rounds to the nearest number of double precision, that of two numbers equally near
it takes the one with the even significand, and that it overflows exactly where the format does.

* `exact` is the rational number that a sign, a significand and an exponent stand for.
* `IsNearest` says what it means to be nearest, by comparison with every number in range.
-/

namespace ScriptHost
namespace Number

/-- The value of `± significand * 2 ^ exponent`. -/
def exact (negative : Bool) (significand : Nat) (exponent : Int) : ℚ :=
  (if negative then -1 else 1) * (significand * 2 ^ exponent)

/-- Does double precision have this significand at this exponent? -/
def InRange (significand : Nat) (exponent : Int) : Prop :=
  significand < significandBound ∧ minExponent ≤ exponent ∧ exponent ≤ maxExponent

/-- Is the number nearest to `n`, an even significand deciding between two that are equally near?
An infinity is nearest once `n` is no closer to the greatest finite number than to the next power
of two. -/
def IsNearest (n : Int) : Number → Prop
  | nan => False
  | infinite negative => 2 ^ 1024 ≤ n.natAbs + 2 ^ 970 ∧ (negative = true ↔ n < 0)
  | finite negative significand exponent =>
      InRange significand exponent ∧
        ∀ s m e, InRange m e → exact s m e ≠ exact negative significand exponent →
          |exact negative significand exponent - n| < |exact s m e - n| ∨
            |exact negative significand exponent - n| = |exact s m e - n| ∧ significand % 2 = 0

/-- A multiple of `d` lies at one of two neighbouring places or beyond them. -/
theorem multiple_cases (t : Int) (d : Nat) :
    t * d ≤ -d ∨ (t = 0 ∧ t * d = 0) ∨ (t = 1 ∧ t * d = d) ∨ 2 * (d : Int) ≤ t * d := by
  rcases lt_trichotomy t 0 with low | rfl | high
  · left
    have step : t * d ≤ -1 * d := by
      gcongr
      omega
    linarith
  · right; left
    exact ⟨rfl, by ring⟩
  · right; right
    rcases eq_or_lt_of_le (show 1 ≤ t by omega) with rfl | higher
    · left
      exact ⟨rfl, by ring⟩
    · right
      gcongr
      omega

/-- Rounding a quotient gives the nearest multiple of the divisor, and an even one in a tie. -/
theorem roundDiv_nearest
    (n d : Nat)
    (positive : 0 < d)
    (j : Int)
    (other : j ≠ roundDiv n d) :
    |(roundDiv n d : Int) * d - n| < |j * d - n| ∨
      |(roundDiv n d : Int) * d - n| = |j * d - n| ∧ roundDiv n d % 2 = 0 := by
  have split : (n / d : Nat) * (d : Int) + (n % d : Nat) = n := by
    exact_mod_cast Nat.div_add_mod' n d
  have small : n % d < d := Nat.mod_lt n positive
  unfold roundDiv at other ⊢
  generalize n / d = q at *
  generalize n % d = r at *
  obtain ⟨t, rfl⟩ : ∃ t, j = q + t := ⟨j - q, by ring⟩
  have away (u : Int) : (q + u) * d - n = u * d - r := by
    rw [← split]
    ring
  have here : (q : Int) * d - n = -r := by
    linarith
  have next : ((q : Int) + 1) * d - n = d - r := by
    linarith
  have places := multiple_cases t d
  dsimp only at other ⊢
  rw [away t]
  generalize t * d = T at *
  split_ifs at other ⊢ with low high
  · rw [here]
    left
    rcases abs_cases (-(r : Int)) with ⟨e, sign⟩ | ⟨e, sign⟩ <;>
      rcases abs_cases (T - r) with ⟨e', sign'⟩ | ⟨e', sign'⟩ <;> omega
  · push_cast at other ⊢
    rw [next]
    left
    rcases abs_cases ((d : Int) - r) with ⟨e, sign⟩ | ⟨e, sign⟩ <;>
      rcases abs_cases (T - r) with ⟨e', sign'⟩ | ⟨e', sign'⟩ <;> omega
  · -- a tie: both neighbours are equally near, and the even one was taken
    rcases Nat.mod_two_eq_zero_or_one q with even | odd
    · rw [even] at other ⊢
      push_cast at other ⊢
      rw [add_zero, here]
      rcases abs_cases (-(r : Int)) with ⟨e, sign⟩ | ⟨e, sign⟩ <;>
        rcases abs_cases (T - r) with ⟨e', sign'⟩ | ⟨e', sign'⟩ <;> omega
    · rw [odd] at other ⊢
      push_cast at other ⊢
      rw [next]
      rcases abs_cases ((d : Int) - r) with ⟨e, sign⟩ | ⟨e, sign⟩ <;>
        rcases abs_cases (T - r) with ⟨e', sign'⟩ | ⟨e', sign'⟩ <;> omega

/-- Rounding up adds at most half of the divisor. -/
theorem roundDiv_mul_le (n d : Nat) :
    2 * (roundDiv n d * d) ≤ 2 * n + d := by
  have split : n / d * d + n % d = n := Nat.div_add_mod' n d
  have step : (n / d + 1) * d = n / d * d + d := by
    ring
  unfold roundDiv
  dsimp only
  split_ifs with low high
  · omega
  · omega
  · rcases Nat.mod_two_eq_zero_or_one (n / d) with even | odd
    · rw [even, add_zero]
      omega
    · rw [odd]
      omega

theorem significandBound_eq : significandBound = 2 ^ 53 := rfl

/-- The power of two at which a large magnitude has a significand of `53` binary digits. -/
def unit (magnitude : Nat) : Nat := magnitude.log2 - 52

/-- A large magnitude lies between `2 ^ 52` and `2 ^ 53` units. -/
theorem unit_bounds
    {magnitude : Nat}
    (large : significandBound ≤ magnitude) :
    1 ≤ unit magnitude ∧ 2 ^ 52 * 2 ^ unit magnitude ≤ magnitude ∧
      magnitude < 2 ^ 53 * 2 ^ unit magnitude := by
  have nonzero : magnitude ≠ 0 := by
    rw [significandBound_eq] at large
    omega
  have long : 53 ≤ magnitude.log2 := (Nat.le_log2 nonzero).2 large
  have low : 2 ^ magnitude.log2 ≤ magnitude := Nat.log2_self_le nonzero
  have high : magnitude < 2 ^ (magnitude.log2 + 1) := Nat.lt_log2_self
  unfold unit
  rw [← pow_add, ← pow_add]
  refine ⟨by omega, ?_, ?_⟩
  · rwa [show 52 + (magnitude.log2 - 52) = magnitude.log2 by omega]
  · rwa [show 53 + (magnitude.log2 - 52) = magnitude.log2 + 1 by omega]

/-- A large magnitude is rounded to whole units. -/
theorem ofMagnitude_of_large
    (negative : Bool)
    {magnitude : Nat}
    (large : significandBound ≤ magnitude) :
    ofMagnitude negative magnitude =
      if roundDiv magnitude (2 ^ unit magnitude) = significandBound then
        bounded negative (2 ^ 52) (unit magnitude + 1)
      else bounded negative (roundDiv magnitude (2 ^ unit magnitude)) (unit magnitude) := by
  obtain ⟨one, low, -⟩ := unit_bounds large
  have nonzero : magnitude ≠ 0 := by
    rw [significandBound_eq] at large
    omega
  have guess : ((magnitude.log2 : Int) - ((1 : Nat).log2 : Int) - 52) = unit magnitude := by
    have : (1 : Nat).log2 = 0 := by decide
    unfold unit at one ⊢
    omega
  have scale : scaled magnitude 1 (unit magnitude) = (magnitude, 2 ^ unit magnitude) := by
    simp [scaled]
  have full : ¬ magnitude / 2 ^ unit magnitude < 2 ^ 52 := by
    rw [not_lt, Nat.le_div_iff_mul_le (by positivity)]
    exact low
  have exponent : unitExponent magnitude 1 = unit magnitude := by
    unfold unitExponent
    rw [guess]
    dsimp only
    rw [scale]
    dsimp only
    rw [Nat.pow_eq, if_neg full]
    unfold minExponent
    omega
  rw [ofMagnitude, if_neg nonzero, if_neg (not_lt.2 large), ofRatio, if_neg nonzero, exponent]
  dsimp only
  rw [scale]
  rfl

/-- Seen from a magnitude, every number in range is a whole number of units or further away than
`2 ^ 52` units are. -/
theorem units_or_further
    {magnitude : Nat}
    (large : significandBound ≤ magnitude)
    (s : Bool)
    {m : Nat}
    {e : Int}
    (range : InRange m e) :
    (∃ j : Int, exact s m e = ((j * (2 ^ unit magnitude : Nat) : Int) : ℚ)) ∨
      exact s m e < ((2 ^ 52 * 2 ^ unit magnitude : Nat) : ℚ) := by
  obtain ⟨one, -, -⟩ := unit_bounds large
  rcases le_or_gt (unit magnitude : Int) e with coarse | fine
  · left
    obtain ⟨k, rfl⟩ : ∃ k : Nat, e = unit magnitude + k := ⟨(e - unit magnitude).toNat, by omega⟩
    refine ⟨(if s then -1 else 1) * (m * 2 ^ k), ?_⟩
    have power : (2 : ℚ) ^ ((unit magnitude : Int) + (k : Int)) = 2 ^ unit magnitude * 2 ^ k := by
      rw [zpow_add₀ two_ne_zero, zpow_natCast, zpow_natCast]
    unfold exact
    rw [power]
    cases s <;> push_cast <;> ring
  · right
    have bound : (m : ℚ) < 2 ^ 53 := by
      exact_mod_cast range.1
    have power : (2 : ℚ) ^ e ≤ 2 ^ ((unit magnitude : Int) - 1) :=
      zpow_le_zpow_right₀ (by norm_num) (by omega)
    have half : (2 : ℚ) ^ ((unit magnitude : Int) - 1) = 2 ^ unit magnitude / 2 := by
      rw [zpow_sub₀ two_ne_zero, zpow_natCast, zpow_one]
    have positive : (0 : ℚ) < 2 ^ e := by
      positivity
    have size : (m : ℚ) * 2 ^ e < 2 ^ 52 * 2 ^ unit magnitude := by
      calc (m : ℚ) * 2 ^ e < 2 ^ 53 * 2 ^ e := by gcongr
        _ ≤ 2 ^ 53 * (2 ^ unit magnitude / 2) := by rw [← half]; gcongr
        _ = 2 ^ 52 * 2 ^ unit magnitude := by ring
    have nonneg : (0 : ℚ) ≤ m * 2 ^ e := by
      positivity
    rw [Nat.cast_mul, Nat.cast_pow, Nat.cast_pow, Nat.cast_ofNat]
    unfold exact
    cases s
    · simpa using size
    · simp only [if_true]
      linarith

/-- Rounding a large magnitude to whole units gives the nearest number, and in a tie the even
one. -/
theorem units_nearest
    {magnitude : Nat}
    (large : significandBound ≤ magnitude)
    (s : Bool)
    {m : Nat}
    {e : Int}
    (range : InRange m e)
    {units : Nat}
    (rounded : units = roundDiv magnitude (2 ^ unit magnitude))
    (other : exact s m e ≠ ((units * 2 ^ unit magnitude : Nat) : ℚ)) :
    |((units * 2 ^ unit magnitude : Nat) : ℚ) - magnitude| < |exact s m e - magnitude| ∨
      |((units * 2 ^ unit magnitude : Nat) : ℚ) - magnitude| = |exact s m e - magnitude| ∧
        units % 2 = 0 := by
  obtain ⟨-, low, -⟩ := unit_bounds large
  have nearest (j : Int) (h : j ≠ units) :
      |((units * 2 ^ unit magnitude : Nat) : ℚ) - magnitude| <
          |((j * (2 ^ unit magnitude : Nat) : Int) : ℚ) - magnitude| ∨
        |((units * 2 ^ unit magnitude : Nat) : ℚ) - magnitude| =
          |((j * (2 ^ unit magnitude : Nat) : Int) : ℚ) - magnitude| ∧ units % 2 = 0 := by
    have whole := roundDiv_nearest magnitude (2 ^ unit magnitude) (by positivity) j (rounded ▸ h)
    rw [← rounded] at whole
    exact_mod_cast whole
  rcases units_or_further large s range with ⟨j, whole⟩ | further
  · rw [whole] at other ⊢
    apply nearest j
    rintro rfl
    exact other (by push_cast; ring)
  · left
    have lowQ : ((2 ^ 52 * 2 ^ unit magnitude : Nat) : ℚ) ≤ magnitude := by
      exact_mod_cast low
    have least : |((units * 2 ^ unit magnitude : Nat) : ℚ) - magnitude| ≤
        |((2 ^ 52 * 2 ^ unit magnitude : Nat) : ℚ) - magnitude| := by
      rcases eq_or_ne units (2 ^ 52) with rfl | apart
      · rfl
      · have compared := nearest (2 ^ 52) (by exact_mod_cast apart.symm)
        have same : (((2 : Int) ^ 52 * (2 ^ unit magnitude : Nat) : Int) : ℚ) =
            ((2 ^ 52 * 2 ^ unit magnitude : Nat) : ℚ) := by
          push_cast
          ring
        rw [same] at compared
        rcases compared with less | ⟨equal, -⟩
        · exact less.le
        · exact equal.le
    refine lt_of_le_of_lt least ?_
    rw [abs_of_nonpos (by linarith), abs_of_nonpos (by linarith)]
    linarith

/-- Distances from an integer are distances from its magnitude once its sign is taken away. -/
theorem abs_exact_sub (n : Int) (s : Bool) (m : Nat) (e : Int) :
    |exact s m e - n| = |exact (s != decide (n < 0)) m e - n.natAbs| := by
  have size : ((n.natAbs : Nat) : ℚ) = |(n : ℚ)| := by
    rw [Nat.cast_natAbs, Int.cast_abs]
  rw [size]
  by_cases negative : n < 0
  · have below : (n : ℚ) < 0 := by
      exact_mod_cast negative
    rw [abs_of_neg below, decide_eq_true negative]
    have flip : exact (s != true) m e - -(n : ℚ) = -(exact s m e - n) := by
      unfold exact
      cases s <;> simp <;> ring
    rw [flip, abs_neg]
  · have above : (0 : ℚ) ≤ n := by
      exact_mod_cast not_lt.1 negative
    rw [abs_of_nonneg above, decide_eq_false negative]
    simp

/-- A number that is the integer itself is nearest to it. -/
theorem isNearest_of_exact
    {n : Int}
    {negative : Bool}
    {significand : Nat}
    {exponent : Int}
    (range : InRange significand exponent)
    (same : exact negative significand exponent = n) :
    IsNearest n (finite negative significand exponent) := by
  refine ⟨range, ?_⟩
  intro s m e _ other
  left
  rw [same] at other ⊢
  rw [sub_self, abs_zero]
  exact abs_pos.2 (sub_ne_zero.2 other)

/-- A magnitude with its sign is the integer. -/
theorem sign_mul_natAbs (n : Int) :
    (if decide (n < 0) then (-1 : ℚ) else 1) * n.natAbs = n := by
  have size : ((n.natAbs : Nat) : ℚ) = |(n : ℚ)| := by
    rw [Nat.cast_natAbs, Int.cast_abs]
  rw [size]
  by_cases negative : n < 0
  · have below : (n : ℚ) < 0 := by
      exact_mod_cast negative
    simp [negative, abs_of_neg below]
  · have above : (0 : ℚ) ≤ n := by
      exact_mod_cast not_lt.1 negative
    simp [negative, abs_of_nonneg above]

/-- A magnitude below `2 ^ 53` is met exactly. -/
theorem isNearest_ofInt_of_small
    {n : Int}
    (small : n.natAbs < significandBound) :
    IsNearest n (ofInt n) := by
  unfold ofInt ofMagnitude
  split_ifs with zeroed
  · apply isNearest_of_exact
    · simp [InRange, significandBound, minExponent, maxExponent]
    · obtain rfl : n = 0 := Int.natAbs_eq_zero.1 zeroed
      simp [exact]
  · have high : n.natAbs < 2 ^ (n.natAbs.log2 + 1) := Nat.lt_log2_self
    have short : n.natAbs.log2 < 53 := (Nat.log2_lt zeroed).2 small
    generalize shift : 52 - n.natAbs.log2 = t
    apply isNearest_of_exact
    · refine ⟨?_, ?_, ?_⟩
      · calc n.natAbs * 2 ^ t < 2 ^ (n.natAbs.log2 + 1) * 2 ^ t := by gcongr
          _ = 2 ^ 53 := by rw [← pow_add]; congr 1; omega
      · unfold minExponent
        omega
      · unfold maxExponent
        omega
    · have cancel : ((n.natAbs * 2 ^ t : Nat) : ℚ) * 2 ^ (-(t : Int)) = n.natAbs := by
        rw [zpow_neg, zpow_natCast]
        push_cast
        field_simp
      rw [exact, Nat.pow_eq, cancel]
      exact sign_mul_natAbs n

/-- A significand at an exponent is nearest, or overflows, if it stands for the magnitude rounded
to whole units. -/
theorem isNearest_bounded
    {n : Int}
    (large : significandBound ≤ n.natAbs)
    {units significand : Nat}
    (exponent : Nat)
    (rounded : units = roundDiv n.natAbs (2 ^ unit n.natAbs))
    (short : significand < significandBound)
    (same : significand * 2 ^ exponent = units * 2 ^ unit n.natAbs)
    (even : units % 2 = 0 → significand % 2 = 0)
    (overflow : maxExponent < exponent → 2 ^ 1024 ≤ n.natAbs + 2 ^ 970) :
    IsNearest n (bounded (decide (n < 0)) significand exponent) := by
  unfold bounded
  split_ifs with beyond
  · exact ⟨overflow beyond, by simp⟩
  · have value (s : Bool) : exact s significand exponent =
        (if s then -1 else 1) * ((units * 2 ^ unit n.natAbs : Nat) : ℚ) := by
      rw [exact, ← same, zpow_natCast]
      push_cast
      ring
    refine ⟨⟨short, by unfold minExponent; omega, not_lt.1 beyond⟩, ?_⟩
    intro s m e range other
    rw [abs_exact_sub n s, abs_exact_sub n (decide (n < 0)), value, bne_self_eq_false]
    simp only [Bool.false_eq_true, if_false, one_mul]
    have apart : exact (s != decide (n < 0)) m e ≠ ((units * 2 ^ unit n.natAbs : Nat) : ℚ) := by
      intro equal
      apply other
      rw [value, ← equal]
      unfold exact
      cases s <;> cases decide (n < 0) <;> simp
    rcases units_nearest large (s != decide (n < 0)) range rounded apart with less | ⟨equal, h⟩
    · exact Or.inl less
    · exact Or.inr ⟨equal, even h⟩

/-- Fewer than `2 ^ 53` units are left, unless rounding made them exactly as many. -/
theorem units_lt
    {magnitude units : Nat}
    (large : significandBound ≤ magnitude)
    (rounded : units = roundDiv magnitude (2 ^ unit magnitude))
    (notFull : units ≠ significandBound) :
    units < significandBound := by
  obtain ⟨-, -, high⟩ := unit_bounds large
  have ceiling := roundDiv_mul_le magnitude (2 ^ unit magnitude)
  rw [← rounded] at ceiling
  have close : 2 * units < 2 ^ 54 + 1 := by
    apply Nat.lt_of_mul_lt_mul_right (a := 2 ^ unit magnitude)
    calc 2 * units * 2 ^ unit magnitude ≤ 2 * magnitude + 2 ^ unit magnitude := by
          rw [mul_assoc]; exact ceiling
      _ < 2 * (2 ^ 53 * 2 ^ unit magnitude) + 2 ^ unit magnitude := by omega
      _ = (2 ^ 54 + 1) * 2 ^ unit magnitude := by ring
  rw [significandBound_eq] at notFull ⊢
  omega

/-- A larger magnitude is rounded to the nearest number. -/
theorem isNearest_ofInt_of_large
    {n : Int}
    (large : significandBound ≤ n.natAbs) :
    IsNearest n (ofInt n) := by
  obtain ⟨-, low, -⟩ := unit_bounds large
  have ceiling := roundDiv_mul_le n.natAbs (2 ^ unit n.natAbs)
  rw [ofInt, ofMagnitude_of_large _ large]
  generalize rounded : roundDiv n.natAbs (2 ^ unit n.natAbs) = units at *
  split_ifs with full
  · -- the rounded magnitude has a digit too many, and is a power of two
    apply isNearest_bounded large (unit n.natAbs + 1) rounded.symm
    · decide
    · rw [full, significandBound_eq]
      ring
    · intro _
      decide
    · intro beyond
      unfold maxExponent at beyond
      have index : 971 ≤ unit n.natAbs := by
        omega
      have least : 2 ^ 971 ≤ 2 ^ unit n.natAbs := by gcongr; norm_num
      have top : (2 : Nat) ^ 1024 = 2 ^ 53 * 2 ^ 971 := by rw [← pow_add]
      have half : (2 : Nat) ^ 971 = 2 * 2 ^ 970 := by rw [← pow_succ']
      rw [full, significandBound_eq] at ceiling
      generalize (2 : Nat) ^ 1024 = a at *
      generalize (2 : Nat) ^ 971 = b at *
      generalize (2 : Nat) ^ 970 = c at *
      omega
  · apply isNearest_bounded large (unit n.natAbs) rounded.symm
    · exact units_lt large rounded.symm full
    · rfl
    · exact id
    · intro beyond
      unfold maxExponent at beyond
      have index : 972 ≤ unit n.natAbs := by
        omega
      have least : 2 ^ 972 ≤ 2 ^ unit n.natAbs := by gcongr; norm_num
      have top : (2 : Nat) ^ 1024 = 2 ^ 52 * 2 ^ 972 := by rw [← pow_add]
      generalize (2 : Nat) ^ 1024 = a at *
      generalize (2 : Nat) ^ 972 = b at *
      omega

/-- An integer becomes the number nearest to it. -/
theorem isNearest_ofInt (n : Int) : IsNearest n (ofInt n) := by
  rcases lt_or_ge n.natAbs significandBound with small | large
  · exact isNearest_ofInt_of_small small
  · exact isNearest_ofInt_of_large large

end Number
end ScriptHost
