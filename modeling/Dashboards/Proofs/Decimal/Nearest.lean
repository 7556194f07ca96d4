import Dashboards.Decimal.Binary64
import Mathlib.Algebra.Order.Field.Power
import Mathlib.Algebra.Order.Ring.Rat
import Mathlib.Data.Nat.Log
import Mathlib.Tactic.Linarith
import Mathlib.Tactic.Ring
import Mathlib.Tactic.NormNum
import Mathlib.Tactic.Positivity
import Mathlib.Tactic.FieldSimp

/-!
# Nearest doubles

A double is made of a quotient of natural numbers, or of a decimal number, by rounding to the last
place that its size allows.  Here the doubles are read as rational numbers, and the rounding is
compared with its meaning: no double is nearer to the number, and if another one is just as near
then the last digit is zero.  This settles the value, so that two doubles that a number rounds to
have the same one.

A number that no double is made of is larger than any number of interest.

## Key results

- `Binary64.rounds_of_ofDecimal?`: a decimal number rounds to the double that is made of it
- `Binary64.overflow_le_of_ofDecimal?_eq_none`: a number that no double is made of is very large
- `Binary64.Rounds.value_unique`, `Binary64.Rounds.value_le`: a number rounds to one value only, and
  a larger number to no smaller one
-/

namespace Dashboards.Decimal

/-! ## Quotients -/

/-- A quotient rounded to a whole number is at most half a unit away, and is even if it is just that
far away. -/
theorem divNearestEven_spec (num : Nat) {den : Nat} (hden : 0 < den) :
    2 * |(num : Int) - den * divNearestEven num den| ≤ den ∧
      (2 * |(num : Int) - den * divNearestEven num den| = den →
        divNearestEven num den % 2 = 0) := by
  have hmod : num % den < den := Nat.mod_lt num hden
  have hdiv : (den : Int) * (num / den : Nat) + (num % den : Nat) = num := by
    exact_mod_cast Nat.div_add_mod num den
  have hup : (den : Int) * (num / den + 1 : Nat) = den * (num / den : Nat) + den := by
    push_cast; ring
  simp only [divNearestEven]
  -- rounding down leaves the remainder, and rounding up leaves what the remainder lacks
  split
  · rw [abs_of_nonneg (by omega)]; omega
  · split
    · rw [abs_of_nonpos (by omega)]; omega
    · split
      · rw [abs_of_nonneg (by omega)]; omega
      · rw [abs_of_nonpos (by omega)]; omega

section

variable (num : Nat) {den : Nat} (hden : 0 < den) (j : Int)
include hden

/-- The distance of a quotient from a whole number. -/
theorem abs_ratio_sub : |(num / den : ℚ) - j| = (|(num : Int) - den * j| : Int) / den := by
  have hpos : (0 : ℚ) < den := by exact_mod_cast hden
  have heq : (num / den : ℚ) - j = (((num : Int) - den * j : Int) : ℚ) / den := by
    push_cast
    field_simp
  rw [heq, abs_div, abs_of_pos hpos, ← Int.cast_abs]

/-- Two distances from whole numbers that are not the same make up at least a unit. -/
theorem le_abs_sub_add_abs_sub {k : Int} (h : j ≠ k) :
    (den : Int) ≤ |(num : Int) - den * j| + |(num : Int) - den * k| := by
  have hsub : (num : Int) - den * k - (num - den * j) = den * (j - k) := by ring
  have htri := abs_sub (num - den * k : Int) (num - den * j)
  rw [hsub, abs_mul, Nat.abs_cast] at htri
  have hunit : 1 ≤ |j - k| := Int.one_le_abs (sub_ne_zero.2 h)
  have hden' : (0 : Int) < den := by exact_mod_cast hden
  have hle : (den : Int) * 1 ≤ den * |j - k| := by
    exact mul_le_mul_of_nonneg_left hunit hden'.le
  linarith

/-- No whole number is nearer to a quotient than the rounded one. -/
theorem abs_ratio_sub_divNearestEven_le :
    |(num / den : ℚ) - divNearestEven num den| ≤ |(num / den : ℚ) - j| := by
  have hpos : (0 : ℚ) < den := by exact_mod_cast hden
  have hcast : (divNearestEven num den : ℚ) = ((divNearestEven num den : Int) : ℚ) := by norm_cast
  rw [hcast, abs_ratio_sub num hden, abs_ratio_sub num hden, div_le_div_iff_of_pos_right hpos,
    Int.cast_le]
  by_cases h : j = divNearestEven num den
  · rw [h]
  · have hsum := le_abs_sub_add_abs_sub num hden j h
    have hhalf := (divNearestEven_spec num hden).1
    omega

/-- The rounded quotient is even if another whole number is just as near. -/
theorem divNearestEven_even_of_tie (hne : j ≠ divNearestEven num den)
    (h : |(num / den : ℚ) - j| = |(num / den : ℚ) - divNearestEven num den|) :
    divNearestEven num den % 2 = 0 := by
  have hpos : (0 : ℚ) < den := by exact_mod_cast hden
  have hcast : (divNearestEven num den : ℚ) = ((divNearestEven num den : Int) : ℚ) := by norm_cast
  rw [hcast, abs_ratio_sub num hden, abs_ratio_sub num hden, div_left_inj' hpos.ne',
    Int.cast_inj] at h
  have hsum := le_abs_sub_add_abs_sub num hden j hne
  have hspec := divNearestEven_spec num hden
  exact hspec.2 (by omega)

end

/-! ## Binary exponents -/

/-- A power with a whole exponent, as a fraction of natural powers. -/
theorem zpow_eq_div (b : Nat) (e : Int) :
    (b : ℚ) ^ e = Nat.pow b e.toNat / Nat.pow b (-e).toNat := by
  rcases le_total 0 e with h | h
  · obtain ⟨n, rfl⟩ := Int.eq_ofNat_of_zero_le h
    simp
  · obtain ⟨n, hn⟩ := Int.eq_ofNat_of_zero_le (neg_nonneg.2 h)
    obtain rfl : e = -n := by omega
    simp

/-- A power of two as a ratio of natural numbers, one of which is one. -/
theorem zpow_two_eq (e : Int) : (2 : ℚ) ^ e = Nat.pow 2 e.toNat / Nat.pow 2 (-e).toNat :=
  zpow_eq_div 2 e

/-- The least mantissa with 53 bits in units of `2 ^ e`. -/
theorem leastFull_mul_zpow (e : Int) : (leastFull : ℚ) * 2 ^ e = 2 ^ (e + 52) := by
  rw [zpow_add₀ two_ne_zero, mul_comm]
  norm_num [leastFull]

/-- The power of two at the logarithm is at most the number. -/
theorem two_pow_log2_le {n : Nat} (h : 0 < n) : (2 : ℚ) ^ n.log2 ≤ n := by
  exact_mod_cast Nat.log2_self_le h.ne'

/-- The power of two after the logarithm is more than the number. -/
theorem lt_two_pow_log2_add_one (n : Nat) : (n : ℚ) < 2 ^ (n.log2 + 1) := by
  exact_mod_cast Nat.lt_log2_self

/-- The binary logarithm of a quotient, rounded down. -/
theorem log2Ratio_spec {num den : Nat} (hnum : 0 < num) (hden : 0 < den) :
    (2 : ℚ) ^ log2Ratio num den ≤ num / den ∧ (num / den : ℚ) < 2 ^ (log2Ratio num den + 1) := by
  have hd : (0 : ℚ) < den := by exact_mod_cast hden
  have hnl := two_pow_log2_le hnum
  have hnu := lt_two_pow_log2_add_one num
  have hdl := two_pow_log2_le hden
  have hdu := lt_two_pow_log2_add_one den
  -- the difference of the logarithms is right, or one too large
  have hsub : (2 : ℚ) ^ ((num.log2 : Int) - den.log2) = 2 ^ num.log2 / 2 ^ den.log2 := by
    rw [zpow_sub₀ two_ne_zero, zpow_natCast, zpow_natCast]
  have htest : den * Nat.pow 2 ((num.log2 : Int) - den.log2).toNat ≤
      num * Nat.pow 2 (-((num.log2 : Int) - den.log2)).toNat ↔
        (2 : ℚ) ^ ((num.log2 : Int) - den.log2) ≤ num / den := by
    have hp : (0 : ℚ) < (Nat.pow 2 (-((num.log2 : Int) - den.log2)).toNat : Nat) := by
      exact_mod_cast Nat.pow_pos (by decide)
    rw [zpow_two_eq, div_le_div_iff₀ hp hd, mul_comm]
    norm_cast
  simp only [log2Ratio]
  split
  next h =>
    refine ⟨htest.1 h, ?_⟩
    rw [zpow_add_one₀ two_ne_zero, hsub, div_mul_eq_mul_div, div_lt_div_iff₀ hd (by positivity),
      ← pow_succ]
    exact mul_lt_mul hnu hdl (by positivity) (by positivity)
  next h =>
    have hlt := lt_of_not_ge fun hle => h (htest.2 hle)
    rw [sub_add_cancel]
    refine ⟨?_, hlt⟩
    rw [zpow_sub_one₀ two_ne_zero, hsub, ← div_eq_mul_inv, div_div, ← pow_succ,
      div_le_div_iff₀ (by positivity) hd]
    exact mul_le_mul hnl hdu.le hd.le (Nat.cast_nonneg _)

/-! ## Values of doubles -/

namespace Binary64

/-- The mantissa of a double with its sign. -/
def signedMantissa (x : Binary64) : Int := if x.negative then -x.mantissa else x.mantissa

/-- The value of a double. -/
def value (x : Binary64) : ℚ := x.signedMantissa * 2 ^ x.exponent

/-- A double is the one that a number rounds to: no other is nearer, and its last digit is zero if
another one is just as near. -/
structure Rounds (r : ℚ) (x : Binary64) : Prop where
  nearest : ∀ y : Binary64, |r - x.value| ≤ |r - y.value|
  even : ∀ y : Binary64, y.value ≠ x.value → |r - y.value| = |r - x.value| → x.mantissa % 2 = 0

/-- A double with an exponent of `e` or more is a multiple of `2 ^ e`. -/
theorem exists_value_eq_mul (x : Binary64) {e : Int} (h : e ≤ x.exponent) :
    ∃ j : Int, x.value = j * 2 ^ e := by
  obtain ⟨k, hk⟩ := Int.eq_ofNat_of_zero_le (sub_nonneg.2 h)
  refine ⟨x.signedMantissa * 2 ^ k, ?_⟩
  have hexp : x.exponent = k + e := by omega
  rw [value, hexp, zpow_add₀ two_ne_zero, zpow_natCast]
  push_cast
  ring

/-- A double with an exponent less than `e` is less than `2 ^ (e + 52)`. -/
theorem value_lt_of_exponent_lt (x : Binary64) {e : Int} (h : x.exponent < e) :
    x.value < 2 ^ (e + 52) := by
  have hmantissa : (x.signedMantissa : ℚ) < 2 ^ (53 : Int) := by
    have hlt := x.canonical.1
    have hsigned : x.signedMantissa < 2 ^ 53 := by
      have hfull : leastFull = 2 ^ 52 := rfl
      simp only [signedMantissa]
      split <;> omega
    exact_mod_cast hsigned
  have hpos : (0 : ℚ) < 2 ^ x.exponent := by positivity
  calc x.value < 2 ^ (53 : Int) * 2 ^ x.exponent := mul_lt_mul_of_pos_right hmantissa hpos
    _ = 2 ^ (53 + x.exponent) := (zpow_add₀ two_ne_zero _ _).symm
    _ ≤ 2 ^ (e + 52) := zpow_le_zpow_right₀ one_le_two (by omega)

/-- The magnitude of a double as a fraction of natural numbers. -/
theorem abs_value_eq (x : Binary64) : |x.value| = x.num / x.den := by
  have hsigned : |(x.signedMantissa : ℚ)| = x.mantissa := by
    simp only [signedMantissa]
    split <;> simp
  have hpos : (0 : ℚ) < 2 ^ x.exponent := by positivity
  rw [value, abs_mul, abs_of_pos hpos, hsigned, zpow_two_eq, num, den]
  push_cast
  ring

/-- The denominator of a double is a power of two. -/
theorem den_pos (x : Binary64) : 0 < x.den := Nat.pow_pos (by decide)

/-- The comparison of the magnitude with a whole number. -/
theorem magnitudeLe_iff (x : Binary64) (n : Nat) : x.magnitudeLe n = true ↔ |x.value| ≤ n := by
  have hpos : (0 : ℚ) < x.den := by exact_mod_cast x.den_pos
  rw [abs_value_eq, div_le_iff₀ hpos, magnitudeLe, decide_eq_true_iff]
  norm_cast

/-! ## Rounding -/

/-- The mantissa of the quotient in units of `2 ^ e`. -/
def roundedMantissa (num den : Nat) (e : Int) : Nat :=
  divNearestEven (num * Nat.pow 2 (-e).toNat) (den * Nat.pow 2 e.toNat)

/-- A distance in units of `2 ^ e`. -/
theorem abs_sub_mul_zpow (r a : ℚ) (e : Int) : |r - a * 2 ^ e| = |r / 2 ^ e - a| * 2 ^ e := by
  have hpos : (0 : ℚ) < 2 ^ e := by positivity
  rw [← abs_of_pos hpos, ← abs_mul, abs_of_pos hpos, sub_mul, div_mul_cancel₀ _ hpos.ne']

section

variable (num : Nat) {den : Nat} (hden : 0 < den) (e : Int)
include hden

/-- The quotient in units of `2 ^ e`, as a fraction of natural numbers. -/
theorem scaled_ratio_eq :
    ((num * Nat.pow 2 (-e).toNat : Nat) / (den * Nat.pow 2 e.toNat : Nat) : ℚ) =
      num / den / 2 ^ e := by
  have h₁ : (0 : ℚ) < (Nat.pow 2 e.toNat : Nat) := by exact_mod_cast Nat.pow_pos (by decide)
  have h₂ : (0 : ℚ) < (Nat.pow 2 (-e).toNat : Nat) := by exact_mod_cast Nat.pow_pos (by decide)
  have h₃ : (0 : ℚ) < den := by exact_mod_cast hden
  rw [zpow_two_eq]
  push_cast
  field_simp

/-- No multiple of `2 ^ e` is nearer than the rounded one. -/
theorem abs_sub_roundedMantissa_le (j : Int) :
    |(num / den : ℚ) - roundedMantissa num den e * 2 ^ e| ≤ |(num / den : ℚ) - j * 2 ^ e| := by
  have hpos : (0 : ℚ) < 2 ^ e := by positivity
  have hden' : 0 < den * Nat.pow 2 e.toNat := Nat.mul_pos hden (Nat.pow_pos (by decide))
  have hle := abs_ratio_sub_divNearestEven_le (num * Nat.pow 2 (-e).toNat) hden' j
  rw [scaled_ratio_eq num hden] at hle
  rw [abs_sub_mul_zpow, abs_sub_mul_zpow]
  exact mul_le_mul_of_nonneg_right hle hpos.le

/-- The rounded multiple of `2 ^ e` is even if another one is just as near. -/
theorem roundedMantissa_even_of_tie {j : Int} (hne : j ≠ roundedMantissa num den e)
    (h : |(num / den : ℚ) - j * 2 ^ e| = |(num / den : ℚ) - roundedMantissa num den e * 2 ^ e|) :
    roundedMantissa num den e % 2 = 0 := by
  have hpos : (0 : ℚ) < 2 ^ e := by positivity
  have hden' : 0 < den * Nat.pow 2 e.toNat := Nat.mul_pos hden (Nat.pow_pos (by decide))
  rw [abs_sub_mul_zpow, abs_sub_mul_zpow, mul_left_inj' hpos.ne', ← scaled_ratio_eq num hden] at h
  exact divNearestEven_even_of_tie _ hden' j hne h

/-- A quotient rounds to the multiple of `2 ^ e` that is nearest, if doubles with smaller exponents
are too small to be as near. -/
theorem rounds_of_value_eq (hlow : e = -1074 ∨ (2 : ℚ) ^ (e + 52) ≤ num / den) {x : Binary64}
    (hx : x.value = roundedMantissa num den e * 2 ^ e)
    (hmantissa : roundedMantissa num den e % 2 = 0 → x.mantissa % 2 = 0) :
    x.Rounds (num / den) := by
  -- between a double with a smaller exponent and the quotient there is a multiple of `2 ^ e`
  have hsmall : ∀ y : Binary64, y.exponent < e →
      |(num / den : ℚ) - x.value| < |(num / den : ℚ) - y.value| := by
    intro y hy
    have hleast := y.canonical.2.1
    have hr : (2 : ℚ) ^ (e + 52) ≤ num / den := hlow.resolve_left (by omega)
    have hlt := y.value_lt_of_exponent_lt hy
    have hle := abs_sub_roundedMantissa_le num hden e leastFull
    rw [Int.cast_natCast, leastFull_mul_zpow, ← hx, abs_of_nonneg (sub_nonneg.2 hr)] at hle
    rw [abs_of_pos (a := (num / den : ℚ) - y.value) (by linarith)]
    linarith
  constructor
  case nearest =>
    intro y
    rcases lt_or_ge y.exponent e with hy | hy
    · exact (hsmall y hy).le
    · obtain ⟨j, hj⟩ := y.exists_value_eq_mul hy
      rw [hx, hj]
      exact abs_sub_roundedMantissa_le num hden e j
  case even =>
    intro y hne htie
    rcases lt_or_ge y.exponent e with hy | hy
    · exact absurd htie (hsmall y hy).ne'
    · obtain ⟨j, hj⟩ := y.exists_value_eq_mul hy
      rw [hx, hj] at htie
      refine hmantissa (roundedMantissa_even_of_tie num hden e (fun hjm => hne ?_) htie)
      rw [hj, hx, hjm]
      norm_cast

end

/-- The exponent of the last place of the double that a quotient rounds to. -/
def lastPlace (num den : Nat) : Int := max (-1074) (log2Ratio num den - 52)

/-- What is made of a ratio: the rounded mantissa in its place, or one place higher if rounding
makes it too long. -/
theorem ofRatio?_eq {num : Nat} (den : Nat) (hnum : num ≠ 0) :
    ofRatio? false num den =
      if roundedMantissa num den (lastPlace num den) = 2 * leastFull then
        ofParts? false leastFull (lastPlace num den + 1)
      else ofParts? false (roundedMantissa num den (lastPlace num den)) (lastPlace num den) := by
  rw [ofRatio?, if_neg hnum]
  rfl

/-- What is known of parts that make a double. -/
theorem ofParts?_eq_some {negative : Bool} {m : Nat} {e : Int} {x : Binary64}
    (h : ofParts? negative m e = some x) :
    x.negative = negative ∧ x.mantissa = m ∧ x.exponent = e := by
  rw [ofParts?] at h
  split at h
  · obtain rfl := Option.some.inj h
    exact ⟨rfl, rfl, rfl⟩
  · exact nomatch h

/-- Parts of which no double is made are not canonical. -/
theorem not_canonical_of_ofParts? {negative : Bool} {m : Nat} {e : Int}
    (h : ofParts? negative m e = none) : ¬ Canonical m e := fun hcanonical => by
  rw [ofParts?, dif_pos hcanonical] at h
  exact nomatch h

/-- The place of the last digit is the least of all, or the quotient has 53 digits down to it. -/
theorem lastPlace_eq_or_le {num den : Nat} (hnum : 0 < num) (hden : 0 < den) :
    lastPlace num den = -1074 ∨ (2 : ℚ) ^ (lastPlace num den + 52) ≤ num / den := by
  rcases max_choice (-1074) (log2Ratio num den - 52) with h | h
  · exact .inl h
  · refine .inr ?_
    rw [lastPlace, h, sub_add_cancel]
    exact (log2Ratio_spec hnum hden).1

/-- The value of zero. -/
theorem value_zero : (zero false).value = 0 := by
  simp [value, zero, signedMantissa]

/-- The quotient rounds to the double that is made of it. -/
theorem rounds_of_ofRatio? {num den : Nat} (hden : 0 < den) {x : Binary64}
    (h : ofRatio? false num den = some x) : x.Rounds (num / den) := by
  rcases Nat.eq_zero_or_pos num with rfl | hnum
  · -- zero is a double
    rw [ofRatio?, if_pos rfl] at h
    obtain rfl := Option.some.inj h
    refine ⟨fun y => ?_, fun _ _ _ => rfl⟩
    simp [value_zero]
  · have hlow := lastPlace_eq_or_le hnum hden
    rw [ofRatio?_eq den hnum.ne'] at h
    split at h
    next hcarry =>
      -- a digit is carried to the next place, which leaves an even mantissa
      obtain ⟨hneg, hm, he⟩ := ofParts?_eq_some h
      refine rounds_of_value_eq num hden (lastPlace num den) hlow ?_ fun _ => by rw [hm]; decide
      rw [value, signedMantissa, hneg, hm, he, hcarry, zpow_add_one₀ two_ne_zero]
      push_cast
      ring
    next =>
      obtain ⟨hneg, hm, he⟩ := ofParts?_eq_some h
      refine rounds_of_value_eq num hden (lastPlace num den) hlow ?_ fun heven => by
        rw [hm]; exact heven
      rw [value, signedMantissa, hneg, hm, he]
      simp

/-- The rounded mantissa has 53 digits at most, and at least if the quotient has. -/
theorem roundedMantissa_le {num den : Nat} (hnum : 0 < num) (hden : 0 < den) :
    roundedMantissa num den (lastPlace num den) ≤ 2 * leastFull := by
  have hpos : (0 : ℚ) < 2 ^ lastPlace num den := by positivity
  have hlast : log2Ratio num den + 1 ≤ lastPlace num den + 53 := by
    have := le_max_right (-1074) (log2Ratio num den - 52)
    rw [lastPlace]
    omega
  have hlt : (num / den : ℚ) < 2 ^ (lastPlace num den + 53) :=
    (log2Ratio_spec hnum hden).2.trans_le (zpow_le_zpow_right₀ one_le_two hlast)
  have hgrid : ((2 ^ 53 : Int) : ℚ) * 2 ^ lastPlace num den = 2 ^ (lastPlace num den + 53) := by
    rw [zpow_add₀ two_ne_zero, mul_comm]
    norm_num
  -- a larger mantissa would be further away than the power of two
  have hnear := abs_sub_roundedMantissa_le num hden (lastPlace num den) (2 ^ 53)
  by_contra hgt
  have hcast : ((2 ^ 53 : Int) : ℚ) < roundedMantissa num den (lastPlace num den) := by
    exact_mod_cast not_le.1 hgt
  have hmul := mul_lt_mul_of_pos_right hcast hpos
  rw [hgrid] at hnear hmul
  rw [abs_of_neg (by linarith), abs_of_neg (by linarith)] at hnear
  linarith

/-- Rounding does not make a full mantissa too short. -/
theorem leastFull_le_roundedMantissa {num den : Nat} (hden : 0 < den) {e : Int}
    (h : (2 : ℚ) ^ (e + 52) ≤ num / den) : leastFull ≤ roundedMantissa num den e := by
  have hpos : (0 : ℚ) < 2 ^ e := by positivity
  have hnear := abs_sub_roundedMantissa_le num hden e leastFull
  by_contra hgt
  have hcast : (roundedMantissa num den e : ℚ) < (leastFull : Nat) := by
    exact_mod_cast not_le.1 hgt
  have hmul := mul_lt_mul_of_pos_right hcast hpos
  rw [Int.cast_natCast, leastFull_mul_zpow] at hnear
  rw [leastFull_mul_zpow] at hmul
  rw [abs_of_pos (by linarith), abs_of_nonneg (by linarith)] at hnear
  linarith

/-- Half a unit of the last place beyond the largest double. -/
def overflow : ℚ := (2 * leastFull - 1 / 2) * 2 ^ (971 : Int)

/-- The bound of overflow is at most the power of two after the last exponent. -/
theorem overflow_le_two_pow : overflow ≤ 2 ^ (1024 : Int) :=
  calc overflow ≤ 2 * leastFull * 2 ^ (971 : Int) :=
        mul_le_mul_of_nonneg_right (sub_le_self _ (by norm_num)) (by positivity)
    _ = 2 * 2 ^ (1023 : Int) := by rw [mul_assoc, leastFull_mul_zpow]; rfl
    _ = 2 ^ (1024 : Int) := by rw [← zpow_one_add₀ two_ne_zero]; rfl

/-- The bound of overflow is at least the last power of two that a double has. -/
theorem two_pow_le_overflow : (2 : ℚ) ^ (1023 : Int) ≤ overflow :=
  calc (2 : ℚ) ^ (1023 : Int) = leastFull * 2 ^ (971 : Int) := (leastFull_mul_zpow 971).symm
    _ ≤ overflow := mul_le_mul_of_nonneg_right (by norm_num [leastFull]) (by positivity)

/-- Numbers of a few digits are far from the largest double. -/
theorem thousand_lt_overflow : (1000 : ℚ) < overflow :=
  calc (1000 : ℚ) < 2 ^ (10 : Int) := by norm_num
    _ ≤ 2 ^ (1023 : Int) := zpow_le_zpow_right₀ one_le_two (by decide)
    _ ≤ overflow := two_pow_le_overflow

/-- All that can be wrong with the parts of a quotient is that the exponent is too large, at once or
with a carry. -/
theorem le_lastPlace_of_ofRatio?_eq_none {num den : Nat} (hnum : 0 < num) (hden : 0 < den)
    (h : ofRatio? false num den = none) : 971 ≤ lastPlace num den ∧
      (lastPlace num den = 971 →
        roundedMantissa num den (lastPlace num den) = 2 * leastFull) := by
  have hlow := lastPlace_eq_or_le hnum hden
  have hleast : -1074 ≤ lastPlace num den := le_max_left _ _
  have hle := roundedMantissa_le hnum hden
  rw [ofRatio?_eq den hnum.ne'] at h
  by_contra hlt
  split at h
  next hcarry =>
    exact not_canonical_of_ofParts? h ⟨by decide, by omega, by omega, .inl (le_refl _)⟩
  next hcarry =>
    exact not_canonical_of_ofParts? h ⟨by omega, hleast, by omega,
      hlow.symm.imp_left fun hr => leastFull_le_roundedMantissa hden hr⟩

/-- A quotient that no double is made of is no nearer to the largest double than to what would come
after it. -/
theorem overflow_le_of_ofRatio?_eq_none {num den : Nat} (hden : 0 < den)
    (h : ofRatio? false num den = none) : overflow ≤ num / den := by
  rcases Nat.eq_zero_or_pos num with rfl | hnum
  · rw [ofRatio?, if_pos rfl] at h
    exact nomatch h
  · obtain ⟨hmin, hcarry⟩ := le_lastPlace_of_ofRatio?_eq_none hnum hden h
    rcases hmin.lt_or_eq with hlt | heq
    · have hr := (lastPlace_eq_or_le hnum hden).resolve_left (by omega)
      exact overflow_le_two_pow.trans ((zpow_le_zpow_right₀ one_le_two (by omega)).trans hr)
    · -- the largest mantissa of all is not nearer than the one after it
      have hnear := abs_sub_roundedMantissa_le num hden (lastPlace num den) (2 * leastFull - 1)
      rw [hcarry heq.symm, ← heq] at hnear
      have hpos : (0 : ℚ) < 2 ^ (971 : Int) := by positivity
      rw [overflow]
      generalize (2 : ℚ) ^ (971 : Int) = unit at hnear hpos ⊢
      generalize (num / den : ℚ) = r at hnear ⊢
      norm_num [leastFull] at hnear ⊢
      by_contra hr
      rw [abs_of_neg (by linarith)] at hnear
      rcases abs_cases (r - 9007199254740991 * unit) with ⟨habs, -⟩ | ⟨habs, -⟩ <;> linarith

/-! ## Decimal numbers -/

/-- A decimal number as a fraction of natural numbers. -/
theorem decimal_eq_ratio (digits : Nat) (e : Int) :
    ((digits * Nat.pow 10 e.toNat : Nat) / (Nat.pow 10 (-e).toNat : Nat) : ℚ) =
      digits * 10 ^ e := by
  rw [Nat.cast_mul, mul_div_assoc, ← zpow_eq_div, Nat.cast_ofNat]

/-- Every power of ten is at least the power of two with three times its exponent. -/
theorem two_pow_three_mul_le (n : Nat) : (2 : ℚ) ^ (3 * n) ≤ 10 ^ n := by
  rw [pow_mul]
  exact pow_le_pow_left₀ (by norm_num) (by norm_num) n

/-- A decimal number with an exponent that is small enough is very small. -/
theorem decimal_lt_of_exponent_lt {digits : Nat} {e : Int}
    (h : e < -(400 + (digits.log2 : Int))) : 2 * ((digits : ℚ) * 10 ^ e) < 2 ^ (-1074 : Int) := by
  have hdigits : (digits : ℚ) < 10 ^ (digits.log2 + 1) :=
    (lt_two_pow_log2_add_one digits).trans_le (pow_le_pow_left₀ zero_le_two (by norm_num) _)
  have hpow : (10 : ℚ) ^ e ≤ 10 ^ (-(401 + (digits.log2 : Int))) :=
    zpow_le_zpow_right₀ (by norm_num) (by omega)
  have hpos : (0 : ℚ) < 10 ^ e := by positivity
  -- the digits are taken up by their number of places, and `10 ^ 400` is above `2 ^ 1200`
  calc 2 * ((digits : ℚ) * 10 ^ e)
      < 2 * (10 ^ (digits.log2 + 1) * 10 ^ e) := by
        linarith [mul_lt_mul_of_pos_right hdigits hpos]
    _ ≤ 2 * (10 ^ (digits.log2 + 1) * 10 ^ (-(401 + (digits.log2 : Int)))) := by
        have := mul_le_mul_of_nonneg_left hpow (by positivity : (0 : ℚ) ≤ 10 ^ (digits.log2 + 1))
        linarith
    _ = 2 * 10 ^ (-400 : Int) := by
        rw [← zpow_natCast, ← zpow_add₀ (by norm_num)]
        congr 2
        push_cast
        ring
    _ ≤ 2 * 2 ^ (-1200 : Int) := by
        have hle := inv_anti₀ (by positivity) (two_pow_three_mul_le 400)
        rw [← zpow_natCast, ← zpow_natCast, ← zpow_neg, ← zpow_neg] at hle
        exact mul_le_mul_of_nonneg_left hle zero_le_two
    _ = 2 ^ (-1199 : Int) := by rw [← zpow_one_add₀ two_ne_zero]; rfl
    _ ≤ 2 ^ (-1074 : Int) := zpow_le_zpow_right₀ one_le_two (by decide)

/-- A number that is very small rounds to zero. -/
theorem rounds_zero {r : ℚ} (hr : 0 ≤ r) (hlt : 2 * r < 2 ^ (-1074 : Int)) :
    (zero false).Rounds r := by
  refine ⟨fun y => ?_, fun _ _ _ => rfl⟩
  obtain ⟨j, hj⟩ := y.exists_value_eq_mul y.canonical.2.1
  have hpos : (0 : ℚ) < 2 ^ (-1074 : Int) := by positivity
  rw [value_zero, sub_zero, abs_of_nonneg hr, hj]
  rcases lt_or_ge 0 j with hj0 | hj0
  · have hone : (1 : ℚ) ≤ j := by exact_mod_cast hj0
    have hle := mul_le_mul_of_nonneg_right hone hpos.le
    rw [abs_of_neg (by linarith)]
    linarith
  · have hnonpos : (j : ℚ) ≤ 0 := by exact_mod_cast hj0
    have hle := mul_le_mul_of_nonneg_right hnonpos hpos.le
    rw [abs_of_nonneg (by linarith)]
    linarith

/-- A decimal number rounds to the double that is made of it. -/
theorem rounds_of_ofDecimal? {digits : Nat} {e : Int} {x : Binary64}
    (h : ofDecimal? false digits e = some x) : x.Rounds (digits * 10 ^ e) := by
  rw [ofDecimal?] at h
  split at h
  next hzero =>
    obtain rfl := Option.some.inj h
    rw [hzero, Nat.cast_zero, zero_mul]
    exact rounds_zero le_rfl (by norm_num)
  next =>
    split at h
    · exact nomatch h
    · split at h
      next hsmall =>
        obtain rfl := Option.some.inj h
        exact rounds_zero (by positivity) (decimal_lt_of_exponent_lt hsmall)
      next =>
        have hden : 0 < Nat.pow 10 (-e).toNat := Nat.pow_pos (by decide)
        have hround := rounds_of_ofRatio? hden h
        rwa [decimal_eq_ratio] at hround

/-- A decimal number that no double is made of is no nearer to the largest double than to what would
come after it. -/
theorem overflow_le_of_ofDecimal?_eq_none {digits : Nat} {e : Int}
    (h : ofDecimal? false digits e = none) : overflow ≤ digits * 10 ^ e := by
  rw [ofDecimal?] at h
  split at h
  · exact nomatch h
  next hzero =>
    split at h
    next hlarge =>
      -- the exponent alone makes it too large
      have hone : (1 : ℚ) ≤ digits := by exact_mod_cast Nat.one_le_iff_ne_zero.2 hzero
      have hpow : (10 : ℚ) ^ (400 : Int) ≤ 10 ^ e := zpow_le_zpow_right₀ (by norm_num) hlarge.le
      calc overflow ≤ 2 ^ (1024 : Int) := overflow_le_two_pow
        _ ≤ 2 ^ (1200 : Int) := zpow_le_zpow_right₀ one_le_two (by decide)
        _ ≤ 10 ^ (400 : Int) := two_pow_three_mul_le 400
        _ ≤ 10 ^ e := hpow
        _ = 1 * 10 ^ e := (one_mul _).symm
        _ ≤ digits * 10 ^ e := mul_le_mul_of_nonneg_right hone (by positivity)
    next =>
      split at h
      · exact nomatch h
      · have hden : 0 < Nat.pow 10 (-e).toNat := Nat.pow_pos (by decide)
        have hle := overflow_le_of_ofRatio?_eq_none hden h
        rwa [decimal_eq_ratio] at hle

/-! ## Uniqueness -/

/-- A double that is not negative is its mantissa at its place. -/
theorem value_eq_of_nonneg {x : Binary64} (h : 0 ≤ x.value) :
    x.value = x.mantissa * 2 ^ x.exponent := by
  have hpos : (0 : ℚ) < 2 ^ x.exponent := by positivity
  rw [← abs_of_nonneg h, value, abs_mul, abs_of_pos hpos, signedMantissa]
  split <;> simp

/-- A double with a mantissa of 53 bits is at least as large as the power of two in its first
place. -/
theorem two_pow_le_mantissa_mul {x : Binary64} (h : leastFull ≤ x.mantissa) :
    (2 : ℚ) ^ (x.exponent + 52) ≤ x.mantissa * 2 ^ x.exponent := by
  rw [← leastFull_mul_zpow]
  exact mul_le_mul_of_nonneg_right (by exact_mod_cast h) (by positivity)

/-- A larger double has no smaller exponent. -/
theorem exponent_le_of_value_lt {x y : Binary64} (hx : 0 ≤ x.value) (h : x.value < y.value) :
    x.exponent ≤ y.exponent := by
  by_contra hgt
  have hsmall := y.value_lt_of_exponent_lt (not_le.1 hgt)
  have hleast := y.canonical.2.1
  -- an exponent that is not the least of all belongs to 53 bits
  have hfull := x.canonical.2.2.2.resolve_right (by omega)
  have hlarge := two_pow_le_mantissa_mul hfull
  rw [← value_eq_of_nonneg hx] at hlarge
  linarith

/-- Between two doubles with even mantissas there is another one. -/
theorem exists_value_between {x y : Binary64} (hx : 0 ≤ x.value) (hlt : x.value < y.value)
    (hxeven : x.mantissa % 2 = 0) (hyeven : y.mantissa % 2 = 0) :
    ∃ z : Binary64, x.value < z.value ∧ z.value < y.value := by
  have hpos : (0 : ℚ) < 2 ^ x.exponent := by positivity
  have hxv := value_eq_of_nonneg hx
  have hyv := value_eq_of_nonneg (hx.trans hlt.le)
  -- an even mantissa is not the largest one, so that the next double has the same exponent
  have hcanonical : Canonical (x.mantissa + 1) x.exponent := by
    obtain ⟨hm, hlow, hhigh, hfull⟩ := x.canonical
    have hodd : 2 * leastFull % 2 = 0 := by decide
    exact ⟨by omega, hlow, hhigh, hfull.imp_left fun h => by omega⟩
  have hzv : (Binary64.mk false (x.mantissa + 1) x.exponent hcanonical).value =
      (x.mantissa + 1) * 2 ^ x.exponent := by
    rw [value, signedMantissa]
    simp
  refine ⟨⟨false, x.mantissa + 1, x.exponent, hcanonical⟩, ?_, ?_⟩
  · rw [hzv, hxv]
    linarith
  · -- the larger double is on the same grid
    have hexp := exponent_le_of_value_lt hx hlt
    obtain ⟨k, hk⟩ := Int.eq_ofNat_of_zero_le (sub_nonneg.2 hexp)
    have hyk : y.value = ((y.mantissa * 2 ^ k : Nat) : ℚ) * 2 ^ x.exponent := by
      have hye : y.exponent = k + x.exponent := by omega
      rw [hyv, hye, zpow_add₀ two_ne_zero, zpow_natCast]
      push_cast
      ring
    rw [hxv, hyk] at hlt
    have hlt' : x.mantissa < y.mantissa * 2 ^ k := by
      exact_mod_cast lt_of_mul_lt_mul_right hlt hpos.le
    -- it is even on that grid too, so it is not the next one
    have heven : y.mantissa * 2 ^ k % 2 = 0 := by
      rw [Nat.mul_mod, hyeven, Nat.zero_mul, Nat.zero_mod]
    have hnext : x.mantissa + 1 < y.mantissa * 2 ^ k := by omega
    rw [hzv, hyk]
    exact mul_lt_mul_of_pos_right (by exact_mod_cast hnext) hpos

/-- A double that a number rounds to is not negative if the number is not. -/
theorem Rounds.value_nonneg {r : ℚ} {x : Binary64} (hr : 0 ≤ r) (h : x.Rounds r) :
    0 ≤ x.value := by
  by_contra hneg
  have hzero := h.nearest (zero false)
  rw [value_zero, sub_zero, abs_of_nonneg hr, abs_of_pos (by linarith)] at hzero
  linarith

/-- Of two doubles that a number rounds to, neither is less than the other. -/
theorem Rounds.not_value_lt {r : ℚ} {x y : Binary64} (hr : 0 ≤ r) (hx : x.Rounds r)
    (hy : y.Rounds r) : ¬ x.value < y.value := by
  intro hlt
  have hxy := hx.nearest y
  have hyx := hy.nearest x
  have heq := le_antisymm hxy hyx
  obtain ⟨z, hxz, hzy⟩ := exists_value_between (hx.value_nonneg hr) hlt
    (hx.even y hlt.ne' heq.symm) (hy.even x hlt.ne heq)
  -- the number lies half way between the two, so the one between them is nearer
  have hz := hx.nearest z
  rcases abs_cases (r - x.value) with ⟨ha, _⟩ | ⟨ha, _⟩ <;>
    rcases abs_cases (r - y.value) with ⟨hb, _⟩ | ⟨hb, _⟩ <;>
      rcases abs_cases (r - z.value) with ⟨hc, _⟩ | ⟨hc, _⟩ <;> linarith

/-- A number rounds to one value only. -/
theorem Rounds.value_unique {r : ℚ} {x y : Binary64} (hr : 0 ≤ r) (hx : x.Rounds r)
    (hy : y.Rounds r) : x.value = y.value :=
  le_antisymm (not_lt.1 (hy.not_value_lt hr hx)) (not_lt.1 (hx.not_value_lt hr hy))

/-! ## Order -/

/-- A larger number does not round to a smaller double. -/
theorem Rounds.value_le {r s : ℚ} {x y : Binary64} (hr : 0 ≤ r) (hrs : r ≤ s) (hx : x.Rounds r)
    (hy : y.Rounds s) : x.value ≤ y.value := by
  rcases hrs.eq_or_lt with rfl | hlt
  · exact (hx.value_unique hr hy).le
  · -- the numbers would lie on the wrong sides of the middle of the two doubles
    by_contra hgt
    have hxy := hx.nearest y
    have hyx := hy.nearest x
    rcases abs_cases (r - x.value) with ⟨ha, _⟩ | ⟨ha, _⟩ <;>
      rcases abs_cases (r - y.value) with ⟨hb, _⟩ | ⟨hb, _⟩ <;>
        rcases abs_cases (s - x.value) with ⟨hc, _⟩ | ⟨hc, _⟩ <;>
          rcases abs_cases (s - y.value) with ⟨hd, _⟩ | ⟨hd, _⟩ <;> linarith

/-- A double rounds to itself. -/
theorem rounds_value (x : Binary64) : x.Rounds x.value := by
  constructor
  case nearest =>
    intro y
    rw [sub_self, abs_zero]
    exact abs_nonneg _
  case even =>
    intro y hne htie
    rw [sub_self, abs_zero, abs_eq_zero, sub_eq_zero] at htie
    exact absurd htie.symm hne

/-- A number that rounds to something less than a double is less than the double. -/
theorem Rounds.lt_of_value_lt {r : ℚ} {x y : Binary64} (hy : 0 ≤ y.value) (hx : x.Rounds r)
    (h : x.value < y.value) : r < y.value := by
  by_contra hge
  exact absurd (y.rounds_value.value_le hy (not_lt.1 hge) hx) (not_le.2 h)

/-- Every mantissa of at most 53 bits makes a double with every exponent in the range: it is shifted
up until it is full. -/
theorem exists_value_eq {m : Nat} (hm : m < 2 * leastFull) {e : Int} (hlow : -1074 ≤ e)
    (hhigh : e ≤ 971) : ∃ x : Binary64, x.value = m * 2 ^ e := by
  obtain ⟨n, hn⟩ := Int.eq_ofNat_of_zero_le (by omega : 0 ≤ e + 1074)
  induction n generalizing m e with
  | zero => exact ⟨⟨false, m, e, hm, hlow, hhigh, .inr (by omega)⟩, by simp [value, signedMantissa]⟩
  | succ n ih =>
    by_cases hfull : leastFull ≤ m
    · exact ⟨⟨false, m, e, hm, hlow, hhigh, .inl hfull⟩, by simp [value, signedMantissa]⟩
    · obtain ⟨x, hx⟩ := ih (m := 2 * m) (e := e - 1) (by omega) (by omega) (by omega) (by omega)
      refine ⟨x, ?_⟩
      rw [hx, zpow_sub_one₀ two_ne_zero]
      push_cast
      ring

/-- Whole numbers of at most 53 bits are doubles. -/
theorem exists_value_eq_natCast {m : Nat} (hm : m < 2 * leastFull) :
    ∃ x : Binary64, x.value = m := by
  obtain ⟨x, hx⟩ := exists_value_eq hm (e := 0) (by decide) (by decide)
  exact ⟨x, by rw [hx, zpow_zero, mul_one]⟩

end Binary64

end Dashboards.Decimal
