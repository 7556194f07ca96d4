import Dashboards.Decimal.Literal
import Dashboards.Decimal.Shortest
import Dashboards.Proofs.Decimal.Nearest
import Mathlib.Data.List.TakeWhile

/-!
# Shortest digits read back

The digits that are written for a double denote a number that is nearer to the double than to any
other, or just as near if the double is the one that ties go to.  So a literal with the sign of the
double and the value of those digits reads back as the double.

The argument is about the half way points around a double: `Binary64.Near` says that a number lies
between them, the search for digits finds no other numbers, and all such numbers round to the
double.

## Key results

- `Binary64.Near.rounds`, `Binary64.near_shortest`
- `Literal.nearest?_of_value_eq`: a literal that denotes the shortest digits reads back
-/

namespace Dashboards.Decimal

/-! ## Rows of digits -/

/-- The value of a row of digits after another one. -/
theorem valueOf_append (as bs : List Char) :
    valueOf 10 (as ++ bs) = valueOf 10 as * 10 ^ bs.length + valueOf 10 bs := by
  induction bs using List.reverseRecOn with
  | nil => simp [valueOf]
  | append_singleton bs b ih =>
    rw [← List.append_assoc, valueOf_append_singleton, ih, valueOf_append_singleton,
      List.length_append, List.length_singleton, pow_succ]
    ring

/-- Zeros count for nothing. -/
theorem valueOf_replicate_zero (n : Nat) : valueOf 10 (List.replicate n '0') = 0 := by
  induction n with
  | zero => rfl
  | succ n ih =>
    rw [List.replicate_succ', valueOf_append_singleton, ih]
    rfl

/-- The number that digits with an exponent stand for. -/
def Scientific.value (s : Scientific) : ℚ :=
  valueOf 10 s.digits * 10 ^ (s.exponent + 1 - s.digits.length)

/-- The digits of a number are those that are kept and some zeros. -/
theorem Scientific.exists_digits_eq (a : Nat) (k : Int) :
    ∃ n, Decimal.digits a = (Scientific.ofScaled a k).digits ++ List.replicate n '0' := by
  refine ⟨((Decimal.digits a).reverse.takeWhile (· == '0')).length, ?_⟩
  have hzeros : ((Decimal.digits a).reverse.takeWhile (· == '0')).reverse =
      List.replicate ((Decimal.digits a).reverse.takeWhile (· == '0')).length '0' := by
    refine List.eq_replicate_iff.2 ⟨List.length_reverse, fun c hc => ?_⟩
    have himp := List.mem_takeWhile_imp (List.mem_reverse.1 hc)
    exact beq_iff_eq.1 himp
  rw [← hzeros, Scientific.ofScaled, ← List.reverse_append, List.takeWhile_append_dropWhile,
    List.reverse_reverse]

/-- Zeros at the end are made up for by the exponent. -/
theorem Scientific.value_ofScaled (a : Nat) (k : Int) :
    (Scientific.ofScaled a k).value = a * 10 ^ k := by
  obtain ⟨n, hdigits⟩ := Scientific.exists_digits_eq a k
  obtain ⟨kept, hkept⟩ : ∃ kept, (Scientific.ofScaled a k).digits = kept := ⟨_, rfl⟩
  rw [hkept] at hdigits
  have hlength : (Decimal.digits a).length = kept.length + n := by
    rw [hdigits, List.length_append, List.length_replicate]
  have hpos : 0 < (Decimal.digits a).length := List.length_pos_iff.2 Nat.toDigits_ne_nil
  have hexponent : (Scientific.ofScaled a k).exponent + 1 - kept.length = k + n := by
    simp only [Scientific.ofScaled]
    omega
  have hvalue : a = valueOf 10 kept * 10 ^ n := by
    conv_lhs => rw [← valueOf_digits a, hdigits, valueOf_append, valueOf_replicate_zero,
      List.length_replicate, Nat.add_zero]
  rw [Scientific.value, hkept, hexponent, zpow_add₀ (by norm_num), zpow_natCast]
  conv_rhs => rw [hvalue]
  push_cast
  ring

namespace Binary64

/-! ## Neighbours -/

/-- The distance of a double from the next smaller one. -/
def stepDown (x : Binary64) : ℚ :=
  if x.mantissa = leastFull ∧ x.exponent ≠ -1074 then 2 ^ (x.exponent - 1) else 2 ^ x.exponent

/-- There is a distance to the double below. -/
theorem stepDown_pos (x : Binary64) : 0 < x.stepDown := by
  rw [stepDown]
  split <;> positivity

/-- The double below is not farther away than the one above. -/
theorem stepDown_le (x : Binary64) : x.stepDown ≤ 2 ^ x.exponent := by
  rw [stepDown]
  split
  · exact zpow_le_zpow_right₀ one_le_two (by omega)
  · exact le_rfl

/-- Different multiples of a unit are a unit apart at least. -/
theorem mul_add_le_of_mul_lt {a b : Int} {u : ℚ} (hu : 0 < u) (h : a * u < b * u) :
    a * u + u ≤ b * u := by
  have hlt : (a : ℚ) < b := lt_of_mul_lt_mul_right h hu.le
  have hle : (a : ℚ) + 1 ≤ b := by exact_mod_cast (show a < b by exact_mod_cast hlt)
  calc a * u + u = (a + 1) * u := by ring
    _ ≤ b * u := mul_le_mul_of_nonneg_right hle hu.le

/-- A double that is smaller than a multiple of a unit is smaller by the unit at least, if doubles
with smaller exponents are smaller than the multiple before. -/
theorem value_le_sub_of_lt_mul {y : Binary64} {m : Nat} {e : Int}
    (hm : e = -1074 ∨ leastFull < m) (h : y.value < m * 2 ^ e) :
    y.value ≤ m * 2 ^ e - 2 ^ e := by
  have hpos : (0 : ℚ) < 2 ^ e := by positivity
  rcases le_or_gt e y.exponent with hle | hlt
  · obtain ⟨j, hj⟩ := y.exists_value_eq_mul hle
    rw [hj, ← Int.cast_natCast m] at h ⊢
    linarith [mul_add_le_of_mul_lt hpos h]
  · have hleast := y.canonical.2.1
    have hcast : (leastFull : ℚ) + 1 ≤ m := by exact_mod_cast hm.resolve_left (by omega)
    have hmul := mul_le_mul_of_nonneg_right hcast hpos.le
    have hsmall := y.value_lt_of_exponent_lt hlt
    rw [← leastFull_mul_zpow] at hsmall
    linarith

section

variable {x y : Binary64} (hx : 0 ≤ x.value)
include hx

/-- A larger double is larger by a unit of the last place at least. -/
theorem add_le_value_of_lt (h : x.value < y.value) : x.value + 2 ^ x.exponent ≤ y.value := by
  have hpos : (0 : ℚ) < 2 ^ x.exponent := by positivity
  -- both are multiples of the unit
  obtain ⟨j, hj⟩ := y.exists_value_eq_mul (exponent_le_of_value_lt hx h)
  rw [value_eq_of_nonneg hx, hj, ← Int.cast_natCast x.mantissa] at h ⊢
  exact mul_add_le_of_mul_lt hpos h

/-- A smaller double is smaller by the distance of the next one at least. -/
theorem value_le_sub_of_lt (h : y.value < x.value) : y.value ≤ x.value - x.stepDown := by
  rw [value_eq_of_nonneg hx] at h ⊢
  rw [stepDown]
  split
  next hpower =>
    -- below a power of two the doubles lie twice as close
    have hhalf : (x.mantissa * 2 ^ x.exponent : ℚ) =
        (2 * x.mantissa : Nat) * 2 ^ (x.exponent - 1) := by
      rw [zpow_sub_one₀ two_ne_zero]
      push_cast
      ring
    rw [hhalf] at h ⊢
    have hlarge : leastFull < 2 * x.mantissa := by
      rw [hpower.1]
      decide
    exact value_le_sub_of_lt_mul (.inr hlarge) h
  next hpower =>
    refine value_le_sub_of_lt_mul (or_iff_not_imp_left.2 fun hne => ?_) h
    have hfull := x.canonical.2.2.2.resolve_right hne
    exact hfull.lt_of_ne fun he => hpower ⟨he.symm, hne⟩

end

/-! ## Half way points -/

/-- A number lies between the half way points around the magnitude of a double; on one of them only
if ties go to the double. -/
structure Near (x : Binary64) (r : ℚ) : Prop where
  low : x.mantissa * 2 ^ x.exponent - x.stepDown / 2 ≤ r
  high : r ≤ x.mantissa * 2 ^ x.exponent + 2 ^ x.exponent / 2
  even : r = x.mantissa * 2 ^ x.exponent - x.stepDown / 2 ∨
    r = x.mantissa * 2 ^ x.exponent + 2 ^ x.exponent / 2 → x.mantissa % 2 = 0

/-- The magnitude itself is between them. -/
theorem near_self (x : Binary64) : x.Near (x.mantissa * 2 ^ x.exponent) := by
  have hdown := x.stepDown_pos
  have hup : (0 : ℚ) < 2 ^ x.exponent := by positivity
  refine ⟨by linarith, by linarith, ?_⟩
  rintro (h | h) <;> linarith

/-- The numbers between the half way points round to the double. -/
theorem Near.rounds {x : Binary64} {r : ℚ} (hx : 0 ≤ x.value) (h : x.Near r) : x.Rounds r := by
  have hxv := value_eq_of_nonneg hx
  have hdown := x.stepDown_pos
  have hup : (0 : ℚ) < 2 ^ x.exponent := by positivity
  obtain ⟨hlow, hhigh, heven⟩ := h
  rw [← hxv] at hlow hhigh heven
  -- every other double is at least as far away, and further if the number is no half way point
  have hfar : ∀ y : Binary64, y.value ≠ x.value →
      |r - x.value| ≤ |r - y.value| ∧ (|r - y.value| = |r - x.value| → x.mantissa % 2 = 0) := by
    intro y hne
    rcases hne.lt_or_gt with hlt | hgt
    · have hgap := value_le_sub_of_lt hx hlt
      rw [abs_of_nonneg (by linarith : 0 ≤ r - y.value)]
      rcases abs_cases (r - x.value) with ⟨habs, -⟩ | ⟨habs, -⟩ <;> rw [habs]
      · exact ⟨by linarith, fun heq => by linarith⟩
      · exact ⟨by linarith, fun heq => heven (.inl (by linarith))⟩
    · have hgap := add_le_value_of_lt hx hgt
      rw [abs_of_nonpos (by linarith : r - y.value ≤ 0)]
      rcases abs_cases (r - x.value) with ⟨habs, -⟩ | ⟨habs, -⟩ <;> rw [habs]
      · exact ⟨by linarith, fun heq => heven (.inr (by linarith))⟩
      · exact ⟨by linarith, fun heq => by linarith⟩
  refine ⟨fun y => ?_, fun y hne => (hfar y hne).2⟩
  by_cases hne : y.value = x.value
  · rw [hne]
  · exact (hfar y hne).1

/-- The numbers between the half way points are not too large for a double. -/
theorem Near.lt_overflow {x : Binary64} {r : ℚ} (h : x.Near r) : r < overflow := by
  obtain ⟨hmantissa, -, hexponent, -⟩ := x.canonical
  have hunit : (0 : ℚ) < 2 ^ (971 : Int) := by positivity
  have hcast : (x.mantissa : ℚ) + 1 ≤ 2 * (leastFull : Nat) := by exact_mod_cast hmantissa
  rw [overflow]
  obtain ⟨full, hfull⟩ : ∃ full : ℚ, ((leastFull : Nat) : ℚ) = full := ⟨_, rfl⟩
  have hone : 1 ≤ full := by rw [← hfull]; norm_num [leastFull]
  rw [hfull] at hcast ⊢
  rcases hexponent.lt_or_eq with hlt | heq
  · -- with a smaller exponent they do not come near the bound
    have hpow : (2 : ℚ) ^ x.exponent ≤ 2 ^ (970 : Int) := zpow_le_zpow_right₀ one_le_two (by omega)
    have hmiddle : 0 < 2 * full - 1 / 2 := by linarith only [hone]
    calc r ≤ (x.mantissa + 1 / 2) * 2 ^ x.exponent := by linarith only [h.high]
      _ ≤ (2 * full - 1 / 2) * 2 ^ x.exponent :=
        mul_le_mul_of_nonneg_right (by linarith only [hcast]) (by positivity)
      _ ≤ (2 * full - 1 / 2) * 2 ^ (970 : Int) := mul_le_mul_of_nonneg_left hpow hmiddle.le
      _ < (2 * full - 1 / 2) * 2 ^ (971 : Int) :=
        mul_lt_mul_of_pos_left (zpow_lt_zpow_right₀ one_lt_two (by decide)) hmiddle
  · have hhigh := h.high
    have heven := h.even
    rw [heq] at hhigh heven
    by_contra hge
    rw [not_lt] at hge
    -- only the largest double comes that far, which is odd and does not own the half way point
    have hmax : (x.mantissa : ℚ) + 1 = 2 * full := by
      refine le_antisymm hcast ?_
      have hle : (2 * full - 1 / 2) * 2 ^ (971 : Int) ≤
          ((x.mantissa : ℚ) + 1 / 2) * 2 ^ (971 : Int) := by linarith only [hge, hhigh]
      linarith only [le_of_mul_le_mul_right hle hunit]
    have hlast : x.mantissa + 1 = 2 * leastFull := by
      rw [← hfull] at hmax
      exact_mod_cast hmax
    have := heven (.inr (by rw [← hmax] at hge; linarith only [hge, hhigh]))
    omega

/-! ## The search for digits -/

/-- The interval is given in quarters of the unit. -/
theorem zpow_eq_four_mul (e : Int) : (2 : ℚ) ^ e = 4 * 2 ^ (e - 2) := by
  rw [zpow_sub₀ two_ne_zero]
  norm_num
  ring

/-- The ends of the interval that is searched are the half way points. -/
theorem low_div_den (x : Binary64) (hx : x.mantissa ≠ 0) :
    (x.neighbourhood.low / x.neighbourhood.den : ℚ) =
      x.mantissa * 2 ^ x.exponent - x.stepDown / 2 := by
  have hquarter := zpow_eq_four_mul x.exponent
  have hscale : ∀ m : Nat, ((m * Nat.pow 2 (x.exponent - 2).toNat : Nat) /
      (Nat.pow 2 (-(x.exponent - 2)).toNat : Nat) : ℚ) = m * 2 ^ (x.exponent - 2) := by
    intro m
    rw [zpow_two_eq]
    push_cast
    ring
  simp only [neighbourhood]
  rw [hscale, stepDown]
  split
  · have hhalf : (2 : ℚ) ^ (x.exponent - 1) = 2 * 2 ^ (x.exponent - 2) := by
      rw [← zpow_one_add₀ two_ne_zero]
      ring_nf
    rw [Nat.cast_sub (by omega), hhalf, hquarter]
    push_cast
    ring
  · rw [Nat.cast_sub (by omega), hquarter]
    push_cast
    ring

/-- The upper end of the neighbourhood is half a step above the double. -/
theorem high_div_den (x : Binary64) :
    (x.neighbourhood.high / x.neighbourhood.den : ℚ) =
      x.mantissa * 2 ^ x.exponent + 2 ^ x.exponent / 2 := by
  have hquarter := zpow_eq_four_mul x.exponent
  simp only [neighbourhood]
  rw [hquarter, zpow_two_eq (x.exponent - 2)]
  push_cast
  ring

end Binary64

namespace Neighbourhood

/-- What lies in the interval is compared without fractions. -/
theorem contains_iff {n : Neighbourhood} (hden : 0 < n.den) (a : Nat) (k : Int) :
    n.contains a k = true ↔
      if n.closed then (n.low / n.den : ℚ) ≤ a * 10 ^ k ∧ (a * 10 ^ k : ℚ) ≤ n.high / n.den
      else (n.low / n.den : ℚ) < a * 10 ^ k ∧ (a * 10 ^ k : ℚ) < n.high / n.den := by
  have hd : (0 : ℚ) < n.den := by exact_mod_cast hden
  have hp : (0 : ℚ) < (Nat.pow 10 (-k).toNat : Nat) := by exact_mod_cast Nat.pow_pos (by decide)
  rw [← Binary64.decimal_eq_ratio, div_le_div_iff₀ hd hp, div_le_div_iff₀ hp hd,
    div_lt_div_iff₀ hd hp, div_lt_div_iff₀ hp hd, contains]
  split
  · rw [Bool.and_eq_true, decide_eq_true_iff, decide_eq_true_iff]
    norm_cast
  · rw [Bool.and_eq_true, decide_eq_true_iff, decide_eq_true_iff]
    norm_cast

/-- What is found on a grid lies in the interval. -/
theorem contains_of_onGrid? {n : Neighbourhood} {k : Int} {a : Nat} (h : n.onGrid? k = some a) :
    n.contains a k = true := by
  simp only [onGrid?] at h
  split at h
  next hdown hup =>
    obtain rfl := Option.some.inj h
    -- the rounded quotient is one of the two neighbours on the grid
    rw [divNearestEven]
    split
    · exact hdown
    · split
      · exact hup
      · split
        · exact hdown
        · exact hup
  next hdown hup => exact Option.some.inj h ▸ hdown
  next hdown hup => exact Option.some.inj h ▸ hup
  next => cases h

end Neighbourhood

namespace Binary64

/-- The interval that is searched has the half way points as its ends. -/
theorem near_of_contains {x : Binary64} (hx : x.mantissa ≠ 0) {a : Nat} {k : Int}
    (h : x.neighbourhood.contains a k = true) : x.Near (a * 10 ^ k) := by
  have hden : 0 < x.neighbourhood.den := Nat.pow_pos (by decide)
  rw [Neighbourhood.contains_iff hden, low_div_den x hx, high_div_den] at h
  split at h
  next hclosed => exact ⟨h.1, h.2, fun _ => of_decide_eq_true hclosed⟩
  next =>
    refine ⟨h.1.le, h.2.le, ?_⟩
    rintro (heq | heq)
    · exact absurd heq h.1.ne'
    · exact absurd heq h.2.ne

/-- The exact expansion of a mantissa at its place.  Below one a power of two is a power of five
over one of ten. -/
theorem exact_expansion (m : Nat) (e : Int) :
    ((m * Nat.pow 2 e.toNat * Nat.pow 5 (-e).toNat : Nat) : ℚ) * 10 ^ min e 0 = m * 2 ^ e := by
  have hmin : min e 0 = -((-e).toNat : Int) := by omega
  have hten : (10 : ℚ) ^ (-e).toNat = 5 ^ (-e).toNat * 2 ^ (-e).toNat := by
    rw [← mul_pow]
    norm_num
  rw [hmin, zpow_neg, zpow_natCast, hten, zpow_two_eq]
  simp only [Nat.pow_eq]
  push_cast
  field_simp

/-- The shortest digits denote a number between the half way points. -/
theorem near_shortest {x : Binary64} (hx : x.mantissa ≠ 0) : x.Near x.shortest.value := by
  simp only [shortest, if_neg hx]
  generalize hfound : List.findSome? _ _ = found
  cases found with
  | some s =>
    obtain ⟨i, -, hi⟩ := List.exists_of_findSome?_eq_some hfound
    obtain ⟨a, ha, rfl⟩ := Option.map_eq_some_iff.1 hi
    rw [Option.getD_some, Scientific.value_ofScaled]
    exact near_of_contains hx (Neighbourhood.contains_of_onGrid? ha)
  | none =>
    -- the exact expansion
    rw [Option.getD_none, Scientific.value_ofScaled, exact_expansion]
    exact x.near_self

/-! ## Reading back -/

/-- A double with another sign. -/
def withSign (negative : Bool) (x : Binary64) : Binary64 := { x with negative := negative }

/-- The sign has no part in whether there is a double of some parts. -/
theorem ofParts?_sign (negative : Bool) (m : Nat) (e : Int) :
    ofParts? negative m e = (ofParts? false m e).map (withSign negative) := by
  simp only [ofParts?]
  split <;> rfl

/-- The sign has no part in the rounding. -/
theorem ofDecimal?_sign (negative : Bool) (digits : Nat) (e : Int) :
    ofDecimal? negative digits e = (ofDecimal? false digits e).map (withSign negative) := by
  have hratio : ∀ num den, ofRatio? negative num den =
      (ofRatio? false num den).map (withSign negative) := by
    intro num den
    simp only [ofRatio?]
    split
    · rfl
    · split <;> exact ofParts?_sign _ _ _
  simp only [ofDecimal?]
  split
  · rfl
  · split
    · rfl
    · split
      · rfl
      · exact hratio _ _

/-- A double made of a decimal number without a sign has none. -/
theorem negative_of_ofDecimal? {digits : Nat} {e : Int} {x : Binary64}
    (h : ofDecimal? false digits e = some x) : x.negative = false := by
  have hsame := ofDecimal?_sign false digits e
  rw [h, Option.map_some] at hsame
  exact congrArg negative (Option.some.inj hsame)

/-- The value of a double without a sign. -/
theorem value_of_not_negative {x : Binary64} (h : x.negative = false) :
    x.value = x.mantissa * 2 ^ x.exponent := by
  simp [value, signedMantissa, h]

/-- No two pairs of mantissa and exponent stand for one magnitude. -/
theorem eq_of_value_eq {x y : Binary64} (hx : x.negative = false) (hy : y.negative = false)
    (h : x.value = y.value) : x = y := by
  have hexponent : ∀ {x y : Binary64}, y.negative = false → x.value = y.value →
      ¬ x.exponent < y.exponent := by
    intro x y hy h hlt
    have hfull : leastFull ≤ y.mantissa :=
      y.canonical.2.2.2.resolve_right (by have := x.canonical.2.1; omega)
    have hsmall := x.value_lt_of_exponent_lt hlt
    have hlarge := two_pow_le_mantissa_mul hfull
    rw [← value_of_not_negative hy, ← h] at hlarge
    exact absurd hlarge (not_le.2 hsmall)
  have he : x.exponent = y.exponent := le_antisymm (not_lt.1 (hexponent hx h.symm))
    (not_lt.1 (hexponent hy h))
  have hm : x.mantissa = y.mantissa := by
    rw [value_of_not_negative hx, value_of_not_negative hy, he] at h
    exact_mod_cast mul_right_cancel₀ (zpow_ne_zero _ two_ne_zero) h
  cases x
  cases y
  simp_all

/-- A number between the half way points around a double reads back as the double. -/
theorem Near.ofDecimal?_eq {x : Binary64} {digits : Nat} {e : Int}
    (h : x.Near (digits * 10 ^ e)) : ofDecimal? x.negative digits e = some x := by
  have hnonneg : (0 : ℚ) ≤ digits * 10 ^ e := by positivity
  have hmagnitude : 0 ≤ (x.withSign false).value := by
    rw [value_of_not_negative rfl]
    exact mul_nonneg (Nat.cast_nonneg _) (by positivity)
  have hround : (x.withSign false).Rounds (digits * 10 ^ e) :=
    Near.rounds hmagnitude ⟨h.low, h.high, h.even⟩
  rw [ofDecimal?_sign]
  cases hy : ofDecimal? false digits e with
  | none => exact absurd (overflow_le_of_ofDecimal?_eq_none hy) (not_le.2 h.lt_overflow)
  | some y =>
    have hvalue := hround.value_unique hnonneg (rounds_of_ofDecimal? hy)
    rw [Option.map_some, ← eq_of_value_eq rfl (negative_of_ofDecimal? hy) hvalue]
    rfl

end Binary64

namespace Literal

/-- The magnitude of the number that a literal denotes. -/
def value (l : Literal) : ℚ :=
  valueOf 10 (l.whole ++ l.fractionDigits) * 10 ^ (l.shift - l.fractionDigits.length)

/-- A literal that denotes the shortest digits of a double, with its sign, reads back as the
double. -/
theorem nearest?_of_value_eq {x : Binary64} {l : Literal} (hsign : l.negative = x.negative)
    (h : l.value = x.shortest.value) : l.nearest? = some x := by
  by_cases hx : x.mantissa = 0
  · -- zero is written as zero
    have hvalue : x.shortest.value = 0 := by
      rw [Binary64.shortest, if_pos hx]
      simp [Scientific.value, valueOf, digitValue?]
    rw [hvalue, value] at h
    have hdigits : valueOf 10 (l.whole ++ l.fractionDigits) = 0 := by
      rcases mul_eq_zero.1 h with hzero | hzero
      · exact_mod_cast hzero
      · exact absurd hzero (zpow_ne_zero _ (by norm_num))
    have hzero : x = Binary64.zero x.negative := by
      have hleast := x.canonical.2.2.2.resolve_left (by rw [hx]; decide)
      cases x
      simp_all [Binary64.zero]
    rw [nearest?, Binary64.ofDecimal?, if_pos hdigits, hsign, ← hzero]
  · have hnear := Binary64.near_shortest hx
    rw [← h, value] at hnear
    rw [nearest?, hsign, hnear.ofDecimal?_eq]

end Literal

end Dashboards.Decimal
