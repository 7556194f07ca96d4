import Dashboards.Proofs.Decimal.Nearest
import Mathlib.Algebra.Order.Floor.Semifield
import Mathlib.Data.Rat.Floor

/-!
# Tenfold doubles

Ten times a double is not a double in general, and rounding it to one and then to a whole number
rounds twice.  For doubles of at most one hundred it is shown that the outcome is one thousand at
most, that it grows with the double, and that it is exact for the doubles nearest to tenths: these
are so near to the tenths that the two roundings make up for the first one.

## Key results

- `Binary64.exists_tenfoldRounded_eq`: the outcome in terms of the two roundings
- `IsTenfold.le_of_le`, `IsTenfold.le_thousand`: order and bound
- `IsTenfold.eq_of_tenths`: tenths are exact
-/

namespace Dashboards.Decimal

open Binary64 (exists_value_eq exists_value_eq_natCast)

/-- `n` is what becomes of `r` when it is rounded to a double, the tenfold of that to a double
again, and this one to a whole number, a half going up. -/
def IsTenfold (r : ℚ) (n : Nat) : Prop :=
  ∃ x y : Binary64, x.Rounds r ∧ y.Rounds (10 * x.value) ∧ n = ⌊y.value + 1 / 2⌋₊

/-! ## Computing -/

/-- Rounding a quotient to the nearest whole number, a half going up. -/
theorem divNearestUp_eq_floor (num : Nat) {den : Nat} (hden : 0 < den) :
    divNearestUp num den = ⌊(num / den : ℚ) + 1 / 2⌋₊ := by
  have hden' : (den : ℚ) ≠ 0 := by exact_mod_cast hden.ne'
  have hsum : (num / den : ℚ) + 1 / 2 = ((2 * num + den : Nat) : ℚ) / ((2 * den : Nat) : ℚ) := by
    push_cast
    field_simp
  rw [hsum, Nat.floor_div_eq_div, divNearestUp]

namespace Binary64

/-- The tenfold of a double of at most one hundred is rounded twice. -/
theorem exists_tenfoldRounded_eq {x : Binary64} (hnonneg : 0 ≤ x.value) (hle : x.value ≤ 100) :
    ∃ y : Binary64, y.Rounds (10 * x.value) ∧ x.tenfoldRounded = ⌊y.value + 1 / 2⌋₊ := by
  have hratio : ((10 * x.num : Nat) / x.den : ℚ) = 10 * x.value := by
    rw [← abs_of_nonneg hnonneg, abs_value_eq]
    push_cast
    ring
  rw [tenfoldRounded]
  cases hy : ofRatio? false (10 * x.num) x.den with
  | none =>
    -- the tenfold is far from the largest double
    have hlarge := thousand_lt_overflow.trans_le (overflow_le_of_ofRatio?_eq_none x.den_pos hy)
    rw [hratio] at hlarge
    linarith
  | some y =>
    have hround := rounds_of_ofRatio? x.den_pos hy
    rw [hratio] at hround
    refine ⟨y, hround, ?_⟩
    have hy : |y.value| = y.value := abs_of_nonneg (hround.value_nonneg (by linarith))
    rw [← hy, abs_value_eq]
    exact divNearestUp_eq_floor y.num y.den_pos

/-- Near every number that is not too large there is a double: the next smaller multiple of a power
of two. -/
theorem exists_abs_sub_value_lt {r : ℚ} (hr : 0 ≤ r) (hlt : r < 128) :
    ∃ z : Binary64, |r - z.value| < 1 / 1024 := by
  have hfloor : ⌊r * 1024⌋₊ < 2 * leastFull := by
    rw [Nat.floor_lt (by positivity)]
    norm_num [leastFull]
    linarith
  obtain ⟨z, hz⟩ := exists_value_eq hfloor (e := -10) (by decide) (by decide)
  have hpower : (2 : ℚ) ^ (-10 : Int) = 1 / 1024 := by norm_num
  have hle := Nat.floor_le (by positivity : 0 ≤ r * 1024)
  have hlt' := Nat.lt_floor_add_one (r * 1024)
  refine ⟨z, ?_⟩
  rw [hz, hpower, abs_of_nonneg (by linarith)]
  linarith

end Binary64

/-! ## Laws -/

namespace IsTenfold

variable {r s : ℚ} {m n : Nat}

/-- A larger number has no smaller outcome. -/
theorem le_of_le (hr : 0 ≤ r) (hrs : r ≤ s) (hm : IsTenfold r m) (hn : IsTenfold s n) : m ≤ n := by
  obtain ⟨x, y, hx, hy, rfl⟩ := hm
  obtain ⟨x', y', hx', hy', rfl⟩ := hn
  have hxx : x.value ≤ x'.value := hx.value_le hr hrs hx'
  have hx0 : 0 ≤ x.value := hx.value_nonneg hr
  have hyy : y.value ≤ y'.value := hy.value_le (by linarith) (by linarith) hy'
  exact Nat.floor_mono (by linarith)

/-- The outcome for a number that rounds to one hundred at most. -/
theorem le_thousand (hr : 0 ≤ r) {x : Binary64} (hx : x.Rounds r) (hle : x.value ≤ 100)
    (hn : IsTenfold r n) : n ≤ 1000 := by
  obtain ⟨x', y, hx', hy, rfl⟩ := hn
  obtain ⟨z, hz⟩ := exists_value_eq_natCast (m := 1000) (by decide)
  have hsame : x'.value = x.value := hx'.value_unique hr hx
  have hx0 : 0 ≤ x'.value := hx'.value_nonneg hr
  have hthousand : (10 : ℚ) * x'.value ≤ z.value := by
    rw [hz, hsame]
    push_cast
    linarith
  have hyz : y.value ≤ z.value := hy.value_le (by linarith) hthousand z.rounds_value
  rw [hz] at hyz
  refine Nat.le_of_lt_succ ((Nat.floor_lt ?_).2 ?_)
  · linarith [hy.value_nonneg (by linarith)]
  · push_cast at hyz ⊢
    linarith

/-- A tenth is rounded to a double that is so near to it that its tenfold is rounded back. -/
theorem eq_of_tenths {k : Nat} (hlt : (k / 10 : ℚ) < 128) (hn : IsTenfold (k / 10) n) : n = k := by
  obtain ⟨x, y, hx, hy, rfl⟩ := hn
  have hk : (k : ℚ) < 1280 := by linarith
  have hr : (0 : ℚ) ≤ k / 10 := by positivity
  obtain ⟨z, hz⟩ := Binary64.exists_abs_sub_value_lt hr hlt
  have hnear : |(k / 10 : ℚ) - x.value| < 1 / 1024 := (hx.nearest z).trans_lt hz
  -- the whole number is a double, so that its distance bounds that of the rounded tenfold
  obtain ⟨w, hw⟩ := exists_value_eq_natCast (m := k) (by
    have hk' : k < 1280 := by exact_mod_cast hk
    exact hk'.trans (by decide))
  have hfar := hy.nearest w
  rw [hw] at hfar
  have htenfold : |10 * x.value - k| = 10 * |(k / 10 : ℚ) - x.value| := by
    have hscale : 10 * x.value - k = -(10 * ((k / 10 : ℚ) - x.value)) := by ring
    rw [hscale, abs_neg, abs_mul, abs_of_pos (by norm_num)]
  have hclose : |y.value - k| < 1 / 2 := by
    have htri := abs_sub_le y.value (10 * x.value) k
    rw [abs_sub_comm y.value (10 * x.value)] at htri
    linarith
  obtain ⟨hlow, hhigh⟩ := abs_lt.1 hclose
  have hk0 : (0 : ℚ) ≤ k := Nat.cast_nonneg k
  exact (Nat.floor_eq_iff (by linarith)).2 ⟨by linarith, by linarith⟩

end IsTenfold

end Dashboards.Decimal
