import Dashboards.Proofs.Decimal.Tenfold
import Dashboards.Proofs.Statement.Unambiguous

/-!
# Columns of percentiles

A percentile is looked up among 1001 quantiles, one for each tenth of a percent.  Its number may
have any number of digits, and goes through two roundings of doubles before a place is found for it.
The place is one of the 1001 nevertheless, larger numbers have no smaller places, and a whole number
of tenths has just its own place, however it is written.

## Key results

- `Aggregation.IsRanked.isTenfold`: the place in terms of the roundings
- `Aggregation.column_percentile`: the columns of percentiles and of what looks like one
-/

namespace Dashboards

open Decimal (IsTenfold)

/-- The column that takes the quantile in some place for the percentile of a number. -/
def quantileColumn (rank : Nat) (number : String) : String :=
  "NTH(" ++ Decimal.natText rank ++ ", QUANTILES(value, 1001)) AS " ++ percentileLabel number

namespace Decimal

/-- Different numbers have different texts. -/
theorem natText_injective {m n : Nat} (h : natText m = natText n) : m = n := by
  have hdigits : digits m = digits n := String.ofList_injective h
  rw [← valueOf_digits m, hdigits, valueOf_digits]

end Decimal

/-- The place can be read off the column. -/
theorem quantileColumn_injective {m n : Nat} {number : String}
    (h : quantileColumn m number = quantileColumn n number) : m = n := by
  -- the columns differ in nothing but the digits of the place
  have hlist := congrArg String.toList h
  simp only [quantileColumn, String.toList_append, List.append_cancel_left_eq,
    List.append_cancel_right_eq] at hlist
  exact Decimal.natText_injective (String.toList_inj.1 hlist)

namespace Aggregation

/-- A text is the number of a percentile, and the column of the percentile takes the quantile in
place `rank`. -/
structure IsRanked (number : String) (rank : Nat) : Prop where
  accepted : (percentile number).percentile?.isSome
  column : (percentile number).column = quantileColumn rank number

/-- A percentile is in the place that is looked up for it. -/
theorem isRanked_of_percentile? {number : String} {p : Decimal.Binary64}
    (h : (percentile number).percentile? = some p) : IsRanked number (quantileRank p) := by
  constructor
  case accepted => rw [h, Option.isSome_some]
  case column => simp only [Aggregation.column, h, quantileColumn]

namespace IsRanked

variable {number : String} {rank : Nat}

/-- The place is one more than the tenfold of the number, rounded. -/
theorem isTenfold (h : IsRanked number rank) :
    ∃ n, IsTenfold (decimalValue number) n ∧ rank = n + 1 := by
  obtain ⟨p, hp⟩ := Option.isSome_iff_exists.1 h.accepted
  -- the place is read off the column, so that it is the one that was looked up
  have hrank : rank = quantileRank p :=
    quantileColumn_injective (h.column.symm.trans (isRanked_of_percentile? hp).column)
  obtain ⟨-, hround, hnonneg, hle⟩ := percentileOf?_eq_some hp
  obtain ⟨y, hy, htenfold⟩ := Decimal.Binary64.exists_tenfoldRounded_eq hnonneg hle
  exact ⟨p.tenfoldRounded, ⟨p, y, hround, hy, htenfold⟩, hrank⟩

/-- The number of a percentile rounds to one hundred at most. -/
theorem exists_rounds (h : IsRanked number rank) :
    ∃ p : Decimal.Binary64, p.Rounds (decimalValue number) ∧ p.value ≤ 100 := by
  obtain ⟨p, hp⟩ := Option.isSome_iff_exists.1 h.accepted
  obtain ⟨-, hround, -, hle⟩ := percentileOf?_eq_some hp
  exact ⟨p, hround, hle⟩

/-- The place is one of those that there are. -/
theorem bounds (h : IsRanked number rank) : 1 ≤ rank ∧ rank ≤ 1001 := by
  obtain ⟨n, hn, rfl⟩ := h.isTenfold
  obtain ⟨p, hround, hle⟩ := h.exists_rounds
  have hthousand := hn.le_thousand (decimalValue_nonneg number) hround hle
  omega

/-- Larger numbers have no smaller places. -/
theorem le_of_decimalValue_le {number' : String} {rank' : Nat} (h : IsRanked number rank)
    (h' : IsRanked number' rank') (hle : decimalValue number ≤ decimalValue number') :
    rank ≤ rank' := by
  -- both roundings keep the order
  obtain ⟨n, hn, rfl⟩ := h.isTenfold
  obtain ⟨n', hn', rfl⟩ := h'.isTenfold
  exact Nat.succ_le_succ (hn.le_of_le (decimalValue_nonneg number) hle hn')

/-- A whole number of tenths has its own place. -/
theorem eq_of_tenths {k : Nat} (h : IsRanked number rank) (hk : decimalValue number = k / 10) :
    rank = k + 1 := by
  obtain ⟨n, hn, rfl⟩ := h.isTenfold
  obtain ⟨p, hround, hle⟩ := h.exists_rounds
  rw [hk] at hn hround
  rw [hn.eq_of_tenths (hround.lt_of_value_le hle)]

end IsRanked

/-- The labels of percentiles are different if their texts are. -/
theorem percentileLabel_injective {a b : String} (ha : (percentile a).percentile?.isSome)
    (hb : (percentile b).percentile?.isSome) (h : percentileLabel a = percentileLabel b) :
    a = b := by
  -- the number can be read off the label, since it is written with digits and points only
  have hplain : ∀ number, (percentile number).percentile?.isSome → IsPlainDecimal number :=
    fun number hn => ((percentileOf?_isSome_iff number).1 hn).1
  rw [← numberOfLabel_percentileLabel (hplain a ha), h, numberOfLabel_percentileLabel (hplain b hb)]

/-- Every text that is the number of a percentile has a place among the 1001 quantiles.  The number
is rounded to a double, and its tenfold to a double and to a whole number, which is one less than
the place.  The places of larger numbers are not smaller, those of whole numbers of tenths are
exact, and different texts have different labels.  A text that is not the number of a percentile is
called as a function together with its percent sign. -/
theorem column_percentile :
    (∀ number, (percentile number).percentile?.isSome → ∃ n, IsTenfold (decimalValue number) n ∧
        IsRanked number (n + 1) ∧ 1 ≤ n + 1 ∧ n + 1 ≤ 1001) ∧
      (∀ a b m n, IsRanked a m → IsRanked b n → decimalValue a ≤ decimalValue b → m ≤ n) ∧
      (∀ number rank (k : Nat), IsRanked number rank → decimalValue number = k / 10 →
        rank = k + 1) ∧
      (∀ a b, (percentile a).percentile?.isSome → (percentile b).percentile?.isSome →
        a ≠ b → percentileLabel a ≠ percentileLabel b) ∧
      ∀ number, (percentile number).percentile? = none → (percentile number).column =
        Text.upper (number ++ "%") ++ "(value) AS " ++ (number ++ "%") := by
  refine ⟨fun number h => ?_, fun _ _ _ _ ha hb => ha.le_of_decimalValue_le hb,
    fun _ _ _ h => h.eq_of_tenths,
    fun _ _ ha hb hne heq => hne (percentileLabel_injective ha hb heq), fun number h => ?_⟩
  · obtain ⟨p, hp⟩ := Option.isSome_iff_exists.1 h
    have hranked := isRanked_of_percentile? hp
    obtain ⟨n, hn, hrank⟩ := hranked.isTenfold
    exact ⟨n, hn, hrank ▸ hranked, hrank ▸ hranked.bounds⟩
  · simp only [Aggregation.column, h, callColumn, text]

/-- Zeros at both ends change the label, but not the place; what is beyond one hundred is no
percentile. -/
theorem column_percentile_of_zeros :
    (percentile "99.9").column = quantileColumn 1000 "99.9" ∧
      (percentile "099.900").column = quantileColumn 1000 "099.900" ∧
      percentileLabel "99.9" ≠ percentileLabel "099.900" ∧
      (percentile "100.1").column = "100.1%(value) AS 100.1%" := by
  obtain ⟨hranked, -, htenths, hlabels, hcall⟩ := column_percentile
  have hshort : (percentile "99.9").percentile?.isSome := by decide +kernel
  have hlong : (percentile "099.900").percentile?.isSome := by decide +kernel
  -- both texts spell 99.9, the one with three places as 99900 thousandths
  have hvalue : decimalValue "99.9" = (999 : Nat) / 10 := by
    have hdigits : Decimal.valueOf 10 (decimalDigits "99.9") = 999 := by decide +kernel
    have hplaces : decimalPlaces "99.9" = 1 := by decide +kernel
    rw [decimalValue, hdigits, hplaces, pow_one, Nat.cast_ofNat]
  have hvalue' : decimalValue "099.900" = (999 : Nat) / 10 := by
    have hdigits : Decimal.valueOf 10 (decimalDigits "099.900") = 99900 := by decide +kernel
    have hplaces : decimalPlaces "099.900" = 3 := by decide +kernel
    rw [decimalValue, hdigits, hplaces]
    norm_num
  obtain ⟨m, -, hm, -⟩ := hranked _ hshort
  obtain ⟨n, -, hn, -⟩ := hranked _ hlong
  have hm1000 : m + 1 = 1000 := htenths _ _ 999 hm hvalue
  have hn1000 : n + 1 = 1000 := htenths _ _ 999 hn hvalue'
  refine ⟨hm1000 ▸ hm.column, hn1000 ▸ hn.column, hlabels _ _ hshort hlong (by decide), ?_⟩
  rw [hcall "100.1" (by decide +kernel)]
  decide +kernel

end Aggregation

end Dashboards
