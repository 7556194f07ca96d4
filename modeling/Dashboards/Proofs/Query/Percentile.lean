import Dashboards.Proofs.Decimal.Nearest
import Dashboards.Query.Aggregation
import Mathlib.Data.List.TakeWhile

/-!
# Percentiles

A percentile is written as plain decimal text, and the number that is compared with one hundred is
the double nearest to it.  Here the grammar of such text and the number that it stands for are said
without a reader, and the reader is compared with them.

## Key results

- `isPlainDecimal_of_digits`, `isPlainDecimal_of_point`: digits, or digits around one point
- `percentileOf?_isSome_iff`: which texts are percentiles
-/

namespace Dashboards

open Decimal (Binary64)

/-- A digit of ASCII. -/
def IsAsciiDigit (c : Char) : Prop := '0' ≤ c ∧ c ≤ '9'

/-- The digits that the reader knows are those of ASCII. -/
theorem isDigit_iff (c : Char) : c.isDigit = true ↔ IsAsciiDigit c := by
  simp only [Char.isDigit, Bool.and_eq_true, decide_eq_true_eq, IsAsciiDigit]
  exact Iff.rfl

/-- A point is not a digit. -/
theorem ne_point_of_isDigit {c : Char} (h : c.isDigit = true) : c ≠ '.' := by
  rintro rfl
  exact absurd h (by decide)

/-- Plain decimal text: digits of ASCII with at most one point among them, and at least one
digit. -/
structure IsPlainDecimal (text : String) : Prop where
  chars : ∀ c ∈ text.toList, IsAsciiDigit c ∨ c = '.'
  point : text.toList.count '.' ≤ 1
  digit : ∃ c ∈ text.toList, IsAsciiDigit c

/-- The digits of plain decimal text. -/
def decimalDigits (text : String) : List Char := text.toList.filter (· ≠ '.')

/-- The number of digits after the point. -/
def decimalPlaces (text : String) : Nat := (text.toList.dropWhile (· ≠ '.')).tail.length

/-- The number that plain decimal text stands for. -/
def decimalValue (text : String) : ℚ :=
  Decimal.valueOf 10 (decimalDigits text) / 10 ^ decimalPlaces text

/-- The text of a percentile: plain decimal text, and the double that it rounds to is at least zero
and at most one hundred. -/
def IsPercentile (text : String) : Prop :=
  IsPlainDecimal text ∧ ∃ x : Binary64, x.Rounds (decimalValue text) ∧ 0 ≤ x.value ∧ x.value ≤ 100

/-! ## The grammar -/

section

variable {text : String} {whole fraction : List Char}
variable (hwhole : ∀ c ∈ whole, c.isDigit = true) (hfraction : ∀ c ∈ fraction, c.isDigit = true)

include hwhole in
/-- Digits have no point among them. -/
theorem point_notMem : '.' ∉ whole := fun h => ne_point_of_isDigit (hwhole _ h) rfl

include hwhole in
/-- There is no point in a row of digits. -/
theorem filter_digits : whole.filter (· ≠ '.') = whole :=
  List.filter_eq_self.2 fun c hc => by simpa using ne_point_of_isDigit (hwhole c hc)

include hwhole in
/-- The first point comes after the digits. -/
theorem dropWhile_digits (rest : List Char) :
    (whole ++ '.' :: rest).dropWhile (· ≠ '.') = '.' :: rest := by
  rw [List.dropWhile_append_of_pos fun c hc => by simpa using ne_point_of_isDigit (hwhole c hc)]
  simp

include hwhole in
/-- A row of digits is plain decimal text if it has any. -/
theorem isPlainDecimal_of_digits (htext : text.toList = whole) (hne : whole ≠ []) :
    IsPlainDecimal text := by
  obtain ⟨c, hc⟩ := List.exists_mem_of_ne_nil whole hne
  constructor
  case chars => exact fun x hx => .inl ((isDigit_iff x).1 (hwhole x (htext ▸ hx)))
  case point => rw [htext, List.count_eq_zero_of_not_mem (point_notMem hwhole)]; exact Nat.zero_le 1
  case digit => exact ⟨c, htext ▸ hc, (isDigit_iff c).1 (hwhole c hc)⟩

include hwhole hfraction in
/-- Digits around a point are plain decimal text if there are any. -/
theorem isPlainDecimal_of_point (htext : text.toList = whole ++ '.' :: fraction)
    (hne : whole ++ fraction ≠ []) : IsPlainDecimal text := by
  obtain ⟨c, hc⟩ := List.exists_mem_of_ne_nil _ hne
  have hdigit : ∀ x ∈ whole ++ fraction, x.isDigit = true := by
    intro x hx
    exact (List.mem_append.1 hx).elim (hwhole x) (hfraction x)
  have hmem : ∀ x, x ∈ text.toList ↔ x ∈ whole ++ fraction ∨ x = '.' := by
    intro x
    rw [htext, List.mem_append, List.mem_append, List.mem_cons]
    tauto
  constructor
  case chars =>
    intro x hx
    exact ((hmem x).1 hx).imp_left fun h => (isDigit_iff x).1 (hdigit x h)
  case point =>
    rw [htext, List.count_append, List.count_cons_self,
      List.count_eq_zero_of_not_mem (point_notMem hwhole),
      List.count_eq_zero_of_not_mem (point_notMem hfraction)]
  case digit => exact ⟨c, (hmem c).2 (.inl hc), (isDigit_iff c).1 (hdigit c hc)⟩

end

/-- Plain decimal text is a row of digits, or two rows around a point. -/
theorem IsPlainDecimal.exists_rows {text : String} (h : IsPlainDecimal text) :
    ∃ whole fraction : List Char, (∀ c ∈ whole, c.isDigit = true) ∧
      (∀ c ∈ fraction, c.isDigit = true) ∧ whole ++ fraction ≠ [] ∧
      (text.toList = whole ∧ fraction = [] ∨ text.toList = whole ++ '.' :: fraction) := by
  obtain ⟨c, hc, hdigit⟩ := h.digit
  have hc' : c.isDigit = true := (isDigit_iff c).2 hdigit
  have hchar : ∀ x ∈ text.toList, x ≠ '.' → x.isDigit = true := fun x hx hne =>
    (isDigit_iff x).2 ((h.chars x hx).resolve_right hne)
  by_cases hpoint : '.' ∈ text.toList
  · -- there is one point, and what is around it has none
    obtain ⟨whole, fraction, htext⟩ := List.append_of_mem hpoint
    have hcount := h.point
    rw [htext, List.count_append, List.count_cons_self] at hcount
    have hno : '.' ∉ whole ∧ '.' ∉ fraction := by
      rw [← List.count_eq_zero, ← List.count_eq_zero]
      omega
    rw [htext] at hc hchar
    refine ⟨whole, fraction, fun x hx => ?_, fun x hx => ?_, ?_, .inr htext⟩
    · exact hchar x (List.mem_append_left _ hx) fun hx' => hno.1 (hx' ▸ hx)
    · exact hchar x (List.mem_append_right _ (List.mem_cons_of_mem _ hx)) fun hx' =>
        hno.2 (hx' ▸ hx)
    · rintro hnil
      obtain ⟨rfl, rfl⟩ := List.append_eq_nil_iff.1 hnil
      exact ne_point_of_isDigit hc' (List.mem_singleton.1 hc)
  · have hall : ∀ x ∈ text.toList, x.isDigit = true := fun x hx =>
      hchar x hx fun hx' => hpoint (hx' ▸ hx)
    refine ⟨text.toList, [], hall, List.forall_mem_nil _, ?_, .inl ⟨rfl, rfl⟩⟩
    rw [List.append_nil]
    exact List.ne_nil_of_mem hc

/-! ## The reader -/

/-- The double that is made of plain decimal text. -/
theorem plainDecimal?_of_isPlainDecimal {text : String} (h : IsPlainDecimal text) :
    plainDecimal? text =
      Binary64.ofDecimal? false (Decimal.valueOf 10 (decimalDigits text))
        (-(decimalPlaces text : Int)) := by
  obtain ⟨whole, fraction, hwhole, hfraction, hne, ⟨htext, rfl⟩ | htext⟩ := h.exists_rows
  · -- all of the text is digits
    have hdrop : whole.dropWhile Char.isDigit = [] := List.dropWhile_eq_nil_iff.2 hwhole
    have htake : whole.takeWhile Char.isDigit = whole := List.takeWhile_eq_self_iff.2 hwhole
    have hnopoint : whole.dropWhile (· ≠ '.') = [] :=
      List.dropWhile_eq_nil_iff.2 fun c hc => by simpa using ne_point_of_isDigit (hwhole c hc)
    rw [List.append_nil] at hne
    simp only [plainDecimal?, decimalDigits, decimalPlaces, htext, hdrop, htake, if_neg hne,
      filter_digits hwhole, hnopoint]
    rfl
  · -- the first character that is not a digit is the point
    have hdrop : (whole ++ '.' :: fraction).dropWhile Char.isDigit = '.' :: fraction := by
      rw [List.dropWhile_append_of_pos hwhole]
      rfl
    have htake : (whole ++ '.' :: fraction).takeWhile Char.isDigit = whole := by
      rw [List.takeWhile_append_of_pos hwhole]
      simp
    have hall : fraction.all Char.isDigit = true := List.all_eq_true.2 hfraction
    have hfilter : (whole ++ '.' :: fraction).filter (· ≠ '.') = whole ++ fraction := by
      rw [List.filter_append, filter_digits hwhole, List.filter_cons_of_neg (by decide),
        filter_digits hfraction]
    simp only [plainDecimal?, decimalDigits, decimalPlaces, htext, hdrop, htake, hfilter,
      dropWhile_digits hwhole, if_pos (And.intro hall hne), List.tail_cons]

/-- Only of plain decimal text is a double made. -/
theorem isPlainDecimal_of_plainDecimal? {text : String} {x : Binary64}
    (h : plainDecimal? text = some x) : IsPlainDecimal text := by
  have hsplit := List.takeWhile_append_dropWhile (p := Char.isDigit) (l := text.toList)
  have hwhole : ∀ c ∈ text.toList.takeWhile Char.isDigit, c.isDigit = true :=
    List.all_eq_true.1 List.all_takeWhile
  simp only [plainDecimal?] at h
  split at h
  next hrest =>
    split at h
    · exact nomatch h
    next hne =>
      -- digits without a point
      rw [hrest, List.append_nil] at hsplit
      exact isPlainDecimal_of_digits hwhole hsplit.symm hne
  next fraction hrest =>
    split at h
    next hall =>
      -- digits on both sides of a point, or on one of them
      rw [hrest] at hsplit
      exact isPlainDecimal_of_point hwhole (List.all_eq_true.1 hall.1) hsplit.symm hall.2
    · exact nomatch h
  next => exact nomatch h

/-- The number that plain decimal text stands for, with a power of ten. -/
theorem decimalValue_eq (text : String) :
    (Decimal.valueOf 10 (decimalDigits text) : ℚ) * 10 ^ (-(decimalPlaces text : Int)) =
      decimalValue text := by
  rw [zpow_neg, zpow_natCast, decimalValue, div_eq_mul_inv]

/-- Plain decimal text has no sign. -/
theorem decimalValue_nonneg (text : String) : 0 ≤ decimalValue text := by
  rw [decimalValue]
  positivity

/-- A number that rounds to a double of at most one hundred is not much larger than that. -/
theorem Decimal.Binary64.Rounds.lt_of_value_le {r : ℚ} {x : Binary64} (h : x.Rounds r)
    (hx : x.value ≤ 100) : r < 128 := by
  obtain ⟨y, hy⟩ := Binary64.exists_value_eq_natCast (m := 128) (by decide)
  rw [Nat.cast_ofNat] at hy
  have hlt := h.lt_of_value_lt (y := y) (by rw [hy]; norm_num) (by rw [hy]; linarith)
  rwa [hy] at hlt

/-- What is made of the text of a percentile: the double nearest to its number. -/
theorem percentileOf?_eq_some {text : String} {x : Binary64} (h : percentileOf? text = some x) :
    IsPlainDecimal text ∧ x.Rounds (decimalValue text) ∧ 0 ≤ x.value ∧ x.value ≤ 100 := by
  rw [percentileOf?, Option.filter_eq_some_iff] at h
  obtain ⟨hx, hle⟩ := h
  have hplain := isPlainDecimal_of_plainDecimal? hx
  rw [plainDecimal?_of_isPlainDecimal hplain] at hx
  -- the double is the nearest one, and the bound is on its own value
  have hround := Binary64.rounds_of_ofDecimal? hx
  rw [decimalValue_eq] at hround
  have hnonneg := hround.value_nonneg (decimalValue_nonneg text)
  have habs := (x.magnitudeLe_iff 100).1 hle
  rw [abs_of_nonneg hnonneg] at habs
  exact ⟨hplain, hround, hnonneg, habs⟩

/-- A text is read as a percentile iff it is the text of one. -/
theorem percentileOf?_isSome_iff (text : String) :
    (percentileOf? text).isSome = true ↔ IsPercentile text := by
  constructor
  case mp =>
    intro h
    obtain ⟨x, hx⟩ := Option.isSome_iff_exists.1 h
    obtain ⟨hplain, hround⟩ := percentileOf?_eq_some hx
    exact ⟨hplain, x, hround⟩
  case mpr =>
    rintro ⟨hplain, x, hround, hnonneg, hle⟩
    rw [percentileOf?, Option.isSome_filter, Option.any_eq_true,
      plainDecimal?_of_isPlainDecimal hplain]
    cases hy : Binary64.ofDecimal? false (Decimal.valueOf 10 (decimalDigits text))
        (-(decimalPlaces text : Int)) with
    | none =>
      -- the number would be too large to round to a double of at most one hundred
      have hlarge := Binary64.thousand_lt_overflow.trans_le
        (Binary64.overflow_le_of_ofDecimal?_eq_none hy)
      rw [decimalValue_eq] at hlarge
      linarith only [hround.lt_of_value_le hle, hlarge]
    | some y =>
      have hround' := Binary64.rounds_of_ofDecimal? hy
      rw [decimalValue_eq] at hround'
      -- there is only one double that the number rounds to
      have heq := hround.value_unique (decimalValue_nonneg text) hround'
      refine ⟨y, rfl, (y.magnitudeLe_iff 100).2 ?_⟩
      rw [← heq, abs_of_nonneg hnonneg]
      exact hle

end Dashboards
