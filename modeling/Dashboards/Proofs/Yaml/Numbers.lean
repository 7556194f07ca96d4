import Dashboards.Proofs.Decimal.Shortest
import Dashboards.Proofs.Json.NumberReading
import Dashboards.Yaml.Meaning

/-!
# Numbers as plain scalars

The text of a number, as it is written in a JSON document, means that number where it stands as a
plain scalar of a YAML document.  A whole number is no numeral with a needless zero in front; a
double has a point or an exponent, so that it is not taken for a whole number, and its digits are
those that read back.

## Key results

- `Yaml.literal?_doubleText`: the text of a double is a literal that reads back as it
- `Yaml.plainMeaning_text`: the text of a number means the number
-/

namespace Dashboards.Yaml

open Decimal (Literal Scientific digits isDigit_of_mem_digits valueOf valueOf_append valueOf_digits
  valueOf_replicate_zero)

/-! ## Literals by their parts -/

/-- How the sign of a literal is written. -/
def signChars (negative : Bool) : List Char := if negative then ['-'] else []

/-- What begins with a digit has its sign in front of it. -/
theorem splitSign_signChars (negative : Bool) {d : Char} (hd : d.isDigit = true)
    (cs : List Char) : splitSign (signChars negative ++ d :: cs) = (negative, d :: cs) := by
  cases negative with
  | true => rfl
  | false =>
    simp only [signChars, Bool.false_eq_true, if_false, List.nil_append]
    unfold splitSign
    split
    next he => exact absurd ((List.cons.inj he).1 ▸ hd) (by decide)
    next he => exact absurd ((List.cons.inj he).1 ▸ hd) (by decide)
    next => rfl

section

variable (negative : Bool) {whole tail : List Char} (hne : whole ≠ [])
  (hwhole : ∀ c ∈ whole, c.isDigit = true) (htail : tail.head?.any Char.isDigit = false)

include hwhole htail

/-- The digits at the front are taken up to what follows them. -/
theorem takeWhile_isDigit_of_digits : (whole ++ tail).takeWhile Char.isDigit = whole := by
  rw [List.takeWhile_append_of_pos hwhole]
  cases tail with
  | nil => simp
  | cons c tail =>
    rw [List.takeWhile_cons_of_neg (by simpa using htail), List.append_nil]

/-- What follows the digits at the front is left. -/
theorem dropWhile_isDigit_of_digits : (whole ++ tail).dropWhile Char.isDigit = tail := by
  rw [List.dropWhile_append_of_pos hwhole]
  cases tail with
  | nil => rfl
  | cons c tail => rw [List.dropWhile_cons_of_neg (by simpa using htail)]

include hne

/-- Digits without a point, and what follows them. -/
theorem literal?_whole (hpoint : tail.head? ≠ some '.') :
    literal? (signChars negative ++ (whole ++ tail)) =
      (exponent? tail).map fun e => ⟨negative, whole, none, e⟩ := by
  obtain ⟨d, ds, rfl⟩ := List.exists_cons_of_ne_nil hne
  simp only [literal?, List.cons_append, splitSign_signChars negative (hwhole d List.mem_cons_self)]
  rw [← List.cons_append, takeWhile_isDigit_of_digits hwhole htail,
    dropWhile_isDigit_of_digits hwhole htail]
  cases tail with
  | nil => simp
  | cons c tail =>
    split
    next he => exact absurd (congrArg List.head? he) hpoint
    next => rw [if_neg hne]

end

/-- Digits with a point, and what follows them. -/
theorem literal?_point (negative : Bool) {whole fraction tail : List Char} (hne : whole ≠ [])
    (hwhole : ∀ c ∈ whole, c.isDigit = true) (hfraction : ∀ c ∈ fraction, c.isDigit = true)
    (htail : tail.head?.any Char.isDigit = false) :
    literal? (signChars negative ++ (whole ++ '.' :: (fraction ++ tail))) =
      (exponent? tail).map fun e => ⟨negative, whole, some fraction, e⟩ := by
  have hstop : ('.' :: (fraction ++ tail)).head?.any Char.isDigit = false := rfl
  obtain ⟨d, ds, rfl⟩ := List.exists_cons_of_ne_nil hne
  simp only [literal?, List.cons_append, splitSign_signChars negative (hwhole d List.mem_cons_self)]
  rw [← List.cons_append, takeWhile_isDigit_of_digits hwhole hstop,
    dropWhile_isDigit_of_digits hwhole hstop]
  simp only [takeWhile_isDigit_of_digits hfraction htail,
    dropWhile_isDigit_of_digits hfraction htail, hne, false_and, if_false]

/-- An exponent with its sign. -/
theorem exponent?_digits (e : Int) :
    exponent? ('e' :: (if e < 0 then '-' else '+') :: digits e.natAbs) =
      some (some (decide (e < 0), digits e.natAbs)) := by
  have hne : digits e.natAbs ≠ [] := Nat.toDigits_ne_nil
  have hall : (digits e.natAbs).all Char.isDigit = true :=
    List.all_eq_true.2 fun c hc => isDigit_of_mem_digits hc
  by_cases h : e < 0
  · simp [exponent?, splitSign, h, hne, hall]
  · simp [exponent?, splitSign, h, hne, hall]

/-- What an exponent counts for. -/
theorem shift_digits (negative : Bool) (whole : List Char) (fraction : Option (List Char))
    (e : Int) :
    Literal.shift ⟨negative, whole, fraction, some (decide (e < 0), digits e.natAbs)⟩ = e := by
  simp only [Literal.shift, valueOf_digits]
  by_cases h : e < 0
  · simp only [h, decide_true, if_true]
    omega
  · simp only [h, decide_false, Bool.false_eq_true, if_false]
    omega

/-! ## Digits laid out -/

/-- The digits before a point and those after it denote a number. -/
structure SplitsAtPoint (s : Scientific) (whole fraction : List Char) : Prop where
  ne_nil : whole ≠ []
  wholeDigits : ∀ c ∈ whole, c.isDigit = true
  fractionDigits : ∀ c ∈ fraction, c.isDigit = true
  value : (valueOf 10 (whole ++ fraction) * 10 ^ (-(fraction.length : Int)) : ℚ) = s.value

/-- Zeros are digits. -/
theorem isDigit_of_mem_replicate {n : Nat} {c : Char} (hc : c ∈ List.replicate n '0') :
    c.isDigit = true := by
  rw [List.eq_of_mem_replicate hc]
  decide

section

variable {s : Scientific} (hs : ∀ c ∈ s.digits, c.isDigit = true)
include hs

/-- No digit stands before the point, but some zeros may stand after it. -/
theorem splitsAtPoint_of_neg (h : s.exponent < 0) :
    SplitsAtPoint s ['0'] (List.replicate ((-s.exponent).toNat - 1) '0' ++ s.digits) where
  ne_nil := List.cons_ne_nil _ _
  wholeDigits _ hc := List.mem_singleton.1 hc ▸ rfl
  fractionDigits c hc := (List.mem_append.1 hc).elim isDigit_of_mem_replicate (hs c)
  value := by
    -- the zero before the point makes one more of those after it
    have hrow : ∀ n, ['0'] ++ (List.replicate n '0' ++ s.digits) =
        List.replicate (n + 1) '0' ++ s.digits := fun _ => rfl
    rw [hrow, valueOf_append, valueOf_replicate_zero, Nat.zero_mul, Nat.zero_add, Scientific.value,
      List.length_append, List.length_replicate]
    congr 2
    push_cast
    omega

/-- The point stands among the digits. -/
theorem splitsAtPoint_of_lt (h : 0 ≤ s.exponent) (hlong : s.exponent.toNat + 1 < s.digits.length) :
    SplitsAtPoint s (s.digits.take (s.exponent.toNat + 1))
      (s.digits.drop (s.exponent.toNat + 1)) where
  ne_nil := fun hnil => by
    have hlength := congrArg List.length hnil
    rw [List.length_take, List.length_nil] at hlength
    omega
  wholeDigits c hc := hs c (List.mem_of_mem_take hc)
  fractionDigits c hc := hs c (List.mem_of_mem_drop hc)
  value := by
    rw [List.take_append_drop, Scientific.value, List.length_drop]
    congr 2
    omega

/-- The point stands after all digits and some zeros, and one more zero after it. -/
theorem splitsAtPoint_of_le (h : 0 ≤ s.exponent) (hshort : s.digits.length ≤ s.exponent.toNat + 1) :
    SplitsAtPoint s
      (s.digits ++ List.replicate (s.exponent.toNat + 1 - s.digits.length) '0') ['0'] where
  ne_nil := fun hnil => by
    have hlength := congrArg List.length hnil
    simp only [List.length_append, List.length_replicate, List.length_nil] at hlength
    omega
  wholeDigits c hc := (List.mem_append.1 hc).elim (hs c) isDigit_of_mem_replicate
  fractionDigits _ hc := List.mem_singleton.1 hc ▸ rfl
  value := by
    have hrow : ∀ n, s.digits ++ List.replicate n '0' ++ ['0'] =
        s.digits ++ List.replicate (n + 1) '0' := fun n => by
      rw [List.replicate_succ', List.append_assoc]
    rw [hrow, valueOf_append, valueOf_replicate_zero, Nat.add_zero, List.length_replicate,
      Scientific.value]
    push_cast
    rw [mul_assoc, ← zpow_natCast, ← zpow_add₀ (by norm_num)]
    congr 2
    simp only [List.length_singleton]
    push_cast [hshort]
    omega

/-- The positional form has a point among digits, which denote the same. -/
theorem exists_positional_eq : ∃ whole fraction,
    s.positional = whole ++ '.' :: fraction ∧ SplitsAtPoint s whole fraction := by
  rw [Scientific.positional]
  -- the point stands before all digits, among them or after them
  split
  next hneg =>
    refine ⟨_, _, ?_, splitsAtPoint_of_neg hs hneg⟩
    simp
  next hnonneg =>
    rw [not_lt] at hnonneg
    rcases Nat.lt_or_ge (s.exponent.toNat + 1) s.digits.length with hlong | hshort
    · have hrest : s.digits.drop (s.exponent.toNat + 1) ≠ [] := fun h => by
        rw [List.drop_eq_nil_iff] at h
        omega
      have hlength : (s.digits.take (s.exponent.toNat + 1)).length = s.exponent.toNat + 1 := by
        rw [List.length_take]
        omega
      refine ⟨_, _, ?_, splitsAtPoint_of_lt hs hnonneg hlong⟩
      simp [hrest, hlength]
    · have hall : s.digits.take (s.exponent.toNat + 1) = s.digits := List.take_of_length_le hshort
      have hnone : s.digits.drop (s.exponent.toNat + 1) = [] := List.drop_eq_nil_iff.2 hshort
      refine ⟨_, _, ?_, splitsAtPoint_of_le hs hnonneg hshort⟩
      simp [hall, hnone]

/-- The positional form is a literal that denotes the digits. -/
theorem literal?_positional (negative : Bool) :
    ∃ l, literal? (signChars negative ++ s.positional) = some l ∧ l.negative = negative ∧
      l.value = s.value := by
  obtain ⟨whole, fraction, heq, h⟩ := exists_positional_eq hs
  have hlit : literal? (signChars negative ++ (whole ++ '.' :: (fraction ++ []))) = _ :=
    literal?_point negative h.ne_nil h.wholeDigits h.fractionDigits rfl
  rw [List.append_nil, ← heq] at hlit
  refine ⟨⟨negative, whole, some fraction, none⟩, hlit, rfl, ?_⟩
  rw [← h.value]
  simp [Literal.value, Literal.fractionDigits, Literal.shift]

/-- The form with an exponent is a literal that denotes the digits. -/
theorem literal?_exponential (hne : s.digits ≠ []) (negative : Bool) :
    ∃ l, literal? (signChars negative ++ s.exponential) = some l ∧ l.negative = negative ∧
      l.value = s.value := by
  obtain ⟨d, ds, hds⟩ := List.exists_cons_of_ne_nil hne
  rw [hds] at hs
  have hd : ∀ c ∈ [d], c.isDigit = true := List.forall_mem_singleton.2 (hs d List.mem_cons_self)
  have hrest : ∀ c ∈ ds, c.isDigit = true := fun c hc => hs c (List.mem_cons_of_mem d hc)
  -- the exponent stops the digits, with or without a point
  obtain ⟨tail, htail⟩ : ∃ tail,
      'e' :: (if s.exponent < 0 then '-' else '+') :: digits s.exponent.natAbs = tail := ⟨_, rfl⟩
  have hexponent := exponent?_digits s.exponent
  rw [htail] at hexponent
  have hstop : tail.head?.any Char.isDigit = false := by rw [← htail]; rfl
  have hpoint : tail.head? ≠ some '.' := by rw [← htail]; simp
  -- a single digit has no point after it
  cases ds with
  | nil =>
    have hlit := literal?_whole negative (List.cons_ne_nil d []) hd hstop hpoint
    rw [hexponent, Option.map_some] at hlit
    have heq : s.exponential = [d] ++ tail := by simp [Scientific.exponential, hds, htail]
    refine ⟨_, heq ▸ hlit, rfl, ?_⟩
    rw [Literal.value, shift_digits, Scientific.value, hds]
    simp [Literal.fractionDigits]
  | cons f fs =>
    have hlit := literal?_point negative (List.cons_ne_nil d []) hd hrest hstop
    rw [hexponent, Option.map_some] at hlit
    have heq : s.exponential = [d] ++ '.' :: (f :: fs ++ tail) := by
      simp [Scientific.exponential, hds, htail]
    refine ⟨_, heq ▸ hlit, rfl, ?_⟩
    rw [Literal.value, shift_digits, Scientific.value, hds]
    simp [Literal.fractionDigits]

end

/-! ## Doubles -/

/-- The shortest digits are digits, and there are some. -/
theorem shortest_digits_ne_nil (x : Decimal.Binary64) : x.shortest.digits ≠ [] := by
  by_cases hx : x.mantissa = 0
  · rw [Decimal.Binary64.shortest, if_pos hx]
    exact List.cons_ne_nil _ _
  · intro hnil
    -- without digits the value would be zero, which is not between the half way points
    have hlow := (Decimal.Binary64.near_shortest hx).low
    have hstep := x.stepDown_le
    have hpos : (0 : ℚ) < 2 ^ x.exponent := by positivity
    have hone : (1 : ℚ) ≤ x.mantissa := by exact_mod_cast Nat.one_le_iff_ne_zero.2 hx
    rw [Scientific.value, hnil] at hlow
    simp only [valueOf, List.foldl_nil, Nat.cast_zero, zero_mul] at hlow
    nlinarith

/-- The text of a double is its digits laid out, with the sign in front. -/
theorem doubleText_toList (x : Decimal.Binary64) :
    (Json.doubleText x).toList = signChars x.negative ++ x.shortest.positional ∨
      (Json.doubleText x).toList = signChars x.negative ++ x.shortest.exponential := by
  rw [Json.doubleText, Decimal.Layout.text, String.toList_ofList, Decimal.Layout.render]
  by_cases h : Json.doubleLayout.least ≤ x.shortest.exponent ∧
      x.shortest.exponent ≤ Json.doubleLayout.most
  · rw [if_pos h]
    exact .inl rfl
  · rw [if_neg h]
    exact .inr rfl

/-- The text of a double is a literal that reads back as the double. -/
theorem literal?_doubleText (x : Decimal.Binary64) :
    (literal? (Json.doubleText x).toList).bind (·.nearest?) = some x := by
  have hdigits : ∀ c ∈ x.shortest.digits, c.isDigit = true := fun _ hc =>
    Decimal.Binary64.isDigit_of_mem_shortest hc
  obtain ⟨l, hl, hsign, hvalue⟩ : ∃ l, literal? (Json.doubleText x).toList = some l ∧
      l.negative = x.negative ∧ l.value = x.shortest.value := by
    rcases doubleText_toList x with h | h <;> rw [h]
    · exact literal?_positional hdigits x.negative
    · exact literal?_exponential hdigits (shortest_digits_ne_nil x) x.negative
  rw [hl, Option.bind_some, Literal.nearest?_of_value_eq hsign hvalue]

/-- The text of a double begins with a digit after its sign, and has other characters than
digits. -/
theorem exists_doubleText_eq (x : Decimal.Binary64) :
    ∃ d cs, (Json.doubleText x).toList = signChars x.negative ++ d :: cs ∧ d.isDigit = true ∧
      ∃ c ∈ cs, c.isDigit = false := by
  have hdigits : ∀ c ∈ x.shortest.digits, c.isDigit = true := fun _ hc =>
    Decimal.Binary64.isDigit_of_mem_shortest hc
  rcases doubleText_toList x with h | h
  · obtain ⟨whole, fraction, heq, hsplit⟩ := exists_positional_eq hdigits
    obtain ⟨d, ds, rfl⟩ := List.exists_cons_of_ne_nil hsplit.ne_nil
    refine ⟨d, ds ++ '.' :: fraction, by rw [h, heq]; rfl,
      hsplit.wholeDigits d List.mem_cons_self, '.', ?_, by decide⟩
    exact List.mem_append_right _ List.mem_cons_self
  · obtain ⟨d, ds, hds⟩ := List.exists_cons_of_ne_nil (shortest_digits_ne_nil x)
    rw [hds] at hdigits
    refine ⟨d, (if ds = [] then [] else '.' :: ds) ++
      ['e', if x.shortest.exponent < 0 then '-' else '+'] ++ digits x.shortest.exponent.natAbs,
      by simp [h, Scientific.exponential, hds], hdigits d List.mem_cons_self, 'e', ?_, by decide⟩
    exact List.mem_append_left _ (List.mem_append_right _ List.mem_cons_self)

/-! ## Plain scalars -/

/-- Whether a text begins like a number. -/
def beginsNumber (s : String) : Bool := (splitSign s.toList).2.head?.any Char.isDigit

/-- A text that begins like a number is none of some words that do not. -/
theorem contains_eq_false {s : String} (h : beginsNumber s = true) {words : List String}
    (hwords : ∀ w ∈ words, beginsNumber w = false) : words.contains s = false := by
  rw [← Bool.not_eq_true, List.contains_iff_mem]
  intro hmem
  rw [hwords s hmem] at h
  exact nomatch h

/-- What begins like a number means a whole number, or a double, or itself. -/
theorem plainMeaning_of_beginsNumber {s : String} (h : beginsNumber s = true) :
    plainMeaning s = (integerMeaning? s).getD (if hasNeedlessZero s.toList then .text
      else (((literal? s.toList).bind (·.nearest?)).map fun x =>
        .number (.double x)).getD .text) := by
  -- none of the words that mean something else begins with a digit, after a sign or without one
  have hne : s ≠ "" := by
    rintro rfl
    exact absurd h (by decide)
  have hnull : isNullWord s = false := contains_eq_false h (by decide)
  have htrue : ["true", "True", "TRUE"].contains s = false := contains_eq_false h (by decide)
  have hfalse : ["false", "False", "FALSE"].contains s = false := contains_eq_false h (by decide)
  have hfinite : isNonFiniteWord s = false := contains_eq_false h (by decide)
  simp only [plainMeaning, hne, hnull, boolWord?, htrue, hfalse, doubleMeaning?, hfinite,
    Bool.false_eq_true, or_self, if_false]
  cases integerMeaning? s <;> rfl

/-- The characters of numbers mark no base. -/
theorem magnitude?_of_isNumberChar {cs : List Char} (h : ∀ c ∈ cs, isNumberChar c = true) :
    magnitude? cs = Decimal.numeral? 10 cs := by
  unfold magnitude?
  split
  · exact absurd (h 'x' (by simp)) (by decide)
  · exact absurd (h 'o' (by simp)) (by decide)
  · exact absurd (h 'b' (by simp)) (by decide)
  · rfl

/-- The digits of a number are a numeral without needless zeros. -/
theorem integer?_digits (negative : Bool) (n : Nat) :
    integer? (signChars negative ++ digits n) = some (negative, n) := by
  have hne : digits n ≠ [] := Nat.toDigits_ne_nil
  obtain ⟨d, ds, hds⟩ := List.exists_cons_of_ne_nil hne
  have hd : d.isDigit = true := isDigit_of_mem_digits (hds ▸ List.mem_cons_self)
  have hsplit := splitSign_signChars negative hd ds
  rw [← hds] at hsplit
  have hzero : hasNeedlessZero (signChars negative ++ digits n) = false := by
    rw [hasNeedlessZero, hsplit]
    split
    next c cs he =>
      -- only the digits of zero begin with a zero, and they are that zero alone
      have he : digits n = '0' :: c :: cs := he
      rcases Nat.eq_zero_or_pos n with rfl | hpos
      · exact absurd (congrArg List.length he) (by simp [digits])
      · exact absurd (congrArg List.head? he) (Json.head?_digits_ne_zero hpos)
    next => rfl
  have hnumeral : magnitude? (digits n) = some n := by
    rw [magnitude?_of_isNumberChar fun c hc => Decimal.isNumberChar_of_mem_digits hc,
      Decimal.numeral?_digits]
  rw [integer?, hzero, hsplit, if_neg Bool.false_ne_true]
  simp [hnumeral]

/-- The text of a whole number is its digits with the sign in front. -/
theorem exists_intText_eq (n : Int) : ∃ negative m,
    (Decimal.intText n).toList = signChars negative ++ digits m ∧
      (if negative then -m else m : Int) = n := by
  cases n with
  | ofNat m => exact ⟨false, m, by rw [Decimal.intText, String.toList_ofList]; rfl, rfl⟩
  | negSucc m => exact ⟨true, m + 1, by rw [Decimal.intText, String.toList_ofList]; rfl, rfl⟩

/-- The text of a number begins with a digit after its sign. -/
theorem exists_numberText_eq (n : Json.Number) :
    ∃ negative d cs, n.text.toList = signChars negative ++ d :: cs ∧ d.isDigit = true := by
  cases n with
  | integer n fits =>
    obtain ⟨negative, m, htext, -⟩ := exists_intText_eq n
    have hne : digits m ≠ [] := Nat.toDigits_ne_nil
    obtain ⟨d, ds, hds⟩ := List.exists_cons_of_ne_nil hne
    exact ⟨negative, d, ds, hds ▸ htext, isDigit_of_mem_digits (hds ▸ List.mem_cons_self)⟩
  | double x =>
    obtain ⟨d, cs, htext, hd, -⟩ := exists_doubleText_eq x
    exact ⟨x.negative, d, cs, htext, hd⟩

/-- The text of a number begins like one. -/
theorem beginsNumber_text (n : Json.Number) : beginsNumber n.text = true := by
  obtain ⟨negative, d, cs, htext, hd⟩ := exists_numberText_eq n
  rw [beginsNumber, htext, splitSign_signChars negative hd]
  exact hd

/-- A double is not taken for a whole number. -/
theorem plainMeaning_doubleText (x : Decimal.Binary64) :
    plainMeaning (Json.doubleText x) = .number (.double x) := by
  obtain ⟨d, cs, htext, hd, c, hc, hother⟩ := exists_doubleText_eq x
  have hsplit := splitSign_signChars x.negative hd cs
  rw [← htext] at hsplit
  have hzero : hasNeedlessZero (Json.doubleText x).toList = false := by
    rw [hasNeedlessZero, hsplit]
    split
    next he =>
      rw [← (List.cons.inj he).2, ← Bool.not_eq_true, List.all_eq_true]
      exact fun hall => absurd (hall c hc) (by simp [hother])
    next => rfl
  -- some character is no digit, so that there is no numeral
  have hmagnitude : magnitude? (d :: cs) = none := by
    rw [magnitude?_of_isNumberChar, Decimal.numeral?, if_neg]
    · rintro ⟨-, hall⟩
      have hten := List.all_eq_true.1 hall c (List.mem_cons_of_mem d hc)
      rw [Decimal.isDigitOf_ten, hother] at hten
      cases hten
    · intro c' hc'
      refine Json.Number.isNumberChar_of_mem_text (n := .double x) ?_
      rw [Json.Number.text, htext]
      exact List.mem_append_right _ hc'
  have hinteger : integerMeaning? (Json.doubleText x) = none := by
    simp [integerMeaning?, integer?, hzero, hsplit, hmagnitude]
  have hbegins : beginsNumber (Json.doubleText x) = true := beginsNumber_text (.double x)
  rw [plainMeaning_of_beginsNumber hbegins, hinteger, hzero, literal?_doubleText]
  rfl

/-- A whole number means itself. -/
theorem plainMeaning_intText (n : Int) (fits : Json.FitsInteger n) :
    plainMeaning (Decimal.intText n) = .number (.integer n fits) := by
  obtain ⟨negative, m, htext, hn⟩ := exists_intText_eq n
  -- its digits fit, so that it is no double
  have hinteger : integerMeaning? (Decimal.intText n) = some (.number (.integer n fits)) := by
    rw [integerMeaning?, htext, integer?_digits, Option.bind_some]
    simp only [Meaning.ofInteger?, hn, Json.Number.ofInt?, dif_pos fits]
  have hbegins : beginsNumber (Decimal.intText n) = true := beginsNumber_text (.integer n fits)
  rw [plainMeaning_of_beginsNumber hbegins, hinteger]
  rfl

/-- The text of a number means the number. -/
theorem plainMeaning_text (n : Json.Number) : plainMeaning n.text = .number n := by
  cases n with
  | integer n fits => exact plainMeaning_intText n fits
  | double x => exact plainMeaning_doubleText x

end Dashboards.Yaml
