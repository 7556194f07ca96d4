import Dashboards.Json.Number
import Mathlib.Data.List.TakeWhile

/-!
# Characters of numbers

The text of a number is never empty and consists of digits, signs, points and the letter of
exponents.

## Key results

- `Json.Number.isNumberChar_of_mem_text`, `Json.Number.text_toList_ne_nil`
-/

namespace Dashboards

/-- The characters that numbers are written with. -/
def isNumberChar (c : Char) : Bool := c.isDigit || c ∈ ['-', '+', '.', 'e']

/-- Digits are characters of numbers. -/
theorem isNumberChar_of_isDigit {c : Char} (h : c.isDigit = true) : isNumberChar c = true := by
  rw [isNumberChar, h, Bool.true_or]

namespace Decimal

/-- The decimal digits of a number are digits. -/
theorem isDigit_of_mem_digits {n : Nat} {c : Char} (h : c ∈ digits n) : c.isDigit = true :=
  Nat.isDigit_of_mem_toDigits (by decide) (by decide) h

/-- The decimal digits of a number are characters of numbers. -/
theorem isNumberChar_of_mem_digits {n : Nat} {c : Char} (h : c ∈ digits n) :
    isNumberChar c = true :=
  isNumberChar_of_isDigit (isDigit_of_mem_digits h)

/-- The text of a natural number has its decimal digits for characters. -/
theorem natText_toList (n : Nat) : (natText n).toList = digits n := String.toList_ofList

/-- The text of a number is on one line. -/
theorem newLine_notMem_natText (n : Nat) : '\n' ∉ (natText n).toList := by
  rw [natText_toList]
  exact fun hmem => absurd (isDigit_of_mem_digits hmem) (by decide)

/-- The digits of the base ten. -/
theorem isDigitOf_ten (c : Char) : isDigitOf 10 c = c.isDigit := by
  have hiff : c.isDigit = true ↔ '0' ≤ c ∧ c ≤ '9' := by
    simp only [Char.isDigit, Bool.and_eq_true, decide_eq_true_eq]
    exact Iff.rfl
  rw [Bool.eq_iff_iff, hiff, isDigitOf, digitValue?]
  by_cases hdigit : '0' ≤ c ∧ c ≤ '9'
  · have hhigh : c.toNat ≤ 57 := UInt32.le_iff_toNat_le.1 hdigit.2
    have hlow : 48 ≤ c.toNat := UInt32.le_iff_toNat_le.1 hdigit.1
    have hten : c.toNat - '0'.toNat < 10 := by
      rw [show '0'.toNat = 48 from rfl]
      omega
    rw [if_pos hdigit]
    exact iff_of_true (decide_eq_true hten) hdigit
  · -- letters have values from ten on
    rw [if_neg hdigit, iff_false_right hdigit]
    split
    next h =>
      split at h
      · obtain rfl := Option.some.inj h
        simp
      · split at h
        · obtain rfl := Option.some.inj h
          simp
        · exact nomatch h
    next => exact Bool.false_ne_true

/-- The decimal digits of a number are a numeral of it. -/
theorem numeral?_digits (n : Nat) : numeral? 10 (digits n) = some n := by
  have hall : (digits n).all (isDigitOf 10) = true :=
    List.all_eq_true.2 fun c hc => (isDigitOf_ten c).trans (isDigit_of_mem_digits hc)
  have hne : digits n ≠ [] := Nat.toDigits_ne_nil
  rw [numeral?, if_pos ⟨hne, hall⟩, valueOf_digits]

/-- Whole numbers are written with digits and a sign. -/
theorem isNumberChar_of_mem_intText {n : Int} {c : Char} (h : c ∈ (intText n).toList) :
    isNumberChar c = true := by
  cases n with
  | ofNat n =>
    rw [intText, String.toList_ofList] at h
    exact isNumberChar_of_mem_digits h
  | negSucc n =>
    rw [intText, String.toList_ofList] at h
    rcases List.mem_cons.1 h with rfl | h
    · decide
    · exact isNumberChar_of_mem_digits h

/-- Whole numbers have at least one digit. -/
theorem intText_toList_ne_nil (n : Int) : (intText n).toList ≠ [] := by
  cases n with
  | ofNat n =>
    rw [intText, String.toList_ofList]
    exact Nat.toDigits_ne_nil
  | negSucc n =>
    rw [intText, String.toList_ofList]
    exact List.cons_ne_nil _ _

/-! ## Doubles -/

/-- Leaving out zeros leaves digits. -/
theorem isDigit_of_mem_ofScaled {a : Nat} {k : Int} {c : Char}
    (h : c ∈ (Scientific.ofScaled a k).digits) : c.isDigit = true := by
  simp only [Scientific.ofScaled, List.mem_reverse] at h
  have hmem := List.dropWhile_subset _ h
  exact isDigit_of_mem_digits (List.mem_reverse.1 hmem)

/-- The digits of a double are digits, whether they were found on a grid or not. -/
theorem Binary64.isDigit_of_mem_shortest {x : Binary64} {c : Char} (h : c ∈ x.shortest.digits) :
    c.isDigit = true := by
  simp only [Binary64.shortest] at h
  split at h
  · obtain rfl := List.mem_singleton.1 h
    decide
  · generalize hfound : List.findSome? _ _ = found at h
    -- the digits come from the first grid that has the double, or else from the double itself
    cases found with
    | none => exact isDigit_of_mem_ofScaled h
    | some s =>
      obtain ⟨i, -, hi⟩ := List.exists_of_findSome?_eq_some hfound
      obtain ⟨a, -, rfl⟩ := Option.map_eq_some_iff.1 hi
      exact isDigit_of_mem_ofScaled h

section

variable {s : Scientific} (hs : ∀ c ∈ s.digits, c.isDigit = true)
include hs

/-- Digits with a point among them, filled up with zeros, are characters of numbers. -/
theorem Scientific.isNumberChar_of_mem_positional {c : Char} (h : c ∈ s.positional) :
    isNumberChar c = true := by
  have hdigit : c ∈ s.digits → isNumberChar c = true := fun h => isNumberChar_of_isDigit (hs c h)
  have hzero {n : Nat} : c ∈ List.replicate n '0' → isNumberChar c = true := fun h => by
    rw [List.eq_of_mem_replicate h]
    decide
  rw [Scientific.positional] at h
  split at h
  -- below one: a zero, the point, more zeros, the digits
  · simp only [List.mem_append, List.mem_cons, List.not_mem_nil, or_false] at h
    rcases h with ((rfl | rfl) | h) | h
    · decide
    · decide
    · exact hzero h
    · exact hdigit h
  -- from one on: digits, zeros for those that are missing, the point, and a digit after it
  · simp only [List.mem_append, List.mem_cons] at h
    rcases h with (h | h) | rfl | h
    · exact hdigit (List.mem_of_mem_take h)
    · exact hzero h
    · decide
    · split at h
      · obtain rfl := List.mem_singleton.1 h
        decide
      · exact hdigit (List.mem_of_mem_drop h)

/-- Digits with an exponent after them are characters of numbers. -/
theorem Scientific.isNumberChar_of_mem_exponential {c : Char} (h : c ∈ s.exponential) :
    isNumberChar c = true := by
  have hdigit : c ∈ s.digits → isNumberChar c = true := fun h => isNumberChar_of_isDigit (hs c h)
  simp only [Scientific.exponential, List.mem_append, List.mem_cons, List.not_mem_nil,
    or_false] at h
  -- a digit, a point if there are more of them, the letter, the sign, the exponent
  rcases h with ((h | h) | rfl | rfl) | h
  · exact hdigit (List.mem_of_mem_take h)
  · split at h
    · exact nomatch h
    · rcases List.mem_cons.1 h with rfl | h
      · decide
      · exact hdigit (List.mem_of_mem_drop h)
  · decide
  · split <;> decide
  · exact isNumberChar_of_mem_digits h

/-- Whichever way digits are laid out, only characters of numbers are written. -/
theorem Layout.isNumberChar_of_mem_render (l : Layout) {c : Char} (h : c ∈ l.render s) :
    isNumberChar c = true := by
  rw [Layout.render] at h
  split at h
  · exact Scientific.isNumberChar_of_mem_positional hs h
  · exact Scientific.isNumberChar_of_mem_exponential hs h

end

/-- Digits that are laid out have a point or the letter of exponents among them. -/
theorem Layout.render_ne_nil (l : Layout) (s : Scientific) : l.render s ≠ [] := by
  rw [Layout.render]
  split
  · rw [Scientific.positional]
    split <;> simp
  · simp [Scientific.exponential]

/-- A double is written with characters of numbers. -/
theorem Layout.isNumberChar_of_mem_text (l : Layout) {x : Binary64} {c : Char}
    (h : c ∈ (l.text x).toList) : isNumberChar c = true := by
  rw [Layout.text, String.toList_ofList] at h
  rcases List.mem_append.1 h with h | h
  · split at h
    · obtain rfl := List.mem_singleton.1 h
      decide
    · exact nomatch h
  · exact l.isNumberChar_of_mem_render (fun _ h => Binary64.isDigit_of_mem_shortest h) h

/-- A double has a text, with or without its sign. -/
theorem Layout.text_toList_ne_nil (l : Layout) (x : Binary64) : (l.text x).toList ≠ [] := by
  rw [Layout.text, String.toList_ofList]
  exact List.append_ne_nil_of_right_ne_nil _ (l.render_ne_nil _)

end Decimal

/-! ## Numbers -/

/-- A number is written with characters of numbers, whether it is whole or not. -/
theorem Json.Number.isNumberChar_of_mem_text {n : Json.Number} {c : Char}
    (h : c ∈ n.text.toList) : isNumberChar c = true := by
  cases n with
  | integer n fits => exact Decimal.isNumberChar_of_mem_intText h
  | double x => exact Json.doubleLayout.isNumberChar_of_mem_text h

/-- No number has an empty text. -/
theorem Json.Number.text_toList_ne_nil (n : Json.Number) : n.text.toList ≠ [] := by
  cases n with
  | integer n fits => exact Decimal.intText_toList_ne_nil n
  | double x => exact Json.doubleLayout.text_toList_ne_nil x

end Dashboards
