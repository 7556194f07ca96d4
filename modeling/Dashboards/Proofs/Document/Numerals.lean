import Dashboards.Document.Version
import Dashboards.Proofs.Json.NumberText
import Dashboards.Proofs.Query.Percentile

/-!
# Numerals of versions

A version is written as a numeral, and what is read as one may have blanks around it, a plus sign
and any number of zeros in front.  Here it is said without a reader which texts are numerals of
which number, and the reader is compared with it.

## Key results

- `Decimal.numeral?_eq_some_iff`: rows of digits
- `SpellsNumber.unique`: a text is a numeral of one number only
- `Version.ofText?_eq_some_iff`: the texts that are read as a version
-/

namespace Dashboards

/-! ## Rows of digits -/

namespace Decimal

/-- The value of a digit of ASCII is its distance from the zero. -/
theorem digitValue?_of_isAsciiDigit {c : Char} (h : IsAsciiDigit c) :
    digitValue? c = some (c.toNat - '0'.toNat) :=
  if_pos h

/-- The value of a row of digits is the number that it is in decimal. -/
theorem valueOf_eq_ofDigitChars {cs : List Char} (h : ∀ c ∈ cs, IsAsciiDigit c) :
    valueOf 10 cs = Nat.ofDigitChars 10 cs 0 := by
  rw [valueOf, Nat.ofDigitChars_eq_foldl]
  refine List.foldl_ext _ _ 0 fun n c hc => ?_
  rw [digitValue?_of_isAsciiDigit (h c hc), Option.getD_some]

/-- A numeral is any nonempty row of digits of ASCII. -/
theorem numeral?_eq_some_iff {cs : List Char} {n : Nat} : numeral? 10 cs = some n ↔
    cs ≠ [] ∧ (∀ c ∈ cs, IsAsciiDigit c) ∧ Nat.ofDigitChars 10 cs 0 = n := by
  have hall : cs.all (isDigitOf 10) = true ↔ ∀ c ∈ cs, IsAsciiDigit c := by
    simp only [List.all_eq_true, isDigitOf_ten, isDigit_iff]
  rw [numeral?]
  -- what is no row of digits is refused whole, and not read up to the first other character
  split
  next h =>
    have hdigits := hall.1 h.2
    rw [valueOf_eq_ofDigitChars hdigits, Option.some.injEq]
    exact ⟨fun hn => ⟨h.1, hdigits, hn⟩, fun hn => hn.2.2⟩
  next h =>
    refine iff_of_false (Option.some_ne_none n).symm ?_
    rintro ⟨hne, hdigits, -⟩
    exact h ⟨hne, hall.2 hdigits⟩

end Decimal

/-! ## Numerals -/

/-- The text is a numeral of the number: digits of ASCII after an optional plus sign, with blanks
around them. -/
def SpellsNumber (s : String) (n : Nat) : Prop :=
  ∃ before sign digits after : List Char,
    (∀ c ∈ before, Text.isBlank c = true) ∧ (∀ c ∈ after, Text.isBlank c = true) ∧
    (sign = [] ∨ sign = ['+']) ∧ digits ≠ [] ∧ (∀ c ∈ digits, IsAsciiDigit c) ∧
    s.toList = before ++ (sign ++ digits) ++ after ∧ Nat.ofDigitChars 10 digits 0 = n

/-- Neither signs nor digits are blank. -/
theorem isBlank_signed {sign digits : List Char} (hsign : sign = [] ∨ sign = ['+'])
    (hdigits : ∀ c ∈ digits, IsAsciiDigit c) :
    ∀ c ∈ sign ++ digits, Text.isBlank c = false := by
  intro c hc
  rcases List.mem_append.1 hc with hc | hc
  · rcases hsign with rfl | rfl
    · cases hc
    · obtain rfl := List.mem_singleton.1 hc
      rfl
  · exact Text.isBlank_of_isDigit ((isDigit_iff c).2 (hdigits c hc))

/-- What a numeral must have as its digits: all that is left without blanks and sign. -/
def numeralDigits (s : String) : List Char :=
  match Text.trimChars s.toList with
  | '+' :: cs => cs
  | cs => cs

/-- What is left of a text without blanks is a sign, if there is one, and the digits. -/
theorem exists_trimChars_eq (s : String) : ∃ sign : List Char, (sign = [] ∨ sign = ['+']) ∧
    Text.trimChars s.toList = sign ++ numeralDigits s := by
  rw [numeralDigits]
  split
  next cs htrim => exact ⟨['+'], .inr rfl, htrim⟩
  next => exact ⟨[], .inl rfl, rfl⟩

/-- A sign is not taken for a digit. -/
theorem numeralDigits_eq {s : String} {sign digits : List Char}
    (hsign : sign = [] ∨ sign = ['+']) (hdigits : ∀ c ∈ digits, IsAsciiDigit c)
    (htrim : Text.trimChars s.toList = sign ++ digits) : numeralDigits s = digits := by
  rw [numeralDigits, htrim]
  rcases hsign with rfl | rfl
  · rw [List.nil_append]
    split
    next cs =>
      -- without a sign the first character is a digit
      have hplus : ('+').isDigit = true := (isDigit_iff _).2 (hdigits _ List.mem_cons_self)
      cases hplus
    next => rfl
  · rfl

/-- The digits of a text are a numeral iff the text spells the number. -/
theorem numeral?_numeralDigits_eq_some_iff {s : String} {n : Nat} :
    Decimal.numeral? 10 (numeralDigits s) = some n ↔ SpellsNumber s n := by
  rw [Decimal.numeral?_eq_some_iff]
  constructor
  case mp =>
    rintro ⟨hne, hdigits, hvalue⟩
    obtain ⟨sign, hsign, htrim⟩ := exists_trimChars_eq s
    obtain ⟨before, after, hbefore, hafter, hs⟩ := Text.exists_append_trimChars s.toList
    rw [htrim] at hs
    exact ⟨before, sign, _, after, hbefore, hafter, hsign, hne, hdigits, hs, hvalue⟩
  case mpr =>
    rintro ⟨before, sign, digits, after, hbefore, hafter, hsign, hne, hdigits, hs, hvalue⟩
    -- trimming stops at the sign and at the last digit, since neither is blank
    have htrim : Text.trimChars s.toList = sign ++ digits := by
      rw [hs, Text.trimChars_append hbefore hafter (isBlank_signed hsign hdigits)]
    rw [numeralDigits_eq hsign hdigits htrim]
    exact ⟨hne, hdigits, hvalue⟩

/-- A text is a numeral of one number only. -/
theorem SpellsNumber.unique {s : String} {m n : Nat} (hm : SpellsNumber s m)
    (hn : SpellsNumber s n) : m = n := by
  rw [← numeral?_numeralDigits_eq_some_iff] at hm hn
  exact Option.some.inj (hm.symm.trans hn)

/-- The digits of a number are a numeral of it, also with zeros in front. -/
theorem spellsNumber_digits (n zeros : Nat) :
    SpellsNumber (String.ofList (List.replicate zeros '0' ++ Decimal.digits n)) n := by
  have hdigits : ∀ c ∈ List.replicate zeros '0' ++ Decimal.digits n, IsAsciiDigit c := by
    intro c hc
    rcases List.mem_append.1 hc with hc | hc
    · rw [List.eq_of_mem_replicate hc]
      exact (isDigit_iff '0').1 rfl
    · exact (isDigit_iff c).1 (Decimal.isDigit_of_mem_digits hc)
  have hvalue : Nat.ofDigitChars 10 (List.replicate zeros '0' ++ Decimal.digits n) 0 = n := by
    rw [Nat.ofDigitChars_append, Nat.ofDigitChars_replicate_zero, Nat.mul_zero]
    exact Nat.ofDigitChars_ten_toDigits
  refine ⟨[], [], _, [], List.forall_mem_nil _, List.forall_mem_nil _, .inl rfl, ?_, hdigits, ?_,
    hvalue⟩
  · exact List.append_ne_nil_of_right_ne_nil _ Nat.toDigits_ne_nil
  · rw [String.toList_ofList, List.append_nil, List.nil_append, List.nil_append]

/-! ## Versions -/

namespace Version

/-- A version is made of the number that it has, and of no other. -/
theorem ofInt?_eq_some_iff {n : Int} {a : Version} : ofInt? n = some a ↔ n = a.number.toNat := by
  have hsize : a.number.toNat < UInt32.size := a.number.toNat_lt_size
  rw [ofInt?]
  -- numbers below zero or of more than 32 bits are no versions, and no version has one
  split
  next h =>
    obtain ⟨k, rfl⟩ := Int.eq_ofNat_of_zero_le h.1
    have hk : k < UInt32.size := by exact_mod_cast h.2
    rw [Option.some.injEq, Int.toNat_natCast, Int.natCast_inj]
    constructor
    case mp =>
      rintro rfl
      exact (UInt32.toNat_ofNat_of_lt' hk).symm
    case mpr =>
      rintro rfl
      rw [UInt32.ofNat_toNat]
  next h =>
    refine iff_of_false (Option.some_ne_none a).symm ?_
    rintro rfl
    exact h ⟨Int.natCast_nonneg _, by exact_mod_cast hsize⟩

/-- A text is read by its digits, and the number as one that stands by itself. -/
theorem ofText?_eq (s : String) :
    ofText? s = (Decimal.numeral? 10 (numeralDigits s)).bind fun n => ofInt? n :=
  rfl

/-- A text is read as a version if it is a numeral of its number. -/
theorem ofText?_eq_some_iff {s : String} {a : Version} :
    ofText? s = some a ↔ SpellsNumber s a.number.toNat := by
  rw [ofText?_eq, Option.bind_eq_some_iff, ← numeral?_numeralDigits_eq_some_iff]
  simp only [ofInt?_eq_some_iff, Int.natCast_inj]
  constructor
  case mp =>
    rintro ⟨n, hn, rfl⟩
    exact hn
  case mpr =>
    intro h
    exact ⟨_, h, rfl⟩

end Version

end Dashboards
