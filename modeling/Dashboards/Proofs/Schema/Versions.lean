import Dashboards.Proofs.Document.RoundTrip
import Dashboards.Schema.Migration

/-!
# Versions of documents

A document has its version as a whole number or as a numeral.  Here it is said without a reader
which values stand for which number, and the reader is compared with it: just the numbers of 32 bits
are read, and none is taken for another.  Versions are compared by their numbers, and so the later
one stays when a document is migrated.

## Key results

- `Version.ofValue_eq_ok_iff`: what is read as a version
- `Version.exists_ofValue_eq_ok_iff`, `Version.ofValue_eq_error_iff`: just the numbers of 32 bits
- `Version.reads_numbers`: reading, writing and comparing of versions
-/

namespace Dashboards

open Json (FitsInteger Value)

/-! ## Comparing -/

/-- Versions are the same if their numbers are. -/
theorem Version.eq_iff_toNat_eq {a b : Version} : a = b ↔ a.number.toNat = b.number.toNat := by
  -- numbers of 32 bits are the same if they are as natural numbers
  rw [UInt32.toNat_inj]
  constructor
  case mp => rintro rfl; rfl
  case mpr => exact congrArg Version.mk

/-- The version of a migrated document has the larger one of two numbers. -/
theorem Catalogue.toNat_finalVersion (c : Catalogue) (a : Version) :
    (c.finalVersion (some a)).number.toNat = max a.number.toNat c.latest.number.toNat := by
  show (if c.latest < a then a else c.latest).number.toNat = _
  split
  next h =>
    have hlt : c.latest.number.toNat < a.number.toNat := UInt32.lt_iff_toNat_lt.1 h
    rw [max_eq_left hlt.le]
  next h =>
    have hle : a.number.toNat ≤ c.latest.number.toNat := not_lt.1 fun hlt =>
      h (UInt32.lt_iff_toNat_lt.2 hlt)
    rw [max_eq_right hle]

namespace Version

/-! ## Values -/

/-- The number that a value stands for: a whole number itself, and a text the number that it is a
numeral of. -/
inductive Denotes : Value → Int → Prop
  | integer (n : Int) (fits : FitsInteger n) : Denotes (.number (.integer n fits)) n
  | numeral {s : String} {n : Nat} (h : SpellsNumber s n) : Denotes (.string s) n

/-- A value stands for one number only. -/
theorem Denotes.unique {v : Value} {m n : Int} (hm : Denotes v m) (hn : Denotes v n) : m = n := by
  cases hm with
  | integer _ fits =>
    cases hn
    rfl
  | numeral hm =>
    cases hn with
    | numeral hn => rw [hm.unique hn]

/-- A whole number stands for itself. -/
theorem denotes_integer_iff {m n : Int} {fits : FitsInteger n} :
    Denotes (.number (.integer n fits)) m ↔ n = m := by
  constructor
  case mp => rintro ⟨⟩; rfl
  case mpr => rintro rfl; exact .integer n fits

/-- A text stands for the number that it spells. -/
theorem denotes_string_iff {s : String} {n : Nat} : Denotes (.string s) n ↔ SpellsNumber s n := by
  constructor
  case mp =>
    intro h
    -- the number of a text is a natural number, which has to be seen before the cases
    generalize hm : (n : Int) = m at h
    cases h with
    | numeral h => rwa [Int.natCast_inj.1 hm]
  case mpr => exact .numeral

/-- The version of a value, if it stands for one. -/
def ofValue? : Value → Option Version
  | .number (.integer n _) => ofInt? n
  | .string s => ofText? s
  | _ => none

/-- A value has the version of the number that it stands for. -/
theorem ofValue?_eq_some_iff {v : Value} {a : Version} :
    ofValue? v = some a ↔ Denotes v a.number.toNat := by
  cases v with
  | number n =>
    cases n with
    | integer n fits => rw [ofValue?, ofInt?_eq_some_iff, denotes_integer_iff]
    | double x => exact iff_of_false (Option.some_ne_none a).symm (by rintro ⟨⟩)
  | string s => rw [ofValue?, ofText?_eq_some_iff, denotes_string_iff]
  | null | bool _ | array _ | object _ =>
    exact iff_of_false (Option.some_ne_none a).symm (by rintro ⟨⟩)

/-- What is said of a value that stands for no version. -/
def refusal : Value → Problem
  | .number (.integer n _) => .versionOutOfRange n
  | .string s => .notAVersion s
  | v => Codec.mismatch "a schema version number or numeric string" v.draft

/-- A value is read as its version, or refused with what is said of it. -/
theorem ofValue_eq (v : Value) :
    codec.ofValue v = (ofValue? v).elim (.error (refusal v)) .ok := by
  cases v with
  | number n =>
    cases n with
    | integer n fits =>
      simp only [codec, Codec.ofValue, Value.sorted, Value.draft, read, ofValue?]
      cases ofInt? n <;> rfl
    | double x => rfl
  | string s =>
    simp only [codec, Codec.ofValue, Value.sorted, Value.draft, read, ofValue?]
    cases ofText? s <;> rfl
  | null | bool _ | array _ | object _ => rfl

/-- A value is read as the version of the number that it stands for. -/
theorem ofValue_eq_ok_iff {v : Value} {a : Version} :
    codec.ofValue v = .ok a ↔ Denotes v a.number.toNat := by
  rw [ofValue_eq, ← ofValue?_eq_some_iff]
  cases ofValue? v <;> simp

/-- The numbers that are read are those of 32 bits, and none is read as another. -/
theorem exists_ofValue_eq_ok_iff {v : Value} {n : Nat} :
    (∃ a, codec.ofValue v = .ok a ∧ a.number.toNat = n) ↔ Denotes v n ∧ n < 2 ^ 32 := by
  constructor
  case mp =>
    rintro ⟨a, ha, rfl⟩
    exact ⟨ofValue_eq_ok_iff.1 ha, a.number.toNat_lt⟩
  case mpr =>
    rintro ⟨hv, hn⟩
    -- below the limit nothing is lost in a number of 32 bits
    have hnumber : (UInt32.ofNat n).toNat = n := UInt32.toNat_ofNat_of_lt' hn
    refine ⟨⟨.ofNat n⟩, ofValue_eq_ok_iff.2 ?_, hnumber⟩
    rwa [hnumber]

/-- All other values are refused. -/
theorem ofValue_eq_error_iff {v : Value} :
    codec.ofValue v = .error (refusal v) ↔ ∀ n : Nat, Denotes v n → 2 ^ 32 ≤ n := by
  constructor
  case mp =>
    intro h n hn
    -- a number that fits would have been read
    by_contra hlt
    obtain ⟨a, ha, -⟩ := exists_ofValue_eq_ok_iff.2 ⟨hn, not_le.1 hlt⟩
    rw [ha] at h
    cases h
  case mpr =>
    intro h
    rw [ofValue_eq]
    cases hv : ofValue? v with
    | none => rfl
    | some a =>
      have hle := h _ (ofValue?_eq_some_iff.1 hv)
      exact absurd a.number.toNat_lt (not_lt.2 hle)

/-! ## Reading, writing and comparing -/

/-- Versions in documents are numbers of 32 bits: each value that stands for such a number, and no
other value, is read as its version.  A value stands for one number only, and a text for the same
number with zeros in front; a version is written as the numeral of its number and read back, and the
values that stand for one version are read alike.  Versions are compared by their numbers, also
where a document is migrated. -/
theorem reads_numbers :
    (∀ (v : Value) (n : Nat),
      (∃ a, codec.ofValue v = .ok a ∧ a.number.toNat = n) ↔ Denotes v n ∧ n < 2 ^ 32) ∧
    (∀ v, codec.ofValue v = .error (refusal v) ↔ ∀ n : Nat, Denotes v n → 2 ^ 32 ≤ n) ∧
    (∀ v m n, Denotes v m → Denotes v n → m = n) ∧
    (∀ n zeros : Nat,
      SpellsNumber (String.ofList (List.replicate zeros '0' ++ Decimal.digits n)) n) ∧
    (∀ a, codec.toValue a = .string (Decimal.natText a.number.toNat) ∧
      codec.ofValue (codec.toValue a) = .ok a) ∧
    (∀ v w (n : Nat), Denotes v n → Denotes w n → n < 2 ^ 32 →
      codec.ofValue v = codec.ofValue w) ∧
    (∀ a b : Version, (a < b ↔ a.number.toNat < b.number.toNat) ∧
      (a ≤ b ↔ a.number.toNat ≤ b.number.toNat) ∧ (a = b ↔ a.number.toNat = b.number.toNat) ∧
      compare a b = Ord.compare a.number.toNat b.number.toNat) ∧
    ∀ (c : Catalogue) a,
      (c.finalVersion (some a)).number.toNat = max a.number.toNat c.latest.number.toNat := by
  refine ⟨fun _ _ => exists_ofValue_eq_ok_iff, fun _ => ofValue_eq_error_iff,
    fun _ _ _ => Denotes.unique, spellsNumber_digits, fun a => ⟨rfl, ?_⟩, ?_, fun a b => ?_,
    Catalogue.toNat_finalVersion⟩
  · exact Codec.ofValue_toValue_iff.2 (returns_codec a)
  · intro v w n hv hw hn
    -- the version that one of them is read as has the number of both
    obtain ⟨a, ha, hnumber⟩ := exists_ofValue_eq_ok_iff.2 ⟨hv, hn⟩
    rw [← hnumber] at hw
    rw [ha, ofValue_eq_ok_iff.2 hw]
  · exact ⟨UInt32.lt_iff_toNat_lt, UInt32.le_iff_toNat_le, eq_iff_toNat_eq,
      UInt32.compare_eq_toNat_compare_toNat _ _⟩

/-- A number and a text with blanks, a sign and zeros are read alike, and a number of 33 bits is
refused. -/
theorem reads_numbers_of_padded :
    Denotes (.number (.integer 7 (by decide))) 7 ∧
      codec.ofValue (.number (.integer 7 (by decide))) = codec.ofValue (.string "\u2003+007 ") ∧
      codec.ofValue (.string "4294967303") = .error (.notAVersion "4294967303") := by
  have hseven : Denotes (.number (.integer 7 (by decide))) 7 := .integer _ _
  have hdigits : ['0', '0', '7'].all Char.isDigit = true := rfl
  have hpadded : SpellsNumber "\u2003+007 " 7 :=
    ⟨['\u2003'], ['+'], ['0', '0', '7'], [' '], List.forall_mem_singleton.2 rfl,
      List.forall_mem_singleton.2 rfl, .inr rfl, nofun,
      fun c hc => (isDigit_iff c).1 (List.all_eq_true.1 hdigits c hc), rfl, rfl⟩
  obtain ⟨-, hrefused, hunique, -, -, hforms, -⟩ := reads_numbers
  refine ⟨hseven, hforms _ _ 7 hseven (.numeral hpadded) (by decide), ?_⟩
  refine (hrefused (.string "4294967303")).2 fun n hn => ?_
  have hlarge : Denotes (.string "4294967303") 4294967303 :=
    .numeral (n := 4294967303) (spellsNumber_digits 4294967303 0)
  have hn := hunique _ _ _ hn hlarge
  omega

end Version

end Dashboards
