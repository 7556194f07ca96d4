/-!
# Digits

Numerals in a base from two to sixteen: the value of a row of digits, and the decimal digits of a
number.  Main statement: the decimal digits of a number read back as that number.
-/

namespace Dashboards.Decimal

/-- The value of a hexadecimal digit, `none` for any other character. -/
def digitValue? (c : Char) : Option Nat :=
  if '0' ≤ c ∧ c ≤ '9' then some (c.toNat - '0'.toNat)
  else if 'a' ≤ c ∧ c ≤ 'f' then some (c.toNat - 'a'.toNat + 10)
  else if 'A' ≤ c ∧ c ≤ 'F' then some (c.toNat - 'A'.toNat + 10)
  else none

/-- Whether the character is a digit of the base. -/
def isDigitOf (base : Nat) (c : Char) : Bool :=
  match digitValue? c with
  | some d => d < base
  | none => false

/-- The value of a row of digits, the most significant first. -/
def valueOf (base : Nat) (digits : List Char) : Nat :=
  digits.foldl (fun n c => base * n + (digitValue? c).getD 0) 0

/-- The value of a nonempty row that consists of digits of the base only. -/
def numeral? (base : Nat) (cs : List Char) : Option Nat :=
  if cs ≠ [] ∧ cs.all (isDigitOf base) then some (valueOf base cs) else none

/-- The decimal digits of a number, without leading zeros. -/
def digits (n : Nat) : List Char := Nat.toDigits 10 n

/-- The decimal text of a whole number, with `-` in front if it is negative. -/
def intText : Int → String
  | .ofNat n => String.ofList (digits n)
  | .negSucc n => String.ofList ('-' :: digits (n + 1))

/-- The decimal text of a natural number. -/
def natText (n : Nat) : String := String.ofList (digits n)

/-! ## Reading back -/

theorem digitValue?_digitChar {d : Nat} (h : d < 10) :
    digitValue? (Nat.digitChar d) = some d := by
  match d, h with
  | 0, _ | 1, _ | 2, _ | 3, _ | 4, _ | 5, _ | 6, _ | 7, _ | 8, _ | 9, _ => decide

theorem valueOf_append_singleton (base : Nat) (cs : List Char) (c : Char) :
    valueOf base (cs ++ [c]) = base * valueOf base cs + (digitValue? c).getD 0 := by
  simp only [valueOf, List.foldl_append, List.foldl_cons, List.foldl_nil]

/-- The decimal digits of a number have the number as their value. -/
@[simp] theorem valueOf_digits (n : Nat) : valueOf 10 (digits n) = n := by
  induction n using Nat.strongRecOn with
  | ind n ih =>
    by_cases h : n < 10
    · simp [digits, Nat.toDigits_of_lt_base h, valueOf, digitValue?_digitChar h]
    · have hq : 0 < n / 10 := by omega
      have hr : n % 10 < 10 := Nat.mod_lt _ (by decide)
      have hs : digits n = digits (n / 10) ++ [Nat.digitChar (n % 10)] := by
        have := Nat.toDigits_append_toDigits (by decide : 1 < 10) hq hr
        rw [Nat.div_add_mod, Nat.toDigits_of_lt_base hr] at this
        exact this.symm
      rw [hs, valueOf_append_singleton, ih _ (by omega), digitValue?_digitChar hr]
      exact Nat.div_add_mod n 10

example : intText (-120) = "-120" := by decide +kernel
example : numeral? 16 "1F".toList = some 31 := by decide +kernel

end Dashboards.Decimal
