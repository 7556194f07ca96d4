/-!
# Doubles

Finite IEEE 754 double-precision numbers as exact values, `± mantissa · 2^exponent` with one
canonical pair for each value, and the rounding of an exact fraction to the nearest of them.  Every
operation is plain arithmetic on natural numbers.
-/

namespace Dashboards.Decimal

/-- The least mantissa of 53 bits. -/
abbrev leastFull : Nat := 0x10000000000000

/-- The pairs that stand for a double: at most 53 bits, and the smallest exponent that a value
allows, so that no two pairs have the same value. -/
def Canonical (mantissa : Nat) (exponent : Int) : Prop :=
  mantissa < 2 * leastFull ∧ -1074 ≤ exponent ∧ exponent ≤ 971 ∧
    (leastFull ≤ mantissa ∨ exponent = -1074)

instance (m : Nat) (e : Int) : Decidable (Canonical m e) := by
  unfold Canonical; infer_instance

/-- A finite double, `± mantissa · 2^exponent`. -/
structure Binary64 where
  negative : Bool
  mantissa : Nat
  exponent : Int
  canonical : Canonical mantissa exponent
deriving DecidableEq, Repr

/-- `num / den` rounded to the nearest natural number; a half goes to the even neighbour. -/
def divNearestEven (num den : Nat) : Nat :=
  let q := num / den
  let r := num % den
  if 2 * r < den then q
  else if den < 2 * r then q + 1
  else if q % 2 = 0 then q else q + 1

/-- `num / den` rounded to the nearest natural number; a half goes up. -/
def divNearestUp (num den : Nat) : Nat :=
  (2 * num + den) / (2 * den)

/-- The exponent `e` with `2^e ≤ num / den < 2^(e + 1)`, for positive arguments. -/
def log2Ratio (num den : Nat) : Int :=
  let e : Int := (num.log2 : Int) - den.log2
  if den * Nat.pow 2 e.toNat ≤ num * Nat.pow 2 (-e).toNat then e else e - 1

namespace Binary64

/-- Zero with a sign. -/
def zero (negative : Bool) : Binary64 :=
  ⟨negative, 0, -1074, by decide⟩

/-- The double with this mantissa and exponent, if they are a canonical pair. -/
def ofParts? (negative : Bool) (mantissa : Nat) (exponent : Int) : Option Binary64 :=
  if h : Canonical mantissa exponent then some ⟨negative, mantissa, exponent, h⟩ else none

/-- The numerator of the magnitude, a fraction whose denominator is a power of two. -/
def num (x : Binary64) : Nat := x.mantissa * Nat.pow 2 x.exponent.toNat

/-- The denominator of the magnitude. -/
def den (x : Binary64) : Nat := Nat.pow 2 (-x.exponent).toNat

/-- The double nearest to `± num / den`, a tie going to the even mantissa; `none` if it lies beyond
the largest double. -/
def ofRatio? (negative : Bool) (num den : Nat) : Option Binary64 :=
  if num = 0 then some (zero negative)
  else
    let e := max (-1074) (log2Ratio num den - 52)
    let m := divNearestEven (num * Nat.pow 2 (-e).toNat) (den * Nat.pow 2 e.toNat)
    if m = 2 * leastFull then ofParts? negative leastFull (e + 1) else ofParts? negative m e

/-- The double nearest to `± digits · 10^exponent`; `none` if it lies beyond the largest double.
Exponents far outside the range of doubles are settled without computing the power. -/
def ofDecimal? (negative : Bool) (digits : Nat) (exponent : Int) : Option Binary64 :=
  if digits = 0 then some (zero negative)
  else if 400 < exponent then none
  else if exponent < -(400 + (digits.log2 : Int)) then some (zero negative)
  else ofRatio? negative (digits * Nat.pow 10 exponent.toNat) (Nat.pow 10 (-exponent).toNat)

/-- Whether the magnitude is at most `n`. -/
def magnitudeLe (x : Binary64) (n : Nat) : Bool := x.num ≤ n * x.den

/-- The magnitude times ten, as the nearest double, then as the nearest whole number, a half going
up. -/
def tenfoldRounded (x : Binary64) : Nat :=
  match ofRatio? false (10 * x.num) x.den with
  | some y => divNearestUp y.num y.den
  | none => 0

end Binary64

example : Binary64.ofDecimal? false 1 0 = some ⟨false, leastFull, -52, by decide⟩ := by
  decide +kernel
example : Binary64.ofDecimal? false 1 400 = none := by decide +kernel
example : Binary64.ofDecimal? true 1 (-400) = some (Binary64.zero true) := by decide +kernel
example : (Binary64.ofDecimal? false 999 (-1)).map Binary64.tenfoldRounded = some 999 := by
  decide +kernel

end Dashboards.Decimal
