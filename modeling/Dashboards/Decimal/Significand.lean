import Dashboards.Decimal.Literal

/-!
# Significands

A quick way to read a literal: keep the digits that fit 64 bits, and multiply or divide them by a
power of ten in double arithmetic.  Every step is rounded, so that the result may differ from the
nearest double in the last places; it is the nearest one if the digits and the power of ten both
are doubles.
-/

namespace Dashboards.Decimal

namespace Binary64

/-- The product, rounded to the nearest double; `none` beyond the largest one. -/
def times? (x y : Binary64) : Option Binary64 :=
  ofRatio? (x.negative != y.negative) (x.num * y.num) (x.den * y.den)

/-- The quotient by a double other than zero, rounded to the nearest double; `none` beyond the
largest one. -/
def over? (x y : Binary64) : Option Binary64 :=
  ofRatio? (x.negative != y.negative) (x.num * y.den) (x.den * y.num)

/-- The double nearest to `10^k`; `none` beyond `10^308`. -/
def tenTo? (k : Nat) : Option Binary64 := ofDecimal? false 1 k

/-- The double divided by `10^k`, by at most `10^308` in one step.  The first argument bounds the
number of steps. -/
def overTenTo? : Nat → Binary64 → Nat → Option Binary64
  | 0, x, _ => some x
  | steps + 1, x, k =>
    if k ≤ 308 then (tenTo? k).bind x.over?
    else ((tenTo? 308).bind x.over?).bind fun x => overTenTo? steps x (k - 308)

end Binary64

/-- A whole number of 64 bits and the power of ten that it is multiplied by. -/
structure Significand where
  value : Nat
  exponent : Int
deriving DecidableEq, Repr

/-- Appends digits to a number as long as it fits 64 bits; the number, and the digits that are
left. -/
def absorb (value : Nat) : List Char → Nat × List Char
  | [] => (value, [])
  | c :: cs =>
    let next := 10 * value + (digitValue? c).getD 0
    if next < UInt64.size then absorb next cs else (value, c :: cs)

/-- The significand of a literal.  A digit before the point that does not fit counts as a zero, and
so do those after it up to the point; digits after the point end with the first that does not
fit. -/
def Literal.significand (l : Literal) : Significand :=
  let (value, zeros) := absorb 0 l.whole
  let (value, ignored) := absorb value l.fractionDigits
  { value := value
    exponent := l.shift + zeros.length - (l.fractionDigits.length - ignored.length : Nat) }

/-- The value of a significand with a sign, in double arithmetic; `none` if it is out of range.
Three divisions by `10^308` make zero of any number of 64 bits. -/
def Significand.toDouble? (negative : Bool) (s : Significand) : Option Binary64 :=
  if s.value = 0 then some (.zero negative)
  else
    (Binary64.ofRatio? negative s.value 1).bind fun x =>
      match s.exponent with
      | .ofNat k => (Binary64.tenTo? k).bind x.times?
      | .negSucc k => Binary64.overTenTo? 3 x (k + 1)

/-- The double that a literal is read as, `none` if it is out of range. -/
def Literal.scaled? (l : Literal) : Option Binary64 := l.significand.toDouble? l.negative

example : (Literal.significand ⟨false, "18446744073709551616".toList, some ['5'], none⟩) =
    ⟨18446744073709551615, 0⟩ := by decide +kernel
example : Literal.scaled? ⟨false, ['1'], some ['5'], some (false, ['3'])⟩ =
    Binary64.ofRatio? false 1500 1 := by decide +kernel
example : Literal.scaled? ⟨true, ['1'], none, some (true, "1000000000000".toList)⟩ =
    some (.zero true) := by decide +kernel
example : Literal.scaled? ⟨false, ['1'], none, some (false, "309".toList)⟩ = none := by
  decide +kernel

end Dashboards.Decimal
