import Dashboards.Decimal.Binary64
import Dashboards.Decimal.Digits

/-!
# Literals

The parts of a number as it is written: a sign, digits with at most one point among them, and an
exponent.  `Literal.nearest?` is the double nearest to the number.
-/

namespace Dashboards.Decimal

/-- The parts of a number literal: sign, digits before the point, digits after it, and the exponent
with its sign. -/
structure Literal where
  negative : Bool
  whole : List Char
  fraction : Option (List Char)
  exponent : Option (Bool × List Char)
deriving DecidableEq, Repr

namespace Literal

/-- The digits after the point, none if there is no point. -/
def fractionDigits (l : Literal) : List Char := l.fraction.getD []

/-- The exponent, zero if there is none. -/
def shift (l : Literal) : Int :=
  match l.exponent with
  | none => 0
  | some (negative, ds) =>
    let n : Int := valueOf 10 ds
    if negative then -n else n

/-- The double nearest to the literal, `none` if it is out of range. -/
def nearest? (l : Literal) : Option Binary64 :=
  Binary64.ofDecimal? l.negative (valueOf 10 (l.whole ++ l.fractionDigits))
    (l.shift - l.fractionDigits.length)

end Literal

end Dashboards.Decimal
