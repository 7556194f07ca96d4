import Dashboards.Decimal.Shortest
import Dashboards.Decimal.Significand

/-!
# Numbers of JSON documents

A number is a whole number of 64 bits, signed or unsigned, or a double, and the kinds are kept
apart: `1` and `1.0` are different numbers.  A literal without point and exponent that fits is a
whole number.  Any other literal, `-0` included, is a double, computed from as many of its digits as
fit 64 bits and a power of ten; with many digits or a large exponent that need not be the double
nearest to the literal.
-/

namespace Dashboards.Json

/-- Doubles with a decimal exponent from -5 to 15 are written positionally. -/
def doubleLayout : Decimal.Layout := ⟨-5, 15⟩

/-- The whole numbers that are kept as such: those of 64 bits, signed or unsigned. -/
def FitsInteger (n : Int) : Prop := -0x8000000000000000 ≤ n ∧ n < 0x10000000000000000

instance (n : Int) : Decidable (FitsInteger n) := by unfold FitsInteger; infer_instance

/-- A number of a JSON document. -/
inductive Number where
  | integer (n : Int) (fits : FitsInteger n)
  | double (x : Decimal.Binary64)
deriving DecidableEq, Repr

/-- The text of a double: the shortest digits that read back. -/
def doubleText (x : Decimal.Binary64) : String := doubleLayout.text x

namespace Number

/-- The whole number `n`, if it fits. -/
def ofInt? (n : Int) : Option Number :=
  if h : FitsInteger n then some (.integer n h) else none

/-- The text of a number. -/
def text : Number → String
  | .integer n _ => Decimal.intText n
  | .double x => doubleText x

/-- The number as an unsigned whole number, if it is one. -/
def toNat? : Number → Option Nat
  | .integer (.ofNat n) _ => some n
  | _ => none

/-- The number as a double, whole numbers rounded to the nearest one. -/
def toDouble? : Number → Option Decimal.Binary64
  | .integer n _ => Decimal.Binary64.ofDecimal? (n < 0) n.natAbs 0
  | .double x => some x

end Number

/-- The number that a literal denotes, `none` if it is out of range. -/
def Number.ofLiteral? (l : Decimal.Literal) : Option Number :=
  if l.fraction.isNone && l.exponent.isNone then
    let n := Decimal.valueOf 10 l.whole
    if l.negative then
      if n = 0 then some (.double (.zero true))
      else (Number.ofInt? (-n)).orElse fun _ => l.scaled?.map .double
    else (Number.ofInt? n).orElse fun _ => l.scaled?.map .double
  else l.scaled?.map .double

end Dashboards.Json
