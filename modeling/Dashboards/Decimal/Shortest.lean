import Dashboards.Decimal.Binary64
import Dashboards.Decimal.Digits

/-!
# Shortest digits

The decimal digits that stand for a double: as few as suffice for the double to be the nearest one
to the decimal number, and of those with equally many digits the nearest to the double, a tie going
to the even digit.

The search looks at the two neighbours of the double on ever finer decimal grids.  If any number of
a grid rounds to the double, then so does one of those two.
-/

namespace Dashboards.Decimal

/-- A positive double as `mid / den`, with the interval `low / den … high / den` of the numbers that
round to it.  The ends belong to it if `closed`. -/
structure Neighbourhood where
  low : Nat
  mid : Nat
  high : Nat
  den : Nat
  closed : Bool

/-- The numbers that round to the magnitude of a double other than zero: half way to the next double
on both sides, where the one below a power of two is only half as far away. -/
def Binary64.neighbourhood (x : Binary64) : Neighbourhood :=
  -- in quarters of the last place, half way to either neighbour is a whole number
  let below := if x.mantissa = leastFull ∧ x.exponent ≠ -1074 then 1 else 2
  let e := x.exponent - 2
  { low := (4 * x.mantissa - below) * Nat.pow 2 e.toNat
    mid := 4 * x.mantissa * Nat.pow 2 e.toNat
    high := (4 * x.mantissa + 2) * Nat.pow 2 e.toNat
    den := Nat.pow 2 (-e).toNat
    closed := x.mantissa % 2 = 0 }

namespace Neighbourhood

/-- Whether `a · 10^k` lies in the interval. -/
def contains (n : Neighbourhood) (a : Nat) (k : Int) : Bool :=
  let v := a * Nat.pow 10 k.toNat * n.den
  let low := n.low * Nat.pow 10 (-k).toNat
  let high := n.high * Nat.pow 10 (-k).toNat
  if n.closed then low ≤ v && v ≤ high else low < v && v < high

/-- The number `a` for which `a · 10^k` lies in the interval and is nearest to its middle. -/
def onGrid? (n : Neighbourhood) (k : Int) : Option Nat :=
  let num := n.mid * Nat.pow 10 (-k).toNat
  let den := n.den * Nat.pow 10 k.toNat
  let a := num / den
  match n.contains a k, n.contains (a + 1) k with
  | true, true => some (divNearestEven num den)
  | true, false => some a
  | false, true => some (a + 1)
  | false, false => none

/-- The exponent `e` with `10^e ≤ mid / den < 10^(e + 1)`. -/
def magnitude (n : Neighbourhood) : Int :=
  if n.den ≤ n.mid then (digits (n.mid / n.den)).length - 1
  else -((digits ((n.den - 1) / n.mid)).length : Int)

end Neighbourhood

/-- A decimal number `d.ddd · 10^exponent`, given by its digits. -/
structure Scientific where
  digits : List Char
  exponent : Int
deriving DecidableEq, Repr

/-- `a · 10^k` without needless zeros. -/
def Scientific.ofScaled (a : Nat) (k : Int) : Scientific :=
  let ds := Decimal.digits a
  { digits := (ds.reverse.dropWhile (· == '0')).reverse
    exponent := k + (ds.length - 1 : Nat) }

/-- The shortest digits of the magnitude of a double.  Seventeen digits always suffice; the exact
expansion stands behind them so that no case is left open. -/
def Binary64.shortest (x : Binary64) : Scientific :=
  if x.mantissa = 0 then ⟨['0'], 0⟩
  else
    let n := x.neighbourhood
    let e := n.magnitude
    let found := (List.range 17).findSome? fun i : Nat =>
      (n.onGrid? (e - i)).map fun a => Scientific.ofScaled a (e - i)
    found.getD (.ofScaled
      (x.mantissa * Nat.pow 2 x.exponent.toNat * Nat.pow 5 (-x.exponent).toNat)
      (min x.exponent 0))

/-! ## Layout -/

/-- How digits are laid out: decimal exponents from `least` to `most` are written positionally, with
at least one digit on either side of the point, and all others with an exponent. -/
structure Layout where
  least : Int
  most : Int

/-- The positional form: `0.0015`, `1200.0`, `3.5`. -/
def Scientific.positional (s : Scientific) : List Char :=
  if s.exponent < 0 then
    ['0', '.'] ++ List.replicate ((-s.exponent).toNat - 1) '0' ++ s.digits
  else
    let n := s.exponent.toNat + 1
    let whole := s.digits.take n
    let rest := s.digits.drop n
    whole ++ List.replicate (n - whole.length) '0' ++ '.' :: (if rest = [] then ['0'] else rest)

/-- The form with an exponent, which always has a sign: `1e+16`, `1.25e-7`. -/
def Scientific.exponential (s : Scientific) : List Char :=
  let fraction := s.digits.drop 1
  s.digits.take 1 ++ (if fraction = [] then [] else '.' :: fraction) ++
    ['e', if s.exponent < 0 then '-' else '+'] ++ Decimal.digits s.exponent.natAbs

/-- The digits, laid out. -/
def Layout.render (l : Layout) (s : Scientific) : List Char :=
  if l.least ≤ s.exponent ∧ s.exponent ≤ l.most then s.positional else s.exponential

/-- The text of a double. -/
def Layout.text (l : Layout) (x : Binary64) : String :=
  String.ofList ((if x.negative then ['-'] else []) ++ l.render x.shortest)

end Dashboards.Decimal
