import Dashboards.Text.Blank
import Dashboards.Text.Lower
import Dashboards.Decimal.Binary64
import Dashboards.Decimal.Digits

/-!
# Aggregations

What a query computes from the `value` column: one of nine named functions, a percentile, or any
other token, which is passed on as it stands.
-/

namespace Dashboards

/-- The aggregate functions known by name. -/
inductive AggregateFunction where
  | avg
  | count
  | last
  | max
  | mean
  | min
  | stddev
  | sum
  | variance
deriving DecidableEq, Repr

namespace AggregateFunction

/-- All functions, in the order in which they are listed. -/
def all : List AggregateFunction :=
  [avg, count, last, max, mean, min, stddev, sum, variance]

/-- The name of a function. -/
def name : AggregateFunction → String
  | avg => "avg"
  | count => "count"
  | last => "last"
  | max => "max"
  | mean => "mean"
  | min => "min"
  | stddev => "stddev"
  | sum => "sum"
  | variance => "variance"

/-- The function of a name, in whatever case it is written. -/
def ofName? (s : String) : Option AggregateFunction :=
  all.find? fun f => f.name == Text.lower s

/-- What is said of a name that is not the name of a function. -/
def unknownMessage (name : String) : String :=
  "Unknown aggregation '" ++ name ++ "'. Valid options: " ++
    ", ".intercalate (all.map AggregateFunction.name)

/-- Every function is found by its name. -/
@[simp] theorem ofName?_name (f : AggregateFunction) : ofName? f.name = some f := by
  cases f <;> decide +kernel

end AggregateFunction

/-- One aggregation of a query. -/
inductive Aggregation where
  | named (f : AggregateFunction)
  /-- a percentile, by its number as written without the percent sign -/
  | percentile (number : String)
  | other (token : String)
deriving DecidableEq, Repr

/-! ## Percentiles -/

/-- The double nearest to plain decimal text: digits with at most one point among them, and at least
one digit.  It is `none` for any other text and for a number beyond the largest double. -/
def plainDecimal? (text : String) : Option Decimal.Binary64 :=
  let whole := text.toList.takeWhile Char.isDigit
  match text.toList.dropWhile Char.isDigit with
  | [] =>
    if whole = [] then none else Decimal.Binary64.ofDecimal? false (Decimal.valueOf 10 whole) 0
  | '.' :: fraction =>
    if fraction.all Char.isDigit ∧ whole ++ fraction ≠ [] then
      Decimal.Binary64.ofDecimal? false (Decimal.valueOf 10 (whole ++ fraction))
        (-(fraction.length : Int))
    else none
  | _ :: _ => none

/-- The percentile that a text denotes: plain decimal text of at most one hundred. -/
def percentileOf? (text : String) : Option Decimal.Binary64 :=
  (plainDecimal? text).filter (·.magnitudeLe 100)

namespace Aggregation

/-- The percentile, if this is one. -/
def percentile? : Aggregation → Option Decimal.Binary64
  | percentile number => percentileOf? number
  | _ => none

/-- Whether this is a function known by name or a percentile. -/
def isKnown : Aggregation → Bool
  | named _ => true
  | percentile number => (percentileOf? number).isSome
  | other _ => false

/-- The text that stands for the aggregation in a document. -/
def text : Aggregation → String
  | named f => f.name
  | percentile number => number ++ "%"
  | other token => token

/-- The aggregation of a text: a function name in any case, a percentile followed by a percent sign
with blanks around the number allowed, or the token itself. -/
def ofText (s : String) : Aggregation :=
  match AggregateFunction.ofName? s with
  | some f => named f
  | none =>
    match s.toList.getLast? with
    | some '%' =>
      let number := Text.trim (String.ofList s.toList.dropLast)
      if (percentileOf? number).isSome then percentile number else other s
    | _ => other s

example : ofText "MAX" = named .max := by decide +kernel
example : ofText " 99.9 %" = percentile "99.9" := by decide +kernel
example : ofText ".%" = other ".%" := by decide +kernel
example : ofText "100.1%" = other "100.1%" := by decide +kernel

end Aggregation

end Dashboards
