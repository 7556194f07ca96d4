import Dashboards.Json.Number
import Dashboards.Yaml.Node

/-!
# The meaning of scalars

What a scalar means where no text is asked for: nothing, a truth value, a number, or text.  A plain
scalar means what it looks like, any other one is text, and a tag may say otherwise.
-/

namespace Dashboards.Yaml

/-- The meaning of a scalar. -/
inductive Meaning where
  | null
  | bool (b : Bool)
  | number (n : Json.Number)
  /-- a whole number of more than 64 and at most 128 bits -/
  | wideInteger
  /-- an infinity, or no number -/
  | nonFinite
  | text
deriving DecidableEq, Repr

/-- Whether the scalar stands for nothing, spelled out. -/
def isNullWord (s : String) : Bool := ["null", "Null", "NULL", "~"].contains s

/-- The truth value that the scalar spells. -/
def boolWord? (s : String) : Option Bool :=
  if ["true", "True", "TRUE"].contains s then some true
  else if ["false", "False", "FALSE"].contains s then some false
  else none

/-- Whether the scalar spells an infinity or no number. -/
def isNonFiniteWord (s : String) : Bool :=
  [".inf", ".Inf", ".INF", "+.inf", "+.Inf", "+.INF", "-.inf", "-.Inf", "-.INF",
    ".nan", ".NaN", ".NAN"].contains s

/-- The characters without a sign in front, and whether it is `-`. -/
def splitSign : List Char → Bool × List Char
  | '+' :: cs => (false, cs)
  | '-' :: cs => (true, cs)
  | cs => (false, cs)

/-- Whether the characters are a numeral with a needless zero in front, which is text. -/
def hasNeedlessZero (cs : List Char) : Bool :=
  match (splitSign cs).2 with
  | '0' :: c :: cs => (c :: cs).all Char.isDigit
  | _ => false

/-- A whole number without a sign: decimal, or with a mark of its base. -/
def magnitude? : List Char → Option Nat
  | '0' :: 'x' :: cs => Decimal.numeral? 16 cs
  | '0' :: 'o' :: cs => Decimal.numeral? 8 cs
  | '0' :: 'b' :: cs => Decimal.numeral? 2 cs
  | cs => Decimal.numeral? 10 cs

/-- A whole number with an optional sign. -/
def integer? (cs : List Char) : Option (Bool × Nat) :=
  if hasNeedlessZero cs then none
  else
    let (negative, cs) := splitSign cs
    (magnitude? cs).map fun n => (negative, n)

/-- The magnitude of the least signed number of 128 bits. -/
abbrev leastSigned128 : Nat := 0x80000000000000000000000000000000

/-- The meaning of a whole number: one that has more than 128 bits means none. -/
def Meaning.ofInteger? (negative : Bool) (n : Nat) : Option Meaning :=
  match Json.Number.ofInt? (if negative then -n else n) with
  | some m => some (.number m)
  | none =>
    if n < 2 * leastSigned128 ∧ (negative → n ≤ leastSigned128) then some .wideInteger else none

/-- The exponent of a literal, which ends it. -/
def exponent? : List Char → Option (Option (Bool × List Char))
  | [] => some none
  | c :: cs =>
    if c = 'e' ∨ c = 'E' then
      let (negative, ds) := splitSign cs
      if ds ≠ [] ∧ ds.all Char.isDigit then some (some (negative, ds)) else none
    else none

/-- A decimal literal with an optional sign: digits with at most one point among them, and an
exponent. -/
def literal? (cs : List Char) : Option Decimal.Literal :=
  let (negative, cs) := splitSign cs
  let whole := cs.takeWhile Char.isDigit
  match cs.dropWhile Char.isDigit with
  | '.' :: cs =>
    let fraction := cs.takeWhile Char.isDigit
    if whole = [] ∧ fraction = [] then none
    else (exponent? (cs.dropWhile Char.isDigit)).map fun e => ⟨negative, whole, some fraction, e⟩
  | cs => if whole = [] then none else (exponent? cs).map fun e => ⟨negative, whole, none, e⟩

/-- The meaning of the text of a whole number, if it is one of at most 128 bits. -/
def integerMeaning? (s : String) : Option Meaning :=
  (integer? s.toList).bind fun (negative, n) => Meaning.ofInteger? negative n

/-- The meaning of the text of a double. -/
def doubleMeaning? (s : String) : Option Meaning :=
  if isNonFiniteWord s then some .nonFinite
  else ((literal? s.toList).bind (·.nearest?)).map fun x => .number (.double x)

/-- The meaning of a plain scalar without a tag. -/
def plainMeaning (s : String) : Meaning :=
  if s = "" ∨ isNullWord s then .null
  else match boolWord? s with
  | some b => .bool b
  | none =>
    match integerMeaning? s with
    | some m => m
    | none =>
      -- a numeral with a needless zero looks like a double, too
      if hasNeedlessZero s.toList then .text else (doubleMeaning? s).getD .text

/-! ## Tags -/

/-- The tag of nothing. -/
def nullTag : String := "tag:yaml.org,2002:null"

/-- The tag of truth values. -/
def boolTag : String := "tag:yaml.org,2002:bool"

/-- The tag of whole numbers. -/
def integerTag : String := "tag:yaml.org,2002:int"

/-- The tag of doubles. -/
def doubleTag : String := "tag:yaml.org,2002:float"

/-- The octets of a tag. -/
def tagOctets (tag : String) : ByteArray := ⟨(tag.toList.map fun c => UInt8.ofNat c.toNat).toArray⟩

/-- The name in a tag of the document's own, which starts with an exclamation mark; a mark alone
names itself.  Tags that are not the octets of a text name nothing. -/
def ownName? (tag : String) : Option String :=
  match tag.toList with
  | '!' :: name =>
    if (tagOctets tag).validateUTF8 then some (if name = [] then tag else String.ofList name)
    else none
  | _ => none

namespace Scalar

/-- The name in a tag of the document's own. -/
def ownName? (s : Scalar) : Option String := s.tag.bind Yaml.ownName?

/-- Whether nothing is written, or a plain word for nothing. -/
def isNothing (s : Scalar) : Bool := s.style == .plain && (s.text == "" || isNullWord s.text)

/-- The meaning of a scalar, `none` if it is not what its tag says. -/
def meaning? (s : Scalar) : Option Meaning :=
  match s.tag with
  | none => some (if s.style = .plain then plainMeaning s.text else .text)
  | some tag =>
    if tag = boolTag then (boolWord? s.text).map .bool
    else if tag = integerTag then integerMeaning? s.text
    else if tag = doubleTag then doubleMeaning? s.text
    else if tag = nullTag then (if isNullWord s.text then some .null else none)
    else if tag.toList.head? = some '!' ∧ s.style = .plain then some (plainMeaning s.text)
    else some .text

end Scalar

example : plainMeaning "-0x1F" = .number (.integer (-31) (by decide)) := by decide +kernel
example : plainMeaning "-0" = .number (.integer 0 (by decide)) := by decide +kernel
example : plainMeaning "007" = .text := by decide +kernel
example : plainMeaning "1_000" = .text := by decide +kernel
example : plainMeaning "18446744073709551616" = .wideInteger := by decide +kernel
example : Scalar.meaning? ⟨"5", .doubleQuoted, some integerTag⟩ =
    some (.number (.integer 5 (by decide))) := by decide +kernel

end Dashboards.Yaml
