import Dashboards.Record.Codec
import Dashboards.Text.Blank

/-!
# Schema versions

The version of the schema that a document follows is a number of 32 bits.  Documents have it as a
number or as a numeral between blanks; it is written as a numeral.
-/

namespace Dashboards

open Json (Draft Origin)

/-- The number of a schema version. -/
structure Version where
  number : UInt32
deriving DecidableEq, Repr

namespace Version

instance : LT Version := ⟨fun a b => a.number < b.number⟩
instance : LE Version := ⟨fun a b => a.number ≤ b.number⟩
instance (a b : Version) : Decidable (a < b) := inferInstanceAs (Decidable (a.number < b.number))
instance (a b : Version) : Decidable (a ≤ b) := inferInstanceAs (Decidable (a.number ≤ b.number))

/-- The order of two versions is the order of their numbers. -/
def compare (a b : Version) : Ordering := Ord.compare a.number b.number

/-- The version of a number, if it has 32 bits. -/
def ofInt? (n : Int) : Option Version :=
  if 0 ≤ n ∧ n < UInt32.size then some ⟨UInt32.ofNat n.toNat⟩ else none

/-- The numeral of a version. -/
def text (v : Version) : String := Decimal.natText v.number.toNat

/-- The version of a numeral: decimal digits after an optional `+`, between blanks. -/
def ofText? (s : String) : Option Version :=
  let cs := match Text.trimChars s.toList with
    | '+' :: cs => cs
    | cs => cs
  (Decimal.numeral? 10 cs).bind fun n => ofInt? n

/-- A version as a number or a numeral. -/
def read : Draft → Except Problem Version
  | .number (.ok (.integer n _)) =>
    match ofInt? n with
    | some v => .ok v
    | none => .error (.versionOutOfRange n)
  | .string (.ok s) =>
    match ofText? s with
    | some v => .ok v
    | none => .error (.notAVersion s)
  | d => .error (Codec.mismatch "a schema version number or numeric string" d)

/-- Versions in documents. -/
def codec : Codec Version := ⟨fun _ => read, fun v => .string v.text⟩

example : ofText? "\u2003+007 " = some ⟨7⟩ := by decide +kernel
example : ofText? "++7" = none := by decide +kernel
example : ofText? "4294967296" = none := by decide +kernel

end Version

end Dashboards
