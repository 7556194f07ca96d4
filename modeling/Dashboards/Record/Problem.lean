import Dashboards.Json.Draft
import Dashboards.Query.Aggregation
import Dashboards.Text.Quoted

/-!
# Problems of documents

Why a document is not what it is read as: its text is broken, or something in it is of the wrong
kind, out of range, missing or there twice.
-/

namespace Dashboards

/-- What was found in place of something else. -/
inductive Found where
  | null
  | boolean (b : Bool)
  | integer (n : Int)
  | double (x : Decimal.Binary64)
  | string (s : String)
  | sequence
  | mapping
deriving DecidableEq, Repr

/-- How a message names what was found. -/
def Found.text : Found → String
  | null => "null"
  | boolean b => "boolean `" ++ (if b then "true" else "false") ++ "`"
  | integer n => "integer `" ++ Decimal.intText n ++ "`"
  | double x => "floating point `" ++ Json.doubleText x ++ "`"
  | string s => "string " ++ Text.quoted s
  | sequence => "sequence"
  | mapping => "map"

/-- Why a document is not what it is read as. -/
inductive Problem where
  /-- the text is not JSON -/
  | broken (fault : Json.Fault)
  | wrongKind (found : Found) (expected : String)
  | outOfRange (n : Int) (expected : String)
  | missingField (key : String)
  | duplicateField (key : String)
  | unknownVariant (name : String) (known : List String)
  /-- a mapping in place of a word has no member or more than one -/
  | notSingleKey
  | notAnOperand
  /-- a record written as a list ends before a member that it must have -/
  | tooFewItems (length : Nat) (title : String) (members : Nat)
  | tooManyItems (length : Nat)
  | versionOutOfRange (n : Int)
  | notAVersion (s : String)
  | unknownAggregation (name : String)
deriving DecidableEq, Repr

/-- What is said of a problem.  A broken text is told from the others by its kind, and has no
message of its own. -/
def Problem.message : Problem → String
  | broken .malformed => "malformed text"
  | broken .unfinished => "unfinished text"
  | wrongKind found expected => "invalid type: " ++ found.text ++ ", expected " ++ expected
  | outOfRange n expected =>
    "invalid value: integer `" ++ Decimal.intText n ++ "`, expected " ++ expected
  | missingField key => "missing field `" ++ key ++ "`"
  | duplicateField key => "duplicate field `" ++ key ++ "`"
  | unknownVariant name known =>
    "unknown variant `" ++ name ++ "`, expected " ++
      " or ".intercalate (known.map fun k => "`" ++ k ++ "`")
  | notSingleKey => "invalid value: map, expected map with a single key"
  | notAnOperand => "data did not match any variant of untagged enum MatchOperand"
  | tooFewItems length title members =>
    "invalid length " ++ Decimal.natText length ++ ", expected " ++ title ++ " with " ++
      Decimal.natText members ++ " elements"
  | tooManyItems length =>
    "invalid length " ++ Decimal.natText length ++ ", expected fewer elements in array"
  | versionOutOfRange n => "schema version " ++ Decimal.intText n ++ " out of range"
  | notAVersion s => "invalid schema version '" ++ s ++ "'"
  | unknownAggregation name => AggregateFunction.unknownMessage name

end Dashboards
