import Dashboards.Query.Aggregation
import Dashboards.Json.Number

/-!
# Queries

A query describes the tabular data behind a widget: what is aggregated, and the filters over fields
and over the keys packed into the metadata column.  A filter selects a column, restricts the rows,
or both.  The order of the filters is the order of the columns.
-/

namespace Dashboards

/-- What a field is compared with. -/
inductive Operand where
  | number (n : Json.Number)
  | text (s : String)
deriving DecidableEq, Repr

/-- How a field is compared.  A code that is not known is kept and stands for itself. -/
inductive MatchRule where
  | contains
  | equal
  | greater
  | greaterOrEqual
  | less
  | lessOrEqual
  | notEqual
  | custom (code : String)
deriving DecidableEq, Repr

namespace MatchRule

/-- The code of a rule in documents. -/
def code : MatchRule → String
  | contains => "CT"
  | equal => "EQ"
  | greater => "GT"
  | greaterOrEqual => "GE"
  | less => "LT"
  | lessOrEqual => "LE"
  | notEqual => "NE"
  | custom code => code

/-- The operator of a rule in statements. -/
def operator : MatchRule → String
  | contains => "CONTAINS"
  | equal => "="
  | greater => ">"
  | greaterOrEqual => ">="
  | less => "<"
  | lessOrEqual => "<="
  | notEqual => "!="
  | custom code => code

/-- The rule of a code. -/
def ofCode (code : String) : MatchRule :=
  match code with
  | "CT" => contains
  | "EQ" => equal
  | "GT" => greater
  | "GE" => greaterOrEqual
  | "LT" => less
  | "LE" => lessOrEqual
  | "NE" => notEqual
  | _ => custom code

end MatchRule

/-- One comparison.  Several operands are compared with as a list. -/
structure Clause where
  operands : List Operand
  rule : MatchRule
  /-- texts among the operands are expressions, which are not quoted -/
  isExpression : Bool
deriving DecidableEq, Repr

/-- Whether a filter contributes a column, or only restricts the rows. -/
inductive Display where
  | column
  | hidden
deriving DecidableEq, Repr

/-- A filter over a field or a metadata key: a row passes if one of the clauses holds, and every row
passes a filter without clauses. -/
structure Filter where
  name : String
  clauses : List Clause
  display : Display
  label : Option String
deriving DecidableEq, Repr

namespace Filter

/-- A filter that shows a field as a column. -/
def column (name : String) : Filter := ⟨name, [], .column, none⟩

/-- A filter that only restricts the rows. -/
def hidden (name : String) : Filter := ⟨name, [], .hidden, none⟩

/-- Whether the filter contributes a column. -/
def isColumn (f : Filter) : Bool := f.display == .column

/-- The name of the filter's column in the result. -/
def outputName (f : Filter) : String := f.label.getD f.name

end Filter

/-- The description of a widget's data. -/
structure Query where
  aggregations : List Aggregation
  fieldFilters : List Filter
  metadataFilters : List Filter
deriving DecidableEq, Repr

namespace Query

/-- The query without aggregations and filters. -/
def empty : Query := ⟨[], [], []⟩

/-- Whether the rows are aggregated. -/
def isAggregated (q : Query) : Bool := !q.aggregations.isEmpty

/-- The query with one more aggregation. -/
def addAggregation (q : Query) (a : Aggregation) : Query :=
  { q with aggregations := q.aggregations ++ [a] }

/-- The query with one more filter over a field. -/
def addFieldFilter (q : Query) (f : Filter) : Query :=
  { q with fieldFilters := q.fieldFilters ++ [f] }

/-- The query with one more filter over a metadata key. -/
def addMetadataFilter (q : Query) (f : Filter) : Query :=
  { q with metadataFilters := q.metadataFilters ++ [f] }

end Query

/-! ## Operands -/

/-- A double as computed elsewhere: it may also be infinite or no number at all. -/
inductive Measurement where
  | finite (x : Decimal.Binary64)
  | infinite (negative : Bool)
  | notANumber
deriving DecidableEq, Repr

namespace Operand

/-- The operand of a computed double; what is not finite has no number form and becomes text. -/
def ofMeasurement : Measurement → Operand
  | .finite x => number (.double x)
  | .infinite negative => text (if negative then "-inf" else "inf")
  | .notANumber => text "NaN"

/-- The operand as it is shown. -/
def shown : Operand → String
  | number n => n.text
  | text s => s

end Operand

end Dashboards
