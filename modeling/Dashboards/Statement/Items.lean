import Dashboards.Query.Basic
import Dashboards.Text.Upper

/-!
# Items of statements

What a query contributes to the sections of a statement: its columns, its conditions, and what its
rows are grouped by.  Field filters come before metadata filters, and both keep their order.
-/

namespace Dashboards

/-- The expression for the value of a key in the packed metadata column. -/
def metadataExpression (key : String) : String :=
  "REGEXP_EXTRACT(labels, r\"|" ++ key ++ ":(.*?)|\")"

/-! ## Columns -/

/-- The column of an aggregation that is a plain function call. -/
def callColumn (name : String) : String := Text.upper name ++ "(value) AS " ++ name

/-- The place of a percentile among the 1001 quantiles: a tenth of a percent is one place, and the
first place is 1. -/
def quantileRank (p : Decimal.Binary64) : Nat := p.tenfoldRounded + 1

/-- The name of a percentile's column: points of the number become underscores. -/
def percentileLabel (number : String) : String :=
  String.ofList ('p' :: number.toList.map fun c => if c = '.' then '_' else c)

/-- The column of an aggregation. -/
def Aggregation.column (a : Aggregation) : String :=
  match a with
  | .named f => callColumn f.name
  | .other token => callColumn token
  | .percentile number =>
    match a.percentile? with
    | some p =>
      "NTH(" ++ Decimal.natText (quantileRank p) ++ ", QUANTILES(value, 1001)) AS " ++
        percentileLabel number
    | none => callColumn a.text

/-- The column of a field. -/
def Filter.fieldColumn (f : Filter) : String :=
  match f.label with
  | some label => f.name ++ " AS " ++ label
  | none => f.name

/-- The column of a metadata key. -/
def Filter.metadataColumn (f : Filter) : String :=
  metadataExpression f.name ++ " AS " ++ f.outputName

/-- The columns of a query: fields, metadata keys, aggregations. -/
def Query.columns (q : Query) : List String :=
  (q.fieldFilters.filter (·.isColumn)).map (·.fieldColumn) ++
    (q.metadataFilters.filter (·.isColumn)).map (·.metadataColumn) ++
    q.aggregations.map (·.column)

/-! ## Conditions -/

/-- One character of a quoted operand. -/
def quotedOperandChar (c : Char) : List Char :=
  if c = '\\' ∨ c = '"' then ['\\', c] else [c]

/-- A text between quotes, with a backslash before every quote and backslash. -/
def quotedOperand (s : String) : String :=
  String.ofList ('"' :: s.toList.flatMap quotedOperandChar ++ ['"'])

/-- An operand in a statement: numbers and expressions stand as they are, texts are quoted. -/
def Operand.inStatement (isExpression : Bool) : Operand → String
  | number n => n.text
  | text s => if isExpression then s else quotedOperand s

/-- The operands of a clause; other than one are a list in parentheses. -/
def Clause.operandText (c : Clause) : String :=
  match c.operands with
  | [x] => x.inStatement c.isExpression
  | xs => "(" ++ ", ".intercalate (xs.map (·.inStatement c.isExpression)) ++ ")"

/-- The comparison of something with a clause. -/
def Clause.condition (subject : String) (c : Clause) : String :=
  subject ++ " " ++ c.rule.operator ++ " " ++ c.operandText

/-- The condition of a filter: one of its clauses must hold. -/
def Filter.condition? (subject : String) (f : Filter) : Option String :=
  match f.clauses with
  | [] => none
  | [c] => some (c.condition subject)
  | cs => some ("(" ++ " OR ".intercalate (cs.map (·.condition subject)) ++ ")")

/-- The conditions of a query, of columns and hidden filters alike. -/
def Query.conditions (q : Query) : List String :=
  q.fieldFilters.filterMap (fun f => f.condition? f.name) ++
    q.metadataFilters.filterMap (fun f => f.condition? (metadataExpression f.name))

/-! ## Grouping -/

/-- What the rows are grouped by: the output names of the columns, if there are aggregations. -/
def Query.groups (q : Query) : List String :=
  if q.isAggregated then
    ((q.fieldFilters ++ q.metadataFilters).filter (·.isColumn)).map (·.outputName)
  else []

end Dashboards
