import Dashboards.Query.Basic
import Dashboards.Record.Codec

/-!
# Queries in documents

The codecs of queries and their parts.  Queries, filters and clauses drop members that they do not
know, and may also be written as lists of their members.
-/

namespace Dashboards

open Json (Draft Origin)

/-- A function by its name. -/
def AggregateFunction.codec : Codec AggregateFunction where
  read o d := do
    let s ← Codec.string.read o d
    match AggregateFunction.ofName? s with
    | some f => return f
    | none => throw (.unknownAggregation s)
  write f := .string f.name

/-- An aggregation by its text. -/
def Aggregation.codec : Codec Aggregation where
  read o d := (Codec.string.read o d).map Aggregation.ofText
  write a := .string a.text

/-- An operand is a number or a text. -/
def Operand.codec : Codec Operand where
  read o d :=
    match d.read o with
    | .error f => .error (.broken f)
    | .ok (.number n) => .ok (.number n)
    | .ok (.string s) => .ok (.text s)
    | .ok _ => .error .notAnOperand
  write
    | .number n => .number n
    | .text s => .string s

/-- A rule by its code. -/
def MatchRule.codec : Codec MatchRule where
  read o d := (Codec.string.read o d).map MatchRule.ofCode
  write r := .string r.code

/-! ## Display -/

namespace Display

/-- The word for a way of display. -/
def word : Display → String
  | column => "COLUMN"
  | hidden => "HIDDEN"

/-- The way of display of a word. -/
def ofWord (s : String) : Except Problem Display :=
  match s with
  | "COLUMN" => .ok column
  | "HIDDEN" => .ok hidden
  | _ => .error (.unknownVariant s ["COLUMN", "HIDDEN"])

/-- Nothing but `null` may be said of a word. -/
def readNothing : Draft → Except Problem Unit
  | .null => .ok ()
  | d => .error (Codec.mismatch "unit" d)

/-- A word, or an object whose only member is a word with `null`.  In a text nothing else can stand
in the place of a word; a value of another kind is a problem of its own. -/
def read : Origin → Draft → Except Problem Display
  | _, .string (.ok s) => ofWord s
  | .value, .object [(key, d)] _ => do
    let display ← ofWord (← Codec.orBroken key)
    readNothing d
    return display
  | .value, .object _ _ => .error .notSingleKey
  | .value, d => .error (Codec.mismatch "string or map" d)
  | .text _, .object [] stop => .error (.broken (stop.getD .malformed))
  | .text _, .object ((key, d) :: ms) stop => do
    let display ← ofWord (← Codec.orBroken key)
    readNothing d
    if ms.isEmpty then Codec.checkStop stop else throw (.broken .malformed)
    return display
  | .text _, .string (.error f) => .error (.broken f)
  | .text _, .broken .string f _ => .error (.broken f)
  | .text _, .broken .nothing f _ => .error (.broken f)
  | .text _, _ => .error (.broken .malformed)

/-- A way of display. -/
def codec : Codec Display := ⟨read, fun display => .string display.word⟩

end Display

/-! ## Records -/

/-- The members of a clause. -/
def Clause.shape : Shape Clause where
  title := "struct FilterClause"
  blank := ⟨[], .custom "", false⟩
  members := [
    .required "matchOn" (.list Operand.codec) (·.operands) fun x c => { c with operands := x },
    .required "matchRule" MatchRule.codec (·.rule) fun x c => { c with rule := x },
    .defaulted "isFunction" .bool (·.isExpression) fun x c => { c with isExpression := x }]
  remainder := .dropped

/-- The members of a filter. -/
def Filter.shape : Shape Filter where
  title := "struct Filter"
  blank := ⟨"", [], .column, none⟩
  members := [
    .required "fieldName" .string (·.name) fun x f => { f with name := x },
    .defaulted "filterClauses" (.list Clause.shape.codec) (·.clauses)
      fun x f => { f with clauses := x },
    .defaulted "displayMode" Display.codec (·.display) fun x f => { f with display := x },
    .optional "fieldAlias" .string (·.label) fun x f => { f with label := x }]
  remainder := .dropped

/-- The members of a query. -/
def Query.shape : Shape Query where
  title := "struct QueryProperties"
  blank := Query.empty
  members := [
    .defaulted "aggregations" (.list Aggregation.codec) (·.aggregations)
      fun x q => { q with aggregations := x },
    .defaulted "fieldFilters" (.list Filter.shape.codec) (·.fieldFilters)
      fun x q => { q with fieldFilters := x },
    .defaulted "metadataFilters" (.list Filter.shape.codec) (·.metadataFilters)
      fun x q => { q with metadataFilters := x }]
  remainder := .dropped

/-- Queries in documents. -/
def Query.codec : Codec Query := Query.shape.codec

end Dashboards
