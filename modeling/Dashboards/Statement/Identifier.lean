import Dashboards.Query.Basic

/-!
# Identifiers

Names are put into statements as they are, so a checked statement admits only names made of ASCII
letters, digits, `_`, `.` and `-` that start with a letter or `_`, and only aggregations that are
known.
-/

namespace Dashboards

/-- Whether an identifier may start with the character. -/
def isIdentifierStart (c : Char) : Bool := c.isAlpha || c == '_'

/-- Whether an identifier may go on with the character. -/
def isIdentifierPart (c : Char) : Bool := c.isAlphanum || c == '_' || c == '.' || c == '-'

/-- Whether the text may stand in a statement as a name. -/
def isIdentifier (s : String) : Bool :=
  match s.toList with
  | [] => false
  | c :: cs => isIdentifierStart c && cs.all isIdentifierPart

/-- The two kinds of filters of a query. -/
inductive FilterKind where
  | field
  | metadata
deriving DecidableEq, Repr

/-- The word for a kind of filters. -/
def FilterKind.word : FilterKind → String
  | field => "field"
  | metadata => "metadata"

/-- Why a query makes no checked statement. -/
inductive StatementError where
  | emptyName (kind : FilterKind) (index : Nat)
  | invalidIdentifier (text : String)
  | unknownAggregation (text : String)
  | noColumns
  | noSource
deriving DecidableEq, Repr

/-- What is said of an error. -/
def StatementError.message : StatementError → String
  | emptyName kind index =>
    "Empty field name in " ++ kind.word ++ " filter #" ++ Decimal.natText index
  | invalidIdentifier text => "Invalid identifier '" ++ text ++ "'"
  | unknownAggregation text => "Unknown aggregation '" ++ text ++ "'"
  | noColumns => "Query selects no columns"
  | noSource => "Query has no FROM source"

/-- The text must be an identifier. -/
def checkIdentifier (s : String) : Except StatementError Unit :=
  if isIdentifier s then .ok () else .error (.invalidIdentifier s)

/-- The name of a filter must be an identifier, and so must its alias if it has one. -/
def Filter.check (kind : FilterKind) (index : Nat) (f : Filter) : Except StatementError Unit :=
  if f.name = "" then .error (.emptyName kind index)
  else do
    checkIdentifier f.name
    match f.label with
    | some label => checkIdentifier label
    | none => return

/-- Filters are checked in order; the first one has the given index. -/
def checkFilters (kind : FilterKind) : Nat → List Filter → Except StatementError Unit
  | _, [] => .ok ()
  | index, f :: fs => do
    f.check kind index
    checkFilters kind (index + 1) fs

/-- All aggregations must be known. -/
def checkAggregations (as : List Aggregation) : Except StatementError Unit :=
  match as.find? (!·.isKnown) with
  | some a => .error (.unknownAggregation a.text)
  | none => .ok ()

/-- Checks every name and aggregation of a query: field filters, metadata filters, aggregations. -/
def Query.check (q : Query) : Except StatementError Unit := do
  checkFilters .field 0 q.fieldFilters
  checkFilters .metadata 0 q.metadataFilters
  checkAggregations q.aggregations

end Dashboards
