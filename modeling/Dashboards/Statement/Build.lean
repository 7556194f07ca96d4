import Dashboards.Statement.Identifier
import Dashboards.Statement.Items
import Dashboards.Statement.Layout

/-!
# Building statements

The statement of a query against a target, and the checked statement, which exists only if every
name and aggregation is sound, there is something to read from, and something is selected.
-/

namespace Dashboards

/-- What a query reads from, how its rows are ordered, and how many there may be. -/
structure Target where
  sources : List String
  order : List String
  limit : Option UInt64
deriving DecidableEq, Repr

namespace Query

/-- The statement of a query. -/
def statement (q : Query) (t : Target) : Statement where
  columns := q.columns
  sources := t.sources
  conditions := some q.conditions
  groups := some q.groups
  order := some t.order
  limit := t.limit

/-- The text of the statement of a query. -/
def statementText (q : Query) (t : Target) : String := (q.statement t).text

/-- The text of the statement of a query that passes all checks. -/
def checkedStatementText (q : Query) (t : Target) : Except StatementError String := do
  q.check
  if t.sources.isEmpty then throw .noSource
  if q.columns.isEmpty then throw .noColumns
  return q.statementText t

end Query

end Dashboards
