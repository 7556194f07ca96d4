import Dashboards.Decimal.Digits

/-!
# Statements and their layout

A statement is a list of items for each of its sections.  Its text has each section's keyword on a
line of its own, followed by the items, one a line and indented by a tab.  A section without items
is left out, but for the first two, which then are a bare keyword.  The other lists may also be
absent, which comes to the same.
-/

namespace Dashboards

/-- The sections of a statement. -/
structure Statement where
  columns : List String
  sources : List String
  conditions : Option (List String)
  groups : Option (List String)
  order : Option (List String)
  limit : Option UInt64
deriving DecidableEq, Repr

/-- What stands between the items of a list. -/
def listSeparator : String := ",\n\t"

/-- What stands between conditions. -/
def conditionSeparator : String := " AND\n\t"

/-- A section; without items it is the bare keyword. -/
def sectionText (keyword separator : String) (items : List String) : String :=
  if items.isEmpty then keyword else keyword ++ "\n\t" ++ separator.intercalate items

/-- The items of a section that may be left out, if there are any. -/
def itemsIfAny (items : Option (List String)) : Option (List String) := items.filter (!·.isEmpty)

/-- A section that is left out without items. -/
def optionalSection (keyword separator : String) (items : Option (List String)) : List String :=
  match itemsIfAny items with
  | some items => [sectionText keyword separator items]
  | none => []

namespace Statement

/-- The sections that the statement has, in order. -/
def sections (s : Statement) : List String :=
  [sectionText "SELECT" listSeparator s.columns, sectionText "FROM" listSeparator s.sources] ++
    optionalSection "WHERE" conditionSeparator s.conditions ++
    optionalSection "GROUP BY" listSeparator s.groups ++
    optionalSection "ORDER BY" listSeparator s.order ++
    (match s.limit with
      | some n => ["LIMIT " ++ Decimal.natText n.toNat]
      | none => [])

/-- The text of a statement. -/
def text (s : Statement) : String := "\n".intercalate s.sections ++ ";"

example : (Statement.mk ["a", "b"] [] (some ["x > 1"]) (some []) none (some 5)).text =
    "SELECT\n\ta,\n\tb\nFROM\nWHERE\n\tx > 1\nLIMIT 5;" := by decide +kernel

end Statement

end Dashboards
