import Dashboards.Document.Version
import Dashboards.Document.Widget

/-!
# Dashboards

A dashboard holds containers, and each container holds widgets.
-/

namespace Dashboards

open Json (Members)

/-- A named parameter, which queries of widgets may use. -/
structure Parameter where
  name : String
  value : String := ""
  extra : Members := []
deriving DecidableEq, Repr

/-- How a container lays out its widgets, and the widgets. -/
structure Grid where
  /-- `row`, `column` or `wrap` -/
  flow : Option String := none
  columns : Option UInt32 := none
  height : Option UInt32 := none
  children : Option (List Widget) := none
  extra : Members := []
deriving DecidableEq, Repr

/-- A group of widgets. -/
structure Container where
  id : Option String := none
  title : Option String := none
  grid : Option Grid := none
  extra : Members := []
deriving DecidableEq, Repr

/-- A dashboard. -/
structure Dashboard where
  id : Option String := none
  title : Option String := none
  /-- the schema version that the document was last brought up to -/
  version : Option Version := none
  params : Option (List Parameter) := none
  children : Option (List Container) := none
  extra : Members := []
deriving DecidableEq, Repr

namespace Container

/-- A container of widgets, without a layout. -/
def ofWidgets (ws : List Widget) : Container := { grid := some { children := some ws } }

/-- The widgets of a container, in order. -/
def widgets (c : Container) : List Widget := (c.grid.bind (·.children)).getD []

end Container

namespace Dashboard

/-- A dashboard with a title and no containers. -/
def titled (title : String) : Dashboard := { title := some title, children := some [] }

/-- The containers, in order. -/
def containers (d : Dashboard) : List Container := d.children.getD []

/-- The widgets of all containers, in order. -/
def widgets (d : Dashboard) : List Widget := d.containers.flatMap (·.widgets)

/-- The dashboard with one more container. -/
def addContainer (d : Dashboard) (c : Container) : Dashboard :=
  { d with children := some (d.containers ++ [c]) }

end Dashboard

end Dashboards
