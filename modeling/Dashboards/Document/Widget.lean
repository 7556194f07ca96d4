import Dashboards.Json.Value
import Dashboards.Query.Basic

/-!
# Widgets

A widget is a chart, a table or a text, with the description of its data.  Everything about it may
be absent.  Every record keeps the members that it does not know in `extra`, sorted by their keys.
-/

namespace Dashboards

open Json (Members Value)

/-- How many columns and rows of its container a widget spans. -/
structure WidgetLayout where
  columnSpan : Option UInt32 := none
  rowSpan : Option UInt32 := none
  extra : Members := []
deriving DecidableEq, Repr

/-- What a chart shows under the pointer. -/
structure Tooltip where
  isHtml : Option Bool := none
  trigger : Option String := none
  extra : Members := []
deriving DecidableEq, Repr

/-- The options of a chart. -/
structure ChartOptions where
  tooltip : Option Tooltip := none
  /-- an object with a position; earlier schemas have a word or a number here -/
  legend : Option Value := none
  extra : Members := []
deriving DecidableEq, Repr

/-- The chart of a widget. -/
structure Chart where
  kind : Option String := none
  options : Option ChartOptions := none
  extra : Members := []
deriving DecidableEq, Repr

/-- How the rows of a query are shown. -/
structure ResultOptions where
  pivot : Option Bool := none
  showDate : Option Bool := none
  rowLimit : Option UInt64 := none
  extra : Members := []
deriving DecidableEq, Repr

/-- The description of a widget's data. -/
structure SourceConfig where
  aggregations : Option (List Aggregation) := none
  fieldFilters : Option (List Filter) := none
  metadataFilters : Option (List Filter) := none
  results : Option ResultOptions := none
  /-- filter settings of the dashboard on top of the query -/
  filters : Option Members := none
  extra : Members := []
deriving DecidableEq, Repr

/-- Where a widget's data comes from. -/
structure Datasource where
  /-- the text of the query, generated or written by hand -/
  query : Option String := none
  /-- whether the text was written by hand, and must not be generated again -/
  customQuery : Option Bool := none
  kind : Option String := none
  config : Option SourceConfig := none
  extra : Members := []
deriving DecidableEq, Repr

/-- A chart, a table or a text. -/
structure Widget where
  id : Option String := none
  title : Option String := none
  layout : Option WidgetLayout := none
  chart : Option Chart := none
  datasource : Option Datasource := none
  extra : Members := []
deriving DecidableEq, Repr

namespace SourceConfig

/-- The query of the description; lists that are absent are empty. -/
def query (c : SourceConfig) : Query where
  aggregations := c.aggregations.getD []
  fieldFilters := c.fieldFilters.getD []
  metadataFilters := c.metadataFilters.getD []

/-- The description of a query, with all three lists. -/
def ofQuery (q : Query) : SourceConfig where
  aggregations := some q.aggregations
  fieldFilters := some q.fieldFilters
  metadataFilters := some q.metadataFilters

@[simp] theorem query_ofQuery (q : Query) : (ofQuery q).query = q := rfl

end SourceConfig

namespace Widget

/-- The description of the widget's data. -/
def config (w : Widget) : Option SourceConfig := w.datasource.bind (·.config)

/-- The widget with a description of its data. -/
def withConfig (w : Widget) (c : SourceConfig) : Widget :=
  { w with datasource := some { w.datasource.getD {} with config := some c } }

/-- The query of the widget, empty if none is described. -/
def query (w : Widget) : Query := (w.config.map (·.query)).getD .empty

/-- The most rows that the widget shows. -/
def rowLimit (w : Widget) : Option UInt64 := (w.config.bind (·.results)).bind (·.rowLimit)

/-- Whether the widget's query was written by hand. -/
def hasCustomQuery (w : Widget) : Bool := (w.datasource.bind (·.customQuery)).getD false

/-- The options of the widget's chart. -/
def chartOptions (w : Widget) : Option ChartOptions := w.chart.bind (·.options)

end Widget

end Dashboards
