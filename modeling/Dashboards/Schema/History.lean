import Dashboards.Schema.Legend
import Dashboards.Schema.Step

/-!
# The history of the dashboard schema

The twelve versions of the schema.  Each adds one part of the document or brings it into a common
form; its check names the first part that is missing, and its update puts in what is missing and
leaves the rest alone.
-/

namespace Dashboards

/-! ## Reaching parts

Parts on the way that are absent are put in with nothing in them. -/

/-- Changes the datasource of a widget. -/
def Widget.updateDatasource (f : Datasource → Datasource) (w : Widget) : Widget :=
  { w with datasource := some (f (w.datasource.getD {})) }

/-- Changes the description of a widget's data. -/
def Widget.updateConfig (f : SourceConfig → SourceConfig) (w : Widget) : Widget :=
  w.updateDatasource fun s => { s with config := some (f (s.config.getD {})) }

/-- Changes the options of a widget's chart. -/
def Widget.updateChartOptions (f : ChartOptions → ChartOptions) (w : Widget) : Widget :=
  let c := w.chart.getD {}
  { w with chart := some { c with options := some (f (c.options.getD {})) } }

/-! ## Checks and completions of one version -/

open Verification (require)

/-- A widget has a description of its data. -/
def Widget.verifyConfig (w : Widget) : Verification := require w.config.isSome "datasource.config"

/-- Puts in a description of data. -/
def Widget.addConfig (w : Widget) : Widget := w.updateConfig fun c => c

/-- A widget has both spans. -/
def Widget.verifySpans (w : Widget) : Verification :=
  match w.layout with
  | none => .missing "layout"
  | some l =>
    (require l.columnSpan.isSome "layout.columnspan").andThen fun _ =>
      require l.rowSpan.isSome "layout.rowspan"

/-- Puts in spans of one. -/
def Widget.addSpans (w : Widget) : Widget :=
  let l := w.layout.getD {}
  let spans :=
    { l with columnSpan := some (l.columnSpan.getD 1), rowSpan := some (l.rowSpan.getD 1) }
  { w with layout := some spans }

/-- A widget has options of its chart. -/
def Widget.verifyChartOptions (w : Widget) : Verification :=
  match w.chart with
  | none => .missing "chart"
  | some c => require c.options.isSome "chart.options"

/-- Puts in options of the chart. -/
def Widget.addChartOptions (w : Widget) : Widget := w.updateChartOptions fun o => o

/-- A chart has a tooltip. -/
def Widget.verifyTooltip (w : Widget) : Verification :=
  require (w.chartOptions.any (·.tooltip.isSome)) "chart.options.tooltip"

/-- Puts in a tooltip of markup. -/
def Widget.addTooltip (w : Widget) : Widget :=
  w.updateChartOptions fun o => { o with tooltip := some (o.tooltip.getD { isHtml := some true }) }

/-- A legend is an object with a position. -/
def Widget.verifyLegend (w : Widget) : Verification :=
  require ((w.chartOptions.bind (·.legend)).any hasLegendPosition) "chart.options.legend.position"

/-- Makes the legend an object with a position. -/
def Widget.addLegend (w : Widget) : Widget :=
  w.updateChartOptions fun o =>
    { o with legend := some (normalizeLegend (o.legend.getD .null)) }

/-- A description of data says how results are shown. -/
def Widget.verifyResults (w : Widget) : Verification :=
  require (w.config.any (·.results.isSome)) "datasource.config.results"

/-- Puts in plain results. -/
def Widget.addResults (w : Widget) : Widget :=
  w.updateConfig fun c =>
    { c with results := some (c.results.getD { pivot := some false, showDate := some false }) }

/-- A dashboard has a list of parameters. -/
def Dashboard.verifyParams (d : Dashboard) : Verification := require d.params.isSome "params"

/-- Puts in an empty list of parameters. -/
def Dashboard.addParams (d : Dashboard) : Dashboard := { d with params := some (d.params.getD []) }

/-- A container has a flow, columns and a height. -/
def Container.verifyLayout (c : Container) : Verification :=
  match c.grid with
  | none => .missing "container"
  | some g =>
    ((require g.flow.isSome "container.flow").andThen fun _ =>
      require g.columns.isSome "container.columns").andThen fun _ =>
        require g.height.isSome "container.height"

/-- Puts in a row of one column with a height of 250.  A grid that is put in has no widgets. -/
def Container.addLayout (c : Container) : Container :=
  let g := c.grid.getD { children := some [] }
  let layout :=
    { g with
      flow := some (g.flow.getD "row")
      columns := some (g.columns.getD 1)
      height := some (g.height.getD 250) }
  { c with grid := some layout }

/-- A datasource has a kind and says whether its query was written by hand. -/
def Widget.verifyDatasource (w : Widget) : Verification :=
  match w.datasource with
  | none => .missing "datasource"
  | some s =>
    (require s.kind.isSome "datasource.type").andThen fun _ =>
      require s.customQuery.isSome "datasource.custom_query"

/-- Whether a stored query counts as written by hand where nothing is said of it: a text with a
character other than white space is older than generated queries. -/
def Datasource.holdsQuery (s : Datasource) : Bool := s.query.any Text.hasInk

/-- Puts in the kind of tabular data, and whether the query was written by hand. -/
def Widget.addDatasource (w : Widget) : Widget :=
  w.updateDatasource fun s =>
    { s with
      kind := some (s.kind.getD "tabular")
      customQuery := some (s.customQuery.getD s.holdsQuery) }

/-- A description of data has all lists of a query. -/
def Widget.verifyQueryLists (w : Widget) : Verification :=
  match w.config with
  | none => .missing "datasource.config"
  | some c =>
    ((require c.aggregations.isSome "datasource.config.aggregations").andThen fun _ =>
      require c.fieldFilters.isSome "datasource.config.fieldFilters").andThen fun _ =>
        require c.metadataFilters.isSome "datasource.config.metadataFilters"

/-- Puts in empty lists. -/
def Widget.addQueryLists (w : Widget) : Widget :=
  w.updateConfig fun c =>
    { c with
      aggregations := some (c.aggregations.getD [])
      fieldFilters := some (c.fieldFilters.getD [])
      metadataFilters := some (c.metadataFilters.getD []) }

/-- Whether there is an id that is not empty. -/
def hasId (id : Option String) : Bool := id.any (· != "")

/-- The id, or a new one in place of an absent or empty one. -/
def assignId (id : Option String) : StateM IdSupply (Option String) :=
  if hasId id then pure id else some <$> IdSupply.take

/-- A container has an id. -/
def Container.verifyId (c : Container) : Verification := require (hasId c.id) "id"

/-- A widget has an id. -/
def Widget.verifyId (w : Widget) : Verification := require (hasId w.id) "id"

/-- Puts in a new id where there is none. -/
def Container.addId (c : Container) : StateM IdSupply Container := do
  return { c with id := ← assignId c.id }

/-- Puts in a new id where there is none. -/
def Widget.addId (w : Widget) : StateM IdSupply Widget := do
  return { w with id := ← assignId w.id }

/-- A description of data has filter settings. -/
def Widget.verifyFilters (w : Widget) : Verification :=
  require (w.config.any (·.filters.isSome)) "datasource.config.filters"

/-- Puts in empty filter settings. -/
def Widget.addFilters (w : Widget) : Widget :=
  w.updateConfig fun c => { c with filters := some (c.filters.getD []) }

/-! ## The versions -/

/-- A version about every widget. -/
def widgetStep (number : UInt32) (description : String) (verify : Widget → Verification)
    (complete : Widget → Widget) : Step where
  version := ⟨number⟩
  description := description
  verify := Dashboard.verifyWidgets verify
  update := Work.changeWidgets complete

/-- Version 7 is about the dashboard itself. -/
def paramsStep : Step where
  version := ⟨7⟩
  description := "dashboard params"
  verify d := .ok d.verifyParams
  update := Work.change Dashboard.addParams

/-- Version 8 is about every container. -/
def containerLayoutStep : Step where
  version := ⟨8⟩
  description := "container layout"
  verify := Dashboard.verifyContainers Container.verifyLayout
  update := Work.changeContainers Container.addLayout

/-- Version 11 is about every container and every widget. -/
def idsStep : Step where
  version := ⟨11⟩
  description := "container and widget ids"
  verify d :=
    Id.run (d.verifyParts (m := Id) (some Container.verifyId) (some Widget.verifyId))
  update := Work.changeParts (some Container.addId) (some Widget.addId)

/-- All versions, in order. -/
def schemaHistory : List Step := [
  widgetStep 1 "widget datasource config" Widget.verifyConfig Widget.addConfig,
  widgetStep 2 "widget layout spans" Widget.verifySpans Widget.addSpans,
  widgetStep 3 "chart options" Widget.verifyChartOptions Widget.addChartOptions,
  widgetStep 4 "chart tooltip" Widget.verifyTooltip Widget.addTooltip,
  widgetStep 5 "legend position object" Widget.verifyLegend Widget.addLegend,
  widgetStep 6 "datasource results config" Widget.verifyResults Widget.addResults,
  paramsStep,
  containerLayoutStep,
  widgetStep 9 "datasource type and custom query flag" Widget.verifyDatasource
    Widget.addDatasource,
  widgetStep 10 "query property lists" Widget.verifyQueryLists Widget.addQueryLists,
  idsStep,
  widgetStep 12 "datasource filters object" Widget.verifyFilters Widget.addFilters]

end Dashboards
