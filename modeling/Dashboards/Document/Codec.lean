import Dashboards.Document.Basic
import Dashboards.Query.Codec

/-!
# Dashboards in documents

The codecs of dashboards and their parts.  Every record is an object that keeps the members it does
not know, and a member that is `null` is the same as an absent one.
-/

namespace Dashboards

/-- The members of a widget's layout. -/
def WidgetLayout.shape : Shape WidgetLayout where
  title := "struct WidgetLayout"
  blank := {}
  members := [
    .optional "columnspan" .uint32 (·.columnSpan) fun x l => { l with columnSpan := x },
    .optional "rowspan" .uint32 (·.rowSpan) fun x l => { l with rowSpan := x }]
  remainder := .kept (·.extra) fun x l => { l with extra := x }

/-- The members of a tooltip. -/
def Tooltip.shape : Shape Tooltip where
  title := "struct Tooltip"
  blank := {}
  members := [
    .optional "isHtml" .bool (·.isHtml) fun x t => { t with isHtml := x },
    .optional "trigger" .string (·.trigger) fun x t => { t with trigger := x }]
  remainder := .kept (·.extra) fun x t => { t with extra := x }

/-- The members of a chart's options. -/
def ChartOptions.shape : Shape ChartOptions where
  title := "struct ChartOptions"
  blank := {}
  members := [
    .optional "tooltip" Tooltip.shape.codec (·.tooltip) fun x o => { o with tooltip := x },
    .optional "legend" .raw (·.legend) fun x o => { o with legend := x }]
  remainder := .kept (·.extra) fun x o => { o with extra := x }

/-- The members of a chart. -/
def Chart.shape : Shape Chart where
  title := "struct ChartConfig"
  blank := {}
  members := [
    .optional "chartType" .string (·.kind) fun x c => { c with kind := x },
    .optional "options" ChartOptions.shape.codec (·.options) fun x c => { c with options := x }]
  remainder := .kept (·.extra) fun x c => { c with extra := x }

/-- The members of the options of results. -/
def ResultOptions.shape : Shape ResultOptions where
  title := "struct ResultsConfig"
  blank := {}
  members := [
    .optional "pivot" .bool (·.pivot) fun x r => { r with pivot := x },
    .optional "show_date" .bool (·.showDate) fun x r => { r with showDate := x },
    .optional "row_limit" .uint64 (·.rowLimit) fun x r => { r with rowLimit := x }]
  remainder := .kept (·.extra) fun x r => { r with extra := x }

/-- The members of the description of data. -/
def SourceConfig.shape : Shape SourceConfig where
  title := "struct DatasourceConfig"
  blank := {}
  members := [
    .optional "aggregations" (.list Aggregation.codec) (·.aggregations)
      fun x c => { c with aggregations := x },
    .optional "fieldFilters" (.list Filter.shape.codec) (·.fieldFilters)
      fun x c => { c with fieldFilters := x },
    .optional "metadataFilters" (.list Filter.shape.codec) (·.metadataFilters)
      fun x c => { c with metadataFilters := x },
    .optional "results" ResultOptions.shape.codec (·.results) fun x c => { c with results := x },
    .optional "filters" .rawObject (·.filters) fun x c => { c with filters := x }]
  remainder := .kept (·.extra) fun x c => { c with extra := x }

/-- The members of a source of data. -/
def Datasource.shape : Shape Datasource where
  title := "struct Datasource"
  blank := {}
  members := [
    .optional "query" .string (·.query) fun x s => { s with query := x },
    .optional "custom_query" .bool (·.customQuery) fun x s => { s with customQuery := x },
    .optional "type" .string (·.kind) fun x s => { s with kind := x },
    .optional "config" SourceConfig.shape.codec (·.config) fun x s => { s with config := x }]
  remainder := .kept (·.extra) fun x s => { s with extra := x }

/-- The members of a widget. -/
def Widget.shape : Shape Widget where
  title := "struct Widget"
  blank := {}
  members := [
    .optional "id" .string (·.id) fun x w => { w with id := x },
    .optional "title" .string (·.title) fun x w => { w with title := x },
    .optional "layout" WidgetLayout.shape.codec (·.layout) fun x w => { w with layout := x },
    .optional "chart" Chart.shape.codec (·.chart) fun x w => { w with chart := x },
    .optional "datasource" Datasource.shape.codec (·.datasource)
      fun x w => { w with datasource := x }]
  remainder := .kept (·.extra) fun x w => { w with extra := x }

/-- The members of a container's grid. -/
def Grid.shape : Shape Grid where
  title := "struct ContainerConfig"
  blank := {}
  members := [
    .optional "flow" .string (·.flow) fun x g => { g with flow := x },
    .optional "columns" .uint32 (·.columns) fun x g => { g with columns := x },
    .optional "height" .uint32 (·.height) fun x g => { g with height := x },
    .optional "children" (.list Widget.shape.codec) (·.children)
      fun x g => { g with children := x }]
  remainder := .kept (·.extra) fun x g => { g with extra := x }

/-- The members of a container. -/
def Container.shape : Shape Container where
  title := "struct ContainerWidget"
  blank := {}
  members := [
    .optional "id" .string (·.id) fun x c => { c with id := x },
    .optional "title" .string (·.title) fun x c => { c with title := x },
    .optional "container" Grid.shape.codec (·.grid) fun x c => { c with grid := x }]
  remainder := .kept (·.extra) fun x c => { c with extra := x }

/-- The members of a parameter. -/
def Parameter.shape : Shape Parameter where
  title := "struct DashboardParam"
  blank := { name := "" }
  members := [
    .required "name" .string (·.name) fun x p => { p with name := x },
    .defaulted "value" .string (·.value) fun x p => { p with value := x }]
  remainder := .kept (·.extra) fun x p => { p with extra := x }

/-- The members of a dashboard. -/
def Dashboard.shape : Shape Dashboard where
  title := "struct Dashboard"
  blank := {}
  members := [
    .optional "id" .string (·.id) fun x d => { d with id := x },
    .optional "title" .string (·.title) fun x d => { d with title := x },
    .optional "version" Version.codec (·.version) fun x d => { d with version := x },
    .optional "params" (.list Parameter.shape.codec) (·.params) fun x d => { d with params := x },
    .optional "children" (.list Container.shape.codec) (·.children)
      fun x d => { d with children := x }]
  remainder := .kept (·.extra) fun x d => { d with extra := x }

/-- Widgets in documents. -/
def Widget.codec : Codec Widget := Widget.shape.codec

/-- Containers in documents. -/
def Container.codec : Codec Container := Container.shape.codec

/-- Dashboards in documents. -/
def Dashboard.codec : Codec Dashboard := Dashboard.shape.codec

end Dashboards
