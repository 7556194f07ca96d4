import Dashboards.Proofs.Document.Numerals
import Dashboards.Proofs.Document.Shapes
import Dashboards.Proofs.Query.RoundTrip

/-!
# Dashboards read back

Every table of a document is faithful, so that a dashboard that was read from a document is read
back from its own value.  For a record whose members change it is said of each kind of record what
its members must be for the record to be read back.

## Key results

- `Version.ofText?_text`: versions are read back from their numerals
- `Dashboard.faithful_shape`: dashboards from documents are read back
-/

namespace Dashboards

/-! ## Versions -/

/-- A version is read back from its numeral. -/
theorem Version.ofText?_text (v : Version) : ofText? v.text = some v :=
  ofText?_eq_some_iff.2 (spellsNumber_digits v.number.toNat 0)

/-- A version is read back from the string it is written as. -/
@[simp] theorem Version.returns_codec (v : Version) : Version.codec.Returns v := by
  have hread : Version.codec.read .value (.string (.ok v.text)) = .ok v := by
    simp only [codec, read, ofText?_text]
  exact hread

/-- Versions are read back whatever they were read from, a number or a string. -/
@[simp] theorem Version.faithful_codec : Version.codec.Faithful :=
  Codec.faithful_of_returns Version.returns_codec

/-- No version is read from `null`. -/
@[simp] theorem Version.refusesNull_codec : Version.codec.RefusesNull := nofun

/-! ## Tables -/

/-- Layouts from documents are read back. -/
theorem WidgetLayout.faithful_shape : WidgetLayout.shape.Faithful := by
  -- the members must be faithful, and with `extra` they must make up the record
  refine .of_lawful lawful_shape ?_ ?_
  · simp [WidgetLayout.shape]
  · rintro ⟨⟩ ⟨⟩
    simp +contextual [WidgetLayout.shape, Shape.others]

/-- Tooltips from documents are read back. -/
theorem Tooltip.faithful_shape : Tooltip.shape.Faithful := by
  refine .of_lawful lawful_shape ?_ ?_
  · simp [Tooltip.shape]
  · rintro ⟨⟩ ⟨⟩
    simp +contextual [Tooltip.shape, Shape.others]

/-- Options of charts from documents are read back. -/
theorem ChartOptions.faithful_shape : ChartOptions.shape.Faithful := by
  refine .of_lawful lawful_shape ?_ ?_
  -- tables are faithful from the inside out, each by those of its parts
  · simp [ChartOptions.shape, Shape.Faithful.codec Tooltip.faithful_shape]
  · rintro ⟨⟩ ⟨⟩
    simp +contextual [ChartOptions.shape, Shape.others]

/-- Charts from documents are read back. -/
theorem Chart.faithful_shape : Chart.shape.Faithful := by
  refine .of_lawful lawful_shape ?_ ?_
  · simp [Chart.shape, Shape.Faithful.codec ChartOptions.faithful_shape]
  · rintro ⟨⟩ ⟨⟩
    simp +contextual [Chart.shape, Shape.others]

/-- Options of results from documents are read back. -/
theorem ResultOptions.faithful_shape : ResultOptions.shape.Faithful := by
  refine .of_lawful lawful_shape ?_ ?_
  · simp [ResultOptions.shape]
  · rintro ⟨⟩ ⟨⟩
    simp +contextual [ResultOptions.shape, Shape.others]

/-- Descriptions of data from documents are read back, their filters among them. -/
theorem SourceConfig.faithful_shape : SourceConfig.shape.Faithful := by
  -- lists are faithful when their items are
  have haggregations := Codec.list_faithful Aggregation.faithful_codec
  have hfilters := Codec.list_faithful (Shape.Faithful.codec Filter.faithful_shape)
  refine .of_lawful lawful_shape ?_ ?_
  · simp [SourceConfig.shape, haggregations, hfilters,
      Shape.Faithful.codec ResultOptions.faithful_shape]
  · rintro ⟨⟩ ⟨⟩
    simp +contextual [SourceConfig.shape, Shape.others]

/-- Sources of data from documents are read back. -/
theorem Datasource.faithful_shape : Datasource.shape.Faithful := by
  refine .of_lawful lawful_shape ?_ ?_
  · simp [Datasource.shape, Shape.Faithful.codec SourceConfig.faithful_shape]
  · rintro ⟨⟩ ⟨⟩
    simp +contextual [Datasource.shape, Shape.others]

/-- Widgets from documents are read back. -/
theorem Widget.faithful_shape : Widget.shape.Faithful := by
  refine .of_lawful lawful_shape ?_ ?_
  · simp [Widget.shape, Shape.Faithful.codec WidgetLayout.faithful_shape,
      Shape.Faithful.codec Chart.faithful_shape, Shape.Faithful.codec Datasource.faithful_shape]
  · rintro ⟨⟩ ⟨⟩
    simp +contextual [Widget.shape, Shape.others]

/-- Grids from documents are read back, with their widgets. -/
theorem Grid.faithful_shape : Grid.shape.Faithful := by
  have hwidgets := Codec.list_faithful (Shape.Faithful.codec Widget.faithful_shape)
  refine .of_lawful lawful_shape ?_ ?_
  · simp [Grid.shape, hwidgets]
  · rintro ⟨⟩ ⟨⟩
    simp +contextual [Grid.shape, Shape.others]

/-- Containers from documents are read back. -/
theorem Container.faithful_shape : Container.shape.Faithful := by
  refine .of_lawful lawful_shape ?_ ?_
  · simp [Container.shape, Shape.Faithful.codec Grid.faithful_shape]
  · rintro ⟨⟩ ⟨⟩
    simp +contextual [Container.shape, Shape.others]

/-- Parameters from documents are read back. -/
theorem Parameter.faithful_shape : Parameter.shape.Faithful := by
  refine .of_lawful lawful_shape ?_ ?_
  · simp [Parameter.shape]
  · rintro ⟨⟩ ⟨⟩
    simp +contextual [Parameter.shape, Shape.others]

/-- Dashboards from documents are read back. -/
theorem Dashboard.faithful_shape : Dashboard.shape.Faithful := by
  have hparams := Codec.list_faithful (Shape.Faithful.codec Parameter.faithful_shape)
  have hcontainers := Codec.list_faithful (Shape.Faithful.codec Container.faithful_shape)
  refine .of_lawful lawful_shape ?_ ?_
  · simp [Dashboard.shape, hparams, hcontainers]
  · rintro ⟨⟩ ⟨⟩
    simp +contextual [Dashboard.shape, Shape.others]

/-! ## Members that may change -/

/-- A layout is read back whenever its other members are its own: any spans are. -/
theorem WidgetLayout.returns_iff {l : WidgetLayout} :
    WidgetLayout.shape.codec.Returns l ↔ WidgetLayout.shape.HasOwnOthers l := by
  -- members with scalar values are always settled, so `simp` leaves none
  rw [Shape.Faithful.returns_iff faithful_shape]
  simp [Shape.Settled, WidgetLayout.shape]

/-- Options of a chart are read back when their tooltip and their legend are. -/
theorem ChartOptions.returns_iff {o : ChartOptions} :
    ChartOptions.shape.codec.Returns o ↔ ChartOptions.shape.HasOwnOthers o ∧
      (Codec.optional Tooltip.shape.codec).Returns o.tooltip ∧
      (Codec.optional .raw).Returns o.legend := by
  rw [Shape.Faithful.returns_iff faithful_shape]
  refine and_congr_right fun _ => ?_
  simp [Shape.Settled, ChartOptions.shape]

/-- A chart is read back when its options are: any kind is. -/
theorem Chart.returns_iff {c : Chart} :
    Chart.shape.codec.Returns c ↔ Chart.shape.HasOwnOthers c ∧
      (Codec.optional ChartOptions.shape.codec).Returns c.options := by
  rw [Shape.Faithful.returns_iff faithful_shape]
  refine and_congr_right fun _ => ?_
  simp [Shape.Settled, Chart.shape]

/-- A description of data is read back when each of its known members is. -/
theorem SourceConfig.returns_iff {c : SourceConfig} :
    SourceConfig.shape.codec.Returns c ↔ SourceConfig.shape.HasOwnOthers c ∧
      (Codec.optional (.list Aggregation.codec)).Returns c.aggregations ∧
      (Codec.optional (.list Filter.shape.codec)).Returns c.fieldFilters ∧
      (Codec.optional (.list Filter.shape.codec)).Returns c.metadataFilters ∧
      (Codec.optional ResultOptions.shape.codec).Returns c.results ∧
      (Codec.optional .rawObject).Returns c.filters := by
  rw [Shape.Faithful.returns_iff faithful_shape]
  refine and_congr_right fun _ => ?_
  simp [Shape.Settled, SourceConfig.shape]

/-- A source of data is read back when its description is: any query, flag and type are. -/
theorem Datasource.returns_iff {s : Datasource} :
    Datasource.shape.codec.Returns s ↔ Datasource.shape.HasOwnOthers s ∧
      (Codec.optional SourceConfig.shape.codec).Returns s.config := by
  rw [Shape.Faithful.returns_iff faithful_shape]
  refine and_congr_right fun _ => ?_
  simp [Shape.Settled, Datasource.shape]

/-- A widget is read back when its layout, its chart and its source of data are. -/
theorem Widget.returns_iff {w : Widget} :
    Widget.shape.codec.Returns w ↔ Widget.shape.HasOwnOthers w ∧
      (Codec.optional WidgetLayout.shape.codec).Returns w.layout ∧
      (Codec.optional Chart.shape.codec).Returns w.chart ∧
      (Codec.optional Datasource.shape.codec).Returns w.datasource := by
  rw [Shape.Faithful.returns_iff faithful_shape]
  refine and_congr_right fun _ => ?_
  simp [Shape.Settled, Widget.shape]

/-- A grid is read back when its widgets are. -/
theorem Grid.returns_iff {g : Grid} :
    Grid.shape.codec.Returns g ↔ Grid.shape.HasOwnOthers g ∧
      (Codec.optional (.list Widget.shape.codec)).Returns g.children := by
  rw [Shape.Faithful.returns_iff faithful_shape]
  refine and_congr_right fun _ => ?_
  simp [Shape.Settled, Grid.shape]

/-- A container is read back when its grid is. -/
theorem Container.returns_iff {c : Container} :
    Container.shape.codec.Returns c ↔ Container.shape.HasOwnOthers c ∧
      (Codec.optional Grid.shape.codec).Returns c.grid := by
  rw [Shape.Faithful.returns_iff faithful_shape]
  refine and_congr_right fun _ => ?_
  simp [Shape.Settled, Container.shape]

/-- A dashboard is read back when its parameters and its containers are. -/
theorem Dashboard.returns_iff {d : Dashboard} :
    Dashboard.codec.Returns d ↔ Dashboard.shape.HasOwnOthers d ∧
      (Codec.optional (.list Parameter.shape.codec)).Returns d.params ∧
      (Codec.optional (.list Container.shape.codec)).Returns d.children := by
  rw [Dashboard.codec, Shape.Faithful.returns_iff faithful_shape]
  -- the identifier, the version and the other scalars are settled
  refine and_congr_right fun _ => ?_
  simp [Shape.Settled, Dashboard.shape]

end Dashboards
