import Dashboards.Document.Codec
import Dashboards.Proofs.Record.Tables

/-!
# The tables of documents

All records of a document have lawful tables: each member sets a field of its own, and the members
that are not known are kept in `extra`.
-/

namespace Dashboards

/-- The spans of a layout are set apart from each other, and its other members are kept. -/
theorem WidgetLayout.lawful_shape : WidgetLayout.shape.Lawful := by
  -- the keys differ, and the fields that the members set are independent, also of `extra`
  refine .of_kept rfl (fun _ _ => rfl) (by decide) ?_ ?_ <;> simp [WidgetLayout.shape]

/-- The two options of a tooltip are set apart, and its other members are kept. -/
theorem Tooltip.lawful_shape : Tooltip.shape.Lawful := by
  refine .of_kept rfl (fun _ _ => rfl) (by decide) ?_ ?_ <;> simp [Tooltip.shape]

/-- The tooltip and the legend are set apart; the options of a particular kind of chart are kept. -/
theorem ChartOptions.lawful_shape : ChartOptions.shape.Lawful := by
  refine .of_kept rfl (fun _ _ => rfl) (by decide) ?_ ?_ <;> simp [ChartOptions.shape]

/-- The kind of a chart and its options are set apart, and its other members are kept. -/
theorem Chart.lawful_shape : Chart.shape.Lawful := by
  refine .of_kept rfl (fun _ _ => rfl) (by decide) ?_ ?_ <;> simp [Chart.shape]

/-- The options of results are set apart from each other, and unknown ones are kept. -/
theorem ResultOptions.lawful_shape : ResultOptions.shape.Lawful := by
  refine .of_kept rfl (fun _ _ => rfl) (by decide) ?_ ?_ <;> simp [ResultOptions.shape]

/-- The members of a description of data are set apart from each other, and unknown ones are
kept. -/
theorem SourceConfig.lawful_shape : SourceConfig.shape.Lawful := by
  refine .of_kept rfl (fun _ _ => rfl) (by decide) ?_ ?_ <;> simp [SourceConfig.shape]

/-- The members of a source of data are set apart from each other, and unknown ones are kept. -/
theorem Datasource.lawful_shape : Datasource.shape.Lawful := by
  refine .of_kept rfl (fun _ _ => rfl) (by decide) ?_ ?_ <;> simp [Datasource.shape]

/-- The members of a widget are set apart from each other, and unknown ones are kept. -/
theorem Widget.lawful_shape : Widget.shape.Lawful := by
  refine .of_kept rfl (fun _ _ => rfl) (by decide) ?_ ?_ <;> simp [Widget.shape]

/-- The members of a grid are set apart from each other, and unknown ones are kept. -/
theorem Grid.lawful_shape : Grid.shape.Lawful := by
  refine .of_kept rfl (fun _ _ => rfl) (by decide) ?_ ?_ <;> simp [Grid.shape]

/-- The members of a container are set apart from each other, and unknown ones are kept. -/
theorem Container.lawful_shape : Container.shape.Lawful := by
  refine .of_kept rfl (fun _ _ => rfl) (by decide) ?_ ?_ <;> simp [Container.shape]

/-- The members of a parameter are set apart from each other, and unknown ones are kept. -/
theorem Parameter.lawful_shape : Parameter.shape.Lawful := by
  refine .of_kept rfl (fun _ _ => rfl) (by decide) ?_ ?_ <;> simp [Parameter.shape]

/-- The members of a dashboard are set apart from each other, and unknown ones are kept. -/
theorem Dashboard.lawful_shape : Dashboard.shape.Lawful := by
  refine .of_kept rfl (fun _ _ => rfl) (by decide) ?_ ?_ <;> simp [Dashboard.shape]

end Dashboards
