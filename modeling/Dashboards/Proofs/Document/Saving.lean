import Dashboards.Proofs.Document.Agreement
import Dashboards.Proofs.Document.RoundTrip
import Dashboards.Proofs.Record.Saving

/-!
# Saving dashboards

A dashboard that was loaded from a text is read back from its own text.  What a dashboard is written
as may be deeper than what it was read from, since filters may come as lists and without some of
their members; but filters are never so deep that it would matter.

## Key results

- `Dashboard.saves_shape`: what was loaded is read back, and is nested no deeper than a text may be
-/

namespace Dashboards

open Json (Value)

/-! ## Scalars -/

/-- A version is written as a string. -/
theorem Version.writesScalars_codec : Version.codec.WritesScalars := fun _ => rfl

/-- An aggregation is written as its text. -/
theorem Aggregation.writesScalars_codec : Aggregation.codec.WritesScalars := fun _ => rfl

/-- A match rule is written as its code. -/
theorem MatchRule.writesScalars_codec : MatchRule.codec.WritesScalars := fun _ => rfl

/-- An operand is written as a number or as a string. -/
theorem Operand.writesScalars_codec : Operand.codec.WritesScalars := fun x => by cases x <;> rfl

/-- A display is written as its word. -/
theorem Display.writesScalars_codec : Display.codec.WritesScalars := fun _ => rfl

/-- Versions save at every depth. -/
@[simp] theorem Version.saves_codec (k : Nat) : Version.codec.Saves k :=
  writesScalars_codec.saves (fun _ _ v _ => returns_codec v) k

/-- Aggregations save at every depth: their texts are strings. -/
@[simp] theorem Aggregation.saves_codec (k : Nat) : Aggregation.codec.Saves k := by
  refine writesScalars_codec.saves (fun o d a h => ?_) k
  obtain ⟨s, _, rfl⟩ := exists_of_map_eq_ok h
  exact congrArg Except.ok (ofText_text s)

/-- Match rules save at every depth: the code that was read is the code of the rule. -/
@[simp] theorem MatchRule.saves_codec (k : Nat) : MatchRule.codec.Saves k := by
  refine writesScalars_codec.saves (fun o d a h => ?_) k
  obtain ⟨s, _, rfl⟩ := exists_of_map_eq_ok h
  exact congrArg Except.ok (ofCode_code s)

/-- Operands save at every depth. -/
@[simp] theorem Operand.saves_codec (k : Nat) : Operand.codec.Saves k :=
  writesScalars_codec.saves (fun _ _ x _ => returns_codec x) k

/-- Displays save at every depth. -/
@[simp] theorem Display.saves_codec (k : Nat) : Display.codec.Saves k :=
  writesScalars_codec.saves (fun _ _ display _ => returns_codec display) k

/-! ## What was loaded -/

/-- A clause that came as a list is saved as an object with a list of operands, at most two levels
deep. -/
theorem Clause.saves_shape : Clause.shape.codec.Saves 2 := by
  -- the codes and the operands are scalars, so only the list of operands needs room
  have hoperands : (Codec.list Operand.codec).Saves 1 := Codec.list_saves (Operand.saves_codec 0)
  refine faithful_shape.saves ?_ ?_
  · simp [shape, hoperands]
  -- members with a default are written although the text may lack them
  · simp [shape, Member.required, Member.defaulted, Codec.list, Codec.bool, MatchRule.codec,
      Value.depth, Value.itemsDepth]

/-- A filter that came as a list is saved as an object around its clauses, at most four levels
deep. -/
theorem Filter.saves_shape : Filter.shape.codec.Saves 4 := by
  have hclauses := Codec.list_saves Clause.saves_shape
  refine faithful_shape.saves ?_ ?_
  · simp [shape, hclauses]
  -- a filter may lack its clauses too: an empty list of them is one level
  · simp [shape, Member.required, Member.defaulted, Member.optional, Codec.list, Codec.string,
      Display.codec, Value.depth, Value.itemsDepth]

/-- A layout that was loaded is read back. -/
theorem WidgetLayout.saves_shape : WidgetLayout.shape.codec.Saves 1 := by
  refine faithful_shape.saves ?_ ?_
  · simp [shape]
  · simp [shape, Member.optional]

/-- A tooltip that was loaded is read back. -/
theorem Tooltip.saves_shape : Tooltip.shape.codec.Saves 1 := by
  refine faithful_shape.saves ?_ ?_
  · simp [shape]
  · simp [shape, Member.optional]

/-- The options of a chart are read back; only their tooltip is a record of its own. -/
theorem ChartOptions.saves_shape : ChartOptions.shape.codec.Saves 2 := by
  refine faithful_shape.saves ?_ ?_
  · simp [shape, Tooltip.saves_shape]
  · simp [shape, Member.optional]

/-- A chart that was loaded is read back. -/
theorem Chart.saves_shape : Chart.shape.codec.Saves 3 := by
  refine faithful_shape.saves ?_ ?_
  · simp [shape, ChartOptions.saves_shape]
  · simp [shape, Member.optional]

/-- The options of results that were loaded are read back. -/
theorem ResultOptions.saves_shape : ResultOptions.shape.codec.Saves 1 := by
  refine faithful_shape.saves ?_ ?_
  · simp [shape]
  · simp [shape, Member.optional]

/-- A description of data is read back: its deepest part is a list of filters. -/
theorem SourceConfig.saves_shape : SourceConfig.shape.codec.Saves 6 := by
  -- options of results are flat, and aggregations scalars; filters set the depth
  have hresultOptions := ResultOptions.saves_shape.mono (by decide : 1 ≤ 5)
  have haggregations := Codec.list_saves (Aggregation.saves_codec 4)
  have hfilters := Codec.list_saves Filter.saves_shape
  refine faithful_shape.saves ?_ ?_
  · simp [shape, hresultOptions, haggregations, hfilters]
  · simp [shape, Member.optional]

/-- A source of data that was loaded is read back. -/
theorem Datasource.saves_shape : Datasource.shape.codec.Saves 7 := by
  refine faithful_shape.saves ?_ ?_
  · simp [shape, SourceConfig.saves_shape]
  · simp [shape, Member.optional]

/-- A widget that was loaded is read back: its deepest part is the source of its data. -/
theorem Widget.saves_shape : Widget.shape.codec.Saves 8 := by
  -- layout and chart fit into the room that the source of data takes
  have hwidgetLayout := WidgetLayout.saves_shape.mono (by decide : 1 ≤ 7)
  have hchart := Chart.saves_shape.mono (by decide : 3 ≤ 7)
  refine faithful_shape.saves ?_ ?_
  · simp [shape, hwidgetLayout, hchart, Datasource.saves_shape]
  · simp [shape, Member.optional]

/-- The grid of a container is read back with all of its widgets. -/
theorem Grid.saves_shape : Grid.shape.codec.Saves 10 := by
  have hwidgets := Codec.list_saves Widget.saves_shape
  refine faithful_shape.saves ?_ ?_
  · simp [shape, hwidgets]
  · simp [shape, Member.optional]

/-- A container that was loaded is read back. -/
theorem Container.saves_shape : Container.shape.codec.Saves 11 := by
  refine faithful_shape.saves ?_ ?_
  · simp [shape, Grid.saves_shape]
  · simp [shape, Member.optional]

/-- A parameter that was loaded is read back. -/
theorem Parameter.saves_shape : Parameter.shape.codec.Saves 1 := by
  refine faithful_shape.saves ?_ ?_
  · simp [shape]
  · simp [shape, Member.required, Member.defaulted, Codec.string, Value.depth]

/-- A dashboard that was loaded is read back: the parts of its own are thirteen levels deep at most,
and what it does not know comes back as deep as it was. -/
theorem Dashboard.saves_shape : Dashboard.shape.codec.Saves 13 := by
  -- parameters are flat, so containers alone set the depth
  have hparameters := Codec.list_saves (Parameter.saves_shape.mono (by decide : 1 ≤ 11))
  have hcontainers := Codec.list_saves Container.saves_shape
  refine faithful_shape.saves ?_ ?_
  · simp [shape, hparameters, hcontainers]
  · simp [shape, Member.optional]

end Dashboards
