import Dashboards.Proofs.Document.RoundTrip
import Dashboards.Proofs.Schema.Passthrough

/-!
# Updates and reading back

A dashboard that is read back from its own value is so after any update of the history.  What an
update puts in is read back, and the rest is left alone.

## Key results

- `WidgetRule.returns_update`: the versions about widgets
- `StepRule.returns_effect`: all versions
-/

namespace Dashboards

open Codec (optional_returns_update optional_returns_fill optional_returns_map)
open Json (Value)

/-! ## Parts of widgets -/

namespace Widget

/-- A change of the source of data, which is put in if it is absent. -/
theorem returns_updateDatasource {f : Datasource → Datasource}
    (hf : ∀ s, Datasource.shape.codec.Returns s → Datasource.shape.codec.Returns (f s))
    {w : Widget} (hw : Widget.shape.codec.Returns w) :
    Widget.shape.codec.Returns (w.updateDatasource f) := by
  obtain ⟨hown, hlayout, hchart, hsource⟩ := returns_iff.1 hw
  -- the source that is put in is blank, and the change is made to it as well
  have hblank : Datasource.shape.codec.Returns {} := rfl
  exact returns_iff.2
    ⟨hown, hlayout, hchart, optional_returns_update (Shape.codec_refusesNull _) hsource hblank hf⟩

/-- A change of the description of data, which is put in if it is absent. -/
theorem returns_updateConfig {f : SourceConfig → SourceConfig}
    (hf : ∀ c, SourceConfig.shape.codec.Returns c → SourceConfig.shape.codec.Returns (f c))
    {w : Widget} (hw : Widget.shape.codec.Returns w) :
    Widget.shape.codec.Returns (w.updateConfig f) := by
  refine returns_updateDatasource (fun s hs => ?_) hw
  obtain ⟨hown, hconfig⟩ := Datasource.returns_iff.1 hs
  have hblank : SourceConfig.shape.codec.Returns {} := rfl
  exact Datasource.returns_iff.2
    ⟨hown, optional_returns_update (Shape.codec_refusesNull _) hconfig hblank hf⟩

/-- A change of the options of the chart, which are put in with the chart if they are absent. -/
theorem returns_updateChartOptions {f : ChartOptions → ChartOptions}
    (hf : ∀ o, ChartOptions.shape.codec.Returns o → ChartOptions.shape.codec.Returns (f o))
    {w : Widget} (hw : Widget.shape.codec.Returns w) :
    Widget.shape.codec.Returns (w.updateChartOptions f) := by
  obtain ⟨hown, hlayout, hchart, hsource⟩ := returns_iff.1 hw
  have hblank : Chart.shape.codec.Returns {} := rfl
  have hoptions : ChartOptions.shape.codec.Returns {} := rfl
  refine returns_iff.2 ⟨hown, hlayout, ?_, hsource⟩
  refine optional_returns_update (f := fun c => { c with options := some (f (c.options.getD {})) })
    (Shape.codec_refusesNull _) hchart hblank fun c hc => ?_
  obtain ⟨hown', hoptions'⟩ := Chart.returns_iff.1 hc
  exact Chart.returns_iff.2
    ⟨hown', optional_returns_update (Shape.codec_refusesNull _) hoptions' hoptions hf⟩

/-! ## Versions about widgets -/

variable {w : Widget} (hw : Widget.shape.codec.Returns w)
include hw

/-- The spans that are put in are numbers. -/
theorem returns_addSpans : Widget.shape.codec.Returns w.addSpans := by
  obtain ⟨hown, hlayout, hchart, hsource⟩ := returns_iff.1 hw
  have hblank : WidgetLayout.shape.codec.Returns {} := rfl
  refine returns_iff.2 ⟨hown, ?_, hchart, hsource⟩
  refine optional_returns_update (f := WidgetLayout.complete) (Shape.codec_refusesNull _) hlayout
    hblank fun l hl => ?_
  have hown' := WidgetLayout.returns_iff.1 hl
  exact WidgetLayout.returns_iff.2 hown'

/-- The tooltip that is put in has one known option. -/
theorem returns_addTooltip : Widget.shape.codec.Returns w.addTooltip := by
  refine returns_updateChartOptions (fun o ho => ?_) hw
  obtain ⟨hown, htooltip, hlegend⟩ := ChartOptions.returns_iff.1 ho
  have hblank : Tooltip.shape.codec.Returns { isHtml := some true } := rfl
  exact ChartOptions.returns_iff.2
    ⟨hown, optional_returns_fill (Shape.codec_refusesNull _) htooltip hblank, hlegend⟩

/-- A normalized legend is an object, so it is not taken for an absent one. -/
theorem returns_addLegend : Widget.shape.codec.Returns w.addLegend := by
  refine returns_updateChartOptions (fun o ho => ?_) hw
  obtain ⟨hown, htooltip, hlegend⟩ := ChartOptions.returns_iff.1 ho
  -- a legend that is there was read from a document, and one that is absent counts as `null`
  have hsorted : (o.legend.getD .null).IsSorted := by
    cases hv : o.legend with
    | none => rfl
    | some v =>
      rw [hv] at hlegend
      exact (Codec.optional_raw_returns_some_iff.1 hlegend).1
  have hposition := hasLegendPosition_normalizeLegend (o.legend.getD .null)
  refine ChartOptions.returns_iff.2 ⟨hown, htooltip, Codec.optional_raw_returns_some_iff.2
    ⟨isSorted_normalizeLegend _ hsorted, fun hnull => ?_⟩⟩
  rw [hnull] at hposition
  exact nomatch hposition

/-- The options of results that are put in have two known members. -/
theorem returns_addResults : Widget.shape.codec.Returns w.addResults := by
  refine returns_updateConfig (fun c hc => ?_) hw
  obtain ⟨hown, haggregations, hfields, hmetadata, hresults, hfilters⟩ :=
    SourceConfig.returns_iff.1 hc
  have hblank : ResultOptions.shape.codec.Returns
      { pivot := some false, showDate := some false } := rfl
  exact SourceConfig.returns_iff.2 ⟨hown, haggregations, hfields, hmetadata,
    optional_returns_fill (Shape.codec_refusesNull _) hresults hblank, hfilters⟩

/-- The type and the flag that are put in are scalars. -/
theorem returns_addDatasource : Widget.shape.codec.Returns w.addDatasource := by
  refine returns_updateDatasource (fun s hs => ?_) hw
  obtain ⟨hown, hconfig⟩ := Datasource.returns_iff.1 hs
  exact Datasource.returns_iff.2 ⟨hown, hconfig⟩

/-- The lists that are put in are empty. -/
theorem returns_addQueryLists : Widget.shape.codec.Returns w.addQueryLists := by
  refine returns_updateConfig (fun c hc => ?_) hw
  obtain ⟨hown, haggregations, hfields, hmetadata, hresults, hfilters⟩ :=
    SourceConfig.returns_iff.1 hc
  exact SourceConfig.returns_iff.2 ⟨hown,
    optional_returns_fill (Codec.list_refusesNull _) haggregations rfl,
    optional_returns_fill (Codec.list_refusesNull _) hfields rfl,
    optional_returns_fill (Codec.list_refusesNull _) hmetadata rfl, hresults, hfilters⟩

/-- The filters that are put in are an empty object. -/
theorem returns_addFilters : Widget.shape.codec.Returns w.addFilters := by
  refine returns_updateConfig (fun c hc => ?_) hw
  obtain ⟨hown, haggregations, hfields, hmetadata, hresults, hfilters⟩ :=
    SourceConfig.returns_iff.1 hc
  exact SourceConfig.returns_iff.2 ⟨hown, haggregations, hfields, hmetadata, hresults,
    optional_returns_fill Codec.rawObject_refusesNull hfilters rfl⟩

end Widget

/-- A version about widgets leaves every widget so that it is read back. -/
theorem WidgetRule.returns_update : ∀ rule ∈ widgetRules, ∀ w, Widget.shape.codec.Returns w →
    Widget.shape.codec.Returns (rule.update w) := by
  simp only [widgetRules, List.forall_mem_cons]
  refine ⟨?config, ?spans, ?options, ?tooltip, ?legend, ?results, ?datasource, ?lists, ?filters,
    List.forall_mem_nil _⟩
  case config => exact fun w hw => Widget.returns_updateConfig (fun _ h => h) hw
  case spans => exact fun w hw => Widget.returns_addSpans hw
  case options => exact fun w hw => Widget.returns_updateChartOptions (fun _ h => h) hw
  case tooltip => exact fun w hw => Widget.returns_addTooltip hw
  case legend => exact fun w hw => Widget.returns_addLegend hw
  case results => exact fun w hw => Widget.returns_addResults hw
  case datasource => exact fun w hw => Widget.returns_addDatasource hw
  case lists => exact fun w hw => Widget.returns_addQueryLists hw
  case filters => exact fun w hw => Widget.returns_addFilters hw

/-! ## Changes of all widgets and containers -/

/-- A container is read back if what its widgets become is. -/
theorem Container.returns_mapWidgets {f : Widget → Widget}
    (hf : ∀ w, Widget.shape.codec.Returns w → Widget.shape.codec.Returns (f w)) {c : Container}
    (hc : Container.shape.codec.Returns c) : Container.shape.codec.Returns (c.mapWidgets f) := by
  obtain ⟨hown, hgrid⟩ := returns_iff.1 hc
  refine returns_iff.2 ⟨hown, ?_⟩
  -- the widgets are in a list that may be absent, in a grid that may be absent
  refine optional_returns_map (f := fun g => { g with children := g.children.map (·.map f) })
    (Shape.codec_refusesNull _) hgrid fun g hg => ?_
  obtain ⟨hown', hchildren⟩ := Grid.returns_iff.1 hg
  refine Grid.returns_iff.2 ⟨hown', ?_⟩
  exact optional_returns_map (Codec.list_refusesNull _) hchildren fun ws hws =>
    Codec.list_returns_map hws hf

/-- The layout that is put into a container consists of scalars. -/
theorem Container.returns_addLayout {c : Container} (hc : Container.shape.codec.Returns c) :
    Container.shape.codec.Returns c.addLayout := by
  obtain ⟨hown, hgrid⟩ := returns_iff.1 hc
  have hblank : Grid.shape.codec.Returns { children := some [] } := rfl
  refine returns_iff.2 ⟨hown, ?_⟩
  refine optional_returns_update (f := Grid.completeLayout) (Shape.codec_refusesNull _) hgrid
    hblank fun g hg => ?_
  obtain ⟨hown', hchildren⟩ := Grid.returns_iff.1 hg
  exact Grid.returns_iff.2 ⟨hown', hchildren⟩

/-- A dashboard is read back if what its containers become is. -/
theorem Dashboard.returns_mapContainers {f : Container → Container}
    (hf : ∀ c, Container.shape.codec.Returns c → Container.shape.codec.Returns (f c))
    {d : Dashboard} (hd : Dashboard.codec.Returns d) :
    Dashboard.codec.Returns (d.mapContainers f) := by
  obtain ⟨hown, hparams, hchildren⟩ := returns_iff.1 hd
  refine returns_iff.2 ⟨hown, hparams, ?_⟩
  exact optional_returns_map (Codec.list_refusesNull _) hchildren fun cs hcs =>
    Codec.list_returns_map hcs hf

/-! ## New ids -/

/-- A new id of a widget is a string like any other. -/
theorem Widget.returns_run_addId {w : Widget} (hw : Widget.shape.codec.Returns w)
    (ids : IdSupply) : Widget.shape.codec.Returns ((w.addId).run ids).1 := by
  obtain ⟨hown, hlayout, hchart, hsource⟩ := returns_iff.1 hw
  exact returns_iff.2 ⟨hown, hlayout, hchart, hsource⟩

/-- A list whose items are changed one after the other. -/
theorem list_returns_run_mapM {α : Type} {c : Codec α} {f : α → StateM IdSupply α}
    (hf : ∀ a, c.Returns a → ∀ ids, c.Returns ((f a).run ids).1) {as : List α}
    (has : (Codec.list c).Returns as) (ids : IdSupply) :
    (Codec.list c).Returns ((as.mapM f).run ids).1 := by
  rw [Codec.list_returns_iff] at has ⊢
  exact (forall_mem_run_mapM (fun _ => True) c.Returns as
    (fun a ha ids _ => ⟨hf a (has a ha) ids, trivial⟩) trivial).1

/-- New ids of a container and of its widgets are strings like any others. -/
theorem Container.returns_run_assignIds {c : Container} (hc : Container.shape.codec.Returns c)
    (ids : IdSupply) : Container.shape.codec.Returns ((c.assignIds).run ids).1 := by
  obtain ⟨hown, hgrid⟩ := returns_iff.1 hc
  -- without a grid, with a grid that has no list, with widgets
  rcases c with ⟨id, title, _ | ⟨flow, columns, height, _ | ws, gextra⟩, extra⟩
  · exact returns_iff.2 ⟨hown, hgrid⟩
  · exact returns_iff.2 ⟨hown, hgrid⟩
  · have hsome := fun {g : Grid} => Codec.optional_returns_some_iff (b := g)
      (Shape.codec_refusesNull Grid.shape)
    obtain ⟨hown', hchildren⟩ := Grid.returns_iff.1 (hsome.1 hgrid)
    have hsome' := fun {ws : List Widget} => Codec.optional_returns_some_iff (b := ws)
      (Codec.list_refusesNull Widget.shape.codec)
    -- the widgets go on with the supply that the container leaves
    have hws := list_returns_run_mapM (fun w hw ids => Widget.returns_run_addId hw ids)
      (hsome'.1 hchildren) ((assignId id).run ids).2
    exact returns_iff.2 ⟨hown, hsome.2 (Grid.returns_iff.2 ⟨hown', hsome'.2 hws⟩)⟩

/-- New ids all over a dashboard leave it so that it is read back. -/
theorem Dashboard.returns_run_assignIds {d : Dashboard} (hd : Dashboard.codec.Returns d)
    (ids : IdSupply) : Dashboard.codec.Returns ((d.assignIds).run ids).1 := by
  obtain ⟨hown, hparams, hchildren⟩ := returns_iff.1 hd
  rcases d with ⟨id, title, version, params, _ | cs, extra⟩
  · exact returns_iff.2 ⟨hown, hparams, hchildren⟩
  · have hsome := fun {cs : List Container} => Codec.optional_returns_some_iff (b := cs)
      (Codec.list_refusesNull Container.shape.codec)
    have hcs := list_returns_run_mapM (fun c hc ids => Container.returns_run_assignIds hc ids)
      (hsome.1 hchildren) ids
    exact returns_iff.2 ⟨hown, hparams, hsome.2 hcs⟩

/-! ## All versions -/

/-- The list of parameters that is put in is empty. -/
theorem Dashboard.returns_addParams {d : Dashboard} (hd : Dashboard.codec.Returns d) :
    Dashboard.codec.Returns d.addParams := by
  obtain ⟨hown, hparams, hchildren⟩ := returns_iff.1 hd
  exact returns_iff.2
    ⟨hown, optional_returns_fill (Codec.list_refusesNull _) hparams rfl, hchildren⟩

/-- The version that is written makes no difference. -/
theorem Dashboard.returns_withVersion {d : Dashboard} (hd : Dashboard.codec.Returns d)
    (v : Option Version) : Dashboard.codec.Returns { d with version := v } := by
  obtain ⟨hown, hparams, hchildren⟩ := returns_iff.1 hd
  exact returns_iff.2 ⟨hown, hparams, hchildren⟩

/-- A version about widgets leaves a dashboard so that it is read back. -/
theorem returns_effect_widgetStepRule {rule : WidgetRule}
    (h : ∀ w, Widget.shape.codec.Returns w → Widget.shape.codec.Returns (rule.update w))
    (number : UInt32) (description : String) {ws : Workspace}
    (hws : Dashboard.codec.Returns ws.dashboard) :
    Dashboard.codec.Returns ((widgetStepRule number description rule).effect ws).dashboard :=
  Dashboard.returns_mapContainers (fun _ hc => Container.returns_mapWidgets h hc) hws

/-- The update of a version leaves a dashboard so that it is read back. -/
theorem StepRule.returns_effect : ∀ rule ∈ schemaRules, ∀ ws : Workspace,
    Dashboard.codec.Returns ws.dashboard →
      Dashboard.codec.Returns (rule.effect ws).dashboard := by
  have hrules := WidgetRule.returns_update
  simp only [widgetRules, List.forall_mem_cons] at hrules
  obtain ⟨hconfig, hspans, hoptions, htooltip, hlegend, hresults, hdatasource, hlists, hfilters,
    -⟩ := hrules
  simp only [schemaRules, List.forall_mem_cons]
  -- the versions in order; two of them are about containers and one about parameters
  refine ⟨fun ws => returns_effect_widgetStepRule hconfig _ _,
    fun ws => returns_effect_widgetStepRule hspans _ _,
    fun ws => returns_effect_widgetStepRule hoptions _ _,
    fun ws => returns_effect_widgetStepRule htooltip _ _,
    fun ws => returns_effect_widgetStepRule hlegend _ _,
    fun ws => returns_effect_widgetStepRule hresults _ _,
    fun ws => Dashboard.returns_addParams,
    fun ws => Dashboard.returns_mapContainers fun c hc => c.returns_addLayout hc,
    fun ws => returns_effect_widgetStepRule hdatasource _ _,
    fun ws => returns_effect_widgetStepRule hlists _ _,
    fun ws hws => Dashboard.returns_run_assignIds hws ws.ids,
    fun ws => returns_effect_widgetStepRule hfilters _ _,
    List.forall_mem_nil _⟩

end Dashboards
