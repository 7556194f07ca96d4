import Dashboards.Proofs.Schema.Ids

/-!
# Parts of widgets

The history of the schema asks fourteen things of a widget.  A version asks for some of them, and
its update puts in these and the records that hold them, and leaves the rest of the widget alone.

## Key results

- `WidgetRule`: what a version about widgets asks for and puts in
- `Widget.completeParts_of_has`: a widget that has all parts is complete
-/

namespace Dashboards

/-! ## What a widget has -/

/-- What the history of the schema asks of a widget. -/
inductive Widget.Part where
  | id
  | columnSpan
  | rowSpan
  | chartOptions
  | tooltip
  | legend
  | config
  | results
  | kind
  | customQuery
  | aggregations
  | fieldFilters
  | metadataFilters
  | filters
deriving DecidableEq, Repr

/-- Whether a widget has a part. -/
def Widget.has (w : Widget) : Widget.Part → Bool
  | .id => hasId w.id
  | .columnSpan => (w.layout.getD {}).columnSpan.isSome
  | .rowSpan => (w.layout.getD {}).rowSpan.isSome
  | .chartOptions => w.chartOptions.isSome
  | .tooltip => (w.chartOptions.getD {}).tooltip.isSome
  | .legend => (w.chartOptions.getD {}).legend.any hasLegendPosition
  | .config => w.config.isSome
  | .results => (w.config.getD {}).results.isSome
  | .kind => (w.datasource.getD {}).kind.isSome
  | .customQuery => (w.datasource.getD {}).customQuery.isSome
  | .aggregations => (w.config.getD {}).aggregations.isSome
  | .fieldFilters => (w.config.getD {}).fieldFilters.isSome
  | .metadataFilters => (w.config.getD {}).metadataFilters.isSome
  | .filters => (w.config.getD {}).filters.isSome

/-- A version that is about every widget: its check asks for parts, and its update puts in parts,
the records that hold them among them. -/
structure WidgetRule where
  verify : Widget → Verification
  update : Widget → Widget
  needs : List Widget.Part
  adds : List Widget.Part
  verify_eq_satisfied_iff : ∀ w, verify w = .satisfied ↔ ∀ p ∈ needs, w.has p
  -- nothing is taken away, and the check is satisfied afterwards
  has_update : ∀ w p, (update w).has p = (w.has p || decide (p ∈ adds))
  needs_subset_adds : needs ⊆ adds
  update_of_has : ∀ w : Widget, (∀ p ∈ needs, w.has p) → update w = w
  -- nothing is put in that completion would put in otherwise
  completeParts_update : ∀ w, (update w).completeParts = w.completeParts
  id_update : ∀ w, (update w).id = w.id

/-! ## Updates of one record -/

/-- A condition that is required is satisfied iff it holds. -/
@[simp] theorem Verification.require_eq_satisfied_iff (condition : Bool) (field : String) :
    Verification.require condition field = .satisfied ↔ condition = true := by
  cases condition <;> simp [Verification.require]

/-- Two checks one after the other are satisfied iff both are. -/
@[simp] theorem Verification.andThen_eq_satisfied_iff (v : Verification)
    (next : Unit → Verification) :
    v.andThen next = .satisfied ↔ v = .satisfied ∧ next () = .satisfied := by
  cases v <;> simp [Verification.andThen]

/-- An update of the description of data leaves one, made of the old or of a blank one. -/
@[simp] theorem Widget.config_updateConfig (f : SourceConfig → SourceConfig) (w : Widget) :
    (w.updateConfig f).config = some (f (w.config.getD {})) := by
  rcases w with ⟨id, title, layout, chart, _ | s, extra⟩ <;> rfl

/-- An update of the options of the chart leaves some, made of the old or of blank ones. -/
@[simp] theorem Widget.chartOptions_updateChartOptions (f : ChartOptions → ChartOptions)
    (w : Widget) : (w.updateChartOptions f).chartOptions = some (f (w.chartOptions.getD {})) := by
  rcases w with ⟨id, title, layout, _ | c, datasource, extra⟩ <;> rfl

/-- A field that is there in a record, or else in one without it, is there in a record. -/
theorem exists_of_isSome_getD {β γ : Type} {x : Option β} {blank : β} {field : β → Option γ}
    (hblank : field blank = none) (h : (field (x.getD blank)).isSome) :
    ∃ b c, x = some b ∧ field b = some c := by
  -- a blank record does not have the field, so that the one that has it was there
  cases x with
  | none =>
    rw [Option.getD_none, hblank] at h
    exact nomatch h
  | some b =>
    obtain ⟨c, hc⟩ := Option.isSome_iff_exists.1 h
    exact ⟨b, c, rfl, hc⟩

/-- A description of data that stays as it is leaves its widget as it is. -/
theorem Widget.updateConfig_eq_self {f : SourceConfig → SourceConfig} {w : Widget}
    {c : SourceConfig} (hc : w.config = some c) (hf : f c = c) : w.updateConfig f = w := by
  rcases w with ⟨id, title, layout, chart, _ | ⟨query, custom, kind, _ | c', sextra⟩, extra⟩
  · exact nomatch hc
  · exact nomatch hc
  · obtain rfl : c' = c := Option.some.inj hc
    simp [Widget.updateConfig, Widget.updateDatasource, hf]

/-- Options of a chart that stay as they are leave their widget as it is. -/
theorem Widget.updateChartOptions_eq_self {f : ChartOptions → ChartOptions} {w : Widget}
    {o : ChartOptions} (ho : w.chartOptions = some o) (hf : f o = o) :
    w.updateChartOptions f = w := by
  rcases w with ⟨id, title, layout, _ | ⟨kind, _ | o', cextra⟩, datasource, extra⟩
  · exact nomatch ho
  · exact nomatch ho
  · obtain rfl : o' = o := Option.some.inj ho
    simp [Widget.updateChartOptions, hf]

/-- An update of the description of data that completion would make anyway. -/
theorem Widget.completeParts_updateConfig {f : SourceConfig → SourceConfig}
    (hf : ∀ c, (f c).complete = c.complete) (w : Widget) :
    (w.updateConfig f).completeParts = w.completeParts := by
  simp [Widget.completeParts, Widget.updateConfig, Widget.updateDatasource, Datasource.complete, hf]

/-- An update of the options of a chart that completion would make anyway. -/
theorem Widget.completeParts_updateChartOptions {f : ChartOptions → ChartOptions}
    (hf : ∀ o, (f o).complete = o.complete) (w : Widget) :
    (w.updateChartOptions f).completeParts = w.completeParts := by
  simp [Widget.completeParts, Widget.updateChartOptions, Chart.complete, hf]

/-! ## The versions about widgets -/

/-- A description of data. -/
def configRule : WidgetRule where
  verify := Widget.verifyConfig
  update := Widget.addConfig
  needs := [.config]
  adds := [.config]
  verify_eq_satisfied_iff w := by simp [Widget.verifyConfig, Widget.has]
  has_update w p := by
    cases p <;> simp [Widget.has, Widget.addConfig] <;> rfl
  needs_subset_adds := by decide
  update_of_has w h := by
    obtain ⟨c, hc⟩ := Option.isSome_iff_exists.1 (h .config (by decide))
    exact Widget.updateConfig_eq_self hc rfl
  completeParts_update := Widget.completeParts_updateConfig fun _ => rfl
  id_update _ := rfl

/-- Spans. -/
def spansRule : WidgetRule where
  verify := Widget.verifySpans
  update := Widget.addSpans
  needs := [.columnSpan, .rowSpan]
  adds := [.columnSpan, .rowSpan]
  verify_eq_satisfied_iff w := by
    cases hl : w.layout <;> simp [Widget.verifySpans, Widget.has, hl]
  has_update w p := by
    cases p <;> simp [Widget.has, Widget.addSpans] <;> rfl
  needs_subset_adds := by decide
  update_of_has w h := by
    have hc := h .columnSpan (by decide)
    have hr := h .rowSpan (by decide)
    rcases w with ⟨id, title, _ | ⟨columns, rows, lextra⟩, chart, datasource, extra⟩
    · exact nomatch hc
    · obtain ⟨_, rfl⟩ := Option.isSome_iff_exists.1 hc
      obtain ⟨_, rfl⟩ := Option.isSome_iff_exists.1 hr
      rfl
  completeParts_update _ := rfl
  id_update _ := rfl

/-- Options of the chart. -/
def chartOptionsRule : WidgetRule where
  verify := Widget.verifyChartOptions
  update := Widget.addChartOptions
  needs := [.chartOptions]
  adds := [.chartOptions]
  verify_eq_satisfied_iff w := by
    cases hc : w.chart <;> simp [Widget.verifyChartOptions, Widget.has, Widget.chartOptions, hc]
  has_update w p := by
    cases p <;> simp [Widget.has, Widget.addChartOptions] <;> rfl
  needs_subset_adds := by decide
  update_of_has w h := by
    obtain ⟨o, ho⟩ := Option.isSome_iff_exists.1 (h .chartOptions (by decide))
    exact Widget.updateChartOptions_eq_self ho rfl
  completeParts_update := Widget.completeParts_updateChartOptions fun _ => rfl
  id_update _ := rfl

/-- A tooltip. -/
def tooltipRule : WidgetRule where
  verify := Widget.verifyTooltip
  update := Widget.addTooltip
  needs := [.tooltip]
  adds := [.chartOptions, .tooltip]
  verify_eq_satisfied_iff w := by
    cases hc : w.chartOptions <;> simp [Widget.verifyTooltip, Widget.has, hc]
  has_update w p := by
    cases p <;> simp [Widget.has, Widget.addTooltip] <;> rfl
  needs_subset_adds := by decide
  update_of_has w h := by
    obtain ⟨o, t, ho, ht⟩ := exists_of_isSome_getD rfl (h .tooltip (by decide))
    refine Widget.updateChartOptions_eq_self ho ?_
    rw [ht, Option.getD_some, ← ht]
  completeParts_update := Widget.completeParts_updateChartOptions fun _ => rfl
  id_update _ := rfl

/-- A legend with a position. -/
def legendRule : WidgetRule where
  verify := Widget.verifyLegend
  update := Widget.addLegend
  needs := [.legend]
  adds := [.chartOptions, .legend]
  verify_eq_satisfied_iff w := by
    cases hc : w.chartOptions <;> simp [Widget.verifyLegend, Widget.has, hc]
  has_update w p := by
    cases p <;> simp [Widget.has, Widget.addLegend, hasLegendPosition_normalizeLegend] <;> rfl
  needs_subset_adds := by decide
  update_of_has w h := by
    have hl := h .legend (by decide)
    obtain ⟨o, v, ho, hv⟩ := exists_of_isSome_getD rfl (Option.isSome_of_any hl)
    -- the legend that is there has a position, so that normalizing it changes nothing
    simp only [Widget.has, ho, hv, Option.getD_some, Option.any_some] at hl
    refine Widget.updateChartOptions_eq_self ho ?_
    rw [hv, Option.getD_some, normalizeLegend_of_hasLegendPosition hl, ← hv]
  completeParts_update := Widget.completeParts_updateChartOptions fun o => by
    simp [ChartOptions.complete, normalizeLegend_normalizeLegend]
  id_update _ := rfl

/-- Options of results. -/
def resultsRule : WidgetRule where
  verify := Widget.verifyResults
  update := Widget.addResults
  needs := [.results]
  adds := [.config, .results]
  verify_eq_satisfied_iff w := by
    cases hc : w.config <;> simp [Widget.verifyResults, Widget.has, hc]
  has_update w p := by
    cases p <;> simp [Widget.has, Widget.addResults] <;> rfl
  needs_subset_adds := by decide
  update_of_has w h := by
    obtain ⟨c, r, hc, hr⟩ := exists_of_isSome_getD rfl (h .results (by decide))
    refine Widget.updateConfig_eq_self hc ?_
    rw [hr, Option.getD_some, ← hr]
  completeParts_update := Widget.completeParts_updateConfig fun _ => rfl
  id_update _ := rfl

/-- A kind of datasource, and a word on who wrote its query. -/
def datasourceRule : WidgetRule where
  verify := Widget.verifyDatasource
  update := Widget.addDatasource
  needs := [.kind, .customQuery]
  adds := [.kind, .customQuery]
  verify_eq_satisfied_iff w := by
    cases hs : w.datasource <;> simp [Widget.verifyDatasource, Widget.has, hs]
  has_update w p := by
    rcases w with ⟨id, title, layout, chart, _ | s, extra⟩ <;> cases p <;>
      simp [Widget.has, Widget.addDatasource, Widget.updateDatasource, Widget.config,
        Widget.chartOptions]
  needs_subset_adds := by decide
  update_of_has w h := by
    have hk := h .kind (by decide)
    have hq := h .customQuery (by decide)
    rcases w with ⟨id, title, layout, chart, _ | ⟨query, custom, kind, config, sextra⟩, extra⟩
    · exact nomatch hk
    · obtain ⟨_, rfl⟩ := Option.isSome_iff_exists.1 hk
      obtain ⟨_, rfl⟩ := Option.isSome_iff_exists.1 hq
      rfl
  completeParts_update _ := rfl
  id_update _ := rfl

/-- The lists of a query. -/
def queryListsRule : WidgetRule where
  verify := Widget.verifyQueryLists
  update := Widget.addQueryLists
  needs := [.aggregations, .fieldFilters, .metadataFilters]
  adds := [.config, .aggregations, .fieldFilters, .metadataFilters]
  verify_eq_satisfied_iff w := by
    cases hc : w.config <;> simp [Widget.verifyQueryLists, Widget.has, hc, and_assoc]
  has_update w p := by
    cases p <;> simp [Widget.has, Widget.addQueryLists] <;> rfl
  needs_subset_adds := by decide
  update_of_has w h := by
    obtain ⟨c, as, hc, ha⟩ := exists_of_isSome_getD rfl (h .aggregations (by decide))
    have hf := h .fieldFilters (by decide)
    have hm := h .metadataFilters (by decide)
    simp only [Widget.has, hc, Option.getD_some] at hf hm
    obtain ⟨fs, hf⟩ := Option.isSome_iff_exists.1 hf
    obtain ⟨ms, hm⟩ := Option.isSome_iff_exists.1 hm
    refine Widget.updateConfig_eq_self hc ?_
    rw [ha, hf, hm, Option.getD_some, Option.getD_some, Option.getD_some, ← ha, ← hf, ← hm]
  completeParts_update := Widget.completeParts_updateConfig fun _ => rfl
  id_update _ := rfl

/-- Filter settings. -/
def filtersRule : WidgetRule where
  verify := Widget.verifyFilters
  update := Widget.addFilters
  needs := [.filters]
  adds := [.config, .filters]
  verify_eq_satisfied_iff w := by
    cases hc : w.config <;> simp [Widget.verifyFilters, Widget.has, hc]
  has_update w p := by
    cases p <;> simp [Widget.has, Widget.addFilters] <;> rfl
  needs_subset_adds := by decide
  update_of_has w h := by
    obtain ⟨c, ms, hc, hms⟩ := exists_of_isSome_getD rfl (h .filters (by decide))
    refine Widget.updateConfig_eq_self hc ?_
    rw [hms, Option.getD_some, ← hms]
  completeParts_update := Widget.completeParts_updateConfig fun _ => rfl
  id_update _ := rfl

/-! ## All of them -/

/-- The versions about widgets, in order. -/
def widgetRules : List WidgetRule :=
  [configRule, spansRule, chartOptionsRule, tooltipRule, legendRule, resultsRule, datasourceRule,
    queryListsRule, filtersRule]

/-- One after the other, the versions about widgets complete a widget but for its id. -/
theorem Widget.completeParts_eq_foldl (w : Widget) :
    w.completeParts = widgetRules.foldl (fun w rule => rule.update w) w := by
  -- records are opened from the outside in, which leaves little to unify in the end
  simp only [widgetRules, List.foldl_cons, List.foldl_nil, configRule, spansRule,
    chartOptionsRule, tooltipRule, legendRule, resultsRule, datasourceRule, queryListsRule,
    filtersRule]
  simp only [Widget.addConfig, Widget.addSpans, Widget.addChartOptions, Widget.addTooltip,
    Widget.addLegend, Widget.addResults, Widget.addDatasource, Widget.addQueryLists,
    Widget.addFilters, Widget.updateConfig, Widget.updateDatasource, Widget.updateChartOptions,
    Option.getD_some]
  rfl

/-- Versions leave a widget alone that has what they ask for. -/
theorem foldl_update_of_has {w : Widget} {rules : List WidgetRule}
    (h : ∀ rule ∈ rules, ∀ p ∈ rule.needs, w.has p) :
    rules.foldl (fun w rule => rule.update w) w = w := by
  -- induction on the rules, none of which changes what the others see
  induction rules with
  | nil => rfl
  | cons rule rules ih =>
    rw [List.forall_mem_cons] at h
    rw [List.foldl_cons, rule.update_of_has w h.1, ih h.2]

/-- A widget that has all parts but an id is complete but for its id. -/
theorem Widget.completeParts_of_has {w : Widget} (h : ∀ p, p ≠ .id → w.has p) :
    w.completeParts = w := by
  -- no rule asks for the id, which is given out elsewhere
  have hid : ∀ rule ∈ widgetRules, Widget.Part.id ∉ rule.needs := by decide
  rw [Widget.completeParts_eq_foldl]
  exact foldl_update_of_has fun rule hr p hp => h p fun heq => hid rule hr (heq ▸ hp)

end Dashboards
