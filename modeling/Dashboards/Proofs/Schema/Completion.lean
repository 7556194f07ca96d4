import Dashboards.Proofs.Schema.Walk

/-!
# One-pass completion

What a dashboard is brought to, said in one pass over the document: each record keeps what it has
and gets the rest, and new ids are taken from the supply in the order of the document, each
container before its widgets.

New ids and other parts do not depend on each other.  So the one pass is the same as giving out all
ids first (`Dashboard.assignIds`) and then completing everything else in its place
(`Dashboard.completeParts`).

## Key results

- `Dashboard.complete_eq`: the one pass as two
- `normalizeLegend_object`: a legend that is an object keeps all its members
-/

namespace Dashboards

/-! ## Records -/

/-- A layout with spans of one where it has none. -/
def WidgetLayout.complete (l : WidgetLayout) : WidgetLayout :=
  { l with
    columnSpan := some (l.columnSpan.getD 1)
    rowSpan := some (l.rowSpan.getD 1) }

/-- Options of a chart with a tooltip, and with a legend that has a position. -/
def ChartOptions.complete (o : ChartOptions) : ChartOptions :=
  { o with
    tooltip := some (o.tooltip.getD { isHtml := some true })
    legend := some (normalizeLegend (o.legend.getD .null)) }

/-- A chart with complete options. -/
def Chart.complete (c : Chart) : Chart :=
  { c with options := some (c.options.getD {}).complete }

/-- A description of data with lists of a query, results and filter settings. -/
def SourceConfig.complete (c : SourceConfig) : SourceConfig :=
  { c with
    aggregations := some (c.aggregations.getD [])
    fieldFilters := some (c.fieldFilters.getD [])
    metadataFilters := some (c.metadataFilters.getD [])
    results := some (c.results.getD { pivot := some false, showDate := some false })
    filters := some (c.filters.getD []) }

/-- A datasource with a kind, a description of its data, and a word on who wrote its query. -/
def Datasource.complete (s : Datasource) : Datasource :=
  { s with
    kind := some (s.kind.getD "tabular")
    customQuery := some (s.customQuery.getD (s.query.any Text.hasInk))
    config := some (s.config.getD {}).complete }

/-- A widget with all parts but an id. -/
def Widget.completeParts (w : Widget) : Widget :=
  { w with
    layout := some (w.layout.getD {}).complete
    chart := some (w.chart.getD {}).complete
    datasource := some (w.datasource.getD {}).complete }

/-- A grid with a flow, columns and a height. -/
def Grid.completeLayout (g : Grid) : Grid :=
  { g with
    flow := some (g.flow.getD "row")
    columns := some (g.columns.getD 1)
    height := some (g.height.getD 250) }

/-! ## The pass -/

/-- A complete widget, with a new id if it has none. -/
def Widget.complete (w : Widget) : StateM IdSupply Widget := do
  let id ← assignId w.id
  return { w.completeParts with id }

/-- A complete grid of complete widgets. -/
def Grid.complete (g : Grid) : StateM IdSupply Grid := do
  let children ← g.children.mapM (·.mapM Widget.complete)
  return { g.completeLayout with children }

/-- A complete container: its own id comes before the ids of its widgets. -/
def Container.complete (c : Container) : StateM IdSupply Container := do
  let id ← assignId c.id
  let grid ← c.grid.mapM Grid.complete
  return { c with id, grid }

/-- A complete dashboard, but for the version that is written in it. -/
def Dashboard.complete (d : Dashboard) : StateM IdSupply Dashboard := do
  let children ← d.children.mapM (·.mapM Container.complete)
  return { d with params := some (d.params.getD []), children }

/-! ## Legends -/

/-- Putting in a member keeps the others, if there is none with its key. -/
theorem sublist_insert (key : String) (value : Json.Value) (ms : Json.Members)
    (h : Json.Members.contains ms key = false) :
    ms.Sublist (Json.Members.insert key value ms) := by
  -- the new member comes before the first one with a larger key, among the others as they are
  induction ms with
  | nil => exact List.nil_sublist _
  | cons m ms ih =>
    obtain ⟨k, v⟩ := m
    simp only [Json.Members.contains, List.any_cons, Bool.or_eq_false_iff, beq_eq_false_iff_ne]
      at h
    simp only [Json.Members.insert]
    split
    · exact List.sublist_cons_self _ _
    · rw [if_neg (Ne.symm h.1)]
      exact (ih h.2).cons_cons _

/-- A legend that is an object keeps all its members. -/
theorem normalizeLegend_object (ms : Json.Members) :
    ∃ ms', normalizeLegend (.object ms) = .object ms' ∧ ms.Sublist ms' := by
  simp only [normalizeLegend]
  split
  · exact ⟨ms, rfl, List.Sublist.refl ms⟩
  · rename_i h
    exact ⟨_, rfl, sublist_insert _ _ _ (Bool.eq_false_iff.2 h)⟩

/-- A legend that is normal stays as it is. -/
theorem normalizeLegend_normalizeLegend (v : Json.Value) :
    normalizeLegend (normalizeLegend v) = normalizeLegend v :=
  normalizeLegend_of_hasLegendPosition (hasLegendPosition_normalizeLegend v)

/-! ## The pass as two -/

/-- A container with all parts but ids. -/
def Container.completeParts (c : Container) : Container :=
  { c with grid := c.grid.map fun g =>
      { g.completeLayout with children := g.children.map (·.map Widget.completeParts) } }

/-- A dashboard with all parts but ids. -/
def Dashboard.completeParts (d : Dashboard) : Dashboard :=
  { d.mapContainers Container.completeParts with params := some (d.params.getD []) }

/-- A container with new ids for itself and its widgets where they have none. -/
def Container.assignIds (c : Container) : StateM IdSupply Container :=
  c.updateParts (some Container.addId) (some Widget.addId)

/-- A dashboard with new ids for containers and widgets that have none. -/
def Dashboard.assignIds (d : Dashboard) : StateM IdSupply Dashboard := do
  let children ← d.children.mapM (·.mapM Container.assignIds)
  return { d with children }

/-- A map after every change of a list is a map of the changed list. -/
theorem mapM_map_eq {m : Type → Type} [Monad m] [LawfulMonad m] {α β γ : Type} (f : α → m β)
    (g : β → γ) (as : List α) : as.mapM (fun a => g <$> f a) = List.map g <$> as.mapM f := by
  induction as with
  | nil => simp
  | cons a as ih => simp [ih]

/-- Two changes of a list that agree on its items are the same. -/
theorem mapM_congr_left {m : Type → Type} [Monad m] [LawfulMonad m] {α β : Type} {f g : α → m β}
    {as : List α} (h : ∀ a ∈ as, f a = g a) : as.mapM f = as.mapM g := by
  induction as with
  | nil => rfl
  | cons a as ih =>
    rw [List.forall_mem_cons] at h
    rw [List.mapM_cons, List.mapM_cons, h.1, ih h.2]

/-- A widget is completed after it has got its id. -/
theorem Widget.complete_eq (w : Widget) : w.complete = Widget.completeParts <$> w.addId := by
  simp only [Widget.complete, Widget.addId, map_bind, map_pure]
  rfl

/-- A container is completed after it and its widgets have got their ids. -/
theorem Container.complete_eq (c : Container) :
    c.complete = Container.completeParts <$> c.assignIds := by
  simp only [Container.complete, Container.assignIds, Container.updateParts, Container.addId,
    bind_assoc, pure_bind, map_bind]
  -- both sides take the id of the container first
  congr 1
  funext id
  rcases c with ⟨_, title, _ | ⟨flow, columns, height, _ | ws, extra⟩, rest⟩
  · simp [Container.updateWidgets, Container.completeParts]
  · simp [Container.updateWidgets, Container.completeParts, Grid.complete]
  · simp [Container.updateWidgets, Container.completeParts, Grid.complete,
      funext Widget.complete_eq, mapM_map_eq, Grid.completeLayout]

/-- The one pass is the same as giving out all ids and then completing everything else. -/
theorem Dashboard.complete_eq (d : Dashboard) :
    d.complete = Dashboard.completeParts <$> d.assignIds := by
  -- container by container, and nothing else in the document takes ids
  simp only [Dashboard.complete, Dashboard.assignIds, funext Container.complete_eq, mapM_map_eq]
  cases d.children <;> simp [Dashboard.completeParts, Dashboard.mapContainers]

/-! ## Changes that completion would make anyway -/

/-- A map over widgets that makes no difference to the completion of widgets. -/
theorem Container.complete_mapWidgets {f : Widget → Widget} (hf : ∀ w, (f w).complete = w.complete)
    (c : Container) : (c.mapWidgets f).complete = c.complete := by
  -- only widgets that are there are completed
  rcases c with ⟨cid, title, _ | ⟨flow, columns, height, _ | ws, extra⟩, rest⟩
  · rfl
  · rfl
  · simp only [Container.complete, Container.mapWidgets, Option.map_some, Option.mapM_some,
      Grid.complete, List.mapM_map, Function.comp_def, hf, Grid.completeLayout]

/-- A map over containers that makes no difference to the completion of containers. -/
theorem Dashboard.complete_mapContainers {f : Container → Container} {d : Dashboard}
    (hf : ∀ c ∈ d.containers, (f c).complete = c.complete) :
    (d.mapContainers f).complete = d.complete := by
  rcases d with ⟨did, title, version, params, _ | cs, extra⟩
  · rfl
  · have hcs : cs.mapM (fun c => (f c).complete) = cs.mapM Container.complete :=
      mapM_congr_left hf
    simp only [Dashboard.complete, Dashboard.mapContainers, Option.map_some, Option.mapM_some,
      List.mapM_map, Function.comp_def, hcs]

end Dashboards
