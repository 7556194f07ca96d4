import Dashboards.Proofs.Schema.Outcome
import Dashboards.Statement.Build

/-!
# What widgets ask for

A migration completes the description of a widget's data: it puts in a datasource, a description
with all its lists, and options of results.  What the widget asks for stays the same, since an
absent part counts as an empty one, and nothing that was there is touched.  So the widget has the
same statements before and after.

A widget says afterwards who wrote its query.  What it said before stays, and if it said nothing
then a query with any ink in it counts as written by hand.

## Key results

- `Dashboard.exists_widgetAt?_complete`: completion changes every widget in its place
- `migrate_builtin_keeps_queries`: widgets ask for the same data after a migration
-/

namespace Dashboards

/-! ## Places of widgets -/

/-- The widget in a place: the number of its container, and its number in there. -/
def Dashboard.widgetAt? (d : Dashboard) (i j : Nat) : Option Widget :=
  d.containers[i]?.bind fun c => c.widgets[j]?

/-- An item of a changed list is what its change in some state makes of the item in that place. -/
theorem exists_getElem?_run_mapM {σ α β : Type} (f : α → StateM σ β) (as : List α) (s : σ)
    (i : Nat) :
    ∃ s', ((as.mapM f).run s).1[i]? = as[i]?.map fun a => ((f a).run s').1 := by
  induction as generalizing s i with
  | nil => exact ⟨s, rfl⟩
  | cons a as ih =>
    simp only [List.mapM_cons, StateT.run_bind, StateT.run_pure]
    cases i with
    | zero => exact ⟨s, rfl⟩
    | succ i => exact ih ((f a).run s).2 i

/-- The widgets of a container are completed in their places. -/
theorem Container.exists_widgets_complete (c : Container) (ids : IdSupply) (j : Nat) :
    ∃ ids', (c.complete.run ids).1.widgets[j]? =
      c.widgets[j]?.map fun w => (w.complete.run ids').1 := by
  rcases c with ⟨id, title, _ | ⟨flow, columns, height, _ | ws, extra⟩, rest⟩
  · exact ⟨ids, rfl⟩
  · exact ⟨ids, rfl⟩
  · -- the widgets take their ids after the container has taken its own
    exact exists_getElem?_run_mapM Widget.complete ws ((assignId id).run ids).2 j

/-- The containers of a dashboard are completed in their places. -/
theorem Dashboard.exists_containers_complete (d : Dashboard) (ids : IdSupply) (i : Nat) :
    ∃ ids', (d.complete.run ids).1.containers[i]? =
      d.containers[i]?.map fun c => (c.complete.run ids').1 := by
  rcases d with ⟨id, title, version, params, _ | cs, extra⟩
  · exact ⟨ids, rfl⟩
  · exact exists_getElem?_run_mapM Container.complete cs ids i

/-- The widgets of a dashboard are completed in their places. -/
theorem Dashboard.exists_widgetAt?_complete (d : Dashboard) (ids : IdSupply) (i j : Nat) :
    ∃ ids', (d.complete.run ids).1.widgetAt? i j =
      (d.widgetAt? i j).map fun w => (w.complete.run ids').1 := by
  obtain ⟨ids₁, hcontainer⟩ := d.exists_containers_complete ids i
  simp only [Dashboard.widgetAt?, hcontainer]
  cases d.containers[i]? with
  | none => exact ⟨ids, rfl⟩
  | some c => exact c.exists_widgets_complete ids₁ j

/-! ## What a widget asks for -/

/-- The text of the query that is stored with a widget. -/
def Widget.storedQuery (w : Widget) : Option String := w.datasource.bind (·.query)

/-- What a widget says of its stored query: whether it was written by hand. -/
def Widget.customFlag (w : Widget) : Option Bool := w.datasource.bind (·.customQuery)

/-- A widget has a stored query with a character other than white space. -/
def Widget.StoresInk (w : Widget) : Prop :=
  ∃ text, w.storedQuery = some text ∧ ∃ c ∈ text.toList, Text.isBlank c = false

/-- A widget asks for the same data as it did before, and says who wrote its query. -/
structure Widget.AsksAlike (before after : Widget) : Prop where
  query : after.query = before.query
  rowLimit : after.rowLimit = before.rowLimit
  statementText : ∀ t, after.query.statementText t = before.query.statementText t
  checkedStatementText : ∀ t,
    after.query.checkedStatementText t = before.query.checkedStatementText t
  storedQuery : after.storedQuery = before.storedQuery
  -- a word on who wrote the query is never changed, and is inferred only where there was none
  hasCustomQuery_of_flag : ∀ flag, before.customFlag = some flag → after.hasCustomQuery = flag
  hasCustomQuery_of_no_flag : before.customFlag = none →
    (after.hasCustomQuery = true ↔ before.StoresInk)

/-- Lists that are put in are empty, as absent ones are. -/
theorem SourceConfig.query_complete (c : SourceConfig) : c.complete.query = c.query := rfl

/-- Options of results that are put in have no limit. -/
theorem SourceConfig.rowLimit_complete (c : SourceConfig) :
    c.complete.results.bind (·.rowLimit) = c.results.bind (·.rowLimit) := by
  rcases c with ⟨aggregations, fields, metadata, _ | results, filters, extra⟩ <;> rfl

/-- The description of data of a complete widget. -/
theorem Widget.config_completeParts (w : Widget) :
    w.completeParts.config = some (w.config.getD {}).complete := by
  rcases w with ⟨id, title, layout, chart, _ | s, extra⟩ <;> rfl

/-- Completing a widget does not change its query. -/
theorem Widget.query_completeParts (w : Widget) : w.completeParts.query = w.query := by
  simp only [Widget.query, config_completeParts, Option.map_some, Option.getD_some,
    SourceConfig.query_complete]
  cases w.config <;> rfl

/-- Completing a widget does not change its limit of rows. -/
theorem Widget.rowLimit_completeParts (w : Widget) : w.completeParts.rowLimit = w.rowLimit := by
  simp only [Widget.rowLimit, config_completeParts, Option.bind_some,
    SourceConfig.rowLimit_complete]
  cases w.config <;> rfl

/-- Completing a widget does not change its stored query. -/
theorem Widget.storedQuery_completeParts (w : Widget) :
    w.completeParts.storedQuery = w.storedQuery := by
  rcases w with ⟨id, title, layout, chart, _ | s, extra⟩ <;> rfl

/-- A stored query counts as written by hand if nothing is said of it and it has any ink. -/
theorem Widget.hasCustomQuery_completeParts (w : Widget) :
    w.completeParts.hasCustomQuery = w.customFlag.getD (w.storedQuery.any Text.hasInk) := by
  rcases w with ⟨id, title, layout, chart, _ | s, extra⟩ <;> rfl

/-- Whether a stored query has any ink can be computed. -/
theorem Widget.storesInk_iff (w : Widget) :
    w.StoresInk ↔ w.storedQuery.any Text.hasInk = true := by
  simp [Widget.StoresInk, Option.any_eq_true, Text.hasInk]

/-- A completed widget asks for the same data, whatever id it has got. -/
theorem Widget.asksAlike_complete (w : Widget) (ids : IdSupply) :
    w.AsksAlike (w.complete.run ids).1 := by
  -- nothing here depends on the id
  have hquery : (w.complete.run ids).1.query = w.query := w.query_completeParts
  have hcustom : (w.complete.run ids).1.hasCustomQuery =
      w.customFlag.getD (w.storedQuery.any Text.hasInk) := w.hasCustomQuery_completeParts
  exact {
    query := hquery
    rowLimit := w.rowLimit_completeParts
    statementText := fun t => by rw [hquery]
    checkedStatementText := fun t => by rw [hquery]
    storedQuery := w.storedQuery_completeParts
    hasCustomQuery_of_flag := fun flag hflag => by rw [hcustom, hflag, Option.getD_some]
    hasCustomQuery_of_no_flag := fun hflag => by
      rw [hcustom, hflag, Option.getD_none, w.storesInk_iff] }

/-- A migration of a structurally complete dashboard has the same widgets in the same places, and
each of them asks for the same data as before. -/
theorem migrate_builtin_keeps_queries (d : Dashboard) (ids : IdSupply)
    (hd : d.StructurallyComplete) (hids : ids.NonEmpty) :
    ∃ report ws, Work.runOn Catalogue.builtin.migrate ⟨d, ids⟩ = (.ok report, ws) ∧
      ∀ i j, Option.Rel Widget.AsksAlike (d.widgetAt? i j) (ws.dashboard.widgetAt? i j) := by
  obtain ⟨report, ws, hrun, _, _, hdash, _⟩ := runOn_migrate_builtin hd hids
  refine ⟨report, ws, hrun, fun i j => ?_⟩
  -- the version that is written makes no difference to the widgets
  have hwidget : ws.dashboard.widgetAt? i j = (d.complete.run ids).1.widgetAt? i j := by
    rw [hdash]
    rfl
  obtain ⟨ids', hcomplete⟩ := d.exists_widgetAt?_complete ids i j
  rw [hwidget, hcomplete]
  cases d.widgetAt? i j with
  | none => exact .none
  | some w => exact .some (w.asksAlike_complete ids')

/-- A widget with a query written by hand and no word on it: it is not offered for generation. -/
theorem migrate_builtin_keeps_queries_early :
    let d := (Dashboard.titled "d").addContainer (.ofWidgets [earlyWidget])
    d.StructurallyComplete ∧ sampleIds.NonEmpty ∧
      ∃ report ws w, Work.runOn Catalogue.builtin.migrate ⟨d, sampleIds⟩ = (.ok report, ws) ∧
        ws.dashboard.widgetAt? 0 0 = some w ∧ w.storedQuery = some "SELECT 1" ∧
        w.hasCustomQuery = true := by
  intro d
  have hd : d.StructurallyComplete := (checkStructure_eq_ok_iff true d).1 rfl
  obtain ⟨report, ws, hrun, hall⟩ := migrate_builtin_keeps_queries d sampleIds hd sampleIds_nonEmpty
  have hat : d.widgetAt? 0 0 = some earlyWidget := rfl
  have hrel := hall 0 0
  rw [hat] at hrel
  cases hw : ws.dashboard.widgetAt? 0 0 with
  | none => rw [hw] at hrel; exact nomatch hrel
  | some w =>
    rw [hw] at hrel
    cases hrel with
    | some hsame =>
      have hink : earlyWidget.StoresInk := earlyWidget.storesInk_iff.2 (by decide +kernel)
      exact ⟨hd, sampleIds_nonEmpty, report, ws, w, hrun, hw, hsame.storedQuery,
        (hsame.hasCustomQuery_of_no_flag rfl).2 hink⟩

end Dashboards
