import Dashboards.Proofs.Schema.Runs

/-!
# Outcomes of migrations

A migration by the history of the schema succeeds exactly on structurally complete dashboards, and
then leaves their completion.  On any other dashboard it fails with the path of the first hole and
touches nothing, whatever else the dashboard has or lacks.

The first version walks over widgets, so a hole is met before any update is made: either its check
comes to the hole, or it stops before at a widget that is not satisfied, and then its update looks
at the whole structure first.

## Key results

- `migrate_builtin_outcome`: when a migration succeeds, and what holds then and otherwise
- `migrate_builtin_eq_complete`: what a migration makes of a document
-/

namespace Dashboards

/-! ## Holes -/

/-- A migration that starts with a version about widgets fails at the first hole. -/
theorem runOn_migrate_of_firstHole (c : Catalogue) (rule : StepRule) {steps : List Step}
    (hc : c.steps = rule.step :: steps) (hdepth : rule.depth = .widgets) (ws : Workspace)
    {path : String} (h : ws.dashboard.FirstHole path) :
    Work.runOn c.migrate ws = (.error (.malformed path), ws) := by
  have hcheck : ws.dashboard.checkDepth rule.depth = .error (.malformed path) := by
    rw [hdepth]
    exact h.checkStructure_eq
  have hins := Work.runOn_inspect c.detect ws
  rw [Catalogue.detect, hc, detectIn] at hins
  rw [Catalogue.migrate, Work.runOn_bind_of_ok (Work.runOn_get ws)]
  cases hv : rule.step.verify ws.dashboard with
  | error e =>
    -- the check of the first version comes to the hole
    have he := rule.verify_error _ _ hv
    rw [hcheck] at he
    obtain rfl := Except.error.inj he
    rw [hv] at hins
    exact Work.runOn_bind_of_error hins
  | ok v =>
    cases v with
    | satisfied =>
      have hreach := ((rule.verify_eq_satisfied_iff _).1 hv).1
      rw [hdepth] at hreach
      exact absurd hreach h.not_structurallyComplete
    | missing field =>
      -- the check stops before the hole, and the update finds it
      have hu := rule.update_error ws _ hcheck
      rw [hv] at hins
      rw [Work.runOn_bind_of_ok hins, hc, applySteps]
      exact Work.runOn_bind_of_error
        (Work.runOn_bind_of_error (Step.runOn_apply_of_update_error hv hu))

/-- The first version of the history is about widgets. -/
theorem runOn_migrate_builtin_of_firstHole (ws : Workspace) {path : String}
    (h : ws.dashboard.FirstHole path) :
    Work.runOn Catalogue.builtin.migrate ws = (.error (.malformed path), ws) :=
  runOn_migrate_of_firstHole Catalogue.builtin
    (widgetStepRule 1 "widget datasource config" configRule) rfl rfl ws h

/-! ## Success -/

/-- Every step of the history does as a version of the history. -/
theorem isBuiltin_of_mem_builtin : ∀ s ∈ Catalogue.builtin.steps, s.IsBuiltin :=
  fun s hs => ⟨s, hs, rfl, rfl⟩

/-- A structurally complete dashboard is brought up to its completion. -/
theorem runOn_migrate_builtin {d : Dashboard} {ids : IdSupply} (hd : d.StructurallyComplete)
    (hids : ids.NonEmpty) :
    ∃ report ws, Work.runOn Catalogue.builtin.migrate ⟨d, ids⟩ = (.ok report, ws) ∧
      (∀ s ∈ schemaHistory, s.verify ws.dashboard = .ok .satisfied) ∧
      ws.dashboard.version = max d.version (some ⟨12⟩) ∧
      ws.dashboard = { (d.complete.run ids).1 with version := ws.dashboard.version } ∧
      ws.ids = (d.complete.run ids).2 := by
  obtain ⟨detected, applied, ws, hrun, hadv, hver, hsat⟩ :=
    runOn_migrate Catalogue.builtin isBuiltin_of_mem_builtin ⟨d, ids⟩ hd hids
  -- the run only advances the document, and in the end nothing is left for completion to do
  obtain ⟨hdash, hleft⟩ := hadv.dashboard_eq hd hids (Dashboard.has_of_satisfied hsat)
  exact ⟨_, ws, hrun, hsat, hver, hdash, hleft⟩

/-- A migration succeeds exactly on structurally complete dashboards.  Then all versions are
satisfied, and the later one of the stored version and the last is written.  Otherwise the first
hole is reported, the document and the supply stay as they are, and no update is ever said to be
incomplete. -/
theorem migrate_builtin_outcome (d : Dashboard) (ids : IdSupply) (hids : ids.NonEmpty) :
    ((∃ report ws, Work.runOn Catalogue.builtin.migrate ⟨d, ids⟩ = (.ok report, ws)) ↔
      d.StructurallyComplete) ∧
    (∀ report ws, Work.runOn Catalogue.builtin.migrate ⟨d, ids⟩ = (.ok report, ws) →
      (∀ s ∈ schemaHistory, s.verify ws.dashboard = .ok .satisfied) ∧
      Catalogue.builtin.isCurrent ws.dashboard = .ok true ∧
      Catalogue.builtin.detect ws.dashboard = .ok (some ⟨12⟩) ∧
      ws.dashboard.version = max d.version (some ⟨12⟩)) ∧
    (¬ d.StructurallyComplete → ∃ path, d.FirstHole path ∧
      Work.runOn Catalogue.builtin.migrate ⟨d, ids⟩ = (.error (.malformed path), ⟨d, ids⟩)) ∧
    ∀ version field ws,
      Work.runOn Catalogue.builtin.migrate ⟨d, ids⟩ ≠ (.error (.updateIncomplete version field), ws)
    := by
  -- the document has all lists or a first hole, which settles every part
  by_cases hd : d.StructurallyComplete
  · obtain ⟨report, ws, hrun, hsat, hver, _⟩ := runOn_migrate_builtin hd hids
    rw [hrun]
    refine ⟨⟨fun _ => hd, fun _ => ⟨report, ws, rfl⟩⟩, ?_, fun h => absurd hd h, ?_⟩
    · intro report' ws' heq
      obtain rfl := (Prod.mk.inj heq).2
      refine ⟨hsat, ?_, detectIn_of_satisfied (List.cons_ne_nil _ _) hsat none, hver⟩
      have hverify : Catalogue.builtin.verify ws.dashboard = .ok .satisfied :=
        verifySteps_of_satisfied hsat
      rw [Catalogue.isCurrent, hverify]
      rfl
    · intro version field ws' heq
      exact nomatch (Prod.mk.inj heq).1
  -- the first version is about widgets, so that it comes to every hole
  · obtain ⟨path, hpath⟩ := Dashboard.exists_firstHole hd
    rw [runOn_migrate_builtin_of_firstHole ⟨d, ids⟩ hpath]
    refine ⟨⟨?_, fun h => absurd h hd⟩, ?_, fun _ => ⟨path, hpath, rfl⟩, ?_⟩
    · rintro ⟨report, ws, heq⟩
      exact nomatch (Prod.mk.inj heq).1
    · intro report ws heq
      exact nomatch (Prod.mk.inj heq).1
    · intro version field ws heq
      exact nomatch (Prod.mk.inj heq).1

/-- A widget as early schemas have it: a query written by hand, and a word for a legend. -/
def earlyWidget : Widget where
  chart := some { options := some { legend := some (.string "top") } }
  datasource := some { query := some "SELECT 1" }

/-- A supply of two ids, the second of which is repeated. -/
def sampleIds : IdSupply
  | 0 => "first"
  | _ => "second"

/-- No id of the supply is empty. -/
theorem sampleIds_nonEmpty : sampleIds.NonEmpty := by
  intro n
  cases n with
  | zero => show "first" ≠ ""; decide
  | succ n => show "second" ≠ ""; decide

/-- A container without a grid, after one whose widget lacks nearly everything. -/
theorem migrate_builtin_outcome_of_missing_grid :
    sampleIds.NonEmpty ∧
      let d := (Dashboard.titled "d").addContainer (.ofWidgets [earlyWidget])
        |>.addContainer { title := some "broken" }
      Work.runOn Catalogue.builtin.migrate ⟨d, sampleIds⟩ =
        (.error (.malformed "children[1].container"), ⟨d, sampleIds⟩) := by
  refine ⟨sampleIds_nonEmpty, ?_⟩
  intro d
  have hcheck : d.checkStructure true = .error (.malformed "children[1].container") :=
    rfl
  have hd : ¬ d.StructurallyComplete := fun h => by
    rw [(checkStructure_eq_ok_iff true d).2 h] at hcheck
    exact nomatch hcheck
  obtain ⟨path, hpath, hrun⟩ := (migrate_builtin_outcome d sampleIds sampleIds_nonEmpty).2.2.1 hd
  rw [hpath.checkStructure_eq] at hcheck
  rw [hrun, Except.error.inj hcheck]

/-! ## Completion -/

/-- A migration of a structurally complete dashboard leaves its completion in one pass, with the
later one of the stored version and the last, and the ids that the pass leaves.  A legend that is an
object keeps all its members. -/
theorem migrate_builtin_eq_complete (d : Dashboard) (ids : IdSupply) (hd : d.StructurallyComplete)
    (hids : ids.NonEmpty) :
    (∃ report, Work.runOn Catalogue.builtin.migrate ⟨d, ids⟩ =
      (.ok report,
        ⟨{ (d.complete.run ids).1 with version := max d.version (some ⟨12⟩) },
          (d.complete.run ids).2⟩)) ∧
    ∀ ms, ∃ ms', normalizeLegend (.object ms) = .object ms' ∧ ms.Sublist ms' := by
  obtain ⟨report, ws, hrun, _, hver, hdash, hleft⟩ := runOn_migrate_builtin hd hids
  refine ⟨⟨report, ?_⟩, normalizeLegend_object⟩
  rw [hrun, ← hver, ← hdash, ← hleft]

/-- An early widget in a container without an id: all defaults, and two new ids. -/
theorem migrate_builtin_eq_complete_early :
    let d := { (Dashboard.titled "d").addContainer (.ofWidgets [earlyWidget]) with
      version := some ⟨3⟩ }
    d.StructurallyComplete ∧ sampleIds.NonEmpty ∧
      ∃ report ids, Work.runOn Catalogue.builtin.migrate ⟨d, sampleIds⟩ =
        (.ok report, ⟨{
          title := some "d"
          version := some ⟨12⟩
          params := some []
          children := some [{
            id := some "first"
            grid := some {
              flow := some "row"
              columns := some 1
              height := some 250
              children := some [{
                id := some "second"
                layout := some { columnSpan := some 1, rowSpan := some 1 }
                chart := some { options := some {
                  tooltip := some { isHtml := some true }
                  legend := some (.object [("position", .string "top")]) } }
                datasource := some {
                  query := some "SELECT 1"
                  customQuery := some true
                  kind := some "tabular"
                  config := some {
                    aggregations := some []
                    fieldFilters := some []
                    metadataFilters := some []
                    results := some { pivot := some false, showDate := some false }
                    filters := some [] } } }] } }] }, ids⟩) := by
  intro d
  have hd : d.StructurallyComplete := (checkStructure_eq_ok_iff true d).1 rfl
  obtain ⟨⟨report, hrun⟩, _⟩ := migrate_builtin_eq_complete d sampleIds hd sampleIds_nonEmpty
  refine ⟨hd, sampleIds_nonEmpty, report, (d.complete.run sampleIds).2, hrun.trans ?_⟩
  rfl

end Dashboards
