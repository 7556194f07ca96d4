import Dashboards.Proofs.Schema.Idempotence
import Dashboards.Proofs.Schema.Updates

/-!
# What a migration reports

A migration by the history of the schema checks each version on a document that earlier versions
have changed already.  Its report is true of the document as it was all the same: no update puts in
anything that a later version asks for (`schemaRules_apart`), so each version is found satisfied or
not as it was at first.

## Key results

- `runOn_applySteps_rules`: the versions whose updates are made are those that were not satisfied
- `migrate_builtin_report`: the report of a migration
-/

namespace Dashboards

/-! ## Versions that do not interfere -/

/-- The update of a version puts in nothing that another one asks for. -/
def StepRule.Apart (rule later : StepRule) : Prop := ∀ p ∈ rule.adds, p ∉ later.needs

instance (rule later : StepRule) : Decidable (rule.Apart later) := by
  unfold StepRule.Apart; infer_instance

/-- No version puts in anything that a later one asks for. -/
theorem schemaRules_apart : schemaRules.Pairwise StepRule.Apart := by decide

/-- An update makes no difference to whether a version is satisfied that it is apart from. -/
theorem StepRule.Apart.verify_effect_iff {rule later : StepRule} (h : rule.Apart later)
    {ws : Workspace} (hd : ws.dashboard.StructurallyComplete) (hids : ws.ids.NonEmpty) :
    later.step.verify (rule.effect ws).dashboard = .ok .satisfied ↔
      later.step.verify ws.dashboard = .ok .satisfied := by
  have hd' : (rule.effect ws).dashboard.StructurallyComplete := rule.reaches_effect ws .widgets hd
  have hparts : ∀ p ∈ later.needs, (rule.effect ws).dashboard.Has p ↔ ws.dashboard.Has p := by
    intro p hp
    rw [rule.has_effect ws p hids]
    exact or_iff_left fun hadds => h p hadds hp
  rw [later.verify_eq_satisfied_iff, later.verify_eq_satisfied_iff]
  constructor
  · intro ⟨_, hall⟩
    exact ⟨hd.reaches _, fun p hp => (hparts p hp).1 (hall p hp)⟩
  · intro ⟨_, hall⟩
    exact ⟨hd'.reaches _, fun p hp => (hparts p hp).2 (hall p hp)⟩

/-- A run of versions, none of which puts in what a later one asks for, makes the updates of exactly
those that the document does not satisfy at first. -/
theorem runOn_applySteps_rules {rules : List StepRule} (hapart : rules.Pairwise StepRule.Apart)
    {ws : Workspace} (hd : ws.dashboard.StructurallyComplete) (hids : ws.ids.NonEmpty) :
    ∃ applied ws', Work.runOn (applySteps (rules.map (·.step))) ws = (.ok applied, ws') ∧
      ∀ v, v ∈ applied ↔ ∃ rule ∈ rules, rule.step.version = v ∧
        rule.step.verify ws.dashboard ≠ .ok .satisfied := by
  induction rules generalizing ws with
  | nil => exact ⟨[], ws, rfl, by simp⟩
  | cons rule rules ih =>
    obtain ⟨hrule, hrules⟩ := List.pairwise_cons.1 hapart
    rw [List.map_cons]
    cases hv : rule.step.verify ws.dashboard with
    | error e =>
      -- a check fails only for a hole
      have he := rule.verify_error _ _ hv
      rw [(ws.dashboard.checkDepth_eq_ok_iff rule.depth).2 (hd.reaches _)] at he
      cases he
    | ok v =>
      cases v with
      | satisfied =>
        obtain ⟨applied, ws', hrun, hmem⟩ := ih hrules hd hids
        refine ⟨applied, ws', runOn_applySteps_cons (Step.runOn_apply_of_satisfied hv) hrun,
          fun v => ?_⟩
        simp [hmem, hv]
      | missing path =>
        obtain ⟨hrun, -⟩ := rule.runOn_apply_of_missing ⟨rfl, rfl⟩ hv (hd.reaches _) hids
        obtain ⟨applied, ws', hrun', hmem⟩ :=
          ih hrules (rule.reaches_effect ws .widgets hd) (rule.nonEmpty_effect ws hids)
        refine ⟨rule.step.version :: applied, ws', runOn_applySteps_cons hrun hrun', fun v => ?_⟩
        -- the later versions are found as they were before this update
        have hlater : ∀ later ∈ rules,
            later.step.verify (rule.effect ws).dashboard = .ok .satisfied ↔
              later.step.verify ws.dashboard = .ok .satisfied :=
          fun later hl => (hrule later hl).verify_effect_iff hd hids
        have hmissing : rule.step.verify ws.dashboard ≠ .ok .satisfied := by
          rw [hv]
          intro h
          cases h
        rw [List.mem_cons, hmem, List.exists_mem_cons_iff]
        refine or_congr ⟨fun h => ⟨h.symm, hmissing⟩, fun h => h.1.symm⟩ ?_
        exact exists_congr fun later => and_congr_right fun hl =>
          and_congr_right fun _ => not_congr (hlater later hl)

/-! ## The report -/

/-- The version just below another one; there is none below the first. -/
def Version.predecessor? (v : Version) : Option Version :=
  if v.number = 1 then none else some ⟨v.number - 1⟩

/-- Wherever the history is cut in two, the version before the cut is just below the one after
it. -/
theorem getLast?_version_of_schemaHistory_eq {before after : List Step}
    (h : schemaHistory = before ++ after) :
    before.getLast?.map (·.version) =
      match after.head?.map (·.version) with
      | none => some ⟨12⟩
      | some v => v.predecessor? := by
  have hcut : ∀ k ≤ 12, (schemaHistory.take k).getLast?.map (·.version) =
      match (schemaHistory.drop k).head?.map (·.version) with
      | none => some ⟨12⟩
      | some v => v.predecessor? := by decide
  have hlength : before.length ≤ 12 := by
    have : before.length + after.length = 12 := by
      rw [← List.length_append, ← h]
      rfl
    omega
  have hsplit := hcut before.length hlength
  rwa [h, List.take_left, List.drop_left] at hsplit

/-- The version that is written is the stored one iff there is one that is not before the last. -/
theorem Catalogue.some_finalVersion_eq_iff (c : Catalogue) (stored : Option Version) :
    some (c.finalVersion stored) = stored ↔ ∃ v, stored = some v ∧ ¬ v < c.latest := by
  cases stored with
  | none => simp
  | some v =>
    simp only [Catalogue.finalVersion, Option.some.injEq, exists_eq_left']
    split
    next h => exact ⟨fun _ => UInt32.not_lt.2 (UInt32.le_of_lt h), fun _ => rfl⟩
    next h =>
      constructor
      · rintro rfl
        exact UInt32.lt_irrefl _
      · intro h'
        exact congrArg Version.mk (UInt32.le_antisymm (UInt32.not_lt.1 h') (UInt32.not_lt.1 h))

/-- A report tells of a change iff an update was made or another version was written. -/
theorem MigrationReport.changed_eq_false_iff (r : MigrationReport) :
    r.changed = false ↔ r.applied = [] ∧ ∃ v, r.stored = some v ∧ ¬ v < r.current := by
  unfold MigrationReport.changed
  cases r.stored with
  | none => simp
  | some v => simp

/-- A migration by steps of the history reports a change iff the document is another one. -/
theorem changed_iff_of_migrate {c : Catalogue} (hc : ∀ s ∈ c.steps, s.IsBuiltin)
    {ws ws' : Workspace} (hids : ws.ids.NonEmpty) {report : MigrationReport}
    (h : Work.runOn c.migrate ws = (.ok report, ws')) :
    report.changed = true ↔ ws'.dashboard ≠ ws.dashboard := by
  obtain ⟨ws₁, -, hrun, hws', hstored, hcurrent⟩ := c.runOn_migrate_eq_ok h
  obtain ⟨hdev, -⟩ := runOn_applySteps_eq_ok c.steps hc hids hrun
  have hdash : ws'.dashboard =
      { ws₁.dashboard with version := some (c.finalVersion ws.dashboard.version) } := by
    rw [hws', c.writeVersion_of_stored hdev.version_eq]
  rw [← not_iff_not, Bool.not_eq_true, report.changed_eq_false_iff, hstored, hcurrent,
    ← c.some_finalVersion_eq_iff, not_not]
  constructor
  · rintro ⟨happlied, hversion⟩
    -- a run that tells of no update has made none
    obtain ⟨done, -, hdone, hupdates⟩ := exists_updateAll_of_applySteps hrun
    rw [happlied, eq_comm, List.map_eq_nil_iff] at hdone
    rw [hdone] at hupdates
    obtain rfl := (Prod.mk.inj hupdates).2
    rw [hdash, hversion]
  · intro hsame
    -- a document that was not changed satisfied all steps from the beginning
    obtain ⟨-, -, -, hsat⟩ := runOn_migrate_eq_ok hc hids h
    rw [hsame] at hsat
    rw [runOn_applySteps_of_satisfied hsat] at hrun
    refine ⟨(Except.ok.inj (Prod.mk.inj hrun).1).symm, ?_⟩
    rw [hsame] at hdash
    exact (congrArg Dashboard.version hdash).symm

/-- The report of a migration of a structurally complete dashboard is true of the dashboard as it
was.  It gives exactly the versions that were not satisfied, in ascending order, and the version
just below the first of them as the one detected; it gives the stored version; and it tells of a
change iff there is a difference. -/
theorem migrate_builtin_report (d : Dashboard) (ids : IdSupply) (hd : d.StructurallyComplete)
    (hids : ids.NonEmpty) :
    ∃ report ws, Work.runOn Catalogue.builtin.migrate ⟨d, ids⟩ = (.ok report, ws) ∧
      report.applied.Pairwise (· < ·) ∧
      (∀ v, v ∈ report.applied ↔
        ∃ s ∈ schemaHistory, s.version = v ∧ s.verify d ≠ .ok .satisfied) ∧
      (report.detected = match report.applied.head? with
        | none => some ⟨12⟩
        | some v => v.predecessor?) ∧
      report.stored = d.version ∧
      (report.changed = true ↔ ws.dashboard ≠ d) := by
  obtain ⟨report, ws, hrun, -⟩ := runOn_migrate_builtin hd hids
  obtain ⟨ws₁, hdetect, happlied, -, hstored, -⟩ := Catalogue.builtin.runOn_migrate_eq_ok hrun
  refine ⟨report, ws, hrun, ?_, ?_, ?_, hstored,
    changed_iff_of_migrate isBuiltin_of_mem_builtin hids hrun⟩
  · obtain ⟨done, hsub, hdone, -⟩ := exists_updateAll_of_applySteps happlied
    rw [hdone]
    exact List.pairwise_map.2 (Catalogue.builtin.ascending.sublist hsub)
  -- no version puts in what a later one asks for, so those with updates are known before the run
  · have hstart : (Workspace.mk d ids).dashboard.StructurallyComplete := hd
    obtain ⟨applied, ws₂, hrules, hmem⟩ := runOn_applySteps_rules schemaRules_apart hstart hids
    have hsteps : Catalogue.builtin.steps = schemaRules.map (·.step) := map_step_schemaRules.symm
    rw [hsteps, hrules] at happlied
    obtain rfl := Except.ok.inj (Prod.mk.inj happlied).1
    intro v
    rw [hmem, ← map_step_schemaRules]
    simp only [List.mem_map, exists_exists_and_eq_and]
  -- the detection stops where the run makes its first update
  · obtain ⟨before, after, done, hcut, hdetected, -, -, hhead, -⟩ :=
      exists_split_of_migrate hdetect happlied
    rw [hdetected, hhead]
    exact getLast?_version_of_schemaHistory_eq hcut

/-- The early document: the stored version is late, and all versions are applied but the third,
which asks for options of the chart. -/
theorem migrate_builtin_report_early :
    let d := { (Dashboard.titled "d").addContainer (.ofWidgets [earlyWidget]) with
      version := some ⟨12⟩ }
    d.StructurallyComplete ∧ sampleIds.NonEmpty ∧
      ∃ report ws, Work.runOn Catalogue.builtin.migrate ⟨d, sampleIds⟩ = (.ok report, ws) ∧
        ⟨1⟩ ∈ report.applied ∧ ⟨3⟩ ∉ report.applied ∧ report.stored = some ⟨12⟩ ∧
        (report.changed = true ↔ ws.dashboard ≠ d) := by
  intro d
  have hd : d.StructurallyComplete := (checkStructure_eq_ok_iff true d).1 rfl
  obtain ⟨report, ws, hrun, -, hmem, -, hstored, hchanged⟩ :=
    migrate_builtin_report d sampleIds hd sampleIds_nonEmpty
  refine ⟨hd, sampleIds_nonEmpty, report, ws, hrun, ?_, ?_, hstored, hchanged⟩
  · exact (hmem ⟨1⟩).2 ⟨_, List.mem_cons_self, rfl, fun h => (nomatch h)⟩
  · intro h
    obtain ⟨s, hs, hversion, hv⟩ := (hmem ⟨3⟩).1 h
    have hthird : ∀ s ∈ schemaHistory, s.version = ⟨3⟩ → s.verify d = .ok .satisfied := by
      decide
    exact hv (hthird s hs hversion)

end Dashboards
