import Dashboards.Proofs.Schema.RoundTrip

/-!
# Migrating twice

A document that has been migrated by steps of the history is left as it is by the same migration:
all steps are satisfied, so that no update is made, and the version that is written is not before
the last.  For a raw document it matters as well that what was encoded is decoded as the same
dashboard.  The document need not be structurally complete, since a catalogue may have no version
about widgets.

So a run that succeeds is looked at for what it has done (`Workspace.Develops`): it has made updates
one after the other.

## Key results

- `runOn_applySteps_eq_ok`: what a run of steps has done if it succeeds
- `runOn_migrate_of_satisfied`: a migration of a document that satisfies all steps
- `migrateValue_idempotent`: a second migration of a raw document finds nothing to do
-/

namespace Dashboards

open Json (Value)

/-! ## Runs that succeed -/

/-- A workspace comes about from another one by updates of versions, one after the other. -/
inductive Workspace.Develops : Workspace → Workspace → Prop
  | refl (ws : Workspace) : Develops ws ws
  | update {rule : StepRule} (hrule : rule ∈ schemaRules) {ws ws' : Workspace}
      (h : Develops (rule.effect ws) ws') : Develops ws ws'

namespace Workspace.Develops

variable {ws ws' : Workspace}

/-- Developments one after the other are one development. -/
theorem trans {ws'' : Workspace} (h : ws.Develops ws') (h' : ws'.Develops ws'') :
    ws.Develops ws'' := by
  induction h with
  | refl => exact h'
  | update hrule _ ih => exact .update hrule (ih h')

/-- Updates advance a document. -/
theorem advances (h : ws.Develops ws') (hids : ws.ids.NonEmpty) : ws.Advances ws' := by
  induction h with
  | refl ws => exact .refl ws
  | @update rule _ ws _ _ ih =>
    exact (Advances.effect rule hids).trans (ih (rule.nonEmpty_effect ws hids))

/-- Updates leave the version of a document alone. -/
theorem version_eq (h : ws.Develops ws') : ws'.dashboard.version = ws.dashboard.version := by
  induction h with
  | refl => rfl
  | @update rule _ ws _ _ ih => exact ih.trans (rule.version_effect ws)

/-- Updates leave a dashboard so that it is read back. -/
theorem returns (h : ws.Develops ws') (hws : Dashboard.codec.Returns ws.dashboard) :
    Dashboard.codec.Returns ws'.dashboard := by
  induction h with
  | refl => exact hws
  | update hrule _ ih => exact ih (StepRule.returns_effect _ hrule _ hws)

end Workspace.Develops

/-- A step that succeeds has made its update, or none, and is satisfied then. -/
theorem runOn_apply_eq_ok {s : Step} (hs : s.IsBuiltin) {ws ws' : Workspace} {updated : Bool}
    (hids : ws.ids.NonEmpty) (h : Work.runOn s.apply ws = (.ok updated, ws')) :
    ws.Develops ws' ∧ s.verify ws'.dashboard = .ok .satisfied := by
  obtain ⟨rule, hrule, hdoes⟩ := hs.exists_rule
  cases hv : s.verify ws.dashboard with
  | error e =>
    rw [Step.runOn_apply_of_error hv] at h
    exact nomatch (Prod.mk.inj h).1
  | ok v =>
    cases v with
    | satisfied =>
      rw [Step.runOn_apply_of_satisfied hv] at h
      obtain rfl := (Prod.mk.inj h).2
      exact ⟨.refl ws, hv⟩
    | missing path =>
      -- the update succeeds only if it gets through the document
      cases hcheck : ws.dashboard.checkDepth rule.depth with
      | error e =>
        have hu := rule.update_error ws e hcheck
        rw [← hdoes.2] at hu
        rw [Step.runOn_apply_of_update_error hv hu] at h
        exact nomatch (Prod.mk.inj h).1
      | ok _ =>
        have hreach := (ws.dashboard.checkDepth_eq_ok_iff rule.depth).1 hcheck
        obtain ⟨hrun, hsat⟩ := rule.runOn_apply_of_missing hdoes hv hreach hids
        rw [hrun] at h
        obtain rfl := (Prod.mk.inj h).2
        exact ⟨.update hrule (.refl _), hsat⟩

/-- A run of steps that succeeds has made updates, and all its steps are satisfied then. -/
theorem runOn_applySteps_eq_ok (steps : List Step) (hs : ∀ s ∈ steps, s.IsBuiltin)
    {ws ws' : Workspace} {applied : List Version} (hids : ws.ids.NonEmpty)
    (h : Work.runOn (applySteps steps) ws = (.ok applied, ws')) :
    ws.Develops ws' ∧ ∀ s ∈ steps, s.verify ws'.dashboard = .ok .satisfied := by
  induction steps generalizing ws applied with
  | nil =>
    obtain rfl := (Prod.mk.inj h).2
    exact ⟨.refl ws, fun s hs => (nomatch hs)⟩
  | cons s steps ih =>
    rw [List.forall_mem_cons] at hs
    obtain ⟨updated, ws₁, rest, hrun₁, hrun₂, -⟩ := runOn_applySteps_cons_eq_ok h
    obtain ⟨hdev₁, hsat₁⟩ := runOn_apply_eq_ok hs.1 hids hrun₁
    have hids₁ := (hdev₁.advances hids).nonEmpty hids
    obtain ⟨hdev₂, hsat₂⟩ := ih hs.2 hids₁ hrun₂
    -- the later steps take away nothing of what this one has put in
    have hsat := hs.1.verify_of_advances (hdev₂.advances hids₁) hsat₁
    exact ⟨hdev₁.trans hdev₂, List.forall_mem_cons.2 ⟨hsat, hsat₂⟩⟩

/-! ## Migrations that succeed -/

/-- The version that is written is not before the last. -/
theorem Catalogue.not_finalVersion_lt (c : Catalogue) (stored : Option Version) :
    ¬ c.finalVersion stored < c.latest := by
  have hlatest : ¬ c.latest < c.latest := UInt32.lt_irrefl _
  cases stored with
  | none => exact hlatest
  | some v =>
    rw [Catalogue.finalVersion]
    split
    next h => exact UInt32.not_lt.2 (UInt32.le_of_lt h)
    next => exact hlatest

/-- A version that is not before the last is written again. -/
theorem Catalogue.finalVersion_finalVersion (c : Catalogue) (stored : Option Version) :
    c.finalVersion (some (c.finalVersion stored)) = c.finalVersion stored := by
  cases stored with
  | none => exact ite_self _
  | some v =>
    by_cases h : c.latest < v
    · simp only [Catalogue.finalVersion, if_pos h]
    · simp only [Catalogue.finalVersion, if_neg h]
      exact ite_self _

/-- A migration that succeeds has made updates and written the version, and all steps are satisfied
then. -/
theorem runOn_migrate_eq_ok {c : Catalogue} (hc : ∀ s ∈ c.steps, s.IsBuiltin)
    {ws ws' : Workspace} {report : MigrationReport} (hids : ws.ids.NonEmpty)
    (h : Work.runOn c.migrate ws = (.ok report, ws')) :
    ∃ ws₁, ws.Develops ws₁ ∧
      ws'.dashboard =
        { ws₁.dashboard with version := some (c.finalVersion ws.dashboard.version) } ∧
      ∀ s ∈ c.steps, s.verify ws'.dashboard = .ok .satisfied := by
  obtain ⟨ws₁, -, hrun, rfl, -, -⟩ := c.runOn_migrate_eq_ok h
  obtain ⟨hdev, hsat⟩ := runOn_applySteps_eq_ok c.steps hc hids hrun
  rw [c.writeVersion_of_stored hdev.version_eq]
  -- no check looks at the version that is written
  have hset := Workspace.Advances.withVersion ws₁ (some (c.finalVersion ws.dashboard.version))
  exact ⟨ws₁, hdev, rfl, fun s hs => (hc s hs).verify_of_advances hset (hsat s hs)⟩

/-! ## Nothing to do -/

/-- Steps that are satisfied make no update. -/
theorem runOn_applySteps_of_satisfied {steps : List Step} {ws : Workspace}
    (h : ∀ s ∈ steps, s.verify ws.dashboard = .ok .satisfied) :
    Work.runOn (applySteps steps) ws = (.ok [], ws) := by
  induction steps with
  | nil => rfl
  | cons s steps ih =>
    rw [List.forall_mem_cons] at h
    exact runOn_applySteps_cons (Step.runOn_apply_of_satisfied h.1) (ih h.2)

/-- A document that satisfies all steps and has a version that is not before the last is left as it
is. -/
theorem runOn_migrate_of_satisfied {c : Catalogue} {ws : Workspace} {version : Version}
    (hsat : ∀ s ∈ c.steps, s.verify ws.dashboard = .ok .satisfied)
    (hversion : ws.dashboard.version = some version)
    (hfinal : c.finalVersion (some version) = version) :
    Work.runOn c.migrate ws = (.ok ⟨some version, some c.latest, c.latest, []⟩, ws) := by
  have hdetect : c.detect ws.dashboard = .ok (some c.latest) :=
    detectIn_of_satisfied c.nonempty hsat none
  have hinspect := Work.runOn_inspect c.detect ws
  rw [hdetect] at hinspect
  rw [Catalogue.migrate, Work.runOn_bind_of_ok (Work.runOn_get ws),
    Work.runOn_bind_of_ok hinspect, Work.runOn_bind_of_ok (runOn_applySteps_of_satisfied hsat),
    Work.runOn_bind_of_ok (Work.runOn_change _ ws), hversion, Catalogue.writeVersion, hfinal,
    if_pos rfl]
  rfl

/-! ## Raw documents -/

/-- What a migration of a raw document that succeeds has encoded: a dashboard that is read back and
satisfies all steps, with the later one of the stored version and the last. -/
theorem migrateValue_eq_ok {c : Catalogue} (hc : ∀ s ∈ c.steps, s.IsBuiltin) {ids : IdSupply}
    (hids : ids.NonEmpty) {v w : Value} {report : MigrationReport}
    (h : c.migrateValue ids v = .ok (w, report)) :
    ∃ d : Dashboard, w = Dashboard.codec.toValue d ∧ Dashboard.codec.Returns d ∧
      (∀ s ∈ c.steps, s.verify d = .ok .satisfied) ∧
      ∃ stored, d.version = some (c.finalVersion stored) := by
  rw [Catalogue.migrateValue] at h
  cases hd : Dashboard.codec.ofValue v with
  | error p => rw [hd] at h; cases h
  | ok d =>
    rw [hd] at h
    have hrun : c.migrate.run.run ⟨d, ids⟩ = Work.runOn c.migrate ⟨d, ids⟩ := rfl
    simp only [hrun] at h
    split at h
    next => cases h
    next report' ws hok =>
      obtain rfl := (Prod.mk.inj (Except.ok.inj h)).1
      obtain ⟨ws₁, hdev, hdash, hsat⟩ := runOn_migrate_eq_ok hc hids hok
      -- what was decoded is read back, and so is what comes of it
      have hreturns : Dashboard.codec.Returns d :=
        Dashboard.faithful_shape.codec v.sorted d v.isSorted_sorted hd
      refine ⟨ws.dashboard, rfl, ?_, hsat, d.version, by rw [hdash]⟩
      rw [hdash]
      exact Dashboard.returns_withVersion (hdev.returns hreturns) _

/-- The version of a dashboard is found in its value. -/
theorem Dashboard.get?_version_toValue {d : Dashboard} (hd : Dashboard.codec.Returns d)
    {version : Version} (hversion : d.version = some version) :
    (Dashboard.codec.toValue d).get? "version" = some (.string version.text) := by
  obtain ⟨hown, -⟩ := faithful_shape.returns_iff.1 hd
  have hnodup := (Value.isSorted_object_iff.1 hown.1).1.nodup_keys
  obtain ⟨ms, hms, hwritten, -⟩ := lawful_shape.separate.get?_toValue hnodup hown.2
  have hmember : ms.get? "version" = (d.version.map Version.codec.write).map Value.sorted :=
    hwritten _ (.tail _ (.tail _ (.head _)))
  have hvalue : Dashboard.codec.toValue d = .object ms := hms
  rw [hvalue, Value.get?, hmember, hversion]
  rfl

/-- A migration of a migrated raw document, by the same steps of the history in whatever order and
with whatever ids at hand, gives the same value, makes no update, finds the latest version, and
reports no change. -/
theorem migrateValue_idempotent (c : Catalogue) (hc : ∀ s ∈ c.steps, s.IsBuiltin)
    (ids ids' : IdSupply) (hids : ids.NonEmpty) (v w : Value) (report : MigrationReport)
    (h : c.migrateValue ids v = .ok (w, report)) :
    ∃ version report', w.get? "version" = some (.string version.text) ∧
      c.migrateValue ids' w = .ok (w, report') ∧
      report'.stored = some version ∧ report'.detected = some c.latest ∧
      report'.applied = [] ∧ report'.changed = false := by
  obtain ⟨d, rfl, hreturns, hsat, stored, hversion⟩ := migrateValue_eq_ok hc hids h
  have hdecoded : Dashboard.codec.ofValue (Dashboard.codec.toValue d) = .ok d :=
    hreturns.ofValue_toValue
  -- all steps are satisfied and the version is final, so that another run does nothing
  have hrun : Work.runOn c.migrate ⟨d, ids'⟩ =
      (.ok ⟨some (c.finalVersion stored), some c.latest, c.latest, []⟩, ⟨d, ids'⟩) :=
    runOn_migrate_of_satisfied hsat hversion (c.finalVersion_finalVersion stored)
  rw [Work.runOn] at hrun
  have hagain : c.migrateValue ids' (Dashboard.codec.toValue d) = .ok (Dashboard.codec.toValue d,
      ⟨some (c.finalVersion stored), some c.latest, c.latest, []⟩) := by
    simp only [Catalogue.migrateValue, hdecoded, hrun]
  have hchanged : decide (c.finalVersion stored < c.latest) = false :=
    decide_eq_false (c.not_finalVersion_lt stored)
  exact ⟨c.finalVersion stored, _, Dashboard.get?_version_toValue hreturns hversion, hagain, rfl,
    rfl, rfl, hchanged⟩

/-- The early document, migrated twice with different ids at hand. -/
theorem migrateValue_idempotent_early :
    (∀ s ∈ Catalogue.builtin.steps, s.IsBuiltin) ∧ sampleIds.NonEmpty ∧ ∃ w report report',
      Catalogue.builtin.migrateValue sampleIds rawEarly = .ok (w, report) ∧
      Catalogue.builtin.migrateValue (fun _ => "third") w = .ok (w, report') ∧
      report'.applied = [] ∧ report'.changed = false := by
  have hok : (Catalogue.builtin.migrateValue sampleIds rawEarly).isOk = true := by decide +kernel
  cases h : Catalogue.builtin.migrateValue sampleIds rawEarly with
  | error e => rw [h] at hok; exact nomatch hok
  | ok r =>
    obtain ⟨w, report⟩ := r
    obtain ⟨_, report', _, hagain, _, _, happlied, hchanged⟩ :=
      migrateValue_idempotent Catalogue.builtin isBuiltin_of_mem_builtin sampleIds
        (fun _ => "third") sampleIds_nonEmpty rawEarly w report h
    exact ⟨isBuiltin_of_mem_builtin, sampleIds_nonEmpty, w, report, report', rfl, hagain, happlied,
      hchanged⟩

end Dashboards
