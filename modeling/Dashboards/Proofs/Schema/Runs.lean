import Dashboards.Proofs.Schema.Steps

/-!
# Runs of steps

What one step brings about is brought about by any run of steps, whatever their order: parts are put
in and none is taken away, and the completion of the document stays the same (`Advances`).  So after
a run that has every version in it there is nothing left to complete, and the document is the
completion of what it was.

## Key results

- `runOn_apply`: one step succeeds, advances the document, and is satisfied then
- `runOn_applySteps`: so does a run of steps, with all of them satisfied in the end
- `Workspace.Advances.dashboard_eq`: a document that has all parts is the completion of every
  document that it advances
- `runOn_migrate`: what a migration does
-/

namespace Dashboards

/-! ## Versions -/

instance : Max Version := maxOfLe

/-- The version written after a migration is the later one. -/
theorem Catalogue.some_finalVersion (c : Catalogue) (stored : Option Version) :
    some (c.finalVersion stored) = max stored (some c.latest) := by
  cases stored with
  | none => rfl
  | some v =>
    rw [Option.max_some_some]
    show some (if c.latest < v then v else c.latest) = some (if v ≤ c.latest then c.latest else v)
    by_cases h : c.latest < v
    · have hle : ¬ v ≤ c.latest := UInt32.not_le.2 h
      rw [if_pos h, if_neg hle]
    · have hle : v ≤ c.latest := UInt32.not_lt.1 h
      rw [if_neg h, if_pos hle]

/-- A document that still has its stored version gets the later one of this and the latest. -/
theorem Catalogue.writeVersion_of_stored (c : Catalogue) {stored : Option Version} {d : Dashboard}
    (h : d.version = stored) :
    c.writeVersion stored d = { d with version := some (c.finalVersion stored) } := by
  rw [Catalogue.writeVersion]
  split
  next hsame =>
    -- nothing is written, and what would be written is there already
    rw [← hsame, ← h]
  next => rfl

/-- Nothing but the version is written. -/
theorem Catalogue.writeVersion_eq (c : Catalogue) (stored : Option Version) (d : Dashboard) :
    c.writeVersion stored d = { d with version := (c.writeVersion stored d).version } := by
  rw [Catalogue.writeVersion]
  split <;> rfl

/-! ## Completion and versions -/

/-- Completion keeps the version, and no other part of it depends on the version. -/
theorem Dashboard.complete_version (d : Dashboard) (v : Option Version) :
    ({ d with version := v } : Dashboard).complete =
      (fun d' : Dashboard => { d' with version := v }) <$> d.complete := by
  simp [Dashboard.complete]

/-- Completion keeps the version. -/
theorem Workspace.version_complete (ws : Workspace) :
    ws.complete.1.version = ws.dashboard.version := by
  rcases ws with ⟨⟨did, title, version, params, _ | cs, extra⟩, ids⟩ <;> rfl

/-- A document that has all parts is complete, and takes no ids. -/
theorem Workspace.complete_of_has {ws : Workspace} (h : ∀ p, ws.dashboard.Has p) :
    ws.complete = (ws.dashboard, ws.ids) := by
  have hids := ws.dashboard.hasIds_iff.2 ⟨h _, h _⟩
  rw [Workspace.complete, Dashboard.complete_of_hasIds hids, Dashboard.completeParts_of_has h]
  rfl

/-! ## What runs keep -/

/-- What every run of steps keeps: lists that walks need, parts, a supply without empty ids, and the
completion of the document, but for its version. -/
structure Workspace.Advances (ws ws' : Workspace) : Prop where
  reaches : ∀ k, ws.dashboard.Reaches k → ws'.dashboard.Reaches k
  has : ∀ p, ws.dashboard.Has p → ws'.dashboard.Has p
  nonEmpty : ws.ids.NonEmpty → ws'.ids.NonEmpty
  -- ids that were given out already are the ones that completion would give out
  complete : ws.dashboard.StructurallyComplete → ws.ids.NonEmpty →
    ws'.complete = ({ ws.complete.1 with version := ws'.dashboard.version }, ws.complete.2)

namespace Workspace.Advances

/-- A document advances to itself. -/
theorem refl (ws : Workspace) : ws.Advances ws where
  reaches _ h := h
  has _ h := h
  nonEmpty h := h
  complete _ _ := by rw [← ws.version_complete]

/-- Advances one after the other are one advance. -/
theorem trans {ws₁ ws₂ ws₃ : Workspace} (h₁₂ : ws₁.Advances ws₂) (h₂₃ : ws₂.Advances ws₃) :
    ws₁.Advances ws₃ where
  reaches k h := h₂₃.reaches k (h₁₂.reaches k h)
  has p h := h₂₃.has p (h₁₂.has p h)
  nonEmpty h := h₂₃.nonEmpty (h₁₂.nonEmpty h)
  complete h hids := by
    rw [h₂₃.complete (h₁₂.reaches .widgets h) (h₁₂.nonEmpty hids), h₁₂.complete h hids]

/-- Writing a version advances a document. -/
theorem withVersion (ws : Workspace) (v : Option Version) :
    ws.Advances { ws with dashboard := { ws.dashboard with version := v } } where
  reaches k h := by cases k <;> exact h
  has p h := by cases p <;> exact h
  nonEmpty h := h
  complete _ _ := by
    simp only [Workspace.complete, Dashboard.complete_version, StateT.run_map]
    rfl

/-- The update of a version advances a document. -/
theorem effect (rule : StepRule) {ws : Workspace} (hids : ws.ids.NonEmpty) :
    ws.Advances (rule.effect ws) where
  reaches k h := rule.reaches_effect ws k h
  has p h := (rule.has_effect ws p hids).2 (.inl h)
  nonEmpty h := rule.nonEmpty_effect ws h
  complete h _ := by
    rw [rule.complete_effect ws h hids, rule.version_effect, ← ws.version_complete]

/-- A document that has all parts is the completion of every document that it advances. -/
theorem dashboard_eq {ws ws' : Workspace} (h : ws.Advances ws')
    (hd : ws.dashboard.StructurallyComplete) (hids : ws.ids.NonEmpty)
    (hall : ∀ p, ws'.dashboard.Has p) :
    ws'.dashboard = { ws.complete.1 with version := ws'.dashboard.version } ∧
      ws'.ids = ws.complete.2 := by
  have hc := h.complete hd hids
  rw [Workspace.complete_of_has hall] at hc
  exact Prod.mk.inj hc

end Workspace.Advances

/-! ## Steps of the history under any number -/

/-- A step does the same as another, maybe under another number. -/
def Step.DoesAs (s t : Step) : Prop := s.verify = t.verify ∧ s.update = t.update

/-- A step does the same as a version of the history. -/
def Step.IsBuiltin (s : Step) : Prop := ∃ t ∈ schemaHistory, s.DoesAs t

/-- A step of the history obeys the laws of a version. -/
theorem Step.IsBuiltin.exists_rule {s : Step} (h : s.IsBuiltin) :
    ∃ rule ∈ schemaRules, s.DoesAs rule.step := by
  obtain ⟨t, ht, hst⟩ := h
  rw [← map_step_schemaRules] at ht
  obtain ⟨rule, hr, rfl⟩ := List.mem_map.1 ht
  exact ⟨rule, hr, hst⟩

/-- A step that is satisfied stays so while the document advances. -/
theorem Step.IsBuiltin.verify_of_advances {s : Step} (hs : s.IsBuiltin) {ws ws' : Workspace}
    (h : ws.Advances ws') (hv : s.verify ws.dashboard = .ok .satisfied) :
    s.verify ws'.dashboard = .ok .satisfied := by
  obtain ⟨rule, _, hverify, _⟩ := hs.exists_rule
  rw [hverify] at hv ⊢
  -- the check asks for lists and parts, which the document keeps
  rw [rule.verify_eq_satisfied_iff] at hv ⊢
  exact ⟨h.reaches _ hv.1, fun p hp => h.has p (hv.2 p hp)⟩

/-- A step of the history can be checked where every walk is possible. -/
theorem Step.IsBuiltin.verify_ok {s : Step} (hs : s.IsBuiltin) {d : Dashboard}
    (hd : d.StructurallyComplete) : ∃ v, s.verify d = .ok v := by
  obtain ⟨rule, _, hverify, _⟩ := hs.exists_rule
  rw [hverify]
  cases hv : rule.step.verify d with
  | ok v => exact ⟨v, rfl⟩
  | error e =>
    have he := rule.verify_error d e hv
    rw [(d.checkDepth_eq_ok_iff rule.depth).2 (hd.reaches _)] at he
    exact nomatch he

/-- A dashboard that satisfies the whole history has all parts. -/
theorem Dashboard.has_of_satisfied {d : Dashboard}
    (h : ∀ t ∈ schemaHistory, t.verify d = .ok .satisfied) (p : Dashboard.Part) : d.Has p := by
  obtain ⟨rule, hr, hp⟩ := exists_mem_needs p
  have hv := h rule.step (map_step_schemaRules ▸ List.mem_map_of_mem hr)
  exact ((rule.verify_eq_satisfied_iff d).1 hv).2 p hp

/-! ## Runs -/

/-- The update of a version puts in all that its check asks for. -/
theorem StepRule.verify_effect (rule : StepRule) {s : Step} (hs : s.DoesAs rule.step)
    {ws : Workspace} (hreach : ws.dashboard.Reaches rule.depth) (hids : ws.ids.NonEmpty) :
    s.verify (rule.effect ws).dashboard = .ok .satisfied := by
  rw [hs.1, rule.verify_eq_satisfied_iff]
  refine ⟨rule.reaches_effect ws _ hreach, fun p hp => ?_⟩
  exact (rule.has_effect ws p hids).2 (.inr (rule.needs_subset_adds hp))

/-- A step that is not satisfied makes its update, which is enough. -/
theorem StepRule.runOn_apply_of_missing (rule : StepRule) {s : Step} (hs : s.DoesAs rule.step)
    {ws : Workspace} {path : String} (hv : s.verify ws.dashboard = .ok (.missing path))
    (hreach : ws.dashboard.Reaches rule.depth) (hids : ws.ids.NonEmpty) :
    Work.runOn s.apply ws = (.ok true, rule.effect ws) ∧
      s.verify (rule.effect ws).dashboard = .ok .satisfied := by
  have hu := rule.update_of_reaches ws hreach
  have hsat := rule.verify_effect hs hreach hids
  rw [← hs.2] at hu
  exact ⟨Step.runOn_apply_of_update hv hu hsat, hsat⟩

/-- One step succeeds, advances the document, and is satisfied then. -/
theorem runOn_apply {s : Step} (hs : s.IsBuiltin) {ws : Workspace}
    (hd : ws.dashboard.StructurallyComplete) (hids : ws.ids.NonEmpty) :
    ∃ updated ws', Work.runOn s.apply ws = (.ok updated, ws') ∧ ws.Advances ws' ∧
      ws'.dashboard.version = ws.dashboard.version ∧ s.verify ws'.dashboard = .ok .satisfied := by
  -- the check can be made, and tells whether the update is made too
  obtain ⟨v, hv⟩ := hs.verify_ok hd
  cases v with
  | satisfied =>
    exact ⟨false, ws, Step.runOn_apply_of_satisfied hv, .refl ws, rfl, hv⟩
  | missing path =>
    obtain ⟨rule, _, hdoes⟩ := hs.exists_rule
    obtain ⟨hrun, hsat⟩ := rule.runOn_apply_of_missing hdoes hv (hd.reaches _) hids
    exact ⟨true, rule.effect ws, hrun, .effect rule hids, rule.version_effect ws, hsat⟩

/-- A run of steps applies the first of them and then runs the others. -/
theorem runOn_applySteps_cons {s : Step} {steps : List Step} {ws ws₁ ws' : Workspace}
    {updated : Bool} {applied : List Version} (h : Work.runOn s.apply ws = (.ok updated, ws₁))
    (hrest : Work.runOn (applySteps steps) ws₁ = (.ok applied, ws')) :
    Work.runOn (applySteps (s :: steps)) ws =
      (.ok (if updated then s.version :: applied else applied), ws') := by
  rw [applySteps, Work.runOn_bind_of_ok h, Work.runOn_bind_of_ok hrest]
  rfl

/-- A run of steps succeeds only if the first step and the run of the others do. -/
theorem runOn_applySteps_cons_eq_ok {s : Step} {steps : List Step} {ws ws' : Workspace}
    {applied : List Version} (h : Work.runOn (applySteps (s :: steps)) ws = (.ok applied, ws')) :
    ∃ updated ws₁ rest, Work.runOn s.apply ws = (.ok updated, ws₁) ∧
      Work.runOn (applySteps steps) ws₁ = (.ok rest, ws') ∧
      applied = if updated then s.version :: rest else rest := by
  rw [applySteps] at h
  obtain ⟨updated, ws₁, hrun₁, h⟩ := Work.runOn_bind_eq_ok h
  obtain ⟨rest, ws₂, hrun₂, h⟩ := Work.runOn_bind_eq_ok h
  obtain ⟨happlied, rfl⟩ := Prod.mk.inj h
  exact ⟨updated, ws₁, rest, hrun₁, hrun₂, (Except.ok.inj happlied).symm⟩

/-- A run of steps fails in the first of them, or after it in the run of the others. -/
theorem runOn_applySteps_cons_eq_error {s : Step} {steps : List Step} {ws ws' : Workspace}
    {e : MigrationError} (h : Work.runOn (applySteps (s :: steps)) ws = (.error e, ws')) :
    Work.runOn s.apply ws = (.error e, ws') ∨
      ∃ updated ws₁, Work.runOn s.apply ws = (.ok updated, ws₁) ∧
        Work.runOn (applySteps steps) ws₁ = (.error e, ws') := by
  rw [applySteps] at h
  refine (Work.runOn_bind_eq_error h).imp_right ?_
  rintro ⟨updated, ws₁, hrun₁, h⟩
  rcases Work.runOn_bind_eq_error h with hrun₂ | ⟨rest, ws₂, -, h⟩
  · exact ⟨updated, ws₁, hrun₁, hrun₂⟩
  · -- the versions are put together without fail
    cases (Prod.mk.inj h).1

/-- A run of steps succeeds, advances the document, and all its steps are satisfied then. -/
theorem runOn_applySteps (steps : List Step) (hs : ∀ s ∈ steps, s.IsBuiltin) {ws : Workspace}
    (hd : ws.dashboard.StructurallyComplete) (hids : ws.ids.NonEmpty) :
    ∃ applied ws', Work.runOn (applySteps steps) ws = (.ok applied, ws') ∧ ws.Advances ws' ∧
      ws'.dashboard.version = ws.dashboard.version ∧
        ∀ s ∈ steps, s.verify ws'.dashboard = .ok .satisfied := by
  induction steps generalizing ws with
  | nil => exact ⟨[], ws, rfl, .refl ws, rfl, fun s hs => (nomatch hs)⟩
  | cons s steps ih =>
    rw [List.forall_mem_cons] at hs
    obtain ⟨updated, ws₁, hrun₁, hadv₁, hver₁, hsat₁⟩ := runOn_apply hs.1 hd hids
    obtain ⟨applied, ws₂, hrun₂, hadv₂, hver₂, hsat₂⟩ :=
      ih hs.2 (hadv₁.reaches .widgets hd) (hadv₁.nonEmpty hids)
    -- the later steps take away nothing of what this one has put in
    have hsat : s.verify ws₂.dashboard = .ok .satisfied := hs.1.verify_of_advances hadv₂ hsat₁
    exact ⟨_, ws₂, runOn_applySteps_cons hrun₁ hrun₂, hadv₁.trans hadv₂, hver₂.trans hver₁,
      List.forall_mem_cons.2 ⟨hsat, hsat₂⟩⟩

/-! ## Detection -/

/-- The version of a document can be detected if every step can be checked. -/
theorem detectIn_ok {d : Dashboard} {steps : List Step}
    (h : ∀ s ∈ steps, ∃ v, s.verify d = .ok v) (before : Option Version) :
    ∃ v, detectIn d before steps = .ok v := by
  induction steps generalizing before with
  | nil => exact ⟨before, rfl⟩
  | cons s steps ih =>
    rw [List.forall_mem_cons] at h
    obtain ⟨v, hv⟩ := h.1
    cases v with
    | satisfied => simpa only [detectIn, hv] using ih h.2 (some s.version)
    | missing path => exact ⟨before, by simp only [detectIn, hv]⟩

/-- If every step is satisfied, the last version is detected. -/
theorem detectIn_of_satisfied {d : Dashboard} {steps : List Step} (hne : steps ≠ [])
    (h : ∀ s ∈ steps, s.verify d = .ok .satisfied) (before : Option Version) :
    detectIn d before steps = .ok (some (steps.getLast hne).version) := by
  induction steps generalizing before with
  | nil => exact absurd rfl hne
  | cons s steps ih =>
    rw [List.forall_mem_cons] at h
    simp only [detectIn, h.1]
    -- the last step is the one whose version stays in mind
    cases steps with
    | nil => rfl
    | cons t steps => exact ih (List.cons_ne_nil t steps) h.2 _

/-- If every step is satisfied, so is the whole. -/
theorem verifySteps_of_satisfied {d : Dashboard} {steps : List Step}
    (h : ∀ s ∈ steps, s.verify d = .ok .satisfied) : verifySteps d steps = .ok .satisfied := by
  induction steps with
  | nil => rfl
  | cons s steps ih =>
    rw [List.forall_mem_cons] at h
    simp only [verifySteps, h.1, ih h.2]

/-- If the whole is satisfied, so is every step. -/
theorem satisfied_of_verifySteps {d : Dashboard} {steps : List Step}
    (h : verifySteps d steps = .ok .satisfied) : ∀ s ∈ steps, s.verify d = .ok .satisfied := by
  induction steps with
  | nil => exact List.forall_mem_nil _
  | cons s steps ih =>
    rw [verifySteps] at h
    split at h
    next hs => exact List.forall_mem_cons.2 ⟨hs, ih h⟩
    next hne => exact absurd h hne

/-- An outcome that is not good is that of the first step that is not satisfied. -/
theorem exists_split_of_verifySteps {d : Dashboard} {steps : List Step}
    {outcome : Except MigrationError Verification} (h : verifySteps d steps = outcome)
    (hne : outcome ≠ .ok .satisfied) : ∃ before s after, steps = before ++ s :: after ∧
      (∀ t ∈ before, t.verify d = .ok .satisfied) ∧ s.verify d = outcome := by
  induction steps with
  | nil => exact absurd h.symm hne
  | cons s steps ih =>
    rw [verifySteps] at h
    split at h
    next hs =>
      obtain ⟨before, t, after, rfl, hbefore, ht⟩ := ih h
      exact ⟨s :: before, t, after, rfl, List.forall_mem_cons.2 ⟨hs, hbefore⟩, ht⟩
    next => exact ⟨[], s, steps, rfl, fun t ht => (nomatch ht), h⟩

/-! ## Migrations -/

/-- What a migration that succeeds is made of. -/
theorem Catalogue.runOn_migrate_eq_ok {c : Catalogue} {ws ws' : Workspace}
    {report : MigrationReport} (h : Work.runOn c.migrate ws = (.ok report, ws')) :
    ∃ ws₁, c.detect ws.dashboard = .ok report.detected ∧
      Work.runOn (applySteps c.steps) ws = (.ok report.applied, ws₁) ∧
      ws' = { ws₁ with dashboard := c.writeVersion ws.dashboard.version ws₁.dashboard } ∧
      report.stored = ws.dashboard.version ∧ report.current = c.latest := by
  rw [Catalogue.migrate, Work.runOn_bind_of_ok (Work.runOn_get ws)] at h
  obtain ⟨detected, ws₀, hinspect, h⟩ := Work.runOn_bind_eq_ok h
  rw [Work.runOn_inspect] at hinspect
  obtain ⟨hdetect, rfl⟩ := Prod.mk.inj hinspect
  obtain ⟨applied, ws₁, hrun, h⟩ := Work.runOn_bind_eq_ok h
  rw [Work.runOn_bind_of_ok (Work.runOn_change _ ws₁)] at h
  obtain ⟨hreport, rfl⟩ := Prod.mk.inj h
  obtain rfl := Except.ok.inj hreport
  exact ⟨ws₁, hdetect, hrun, rfl, rfl, rfl⟩

/-- A migration by steps of the history succeeds on every structurally complete dashboard. -/
theorem runOn_migrate (c : Catalogue) (hc : ∀ s ∈ c.steps, s.IsBuiltin) (ws : Workspace)
    (hd : ws.dashboard.StructurallyComplete) (hids : ws.ids.NonEmpty) :
    ∃ detected applied ws',
      Work.runOn c.migrate ws = (.ok ⟨ws.dashboard.version, detected, c.latest, applied⟩, ws') ∧
      ws.Advances ws' ∧ ws'.dashboard.version = max ws.dashboard.version (some c.latest) ∧
        ∀ s ∈ c.steps, s.verify ws'.dashboard = .ok .satisfied := by
  -- the version is detected, the steps are run, and the version is written: each of these succeeds
  obtain ⟨detected, hdet⟩ := detectIn_ok (fun s hs => (hc s hs).verify_ok hd) none
  obtain ⟨applied, ws', hrun, hadv, hver, hsat⟩ := runOn_applySteps c.steps hc hd hids
  have hins := Work.runOn_inspect c.detect ws
  rw [Catalogue.detect, hdet] at hins
  -- no check looks at the version that is written in the end
  have hset := Workspace.Advances.withVersion ws' (some (c.finalVersion ws.dashboard.version))
  refine ⟨detected, applied, _, ?_, hadv.trans hset, c.some_finalVersion _, fun s hs =>
    (hc s hs).verify_of_advances hset (hsat s hs)⟩
  rw [Catalogue.migrate, Work.runOn_bind_of_ok (Work.runOn_get ws), Work.runOn_bind_of_ok hins,
    Work.runOn_bind_of_ok hrun, Work.runOn_bind_of_ok (Work.runOn_change _ ws'),
    ← c.writeVersion_of_stored hver]
  rfl

end Dashboards
