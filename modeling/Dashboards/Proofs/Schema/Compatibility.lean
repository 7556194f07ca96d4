import Dashboards.Proofs.Schema.Idempotence
import Dashboards.Proofs.Schema.Updates

/-!
# Versions get along

On any document, structurally complete or not, an update of the history either finds its way or does
nothing.  If it finds its way then its own check is satisfied, and so are all checks that were
satisfied before; if there was nothing to do then nothing is done.  So steps of the history may be
put into a catalogue in any order: a migration is never left incomplete.

An update may make a document walkable that was not.  So what is walkable is not asked of the
document at the start, but of each update when it is its turn.

## Key results

- `Step.IsBuiltin.runOn_update_cases`: the two ways in which an update can end
- `schemaHistory_compatible`: every two versions get along, and so does every catalogue of them
-/

namespace Dashboards

/-! ## Documents that cannot be walked -/

/-- A walk fails only for something absent that it has to go into. -/
theorem checkStructure_error {toWidgets : Bool} {d : Dashboard} {e : MigrationError}
    (h : d.checkStructure toWidgets = .error e) : ∃ path, e = .malformed path := by
  -- a walk to the widgets ends at the first hole, and one to the containers needs just their list
  cases toWidgets with
  | true =>
    have hd : ¬ d.StructurallyComplete := fun hd => by
      rw [(checkStructure_eq_ok_iff true d).2 hd] at h
      cases h
    obtain ⟨path, hhole⟩ := Dashboard.exists_firstHole hd
    rw [hhole.checkStructure_eq] at h
    exact ⟨path, (Except.error.inj h).symm⟩
  | false =>
    rw [Dashboard.checkStructure, Dashboard.containers?] at h
    cases hcs : d.children with
    | none =>
      rw [hcs] at h
      exact ⟨"children", (Except.error.inj h).symm⟩
    | some cs =>
      rw [hcs] at h
      cases h

/-- A walk of any depth fails only for something absent that it has to go into. -/
theorem checkDepth_error {depth : Depth} {d : Dashboard} {e : MigrationError}
    (h : d.checkDepth depth = .error e) : ∃ path, e = .malformed path := by
  cases depth with
  | root => exact nomatch h
  | containers | widgets => exact checkStructure_error h

/-! ## Updates of the history -/

namespace Step.IsBuiltin

variable {s : Step}

/-- A check of the history fails only for something absent that it has to go into. -/
theorem verify_error (hs : s.IsBuiltin) {d : Dashboard} {e : MigrationError}
    (h : s.verify d = .error e) : ∃ path, e = .malformed path := by
  obtain ⟨rule, -, hverify, -⟩ := hs.exists_rule
  exact checkDepth_error (rule.verify_error d e (hverify ▸ h))

/-- An update of the history cannot find its way and does nothing, or it does what its rule says. -/
theorem runOn_update_cases (hs : s.IsBuiltin) (ws : Workspace) :
    (∃ path, Work.runOn s.update ws = (.error (.malformed path), ws)) ∨
      ∃ rule : StepRule, s.DoesAs rule.step ∧ ws.dashboard.Reaches rule.depth ∧
        Work.runOn s.update ws = (.ok (), rule.effect ws) := by
  obtain ⟨rule, -, hdoes⟩ := hs.exists_rule
  rw [hdoes.2]
  -- the update walks first, and only then changes anything
  cases hcheck : ws.dashboard.checkDepth rule.depth with
  | error e =>
    obtain ⟨path, rfl⟩ := checkDepth_error hcheck
    exact .inl ⟨path, rule.update_error ws _ hcheck⟩
  | ok _ =>
    have hreach := (ws.dashboard.checkDepth_eq_ok_iff rule.depth).1 hcheck
    exact .inr ⟨rule, hdoes, hreach, rule.update_of_reaches ws hreach⟩

/-- An update that fails has not found its way, and has done nothing. -/
theorem update_error (hs : s.IsBuiltin) {ws ws' : Workspace} {e : MigrationError}
    (h : Work.runOn s.update ws = (.error e, ws')) :
    (∃ path, e = .malformed path) ∧ ws' = ws := by
  rcases hs.runOn_update_cases ws with ⟨path, hrun⟩ | ⟨rule, -, -, hrun⟩
  · rw [hrun] at h
    obtain ⟨he, rfl⟩ := Prod.mk.inj h
    exact ⟨⟨path, (Except.error.inj he).symm⟩, rfl⟩
  · rw [hrun] at h
    exact nomatch (Prod.mk.inj h).1

/-- An update that succeeds satisfies its own check, and leaves those satisfied that were. -/
theorem update_ok (hs : s.IsBuiltin) {ws ws' : Workspace} (hids : ws.ids.NonEmpty)
    (h : Work.runOn s.update ws = (.ok (), ws')) :
    s.verify ws'.dashboard = .ok .satisfied ∧ ws.Advances ws' := by
  rcases hs.runOn_update_cases ws with ⟨path, hrun⟩ | ⟨rule, hdoes, hreach, hrun⟩
  · rw [hrun] at h
    exact nomatch (Prod.mk.inj h).1
  · rw [hrun] at h
    obtain rfl := (Prod.mk.inj h).2
    exact ⟨rule.verify_effect hdoes hreach hids, .effect rule hids⟩

/-- The update of a version that is satisfied changes nothing. -/
theorem update_of_satisfied (hs : s.IsBuiltin) {ws : Workspace}
    (h : s.verify ws.dashboard = .ok .satisfied) : Work.runOn s.update ws = (.ok (), ws) := by
  obtain ⟨rule, -, hverify, hupdate⟩ := hs.exists_rule
  rw [hverify, rule.verify_eq_satisfied_iff] at h
  rw [hupdate, rule.update_of_reaches ws h.1, rule.effect_of_has ws h.1 h.2]

/-- A step of the history fails only for something absent: its update is always enough. -/
theorem apply_error (hs : s.IsBuiltin) {ws ws' : Workspace} (hids : ws.ids.NonEmpty)
    {e : MigrationError} (h : Work.runOn s.apply ws = (.error e, ws')) :
    ∃ path, e = .malformed path := by
  -- an update that succeeds satisfies the check, so that it is never incomplete
  cases Step.ends_apply h with
  | uncheckedBefore hv => exact hs.verify_error hv
  | updateFailed _ hu => exact (hs.update_error hu).1
  | uncheckedAfter _ _ hv => exact hs.verify_error hv
  | incomplete _ hu hv =>
    rw [(hs.update_ok hids hu).1] at hv
    exact nomatch hv

end Step.IsBuiltin

/-! ## Catalogues of versions of the history -/

/-- A run of steps of the history fails only for something absent. -/
theorem applySteps_error {steps : List Step} (hs : ∀ s ∈ steps, s.IsBuiltin) {ws ws' : Workspace}
    (hids : ws.ids.NonEmpty) {e : MigrationError}
    (h : Work.runOn (applySteps steps) ws = (.error e, ws')) : ∃ path, e = .malformed path := by
  induction steps generalizing ws with
  | nil => cases (Prod.mk.inj h).1
  | cons s steps ih =>
    rw [List.forall_mem_cons] at hs
    rcases runOn_applySteps_cons_eq_error h with hrun | ⟨updated, ws₁, hrun₁, hrun₂⟩
    · exact hs.1.apply_error hids hrun
    -- the steps after this one find a supply without empty ids too
    · have hids₁ := ((runOn_apply_eq_ok hs.1 hids hrun₁).1.advances hids).nonEmpty hids
      exact ih hs.2 hids₁ hrun₂

/-- A migration by steps of the history fails only for something absent. -/
theorem Catalogue.migrate_error {c : Catalogue} (hc : ∀ s ∈ c.steps, s.IsBuiltin)
    {ws ws' : Workspace} (hids : ws.ids.NonEmpty) {e : MigrationError}
    (h : Work.runOn c.migrate ws = (.error e, ws')) : ∃ path, e = .malformed path := by
  rcases c.runOn_migrate_eq_error h with ⟨hdetect, -⟩ | hrun
  · obtain ⟨s, hs, hv⟩ := exists_verify_of_detectIn_error hdetect
    exact (hc s hs).verify_error hv
  · exact applySteps_error hc hids hrun

/-- Every two versions of the history get along on any document.  The update of one fails only for
something absent, and then does nothing; if it succeeds its check is satisfied; if its check was
satisfied it succeeds and changes nothing; and the check of the other stays satisfied if it was.  So
a migration by versions of the history in any order never ends with an update that was not enough,
and if it succeeds then all its versions are satisfied. -/
theorem schemaHistory_compatible (ws : Workspace) (hids : ws.ids.NonEmpty) :
    (∀ s ∈ schemaHistory,
      (∀ e ws', Work.runOn s.update ws = (.error e, ws') →
        (∃ path, e = .malformed path) ∧ ws' = ws) ∧
      (∀ ws', Work.runOn s.update ws = (.ok (), ws') → s.verify ws'.dashboard = .ok .satisfied) ∧
      (s.verify ws.dashboard = .ok .satisfied → Work.runOn s.update ws = (.ok (), ws)) ∧
      ∀ t ∈ schemaHistory, s.verify ws.dashboard = .ok .satisfied →
        ∀ ws', Work.runOn t.update ws = (.ok (), ws') →
          s.verify ws'.dashboard = .ok .satisfied) ∧
    ∀ c : Catalogue, (∀ s ∈ c.steps, s.IsBuiltin) →
      (∀ version field ws',
        Work.runOn c.migrate ws ≠ (.error (.updateIncomplete version field), ws')) ∧
      ∀ report ws', Work.runOn c.migrate ws = (.ok report, ws') →
        (∀ s ∈ c.steps, s.verify ws'.dashboard = .ok .satisfied) ∧
          c.verify ws'.dashboard = .ok .satisfied := by
  constructor
  · intro s hmem
    have hs : s.IsBuiltin := isBuiltin_of_mem_builtin s hmem
    refine ⟨fun e ws' h => hs.update_error h, fun ws' h => (hs.update_ok hids h).1,
      hs.update_of_satisfied, fun t ht hv ws' h => ?_⟩
    -- updates only add, so that a check that was satisfied stays so
    have hadvances := ((isBuiltin_of_mem_builtin t ht).update_ok hids h).2
    exact hs.verify_of_advances hadvances hv
  · intro c hc
    refine ⟨fun version field ws' h => ?_, fun report ws' h => ?_⟩
    · obtain ⟨path, he⟩ := c.migrate_error hc hids h
      exact nomatch he
    · obtain ⟨-, -, -, hsat⟩ := runOn_migrate_eq_ok hc hids h
      exact ⟨hsat, verifySteps_of_satisfied hsat⟩

/-- The layout of containers first: it puts in what the description of data has to walk through. -/
def layoutFirst : Catalogue where
  steps := [{ containerLayoutStep with version := ⟨1⟩ },
    widgetStep 2 "widget datasource config" Widget.verifyConfig Widget.addConfig]
  nonempty := List.cons_ne_nil _ _
  ascending := pairwise_of_firstDescent?_eq_none (by decide)

/-- A container without a grid: the description of data cannot be put in, and then it is there. -/
theorem schemaHistory_compatible_layoutFirst :
    let ws : Workspace := ⟨(Dashboard.titled "d").addContainer {}, sampleIds⟩
    let config := widgetStep 1 "widget datasource config" Widget.verifyConfig Widget.addConfig
    ws.ids.NonEmpty ∧ (∀ s ∈ layoutFirst.steps, s.IsBuiltin) ∧
      (∃ e ws', Work.runOn config.update ws = (.error e, ws') ∧ ws' = ws) ∧
      ∃ report ws', Work.runOn layoutFirst.migrate ws = (.ok report, ws') ∧
        config.verify ws'.dashboard = .ok .satisfied := by
  intro ws config
  obtain ⟨hpairs, hcatalogues⟩ := schemaHistory_compatible ws sampleIds_nonEmpty
  have hbuiltin : ∀ s ∈ layoutFirst.steps, s.IsBuiltin := by
    refine List.forall_mem_cons.2 ⟨?_, List.forall_mem_cons.2 ⟨?_, fun s hs => (nomatch hs)⟩⟩
    · exact ⟨containerLayoutStep, by simp [schemaHistory], rfl, rfl⟩
    · exact ⟨config, List.mem_cons_self, rfl, rfl⟩
  have hfails : Work.runOn config.update ws =
      (.error (.malformed "children[0].container"), ws) := rfl
  refine ⟨sampleIds_nonEmpty, hbuiltin, ⟨_, ws, hfails, ?_⟩, ?_⟩
  · exact ((hpairs config List.mem_cons_self).1 _ ws hfails).2
  · have hok : (Work.runOn layoutFirst.migrate ws).1.isOk = true := by decide +kernel
    cases hrun : Work.runOn layoutFirst.migrate ws with
    | mk r ws' =>
      rw [hrun] at hok
      cases r with
      | error e => exact nomatch hok
      | ok report =>
        have hsat := ((hcatalogues layoutFirst hbuiltin).2 report ws' hrun).1
        have hconfig := (List.forall_mem_cons.1 (List.forall_mem_cons.1 hsat).2).1
        exact ⟨report, ws', rfl, hconfig⟩

end Dashboards
