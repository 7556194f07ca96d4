import Dashboards.Proofs.Schema.Outcome

/-!
# Staged migrations

The versions of the history may be made into several catalogues, in any order, some of them more
than once and under other numbers, and a document may be brought up by one catalogue after the
other.  If every version is in one of them the document ends as it would by one migration, but for
the number that is written in it.

No order of the steps matters: what a step keeps (`Workspace.Advances`) holds of every run, and all
versions together leave nothing to complete.

## Key results

- `runOn_mapM_migrate`: what a sequence of migrations does
- `migrate_staged_eq_direct`: staged migrations agree with the direct one
-/

namespace Dashboards

/-- A sequence of migrations succeeds at every stage, and all its steps are satisfied then. -/
theorem runOn_mapM_migrate (stages : List Catalogue)
    (hs : ∀ c ∈ stages, ∀ s ∈ c.steps, s.IsBuiltin) (ws : Workspace)
    (hd : ws.dashboard.StructurallyComplete) (hids : ws.ids.NonEmpty) :
    ∃ reports ws', Work.runOn (stages.mapM Catalogue.migrate) ws = (.ok reports, ws') ∧
      ws.Advances ws' ∧
      ws'.dashboard.version =
        stages.foldl (fun v c => max v (some c.latest)) ws.dashboard.version ∧
      ∀ c ∈ stages, ∀ s ∈ c.steps, s.verify ws'.dashboard = .ok .satisfied := by
  induction stages generalizing ws with
  | nil => exact ⟨[], ws, rfl, .refl ws, rfl, fun c hc => (nomatch hc)⟩
  | cons c stages ih =>
    rw [List.forall_mem_cons] at hs
    obtain ⟨detected, applied, ws₁, hrun₁, hadv₁, hver₁, hsat₁⟩ := runOn_migrate c hs.1 ws hd hids
    obtain ⟨reports, ws₂, hrun₂, hadv₂, hver₂, hsat₂⟩ :=
      ih hs.2 ws₁ (hadv₁.reaches .widgets hd) (hadv₁.nonEmpty hids)
    refine ⟨⟨ws.dashboard.version, detected, c.latest, applied⟩ :: reports, ws₂, ?_,
      hadv₁.trans hadv₂, ?_, ?_⟩
    · rw [List.mapM_cons, Work.runOn_bind_of_ok hrun₁, Work.runOn_bind_of_ok hrun₂]
      rfl
    · rw [hver₂, hver₁, List.foldl_cons]
    · -- later stages leave the steps of this one satisfied
      exact List.forall_mem_cons.2
        ⟨fun s hm => (hs.1 s hm).verify_of_advances hadv₂ (hsat₁ s hm), hsat₂⟩

/-- Catalogues that have every version of the history in one of them, run one after the other, bring
a document to what one migration by the history brings it to, with the same ids.  Only the version
that is written may differ: it is the latest of the stored version and those of the catalogues. -/
theorem migrate_staged_eq_direct (stages : List Catalogue)
    (hbuiltin : ∀ c ∈ stages, ∀ s ∈ c.steps, s.IsBuiltin)
    (hall : ∀ t ∈ schemaHistory, ∃ c ∈ stages, ∃ s ∈ c.steps, s.DoesAs t)
    (d : Dashboard) (ids : IdSupply) (hd : d.StructurallyComplete) (hids : ids.NonEmpty) :
    ∃ reports report staged direct,
      Work.runOn (stages.mapM Catalogue.migrate) ⟨d, ids⟩ = (.ok reports, staged) ∧
      Work.runOn Catalogue.builtin.migrate ⟨d, ids⟩ = (.ok report, direct) ∧
      staged.dashboard = { direct.dashboard with version := staged.dashboard.version } ∧
      staged.ids = direct.ids ∧
      staged.dashboard.version = stages.foldl (fun v c => max v (some c.latest)) d.version := by
  obtain ⟨reports, staged, hrun, hadv, hver, hsat⟩ :=
    runOn_mapM_migrate stages hbuiltin ⟨d, ids⟩ hd hids
  obtain ⟨report, direct, hrun', _, _, hdash', hleft'⟩ := runOn_migrate_builtin hd hids
  -- some stage has each version of the history, and no stage takes away what it brings
  have hsat' : ∀ t ∈ schemaHistory, t.verify staged.dashboard = .ok .satisfied := by
    intro t ht
    obtain ⟨c, hc, s, hs, hverify, _⟩ := hall t ht
    rw [← hverify]
    exact hsat c hc s hs
  obtain ⟨hdash, hleft⟩ := hadv.dashboard_eq hd hids (Dashboard.has_of_satisfied hsat')
  refine ⟨reports, report, staged, direct, hrun, hrun', ?_, hleft.trans hleft'.symm, hver⟩
  rw [hdash', hdash]
  rfl

/-- A first stage that gives ids and parameters, in the other order and under other numbers. -/
def idsFirst : Catalogue where
  steps := [{ idsStep with version := ⟨5⟩ }, { paramsStep with version := ⟨20⟩ }]
  nonempty := List.cons_ne_nil _ _
  ascending := pairwise_of_firstDescent?_eq_none (by decide)

/-- An early document after the first stage and then the whole history. -/
theorem migrate_staged_eq_direct_idsFirst :
    let stages := [idsFirst, Catalogue.builtin]
    let d := (Dashboard.titled "d").addContainer (.ofWidgets [earlyWidget])
    (∀ c ∈ stages, ∀ s ∈ c.steps, s.IsBuiltin) ∧
      (∀ t ∈ schemaHistory, ∃ c ∈ stages, ∃ s ∈ c.steps, s.DoesAs t) ∧
      d.StructurallyComplete ∧ sampleIds.NonEmpty ∧
      ∃ reports report staged direct,
        Work.runOn (stages.mapM Catalogue.migrate) ⟨d, sampleIds⟩ = (.ok reports, staged) ∧
        Work.runOn Catalogue.builtin.migrate ⟨d, sampleIds⟩ = (.ok report, direct) ∧
        staged.dashboard = { direct.dashboard with version := some ⟨20⟩ } ∧
        staged.ids = direct.ids := by
  intro stages d
  have hbuiltin : ∀ c ∈ stages, ∀ s ∈ c.steps, s.IsBuiltin := by
    refine List.forall_mem_cons.2 ⟨?_, List.forall_mem_cons.2 ⟨?_, fun c hc => (nomatch hc)⟩⟩
    · refine List.forall_mem_cons.2 ⟨?_, List.forall_mem_cons.2 ⟨?_, fun s hs => (nomatch hs)⟩⟩
      · exact ⟨idsStep, by simp [schemaHistory], rfl, rfl⟩
      · exact ⟨paramsStep, by simp [schemaHistory], rfl, rfl⟩
    · exact isBuiltin_of_mem_builtin
  have hall : ∀ t ∈ schemaHistory, ∃ c ∈ stages, ∃ s ∈ c.steps, s.DoesAs t := fun t ht =>
    ⟨Catalogue.builtin, List.mem_cons_of_mem _ List.mem_cons_self, t, ht, rfl, rfl⟩
  have hd : d.StructurallyComplete := (checkStructure_eq_ok_iff true d).1 rfl
  obtain ⟨reports, report, staged, direct, hrun, hrun', hdash, hids, hver⟩ :=
    migrate_staged_eq_direct stages hbuiltin hall d sampleIds hd sampleIds_nonEmpty
  refine ⟨hbuiltin, hall, hd, sampleIds_nonEmpty, reports, report, staged, direct, hrun, hrun', ?_,
    hids⟩
  rw [hdash, hver]
  rfl

end Dashboards
