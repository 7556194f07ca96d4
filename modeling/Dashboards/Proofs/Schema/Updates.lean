import Dashboards.Proofs.Schema.Runs

/-!
# Migrations by any steps

What a migration does for a catalogue of steps of which next to nothing is known: a check may ask
for anything, and an update may change all of the document but its version, whether it succeeds or
not.  Its update may fail to satisfy a step, and may break another one that was satisfied.

A step is applied in one of six ways (`Step.Ends`).  A run of steps is looked at one step after the
other, and the versions that it gives are those of the updates that it has made.  The detection of
the version is a run of its own, over the document as it was; it stops at the first step that is not
satisfied, and up to there the other run does not change the document.

## Key results

- `Step.ends_apply`: the ways in which the application of a step ends
- `exists_updateAll_of_applySteps`: a run that succeeds has made the updates that it tells of
- `migrate_report`: what a migration tells and leaves, whether it succeeds or fails
-/

namespace Dashboards

/-! ## One step -/

/-- What is asked of a step that is otherwise free to check and to change: its update leaves the
version alone, and it fails only for a document through which it cannot find its way. -/
structure Step.IsRegular (s : Step) : Prop where
  verify_error : ∀ d e, s.verify d = .error e → ∃ path, e = .malformed path
  update_error : ∀ ws e ws', Work.runOn s.update ws = (.error e, ws') → ∃ path, e = .malformed path
  update_version : ∀ ws r ws', Work.runOn s.update ws = (r, ws') →
    ws'.dashboard.version = ws.dashboard.version

/-- How the application of a step to a workspace ends, and the workspace that it leaves. -/
inductive Step.Ends (s : Step) (ws : Workspace) : Except MigrationError Bool → Workspace → Prop
  | satisfied (h : s.verify ws.dashboard = .ok .satisfied) : Ends s ws (.ok false) ws
  | updated {path : String} {ws' : Workspace} (h : s.verify ws.dashboard = .ok (.missing path))
      (hu : Work.runOn s.update ws = (.ok (), ws'))
      (hs : s.verify ws'.dashboard = .ok .satisfied) : Ends s ws (.ok true) ws'
  | uncheckedBefore {e : MigrationError} (h : s.verify ws.dashboard = .error e) :
      Ends s ws (.error e) ws
  | updateFailed {path : String} {e : MigrationError} {ws' : Workspace}
      (h : s.verify ws.dashboard = .ok (.missing path))
      (hu : Work.runOn s.update ws = (.error e, ws')) : Ends s ws (.error e) ws'
  | uncheckedAfter {path : String} {e : MigrationError} {ws' : Workspace}
      (h : s.verify ws.dashboard = .ok (.missing path))
      (hu : Work.runOn s.update ws = (.ok (), ws')) (hs : s.verify ws'.dashboard = .error e) :
      Ends s ws (.error e) ws'
  | incomplete {path field : String} {ws' : Workspace}
      (h : s.verify ws.dashboard = .ok (.missing path))
      (hu : Work.runOn s.update ws = (.ok (), ws'))
      (hs : s.verify ws'.dashboard = .ok (.missing field)) :
      Ends s ws (.error (.updateIncomplete s.version field)) ws'

namespace Step

variable {s : Step} {ws ws' : Workspace}

/-- After an update that succeeds the second check decides. -/
theorem ends_of_update {path : String} (h : s.verify ws.dashboard = .ok (.missing path))
    (hu : Work.runOn s.update ws = (.ok (), ws')) :
    ∃ r, Work.runOn s.apply ws = (r, ws') ∧ s.Ends ws r ws' := by
  have hbefore := Work.runOn_inspect s.verify ws
  have hafter := Work.runOn_inspect s.verify ws'
  rw [h] at hbefore
  rw [Step.apply, Work.runOn_bind_of_ok hbefore]
  cases hs : s.verify ws'.dashboard with
  | error e =>
    rw [hs] at hafter
    exact ⟨_, (Work.runOn_bind_of_ok hu).trans (Work.runOn_bind_of_error hafter),
      .uncheckedAfter h hu hs⟩
  | ok v =>
    rw [hs] at hafter
    cases v with
    | satisfied =>
      exact ⟨_, (Work.runOn_bind_of_ok hu).trans (Work.runOn_bind_of_ok hafter),
        .updated h hu hs⟩
    | missing field =>
      exact ⟨_, (Work.runOn_bind_of_ok hu).trans (Work.runOn_bind_of_ok hafter),
        .incomplete h hu hs⟩

/-- The application of a step ends in one of these ways. -/
theorem ends_apply {r : Except MigrationError Bool} (hrun : Work.runOn s.apply ws = (r, ws')) :
    s.Ends ws r ws' := by
  -- in the order of the application: the first check, the update, the second check
  cases h : s.verify ws.dashboard with
  | error e =>
    rw [runOn_apply_of_error h] at hrun
    obtain ⟨rfl, rfl⟩ := Prod.mk.inj hrun
    exact .uncheckedBefore h
  | ok v =>
    cases v with
    | satisfied =>
      rw [runOn_apply_of_satisfied h] at hrun
      obtain ⟨rfl, rfl⟩ := Prod.mk.inj hrun
      exact .satisfied h
    | missing path =>
      cases hu : Work.runOn s.update ws with
      | mk result ws₁ =>
        cases result with
        | error e =>
          rw [runOn_apply_of_update_error h hu] at hrun
          obtain ⟨rfl, rfl⟩ := Prod.mk.inj hrun
          exact .updateFailed h hu
        | ok _ =>
          obtain ⟨r', hrun', hends⟩ := ends_of_update h hu
          rw [hrun'] at hrun
          obtain ⟨rfl, rfl⟩ := Prod.mk.inj hrun
          exact hends

/-- However a regular step ends, the version of the document is what it was. -/
theorem Ends.version_eq (hs : s.IsRegular) {r : Except MigrationError Bool}
    (h : s.Ends ws r ws') : ws'.dashboard.version = ws.dashboard.version := by
  cases h with
  | satisfied | uncheckedBefore => rfl
  | updated _ hu | updateFailed _ hu | uncheckedAfter _ hu | incomplete _ hu =>
    exact hs.update_version _ _ _ hu

/-- If a regular step is said to be incomplete, then it is this step, and its check tells the
field. -/
theorem Ends.verify_of_incomplete (hs : s.IsRegular) {version : Version} {field : String}
    (h : s.Ends ws (.error (.updateIncomplete version field)) ws') :
    s.version = version ∧ s.verify ws'.dashboard = .ok (.missing field) := by
  -- only the second check makes this error; a regular step has no such error of its own
  cases h with
  | incomplete _ _ hs => exact ⟨rfl, hs⟩
  | uncheckedBefore hv | uncheckedAfter _ _ hv =>
    obtain ⟨path, he⟩ := hs.verify_error _ _ hv
    exact nomatch he
  | updateFailed _ hu =>
    obtain ⟨path, he⟩ := hs.update_error _ _ _ hu
    exact nomatch he

end Step

/-! ## Runs of steps -/

/-- Makes the updates of some steps in order, without any check. -/
def updateAll : List Step → Work Unit
  | [] => pure ()
  | s :: steps => do
    s.update
    updateAll steps

/-- A run that succeeds has made the updates of some of the steps in their order, and these are the
versions that it gives. -/
theorem exists_updateAll_of_applySteps {steps : List Step} {ws ws' : Workspace}
    {applied : List Version} (h : Work.runOn (applySteps steps) ws = (.ok applied, ws')) :
    ∃ done : List Step, done.Sublist steps ∧ applied = done.map (·.version) ∧
      Work.runOn (updateAll done) ws = (.ok (), ws') := by
  induction steps generalizing ws applied with
  | nil =>
    obtain ⟨happlied, rfl⟩ := Prod.mk.inj h
    exact ⟨[], .slnil, (Except.ok.inj happlied).symm, rfl⟩
  | cons s steps ih =>
    obtain ⟨updated, ws₁, rest, hrun₁, hrun₂, rfl⟩ := runOn_applySteps_cons_eq_ok h
    obtain ⟨done, hsub, rfl, hdone⟩ := ih hrun₂
    -- a step that succeeds was satisfied and is left out, or has made its update
    cases Step.ends_apply hrun₁ with
    | satisfied => exact ⟨done, hsub.cons s, rfl, hdone⟩
    | updated _ hu =>
      refine ⟨s :: done, hsub.cons_cons s, rfl, ?_⟩
      rw [updateAll, Work.runOn_bind_of_ok hu, hdone]

/-- A run of regular steps, however it ends, leaves the version of the document alone. -/
theorem version_of_applySteps {steps : List Step} (hs : ∀ s ∈ steps, s.IsRegular)
    {ws ws' : Workspace} {r : Except MigrationError (List Version)}
    (h : Work.runOn (applySteps steps) ws = (r, ws')) :
    ws'.dashboard.version = ws.dashboard.version := by
  -- induction on the steps: each of them keeps the version, and the last may be the one that fails
  induction steps generalizing ws ws' r with
  | nil =>
    obtain ⟨-, rfl⟩ := Prod.mk.inj h
    rfl
  | cons s steps ih =>
    rw [List.forall_mem_cons] at hs
    cases r with
    | ok applied =>
      obtain ⟨updated, ws₁, rest, hrun₁, hrun₂, -⟩ := runOn_applySteps_cons_eq_ok h
      rw [ih hs.2 hrun₂, (Step.ends_apply hrun₁).version_eq hs.1]
    | error e =>
      rcases runOn_applySteps_cons_eq_error h with hrun | ⟨updated, ws₁, hrun₁, hrun₂⟩
      · exact (Step.ends_apply hrun).version_eq hs.1
      · rw [ih hs.2 hrun₂, (Step.ends_apply hrun₁).version_eq hs.1]

/-- If a run of regular steps ends with an incomplete update, then it is the update of one of them,
and the check of this step tells the field that is missing in the end. -/
theorem verify_of_applySteps_incomplete {steps : List Step} (hs : ∀ s ∈ steps, s.IsRegular)
    {ws ws' : Workspace} {version : Version} {field : String}
    (h : Work.runOn (applySteps steps) ws = (.error (.updateIncomplete version field), ws')) :
    ∃ s ∈ steps, s.version = version ∧ s.verify ws'.dashboard = .ok (.missing field) := by
  induction steps generalizing ws with
  | nil => cases (Prod.mk.inj h).1
  | cons s steps ih =>
    rw [List.forall_mem_cons] at hs
    rcases runOn_applySteps_cons_eq_error h with hrun | ⟨updated, ws₁, -, hrun⟩
    · exact ⟨s, List.mem_cons_self, (Step.ends_apply hrun).verify_of_incomplete hs.1⟩
    · obtain ⟨t, ht, hfield⟩ := ih hs.2 hrun
      exact ⟨t, List.mem_cons_of_mem s ht, hfield⟩

/-! ## Detection beside the run -/

/-- Where the detection of a version stops: the steps before are satisfied, the last of them is the
one that is detected, and the step that comes next is not satisfied. -/
theorem exists_split_of_detectIn {d : Dashboard} {steps : List Step}
    {before detected : Option Version} (h : detectIn d before steps = .ok detected) :
    ∃ passed rest, steps = passed ++ rest ∧ (∀ s ∈ passed, s.verify d = .ok .satisfied) ∧
      detected = (passed.getLast?.map (·.version)).or before ∧
      ∀ s ∈ rest.head?, ∃ path, s.verify d = .ok (.missing path) := by
  induction steps generalizing before with
  | nil => exact ⟨[], [], rfl, fun s hs => (nomatch hs), (Except.ok.inj h).symm, nofun⟩
  | cons s steps ih =>
    rw [detectIn] at h
    cases hv : s.verify d with
    | error e => simp only [hv] at h; cases h
    | ok v =>
      cases v with
      | missing path =>
        simp only [hv] at h
        refine ⟨[], s :: steps, rfl, fun s hs => (nomatch hs), (Except.ok.inj h).symm, ?_⟩
        intro t ht
        obtain rfl := Option.some.inj ht
        exact ⟨path, hv⟩
      | satisfied =>
        simp only [hv] at h
        -- the walk goes on, and has this version in mind
        obtain ⟨passed, rest, rfl, hpassed, hdetected, hrest⟩ := ih h
        refine ⟨s :: passed, rest, rfl, List.forall_mem_cons.2 ⟨hv, hpassed⟩, ?_, hrest⟩
        rw [hdetected]
        cases hlast : passed.getLast? with
        | none =>
          rw [List.getLast?_eq_none_iff.1 hlast]
          rfl
        | some t => simp [List.getLast?_cons, hlast]

/-- Steps that are satisfied make no difference to a run. -/
theorem runOn_applySteps_append_of_satisfied {passed : List Step} {ws : Workspace}
    (h : ∀ s ∈ passed, s.verify ws.dashboard = .ok .satisfied) (rest : List Step) :
    Work.runOn (applySteps (passed ++ rest)) ws = Work.runOn (applySteps rest) ws := by
  induction passed with
  | nil => rfl
  | cons s passed ih =>
    rw [List.forall_mem_cons] at h
    rw [List.cons_append, applySteps, Work.runOn_bind_of_ok (Step.runOn_apply_of_satisfied h.1),
      Work.runOn_bind, ih h.2]
    cases Work.runOn (applySteps rest) ws with
    | mk r ws' => cases r <;> rfl

/-- A run that starts with a step that is not satisfied tells of its update first. -/
theorem head?_of_applySteps {s : Step} {steps : List Step} {ws ws' : Workspace} {path : String}
    (hv : s.verify ws.dashboard = .ok (.missing path)) {applied : List Version}
    (h : Work.runOn (applySteps (s :: steps)) ws = (.ok applied, ws')) :
    applied.head? = some s.version := by
  obtain ⟨updated, ws₁, rest, hrun, -, rfl⟩ := runOn_applySteps_cons_eq_ok h
  -- the step is not satisfied, so that its success is an update
  cases Step.ends_apply hrun with
  | satisfied hsat =>
    rw [hsat] at hv
    cases hv
  | updated => rfl

/-- What the detection and the run of a migration have to do with each other: the run makes updates
of the steps after the one that is detected, and of the first of them in any case. -/
theorem exists_split_of_migrate {steps : List Step} {ws ws' : Workspace}
    {detected : Option Version} (hdetect : detectIn ws.dashboard none steps = .ok detected)
    {applied : List Version} (hrun : Work.runOn (applySteps steps) ws = (.ok applied, ws')) :
    ∃ passed rest done, steps = passed ++ rest ∧
      detected = passed.getLast?.map (·.version) ∧ done.Sublist rest ∧
      applied = done.map (·.version) ∧ applied.head? = rest.head?.map (·.version) ∧
      Work.runOn (updateAll done) ws = (.ok (), ws') := by
  obtain ⟨passed, rest, rfl, hpassed, hdetected, hrest⟩ := exists_split_of_detectIn hdetect
  rw [Option.or_none] at hdetected
  rw [runOn_applySteps_append_of_satisfied hpassed] at hrun
  obtain ⟨done, hsub, happlied, hdone⟩ := exists_updateAll_of_applySteps hrun
  refine ⟨passed, rest, done, rfl, hdetected, hsub, happlied, ?_, hdone⟩
  cases rest with
  | nil =>
    rw [happlied, List.sublist_nil.1 hsub]
    rfl
  | cons s steps =>
    obtain ⟨path, hv⟩ := hrest s rfl
    exact head?_of_applySteps hv hrun

/-! ## Migrations -/

/-- The last version of a catalogue is reached iff no step is left. -/
theorem Catalogue.eq_nil_iff_of_steps_eq (c : Catalogue) {passed rest : List Step}
    (h : c.steps = passed ++ rest) :
    rest = [] ↔ passed.getLast?.map (·.version) = some c.latest := by
  have hlast : (passed ++ rest).getLast? = some (c.steps.getLast c.nonempty) :=
    h ▸ List.getLast?_eq_some_getLast c.nonempty
  have hasc := c.ascending
  rw [h, List.pairwise_append] at hasc
  constructor
  · rintro rfl
    rw [List.append_nil] at hlast
    rw [hlast]
    rfl
  · intro hpassed
    obtain ⟨t, ht, hversion⟩ := Option.map_eq_some_iff.1 hpassed
    cases hrest : rest.getLast? with
    | none => exact List.getLast?_eq_none_iff.1 hrest
    | some s =>
      -- the last of the steps that are left would come after a step of its own version
      rw [List.getLast?_append, hrest] at hlast
      obtain rfl := Option.some.inj hlast
      have hless := hasc.2.2 t (List.mem_of_getLast? ht) _ (List.mem_of_getLast? hrest)
      rw [hversion] at hless
      exact absurd hless (UInt32.lt_irrefl _)

/-- A migration fails in its detection, before anything is changed, or in its run. -/
theorem Catalogue.runOn_migrate_eq_error {c : Catalogue} {ws ws' : Workspace} {e : MigrationError}
    (h : Work.runOn c.migrate ws = (.error e, ws')) :
    (c.detect ws.dashboard = .error e ∧ ws' = ws) ∨
      Work.runOn (applySteps c.steps) ws = (.error e, ws') := by
  rw [Catalogue.migrate, Work.runOn_bind_of_ok (Work.runOn_get ws)] at h
  rcases Work.runOn_bind_eq_error h with hinspect | ⟨detected, ws₀, hinspect, h⟩
  · rw [Work.runOn_inspect] at hinspect
    obtain ⟨hdetect, rfl⟩ := Prod.mk.inj hinspect
    exact .inl ⟨hdetect, rfl⟩
  · rw [Work.runOn_inspect] at hinspect
    obtain ⟨-, rfl⟩ := Prod.mk.inj hinspect
    rcases Work.runOn_bind_eq_error h with hrun | ⟨applied, ws₁, -, h⟩
    · exact .inr hrun
    · -- nothing fails after the run
      rw [Work.runOn_bind_of_ok (Work.runOn_change _ ws₁)] at h
      cases (Prod.mk.inj h).1

/-- A detection fails only if a check does. -/
theorem exists_verify_of_detectIn_error {d : Dashboard} {steps : List Step}
    {before : Option Version} {e : MigrationError} (h : detectIn d before steps = .error e) :
    ∃ s ∈ steps, s.verify d = .error e := by
  induction steps generalizing before with
  | nil => exact nomatch h
  | cons s steps ih =>
    rw [detectIn] at h
    cases hv : s.verify d with
    | error e' =>
      simp only [hv] at h
      exact ⟨s, List.mem_cons_self, hv.trans (congrArg Except.error (Except.error.inj h))⟩
    | ok v =>
      cases v with
      | missing path => simp only [hv] at h; cases h
      | satisfied =>
        simp only [hv] at h
        obtain ⟨t, ht, hfail⟩ := ih h
        exact ⟨t, List.mem_cons_of_mem s ht, hfail⟩

/-- What a migration by any regular steps tells and leaves.

If it succeeds, the detected version is that of the document as it was, and the applied versions are
registered ones after it in ascending order, with no update left out before the first of them.  The
document is what their updates make of it, and the later one of the stored version and the last is
written.  If it fails, the stored version is still there, and a version that is said to be
incomplete is a registered one whose check tells the same field of the document that is left. -/
theorem migrate_report (c : Catalogue) (hc : ∀ s ∈ c.steps, s.IsRegular) (d : Dashboard)
    (ids : IdSupply) :
    (∀ report ws, Work.runOn c.migrate ⟨d, ids⟩ = (.ok report, ws) →
      c.detect d = .ok report.detected ∧
      report.applied.Pairwise (· < ·) ∧
      (∀ v ∈ report.applied, v ∈ c.steps.map (·.version) ∧ ∀ u ∈ report.detected, u < v) ∧
      (report.applied = [] ↔ report.detected = some c.latest) ∧
      (report.applied ≠ [] → ∃ before s after, c.steps = before ++ s :: after ∧
        report.detected = before.getLast?.map (·.version) ∧
        report.applied.head? = some s.version) ∧
      (∃ done ws₁, done.Sublist c.steps ∧ report.applied = done.map (·.version) ∧
        Work.runOn (updateAll done) ⟨d, ids⟩ = (.ok (), ws₁) ∧ ws.ids = ws₁.ids ∧
        ws.dashboard = { ws₁.dashboard with version := ws.dashboard.version }) ∧
      ws.dashboard.version = max d.version (some c.latest)) ∧
    ∀ e ws, Work.runOn c.migrate ⟨d, ids⟩ = (.error e, ws) →
      ws.dashboard.version = d.version ∧
      ∀ version field, e = .updateIncomplete version field →
        ∃ s ∈ c.steps, s.version = version ∧ s.verify ws.dashboard = .ok (.missing field) := by
  constructor
  · intro report ws h
    obtain ⟨ws₁, hdetect, hrun, rfl, -, -⟩ := c.runOn_migrate_eq_ok h
    obtain ⟨passed, rest, done, hsteps, hdetected, hsub, happlied, hhead, hdone⟩ :=
      exists_split_of_migrate hdetect hrun
    have hasc := c.ascending
    rw [hsteps, List.pairwise_append] at hasc
    obtain ⟨-, hrest, hlt⟩ := hasc
    refine ⟨hdetect, ?_, ?_, ?_, ?_, ?_, ?_⟩
    · rw [happlied]
      exact List.pairwise_map.2 (hrest.sublist hsub)
    · intro v hv
      rw [happlied] at hv
      obtain ⟨s, hs, rfl⟩ := List.mem_map.1 hv
      have hmem := hsub.subset hs
      refine ⟨List.mem_map_of_mem (hsteps ▸ List.mem_append_right _ hmem), fun u hu => ?_⟩
      rw [hdetected] at hu
      obtain ⟨t, ht, rfl⟩ := Option.map_eq_some_iff.1 hu
      exact hlt t (List.mem_of_getLast? ht) s hmem
    · -- nothing is applied iff no step is left after those that are satisfied
      have hnil : report.applied = [] ↔ rest = [] := by
        rw [← List.head?_eq_none_iff, hhead, Option.map_eq_none_iff, List.head?_eq_none_iff]
      rw [hnil, hdetected]
      exact c.eq_nil_iff_of_steps_eq hsteps
    · intro hne
      cases rest with
      | nil =>
        rw [List.head?_nil, Option.map_none, List.head?_eq_none_iff] at hhead
        exact absurd hhead hne
      | cons s after => exact ⟨passed, s, after, hsteps, hdetected, hhead⟩
    · refine ⟨done, ws₁, ?_, happlied, hdone, rfl, c.writeVersion_eq _ _⟩
      rw [hsteps]
      exact hsub.trans (List.sublist_append_right passed rest)
    · -- the updates have left the stored version alone, so that it is there to be compared
      rw [c.writeVersion_of_stored (version_of_applySteps hc hrun)]
      exact c.some_finalVersion _
  · intro e ws h
    rcases c.runOn_migrate_eq_error h with ⟨hdetect, rfl⟩ | hrun
    · refine ⟨rfl, ?_⟩
      rintro version field rfl
      -- checks do not speak of updates
      obtain ⟨s, hs, hv⟩ := exists_verify_of_detectIn_error hdetect
      obtain ⟨path, he⟩ := (hc s hs).verify_error _ _ hv
      exact nomatch he
    · refine ⟨version_of_applySteps hc hrun, ?_⟩
      rintro version field rfl
      exact verify_of_applySteps_incomplete hc hrun

/-- A catalogue of a step that gives a title, and of one that asks for parameters and forgets to put
them in. -/
def forgetful : Catalogue where
  steps := [
    { version := ⟨1⟩
      description := "title"
      verify d := .ok (.require d.title.isSome "title")
      update := Work.change fun d => { d with title := some (d.title.getD "Untitled") } },
    { version := ⟨2⟩
      description := "params"
      verify d := .ok d.verifyParams
      update := pure () }]
  nonempty := List.cons_ne_nil _ _
  ascending := pairwise_of_firstDescent?_eq_none (by decide)

/-- A document that has parameters is given a title, and its later version stays; one without
parameters is given a title too before the migration fails. -/
theorem migrate_report_forgetful :
    (∀ s ∈ forgetful.steps, s.IsRegular) ∧
      (∃ report ws,
        Work.runOn forgetful.migrate ⟨{ version := some ⟨7⟩, params := some [] }, fun _ => "id"⟩ =
          (.ok report, ws) ∧
        report.applied = [⟨1⟩] ∧ report.detected ≠ some forgetful.latest ∧
        ws.dashboard.version = some ⟨7⟩) ∧
      ∃ ws, Work.runOn forgetful.migrate ⟨{ version := some ⟨1⟩ }, fun _ => "id"⟩ =
          (.error (.updateIncomplete ⟨2⟩ "params"), ws) ∧
        ws.dashboard.title = some "Untitled" ∧ ws.dashboard.version = some ⟨1⟩ ∧
        ∃ s ∈ forgetful.steps, s.version = ⟨2⟩ ∧
          s.verify ws.dashboard = .ok (.missing "params") := by
  have hregular : ∀ s ∈ forgetful.steps, s.IsRegular := by
    refine List.forall_mem_cons.2 ⟨?_, List.forall_mem_cons.2 ⟨?_, List.forall_mem_nil _⟩⟩
    all_goals
      refine ⟨fun d e h => (nomatch h), fun ws e ws' h => (nomatch (Prod.mk.inj h).1), ?_⟩
      intro ws r ws' h
      rw [← (Prod.mk.inj h).2]
  obtain ⟨hok, -⟩ :=
    migrate_report forgetful hregular { version := some ⟨7⟩, params := some [] } fun _ => "id"
  obtain ⟨-, herror⟩ := migrate_report forgetful hregular { version := some ⟨1⟩ } fun _ => "id"
  refine ⟨hregular, ⟨_, _, rfl, rfl, ?_, ?_⟩, ⟨_, rfl, rfl, ?_, ?_⟩⟩
  · exact fun h => (nomatch (hok _ _ rfl).2.2.2.1.2 h)
  · exact (hok _ _ rfl).2.2.2.2.2.2
  · exact (herror _ _ rfl).1
  · exact (herror _ _ rfl).2 _ _ rfl

end Dashboards
