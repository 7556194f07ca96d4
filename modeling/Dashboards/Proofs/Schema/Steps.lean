import Dashboards.Proofs.Schema.Parts.Dashboard
import Dashboards.Proofs.Schema.Work

/-!
# Steps of the history

What each of the twelve versions asks of a dashboard, what its update puts in, and what all of them
have in common: a check is satisfied by the parts that it asks for, and an update puts in parts,
takes none away, leaves a satisfied document alone, and does nothing that completion would not do.

## Key results

- `StepRule`: the laws of a version
- `schemaRules`: a rule for each version of the history
-/

namespace Dashboards

/-! ## The laws of a version -/

/-- The completion of a dashboard at work, with the ids that are left then. -/
def Workspace.complete (ws : Workspace) : Dashboard × IdSupply := ws.dashboard.complete.run ws.ids

/-- What a walk of some depth needs of the structure of a dashboard. -/
def Dashboard.checkDepth (d : Dashboard) : Depth → Except MigrationError Unit
  | .root => .ok ()
  | .containers => d.checkStructure false
  | .widgets => d.checkStructure true

/-- A walk of some depth is possible iff the lists that it needs are there. -/
theorem Dashboard.checkDepth_eq_ok_iff (d : Dashboard) (depth : Depth) :
    d.checkDepth depth = .ok () ↔ d.Reaches depth := by
  cases depth with
  | root => simp [Dashboard.checkDepth, Dashboard.Reaches]
  | containers => exact checkStructure_eq_ok_iff false d
  | widgets => exact checkStructure_eq_ok_iff true d

/-- A version of the history: how deep it walks, the parts that its check asks for, the parts that
its update puts in, and what that update makes of a workspace that it can walk through. -/
structure StepRule where
  step : Step
  depth : Depth
  needs : List Dashboard.Part
  adds : List Dashboard.Part
  effect : Workspace → Workspace
  verify_eq_satisfied_iff : ∀ d, step.verify d = .ok .satisfied ↔
    d.Reaches depth ∧ ∀ p ∈ needs, d.Has p
  -- a check may stop before a hole, but it fails only at the hole that the update would find
  verify_error : ∀ d e, step.verify d = .error e → d.checkDepth depth = .error e
  update_error : ∀ ws e, ws.dashboard.checkDepth depth = .error e →
    Work.runOn step.update ws = (.error e, ws)
  update_of_reaches : ∀ ws, ws.dashboard.Reaches depth →
    Work.runOn step.update ws = (.ok (), effect ws)
  needs_subset_adds : needs ⊆ adds
  -- nothing is taken away, and nothing else is put in
  has_effect : ∀ ws p, ws.ids.NonEmpty →
    ((effect ws).dashboard.Has p ↔ ws.dashboard.Has p ∨ p ∈ adds)
  reaches_effect : ∀ ws k, ws.dashboard.Reaches k → (effect ws).dashboard.Reaches k
  effect_of_has : ∀ ws, ws.dashboard.Reaches depth → (∀ p ∈ needs, ws.dashboard.Has p) →
    effect ws = ws
  complete_effect : ∀ ws, ws.dashboard.StructurallyComplete → ws.ids.NonEmpty →
    (effect ws).complete = ws.complete
  version_effect : ∀ ws, (effect ws).dashboard.version = ws.dashboard.version
  nonEmpty_effect : ∀ ws, ws.ids.NonEmpty → (effect ws).ids.NonEmpty

/-! ## Versions about widgets -/

/-- A version about widgets makes no difference to the completion of a widget. -/
theorem WidgetRule.complete_update (rule : WidgetRule) (w : Widget) :
    (rule.update w).complete = w.complete := by
  simp only [Widget.complete, rule.id_update, rule.completeParts_update]

/-- The laws of a version about every widget. -/
def widgetStepRule (number : UInt32) (description : String) (rule : WidgetRule) : StepRule where
  step := widgetStep number description rule.verify rule.update
  depth := .widgets
  needs := rule.needs.map .ofWidgets
  adds := rule.adds.map .ofWidgets
  effect ws := { ws with dashboard := ws.dashboard.mapContainers (·.mapWidgets rule.update) }
  verify_eq_satisfied_iff d := by
    rw [Dashboard.forall_has_ofWidgets_iff]
    refine (verifyParts_eq_satisfied_iff none (some rule.verify) d).trans ?_
    simp [Container.Satisfies, Depth.ofWalk, Id.run, rule.verify_eq_satisfied_iff]
  verify_error d e h := verifyParts_error none (some rule.verify) h
  update_error ws e h := Work.runOn_changeParts_of_error h
  update_of_reaches ws h :=
    Work.runOn_changeParts_of_pure h (Container.updateParts_pure_widgets rule.update)
  needs_subset_adds := List.map_subset _ rule.needs_subset_adds
  has_effect ws p _ := by
    cases p with
    | params => simp [Dashboard.Has, Dashboard.mapContainers]
    | ofContainers q =>
      simp only [Dashboard.Has, Dashboard.containers_mapContainers, List.forall_mem_map,
        Container.has_mapWidgets]
      simp
    | ofWidgets q =>
      -- the widgets afterwards are the updated ones, in their order
      have hw := Dashboard.widgets_mapContainers (·.mapWidgets rule.update) rule.update
        (Container.widgets_mapWidgets rule.update) ws.dashboard
      simp only [Dashboard.Has, hw, List.forall_mem_map, rule.has_update]
      by_cases hq : q ∈ rule.adds <;> simp [hq]
  reaches_effect ws k h :=
    Dashboard.reaches_mapContainers (fun _ hc => Container.structurallyComplete_mapWidgets hc) h
  effect_of_has ws _ hp := by
    rw [Dashboard.forall_has_ofWidgets_iff] at hp
    have heq := Dashboard.mapContainers_eq_self fun c hc =>
      Container.mapWidgets_eq_self fun w hw => rule.update_of_has w (hp c hc w hw)
    simp only [heq]
  complete_effect ws _ _ := by
    simp only [Workspace.complete, Dashboard.complete_mapContainers fun c _ =>
      c.complete_mapWidgets rule.complete_update]
  version_effect _ := rfl
  nonEmpty_effect _ h := h

/-! ## The version about parameters -/

/-- The laws of the version about the dashboard itself. -/
def paramsStepRule : StepRule where
  step := paramsStep
  depth := .root
  needs := [.params]
  adds := [.params]
  effect ws := { ws with dashboard := ws.dashboard.addParams }
  verify_eq_satisfied_iff d := by
    simp [paramsStep, Dashboard.verifyParams, Dashboard.Reaches, Dashboard.Has]
  verify_error d e h := nomatch h
  update_error ws e h := nomatch h
  update_of_reaches ws _ := rfl
  needs_subset_adds := List.Subset.refl _
  has_effect ws p _ := by
    cases p with
    | params => simp [Dashboard.Has, Dashboard.addParams]
    | ofContainers q => simp [Dashboard.Has, Dashboard.addParams, Dashboard.containers]
    | ofWidgets q =>
      simp [Dashboard.Has, Dashboard.addParams, Dashboard.widgets, Dashboard.containers]
  reaches_effect ws k h := by cases k <;> exact h
  effect_of_has ws _ hp := by
    obtain ⟨ps, hps⟩ := Option.isSome_iff_exists.1 (hp .params List.mem_cons_self)
    simp only [Dashboard.addParams, hps, Option.getD_some]
    rw [← hps]
  complete_effect ws _ _ := rfl
  version_effect _ := rfl
  nonEmpty_effect _ h := h

/-! ## The version about the layout of containers -/

/-- The laws of the version about every container. -/
def containerLayoutStepRule : StepRule where
  step := containerLayoutStep
  depth := .containers
  needs := layoutParts.map .ofContainers
  adds := layoutParts.map .ofContainers
  effect ws := { ws with dashboard := ws.dashboard.mapContainers Container.addLayout }
  verify_eq_satisfied_iff d := by
    refine (verifyParts_eq_satisfied_iff (some Container.verifyLayout) none d).trans ?_
    simp only [Container.Satisfies, Depth.ofWalk, Id.run, Option.mem_some, forall_eq',
      Container.verifyLayout_eq_satisfied_iff]
    simp only [List.forall_mem_map, Dashboard.Has, Option.not_mem_none, false_implies,
      implies_true, and_true]
    exact and_congr_right fun _ => ⟨fun h p hp c hc => h c hc p hp, fun h c hc p hp => h p hp c hc⟩
  verify_error d e h := verifyParts_error (some Container.verifyLayout) none h
  update_error ws e h := Work.runOn_changeParts_of_error h
  update_of_reaches ws h :=
    Work.runOn_changeParts_of_pure h (Container.updateParts_pure_containers Container.addLayout)
  needs_subset_adds := List.Subset.refl _
  has_effect ws p _ := by
    cases p with
    | params => simp [Dashboard.Has, Dashboard.mapContainers]
    | ofContainers q =>
      simp only [Dashboard.Has, Dashboard.containers_mapContainers, List.forall_mem_map,
        Container.has_addLayout]
      by_cases hq : q ∈ layoutParts <;> simp [hq]
    | ofWidgets q =>
      have hw := Dashboard.widgets_mapContainers Container.addLayout (fun w => w)
        (by simp [Container.widgets_addLayout]) ws.dashboard
      simp [Dashboard.Has, hw]
  reaches_effect ws k h :=
    Dashboard.reaches_mapContainers (fun _ hc => Container.structurallyComplete_addLayout hc) h
  effect_of_has ws _ hp := by
    have heq := Dashboard.mapContainers_eq_self fun c hc =>
      Container.addLayout_of_has fun p hm =>
        hp (.ofContainers p) (List.mem_map_of_mem hm) c hc
    simp only [heq]
  complete_effect ws h _ := by
    -- a grid that is put in would have a list of widgets, so the structure must be complete here
    obtain ⟨cs, hcs, hall⟩ := h
    simp only [Workspace.complete]
    rw [Dashboard.complete_mapContainers fun c hc => Container.complete_addLayout (hall c ?_)]
    simpa [Dashboard.containers, hcs] using hc
  version_effect _ := rfl
  nonEmpty_effect _ h := h

/-! ## The version about ids -/

/-- The laws of the version about the ids of containers and widgets. -/
def idsStepRule : StepRule where
  step := idsStep
  depth := .widgets
  needs := [.ofContainers .id, .ofWidgets .id]
  adds := [.ofContainers .id, .ofWidgets .id]
  effect ws :=
    let r := ws.dashboard.assignIds.run ws.ids
    ⟨r.1, r.2⟩
  verify_eq_satisfied_iff d := by
    refine
      (verifyParts_eq_satisfied_iff (some Container.verifyId) (some Widget.verifyId) d).trans ?_
    have h := d.hasIds_iff
    simp only [Dashboard.HasIds, Container.HasIds] at h
    simpa [Container.Satisfies, Depth.ofWalk, Id.run, Container.verifyId, Widget.verifyId]
      using fun _ => h
  verify_error d e h := verifyParts_error (some Container.verifyId) (some Widget.verifyId) h
  update_error ws e h := Work.runOn_changeParts_of_error h
  update_of_reaches ws h := by
    simp only [idsStep, Work.changeParts]
    rw [Work.runOn_bind_of_ok (Work.runOn_get ws), updateParts_of_reaches h]
    rfl
  needs_subset_adds := List.Subset.refl _
  has_effect ws p hids := by
    have hadds : p ∈ [Dashboard.Part.ofContainers .id, .ofWidgets .id] ↔ p.IsId := by
      simp [Dashboard.Part.IsId]
    rw [hadds]
    -- parts that are ids are there afterwards, and the others do not depend on ids
    by_cases hp : p.IsId
    · have hall := Dashboard.hasIds_iff _ |>.1 (ws.dashboard.hasIds_run_assignIds hids).1
      refine ⟨fun _ => .inr hp, fun _ => ?_⟩
      rcases hp with rfl | rfl
      · exact hall.1
      · exact hall.2
    · have hd := ws.dashboard.eraseIds_run_assignIds ws.ids
      rw [← Dashboard.has_eraseIds_iff _ hp, hd, Dashboard.has_eraseIds_iff _ hp, or_iff_left hp]
  reaches_effect ws k h := by
    have hd := ws.dashboard.eraseIds_run_assignIds ws.ids
    rw [← Dashboard.reaches_eraseIds_iff, hd, Dashboard.reaches_eraseIds_iff]
    exact h
  effect_of_has ws _ hp := by
    have hids := ws.dashboard.hasIds_iff.2 ⟨hp _ (by simp), hp _ (by simp)⟩
    simp only [Dashboard.assignIds_of_hasIds hids]
    rfl
  complete_effect ws _ hids := ws.dashboard.run_complete_assignIds hids
  version_effect ws := by
    rcases ws with ⟨⟨did, title, version, params, _ | cs, extra⟩, ids⟩ <;> rfl
  nonEmpty_effect ws h := (ws.dashboard.hasIds_run_assignIds h).2

/-! ## The history -/

/-- The laws of all versions, in order. -/
def schemaRules : List StepRule := [
  widgetStepRule 1 "widget datasource config" configRule,
  widgetStepRule 2 "widget layout spans" spansRule,
  widgetStepRule 3 "chart options" chartOptionsRule,
  widgetStepRule 4 "chart tooltip" tooltipRule,
  widgetStepRule 5 "legend position object" legendRule,
  widgetStepRule 6 "datasource results config" resultsRule,
  paramsStepRule,
  containerLayoutStepRule,
  widgetStepRule 9 "datasource type and custom query flag" datasourceRule,
  widgetStepRule 10 "query property lists" queryListsRule,
  idsStepRule,
  widgetStepRule 12 "datasource filters object" filtersRule]

/-- There is a rule for each version. -/
theorem map_step_schemaRules : schemaRules.map (·.step) = schemaHistory := rfl

/-- Together the versions ask for all parts. -/
theorem exists_mem_needs (p : Dashboard.Part) : ∃ rule ∈ schemaRules, p ∈ rule.needs := by
  cases p with
  | params => decide
  | ofContainers q => cases q <;> decide
  | ofWidgets q => cases q <;> decide

end Dashboards
