import Dashboards.Proofs.Schema.Structure

/-!
# What walks find and change

Checks without effects are satisfied iff they get through the document and every part satisfies
them, and they fail only for a hole.  Changes without effects change every part in its place.

## Key results

- `verifyParts_eq_satisfied_iff`: when a check of a whole document is satisfied
- `verifyParts_error`: a check fails only for the hole that `checkStructure` finds
- `updateParts_of_pure`: a change without effects, as a map over the document
-/

namespace Dashboards

/-! ## Checks -/

/-- A list of widgets is satisfied iff every widget is. -/
theorem verifyWidgetList_eq_satisfied_iff (check : Widget → Id Verification) (i j : Nat)
    (ws : List Widget) :
    Id.run (verifyWidgetList check i j ws) = .satisfied ↔
      ∀ w ∈ ws, Id.run (check w) = .satisfied := by
  induction ws generalizing j with
  | nil => simp [verifyWidgetList]
  | cons w ws ih =>
    simp only [verifyWidgetList, List.mem_cons, forall_eq_or_imp]
    rw [Id.run_bind]
    cases h : Id.run (check w) with
    | satisfied => simpa using ih (j + 1)
    | missing field => simp [Verification.within]

/-- The widgets of a container are satisfied iff there is a list of them and each of them is. -/
theorem verifyWidgetsOf_eq_satisfied_iff (check : Widget → Id Verification) (i : Nat)
    (c : Container) :
    Id.run (verifyWidgetsOf check i c) = .ok .satisfied ↔
      c.StructurallyComplete ∧ ∀ w ∈ c.widgets, Id.run (check w) = .satisfied := by
  -- a container with a hole has no widgets to be checked, and is an error
  rcases c.structurallyComplete_or_hole with h | ⟨place, h⟩
  · simp only [verifyWidgetsOf, h.widgets?_eq, h, true_and, Id.run_bind, Id.run_pure,
      Except.ok.injEq]
    exact verifyWidgetList_eq_satisfied_iff check i 0 c.widgets
  · simp [verifyWidgetsOf, h.widgets?_eq, h.not_structurallyComplete]

/-- The widgets of a container cannot be checked only if there is no list of them. -/
theorem verifyWidgetsOf_error {check : Widget → Id Verification} {i : Nat} {c : Container}
    {e : MigrationError} (h : Id.run (verifyWidgetsOf check i c) = .error e) :
    c.widgets? i = .error e := by
  simp only [verifyWidgetsOf] at h
  split at h
  · rename_i e' he
    rw [he]
    simpa using h
  · simp at h

section

variable (onContainer : Option (Container → Id Verification))
variable (onWidget : Option (Widget → Id Verification))

/-- A container satisfies the checks of itself and of its widgets. -/
def Container.Satisfies (c : Container) : Prop :=
  (∀ check ∈ onContainer, Id.run (check c) = .satisfied) ∧
    ∀ check ∈ onWidget, ∀ w ∈ c.widgets, Id.run (check w) = .satisfied

/-- One container is satisfied iff the walk gets through it and its parts are. -/
theorem verifyContainer_eq_satisfied_iff (i : Nat) (c : Container) :
    Id.run (verifyContainer onContainer onWidget i c) = .ok .satisfied ↔
      (onWidget.isSome → c.StructurallyComplete) ∧ c.Satisfies onContainer onWidget := by
  have hw := fun check => verifyWidgetsOf_eq_satisfied_iff check i c
  simp only [verifyContainer, Container.Satisfies]
  cases onContainer with
  | none => cases onWidget <;> simp [hw]
  | some own =>
    cases h : Id.run (own c) with
    | satisfied => cases onWidget <;> simp [h, hw]
    | missing field => simp [h, Verification.within]

/-- One container cannot be checked only if widgets are visited and it has no list of them. -/
theorem verifyContainer_error {i : Nat} {c : Container} {e : MigrationError}
    (h : Id.run (verifyContainer onContainer onWidget i c) = .error e) :
    onWidget.isSome ∧ c.widgets? i = .error e := by
  simp only [verifyContainer] at h
  cases onContainer with
  | none =>
    cases onWidget with
    | none => simp at h
    | some check => exact ⟨rfl, verifyWidgetsOf_error (by simpa using h)⟩
  | some own =>
    -- the check of the container itself gives a field, never an error
    cases ho : Id.run (own c) with
    | missing field => simp [ho] at h
    | satisfied =>
      cases onWidget with
      | none => simp [ho] at h
      | some check => exact ⟨rfl, verifyWidgetsOf_error (by simpa [ho] using h)⟩

/-- Containers are satisfied iff the walk gets through all of them and their parts are. -/
theorem verifyContainerList_eq_satisfied_iff (i : Nat) (cs : List Container) :
    Id.run (verifyContainerList onContainer onWidget i cs) = .ok .satisfied ↔
      (onWidget.isSome → ∀ c ∈ cs, c.StructurallyComplete) ∧
        ∀ c ∈ cs, c.Satisfies onContainer onWidget := by
  induction cs generalizing i with
  | nil => simp [verifyContainerList]
  | cons c cs ih =>
    have hc := verifyContainer_eq_satisfied_iff onContainer onWidget i c
    simp only [verifyContainerList, Id.run_bind, List.forall_mem_cons]
    split
    next heq =>
      have hc' := hc.1 heq
      rw [ih]
      exact ⟨fun h => ⟨fun ho => ⟨hc'.1 ho, h.1 ho⟩, hc'.2, h.2⟩,
        fun h => ⟨fun ho => (h.1 ho).2, h.2.2⟩⟩
    next hne =>
      -- the walk ends here, and nothing is said of the containers that follow
      simp only [Id.run_pure]
      exact ⟨fun h => absurd h hne, fun h => hc.2 ⟨fun ho => (h.1 ho).1, h.2.1⟩⟩

/-- Containers cannot be checked only for a hole. -/
theorem verifyContainerList_error {i : Nat} {cs : List Container} {e : MigrationError}
    (h : Id.run (verifyContainerList onContainer onWidget i cs) = .error e) :
    onWidget.isSome ∧ checkWidgetLists i cs = .error e := by
  induction cs generalizing i with
  | nil => simp [verifyContainerList] at h
  | cons c cs ih =>
    simp only [verifyContainerList, Id.run_bind] at h
    split at h
    next heq =>
      -- this container was satisfied, so it has a list of widgets if they were visited
      obtain ⟨ho, he⟩ := ih h
      have hc := ((verifyContainer_eq_satisfied_iff onContainer onWidget i c).1 heq).1 ho
      exact ⟨ho, by simpa only [checkWidgetLists, hc.widgets?_eq] using he⟩
    next =>
      obtain ⟨ho, he⟩ := verifyContainer_error onContainer onWidget h
      exact ⟨ho, by simp only [checkWidgetLists, he]⟩

/-- A check of a dashboard is satisfied iff the walk gets through and every part is satisfied. -/
theorem verifyParts_eq_satisfied_iff (d : Dashboard) :
    Id.run (d.verifyParts onContainer onWidget) = .ok .satisfied ↔
      d.Reaches (.ofWalk onWidget.isSome) ∧
        ∀ c ∈ d.containers, c.Satisfies onContainer onWidget := by
  simp only [Dashboard.verifyParts, Dashboard.containers?, Dashboard.containers]
  -- without a list of containers nothing is reached, not even by a walk over containers
  cases hcs : d.children with
  | none =>
    cases onWidget <;>
      simp [Depth.ofWalk, Dashboard.Reaches, Dashboard.StructurallyComplete, hcs]
  | some cs =>
    simp only [Option.getD_some]
    rw [verifyContainerList_eq_satisfied_iff]
    cases onWidget <;>
      simp [Depth.ofWalk, Dashboard.Reaches, Dashboard.StructurallyComplete, hcs]

/-- A check of a dashboard fails only for a hole that a change would have found too. -/
theorem verifyParts_error {d : Dashboard} {e : MigrationError}
    (h : Id.run (d.verifyParts onContainer onWidget) = .error e) :
    d.checkStructure onWidget.isSome = .error e := by
  simp only [Dashboard.verifyParts] at h
  simp only [Dashboard.checkStructure]
  split at h
  next => simpa using h
  next =>
    obtain ⟨ho, he⟩ := verifyContainerList_error onContainer onWidget h
    simpa [ho] using he

end

/-! ## Maps over documents -/

/-- Changes every widget of a container. -/
def Container.mapWidgets (f : Widget → Widget) (c : Container) : Container :=
  { c with grid := c.grid.map fun g => { g with children := g.children.map (·.map f) } }

/-- Changes every container of a dashboard. -/
def Dashboard.mapContainers (f : Container → Container) (d : Dashboard) : Dashboard :=
  { d with children := d.children.map (·.map f) }

/-- The widgets of a changed container are its widgets, changed. -/
@[simp] theorem Container.widgets_mapWidgets (f : Widget → Widget) (c : Container) :
    (c.mapWidgets f).widgets = c.widgets.map f := by
  simp only [Container.widgets, Container.mapWidgets]
  cases c.grid with
  | none => rfl
  | some g => cases hw : g.children <;> simp [hw]

/-- The containers of a changed dashboard are its containers, changed. -/
@[simp] theorem Dashboard.containers_mapContainers (f : Container → Container) (d : Dashboard) :
    (d.mapContainers f).containers = d.containers.map f := by
  simp only [Dashboard.containers, Dashboard.mapContainers]
  cases d.children <;> rfl

/-- A map that leaves every widget of a container alone leaves the container alone. -/
theorem Container.mapWidgets_eq_self {f : Widget → Widget} {c : Container}
    (h : ∀ w ∈ c.widgets, f w = w) : c.mapWidgets f = c := by
  rcases c with ⟨cid, title, _ | ⟨flow, columns, height, _ | ws, extra⟩, rest⟩
  · rfl
  · rfl
  · have hws : ws.map f = ws := (List.map_congr_left h).trans (List.map_id' ws)
    simp [Container.mapWidgets, hws]

/-- A map that leaves every container of a dashboard alone leaves the dashboard alone. -/
theorem Dashboard.mapContainers_eq_self {f : Container → Container} {d : Dashboard}
    (h : ∀ c ∈ d.containers, f c = c) : d.mapContainers f = d := by
  rcases d with ⟨did, title, version, params, _ | cs, extra⟩
  · rfl
  · have hcs : cs.map f = cs := (List.map_congr_left h).trans (List.map_id' cs)
    simp [Dashboard.mapContainers, hcs]

/-- A map over widgets keeps what a container has on the way to them. -/
theorem Container.structurallyComplete_mapWidgets {f : Widget → Widget} {c : Container}
    (h : c.StructurallyComplete) : (c.mapWidgets f).StructurallyComplete := by
  obtain ⟨g, ws, hg, hws⟩ := h
  exact ⟨{ g with children := some (ws.map f) }, ws.map f, by simp [Container.mapWidgets, hg, hws],
    rfl⟩

/-- A map that keeps the lists of widgets keeps the structure of the dashboard. -/
theorem Dashboard.reaches_mapContainers {f : Container → Container} {d : Dashboard}
    (hf : ∀ c, c.StructurallyComplete → (f c).StructurallyComplete) {depth : Depth}
    (h : d.Reaches depth) : (d.mapContainers f).Reaches depth := by
  cases depth with
  | root => trivial
  | containers =>
    obtain ⟨cs, hcs⟩ := h
    exact ⟨cs.map f, by simp [Dashboard.mapContainers, hcs]⟩
  | widgets =>
    obtain ⟨cs, hcs, hall⟩ := h
    refine ⟨cs.map f, by simp [Dashboard.mapContainers, hcs], fun c hc => ?_⟩
    obtain ⟨b, hb, rfl⟩ := List.mem_map.1 hc
    exact hf b (hall b hb)

/-! ## Changes -/

section Changes

variable {m : Type → Type} [Monad m]
variable {onContainer : Option (Container → m Container)} {onWidget : Option (Widget → m Widget)}

/-- A change that cannot walk through a dashboard touches nothing. -/
theorem updateParts_of_error {d : Dashboard} {e : MigrationError}
    (h : d.checkStructure onWidget.isSome = .error e) :
    d.updateParts onContainer onWidget = pure (.error e) := by
  simp only [Dashboard.updateParts, h]

variable [LawfulMonad m]

/-- A change that can walk through a dashboard changes its containers in order. -/
theorem updateParts_of_reaches {d : Dashboard} (h : d.Reaches (.ofWalk onWidget.isSome)) :
    d.updateParts onContainer onWidget = do
      let children ← d.children.mapM (·.mapM (·.updateParts onContainer onWidget))
      return .ok { d with children } := by
  -- the structure is looked at first, and only then is anything changed
  simp only [Dashboard.updateParts, (checkStructure_eq_ok_iff _ _).2 h]
  rcases d with ⟨id, title, version, params, _ | cs, extra⟩ <;> simp

/-- A change of widgets without effects is a map. -/
theorem Container.updateWidgets_pure (f : Widget → Widget) (c : Container) :
    c.updateWidgets (fun w => pure (f w)) = (pure (c.mapWidgets f) : m Container) := by
  rcases c with ⟨id, title, _ | ⟨flow, columns, height, _ | ws, extra⟩, rest⟩ <;>
    simp [Container.updateWidgets, Container.mapWidgets]

/-- A visit to widgets only, without effects, is a map. -/
theorem Container.updateParts_pure_widgets (f : Widget → Widget) (c : Container) :
    c.updateParts none (some fun w => pure (f w)) = (pure (c.mapWidgets f) : m Container) := by
  simp only [Container.updateParts, pure_bind, Container.updateWidgets_pure]

/-- A visit to containers only, without effects, is a map. -/
theorem Container.updateParts_pure_containers (f : Container → Container) (c : Container) :
    c.updateParts (some fun c => pure (f c)) none = (pure (f c) : m Container) := by
  simp only [Container.updateParts, pure_bind]

/-- A change of a dashboard without effects is a map. -/
theorem updateParts_of_pure {f : Container → Container} {d : Dashboard}
    (h : d.Reaches (.ofWalk onWidget.isSome))
    (hf : ∀ c, c.updateParts onContainer onWidget = pure (f c)) :
    d.updateParts onContainer onWidget = pure (.ok (d.mapContainers f)) := by
  -- without effects the loops over containers are maps
  rw [updateParts_of_reaches h, funext hf]
  simp only [List.mapM_pure, Dashboard.mapContainers]
  cases d.children <;> simp

end Changes

end Dashboards
