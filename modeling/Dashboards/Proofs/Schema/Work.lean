import Dashboards.Proofs.Schema.Walk

/-!
# Runs of work

What a piece of work gives and what workspace it leaves, one equation for each primitive of work.
Later files open work by these equations only.
-/

namespace Dashboards

namespace Work

variable {α β : Type}

/-- The result of work on a workspace, with the workspace that it leaves. -/
def runOn (x : Work α) (ws : Workspace) : Except MigrationError α × Workspace := x.run.run ws

/-- Work that does nothing leaves the workspace as it is. -/
@[simp] theorem runOn_pure (a : α) (ws : Workspace) :
    runOn (pure a) ws = (.ok a, ws) := rfl

/-- Work that gives up leaves the workspace as it is. -/
@[simp] theorem runOn_throw (e : MigrationError) (ws : Workspace) :
    runOn (throw e : Work α) ws = (.error e, ws) := rfl

/-- Looking at the workspace leaves it as it is. -/
@[simp] theorem runOn_get (ws : Workspace) : runOn get ws = (.ok ws, ws) := rfl

/-- A change of the document leaves the supply of ids as it is. -/
@[simp] theorem runOn_change (f : Dashboard → Dashboard) (ws : Workspace) :
    runOn (change f) ws = (.ok (), { ws with dashboard := f ws.dashboard }) := rfl

/-- Work in two parts stops if the first part fails. -/
theorem runOn_bind (x : Work α) (f : α → Work β) (ws : Workspace) :
    runOn (x >>= f) ws = match runOn x ws with
      | (.ok a, ws') => runOn (f a) ws'
      | (.error e, ws') => (.error e, ws') := by
  simp only [runOn, ExceptT.run_bind, StateT.run_bind]
  cases x.run.run ws with
  | mk r ws' => cases r <;> rfl

/-- The second part goes on where the first has ended. -/
theorem runOn_bind_of_ok {x : Work α} {f : α → Work β} {ws ws' : Workspace} {a : α}
    (h : runOn x ws = (.ok a, ws')) : runOn (x >>= f) ws = runOn (f a) ws' := by
  rw [runOn_bind, h]

/-- The second part is left out if the first fails. -/
theorem runOn_bind_of_error {x : Work α} {f : α → Work β} {ws ws' : Workspace}
    {e : MigrationError} (h : runOn x ws = (.error e, ws')) :
    runOn (x >>= f) ws = (.error e, ws') := by
  rw [runOn_bind, h]

/-- Work in two parts succeeds only if both parts do. -/
theorem runOn_bind_eq_ok {x : Work α} {f : α → Work β} {ws ws' : Workspace} {b : β}
    (h : runOn (x >>= f) ws = (.ok b, ws')) :
    ∃ a ws₁, runOn x ws = (.ok a, ws₁) ∧ runOn (f a) ws₁ = (.ok b, ws') := by
  rw [runOn_bind] at h
  cases hx : runOn x ws with
  | mk r ws₁ =>
    rw [hx] at h
    cases r with
    | error e => exact nomatch h
    | ok a => exact ⟨a, ws₁, rfl, h⟩

/-- Work in two parts fails in the first part, or after it in the second. -/
theorem runOn_bind_eq_error {x : Work α} {f : α → Work β} {ws ws' : Workspace}
    {e : MigrationError} (h : runOn (x >>= f) ws = (.error e, ws')) :
    runOn x ws = (.error e, ws') ∨
      ∃ a ws₁, runOn x ws = (.ok a, ws₁) ∧ runOn (f a) ws₁ = (.error e, ws') := by
  rw [runOn_bind] at h
  cases hx : runOn x ws with
  | mk r ws₁ =>
    rw [hx] at h
    -- the error of the first part ends the work; otherwise it comes from the second
    cases r with
    | error e' =>
      obtain ⟨he, rfl⟩ := Prod.mk.inj h
      obtain rfl := Except.error.inj he
      exact .inl rfl
    | ok a => exact .inr ⟨a, ws₁, rfl, h⟩

/-- A check tells what it finds and touches nothing. -/
theorem runOn_inspect (check : Dashboard → Except MigrationError α) (ws : Workspace) :
    runOn (inspect check) ws = (check ws.dashboard, ws) := by
  simp only [inspect]
  -- the check sees the document, and its outcome is all that is made of it
  rw [runOn_bind_of_ok (runOn_get ws)]
  cases check ws.dashboard <;> rfl

/-- A change of parts, where the structure of the dashboard does not allow it. -/
theorem runOn_changeParts_of_error {onContainer : Option (Container → StateM IdSupply Container)}
    {onWidget : Option (Widget → StateM IdSupply Widget)} {ws : Workspace} {e : MigrationError}
    (h : ws.dashboard.checkStructure onWidget.isSome = .error e) :
    runOn (changeParts onContainer onWidget) ws = (.error e, ws) := by
  simp only [changeParts]
  rw [runOn_bind_of_ok (runOn_get ws), updateParts_of_error h]
  rfl

/-- A change of parts that gets through puts its result in the place of the document. -/
theorem runOn_changeParts_of_ok {onContainer : Option (Container → StateM IdSupply Container)}
    {onWidget : Option (Widget → StateM IdSupply Widget)} {ws : Workspace} {d : Dashboard}
    {ids : IdSupply}
    (h : (ws.dashboard.updateParts onContainer onWidget).run ws.ids = (.ok d, ids)) :
    runOn (changeParts onContainer onWidget) ws = (.ok (), ⟨d, ids⟩) := by
  simp only [changeParts]
  rw [runOn_bind_of_ok (runOn_get ws), h]
  rfl

/-- A change of containers without effects, where the structure of the dashboard allows it. -/
theorem runOn_changeParts_of_pure {onContainer : Option (Container → StateM IdSupply Container)}
    {onWidget : Option (Widget → StateM IdSupply Widget)} {f : Container → Container}
    {ws : Workspace} (h : ws.dashboard.Reaches (.ofWalk onWidget.isSome))
    (hf : ∀ c, c.updateParts onContainer onWidget = pure (f c)) :
    runOn (changeParts onContainer onWidget) ws =
      (.ok (), { ws with dashboard := ws.dashboard.mapContainers f }) := by
  simp only [changeParts]
  rw [runOn_bind_of_ok (runOn_get ws), updateParts_of_pure h hf]
  rfl

end Work

/-! ## Steps -/

namespace Step

/-- A step whose check fails does nothing. -/
theorem runOn_apply_of_error {s : Step} {ws : Workspace} {e : MigrationError}
    (h : s.verify ws.dashboard = .error e) : Work.runOn s.apply ws = (.error e, ws) := by
  have hi := Work.runOn_inspect s.verify ws
  rw [h] at hi
  exact Work.runOn_bind_of_error hi

/-- A step that is satisfied does nothing. -/
theorem runOn_apply_of_satisfied {s : Step} {ws : Workspace}
    (h : s.verify ws.dashboard = .ok .satisfied) : Work.runOn s.apply ws = (.ok false, ws) := by
  have hi := Work.runOn_inspect s.verify ws
  rw [h] at hi
  exact Work.runOn_bind_of_ok hi

/-- A step whose update fails fails with it. -/
theorem runOn_apply_of_update_error {s : Step} {ws ws' : Workspace} {path : String}
    {e : MigrationError} (h : s.verify ws.dashboard = .ok (.missing path))
    (hu : Work.runOn s.update ws = (.error e, ws')) :
    Work.runOn s.apply ws = (.error e, ws') := by
  have hi := Work.runOn_inspect s.verify ws
  rw [h] at hi
  rw [Step.apply, Work.runOn_bind_of_ok hi]
  exact Work.runOn_bind_of_error hu

/-- A step whose update is enough makes that update. -/
theorem runOn_apply_of_update {s : Step} {ws ws' : Workspace} {path : String}
    (h : s.verify ws.dashboard = .ok (.missing path))
    (hu : Work.runOn s.update ws = (.ok (), ws'))
    (hs : s.verify ws'.dashboard = .ok .satisfied) :
    Work.runOn s.apply ws = (.ok true, ws') := by
  -- the step is checked before its update and once more after it
  have hi := Work.runOn_inspect s.verify ws
  have hi' := Work.runOn_inspect s.verify ws'
  rw [h] at hi
  rw [hs] at hi'
  rw [Step.apply, Work.runOn_bind_of_ok hi]
  exact (Work.runOn_bind_of_ok hu).trans (Work.runOn_bind_of_ok hi')

end Step

end Dashboards
