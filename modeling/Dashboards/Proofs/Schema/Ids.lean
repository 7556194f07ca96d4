import Dashboards.Proofs.Schema.Completion

/-!
# New ids

Giving out ids from a supply touches nothing but absent and empty ids.  If the supply has no empty
id then all containers and widgets have ids afterwards, and a dashboard that has all ids takes none.

## Key results

- `Dashboard.eraseIds_run_assignIds`: nothing but ids is touched
- `Dashboard.hasIds_run_assignIds`: all ids are there afterwards
- `Dashboard.assignIds_of_hasIds`, `Dashboard.complete_of_hasIds`: if all are there, none is taken
-/

namespace Dashboards

/-! ## Changes of lists with a state -/

/-- A list stays as it is if all its items do. -/
theorem mapM_eq_pure {m : Type → Type} [Monad m] [LawfulMonad m] {α : Type} {f : α → m α}
    {as : List α} (h : ∀ a ∈ as, f a = pure a) : as.mapM f = pure as := by
  induction as with
  | nil => simp
  | cons a as ih =>
    rw [List.forall_mem_cons] at h
    simp [h.1, ih h.2]

/-- What the items of a changed list have, if each change brings it about. -/
theorem forall_mem_run_mapM {σ α : Type} {f : α → StateM σ α} (inv : σ → Prop) (prop : α → Prop)
    (as : List α)
    (hf : ∀ a ∈ as, ∀ s, inv s → prop ((f a).run s).1 ∧ inv ((f a).run s).2) {s : σ}
    (hs : inv s) :
    (∀ b ∈ ((as.mapM f).run s).1, prop b) ∧ inv ((as.mapM f).run s).2 := by
  -- induction on the items, with the state that each of them leaves to the next
  induction as generalizing s with
  | nil => exact ⟨fun b hb => absurd hb List.not_mem_nil, hs⟩
  | cons a as ih =>
    rw [List.forall_mem_cons] at hf
    obtain ⟨hb, ha⟩ := hf.1 s hs
    obtain ⟨hbs, has⟩ := ih hf.2 ha
    simp only [List.mapM_cons, StateT.run_bind, StateT.run_pure]
    exact ⟨List.forall_mem_cons.2 ⟨hb, hbs⟩, has⟩

/-- What a change of each item of a list does not touch. -/
theorem map_run_mapM {σ α β : Type} {f : α → StateM σ α} {g : α → β}
    (hf : ∀ a s, g ((f a).run s).1 = g a) (as : List α) (s : σ) :
    ((as.mapM f).run s).1.map g = as.map g := by
  induction as generalizing s with
  | nil => rfl
  | cons a as ih =>
    simp only [List.mapM_cons, StateT.run_bind, StateT.run_pure, List.map_cons]
    rw [← hf a s, ← ih ((f a).run s).2]
    rfl

/-! ## Documents with all ids -/

/-- A container has an id and so has each of its widgets. -/
def Container.HasIds (c : Container) : Prop := hasId c.id ∧ ∀ w ∈ c.widgets, hasId w.id

/-- All containers and widgets have ids. -/
def Dashboard.HasIds (d : Dashboard) : Prop := ∀ c ∈ d.containers, c.HasIds

/-- A supply of ids that are not empty. -/
def IdSupply.NonEmpty (ids : IdSupply) : Prop := ∀ n, ids n ≠ ""

/-- A widget with an id takes none from the supply. -/
theorem Widget.addId_of_hasId {w : Widget} (h : hasId w.id) : w.addId = pure w := by
  simp [Widget.addId, assignId, h]

/-- A container with all ids takes none from the supply. -/
theorem Container.assignIds_of_hasIds {c : Container} (h : c.HasIds) : c.assignIds = pure c := by
  obtain ⟨hc, hw⟩ := h
  simp only [Container.assignIds, Container.updateParts, Container.addId, assignId, hc, if_true,
    pure_bind]
  rcases c with ⟨id, title, _ | ⟨flow, columns, height, _ | ws, extra⟩, rest⟩
  · rfl
  · rfl
  · have hws : ws.mapM Widget.addId = pure ws :=
      mapM_eq_pure fun w hm => Widget.addId_of_hasId (hw w (by simpa [Container.widgets] using hm))
    simp [Container.updateWidgets, hws]

/-- A dashboard with all ids takes none from the supply. -/
theorem Dashboard.assignIds_of_hasIds {d : Dashboard} (h : d.HasIds) : d.assignIds = pure d := by
  rcases d with ⟨id, title, version, params, _ | cs, extra⟩
  · rfl
  · have hcs : cs.mapM Container.assignIds = pure cs :=
      mapM_eq_pure fun c hc =>
        Container.assignIds_of_hasIds (h c (by simpa [Dashboard.containers] using hc))
    simp [Dashboard.assignIds, hcs]

/-- A dashboard with all ids is completed without the supply. -/
theorem Dashboard.complete_of_hasIds {d : Dashboard} (h : d.HasIds) :
    d.complete = pure d.completeParts := by
  rw [Dashboard.complete_eq, Dashboard.assignIds_of_hasIds h, map_pure]

/-- An id is taken from the supply where there is none. -/
theorem hasId_run_assignId (id : Option String) {ids : IdSupply} (h : ids.NonEmpty) :
    hasId ((assignId id).run ids).1 ∧ IdSupply.NonEmpty ((assignId id).run ids).2 := by
  simp only [assignId]
  -- an id that is there is kept; else the first one of the supply is taken, which is not empty
  split
  · rename_i hid
    exact ⟨hid, h⟩
  · have htake : hasId (some (ids 0)) := by simpa [hasId] using h 0
    exact ⟨htake, fun n => h (n + 1)⟩

/-! ## What giving out ids does -/

/-- A widget without its id. -/
def Widget.eraseId (w : Widget) : Widget := { w with id := none }

/-- A container without its id and those of its widgets. -/
def Container.eraseIds (c : Container) : Container :=
  { c.mapWidgets Widget.eraseId with id := none }

/-- A dashboard without the ids of containers and widgets. -/
def Dashboard.eraseIds (d : Dashboard) : Dashboard := d.mapContainers Container.eraseIds

/-- A widget is touched in its id only. -/
theorem Widget.eraseId_run_addId (w : Widget) (ids : IdSupply) :
    ((w.addId).run ids).1.eraseId = w.eraseId := rfl

/-- A widget has an id afterwards. -/
theorem Widget.hasId_run_addId (w : Widget) {ids : IdSupply} (h : ids.NonEmpty) :
    hasId ((w.addId).run ids).1.id ∧ IdSupply.NonEmpty ((w.addId).run ids).2 :=
  hasId_run_assignId w.id h

/-- A container is touched in its id and those of its widgets only. -/
theorem Container.eraseIds_run_assignIds (c : Container) (ids : IdSupply) :
    ((c.assignIds).run ids).1.eraseIds = c.eraseIds := by
  rcases c with ⟨id, title, _ | ⟨flow, columns, height, _ | ws, extra⟩, rest⟩
  · rfl
  · rfl
  · -- which ids are left for the widgets makes no difference to the rest of them
    have hws := map_run_mapM Widget.eraseId_run_addId ws ((assignId id).run ids).2
    simp only [Container.eraseIds, Container.mapWidgets, Option.map_some]
    rw [← hws]
    rfl

/-- A container and its widgets have ids afterwards. -/
theorem Container.hasIds_run_assignIds (c : Container) {ids : IdSupply} (h : ids.NonEmpty) :
    ((c.assignIds).run ids).1.HasIds ∧ IdSupply.NonEmpty ((c.assignIds).run ids).2 := by
  obtain ⟨hid, hids⟩ := hasId_run_assignId c.id h
  rcases c with ⟨id, title, _ | ⟨flow, columns, height, _ | ws, extra⟩, rest⟩
  · exact ⟨⟨hid, fun w hw => (nomatch hw)⟩, hids⟩
  · exact ⟨⟨hid, fun w hw => (nomatch hw)⟩, hids⟩
  · -- the widgets go on with the supply that the container leaves
    obtain ⟨hws, hids'⟩ :=
      forall_mem_run_mapM IdSupply.NonEmpty (fun w => hasId w.id) ws
        (fun w _ _ hs => w.hasId_run_addId hs) hids
    exact ⟨⟨hid, hws⟩, hids'⟩

/-- A dashboard is touched in the ids of its containers and widgets only. -/
theorem Dashboard.eraseIds_run_assignIds (d : Dashboard) (ids : IdSupply) :
    ((d.assignIds).run ids).1.eraseIds = d.eraseIds := by
  rcases d with ⟨id, title, version, params, _ | cs, extra⟩
  · rfl
  · have hcs := map_run_mapM Container.eraseIds_run_assignIds cs ids
    simp only [Dashboard.eraseIds, Dashboard.mapContainers, Option.map_some]
    rw [← hcs]
    rfl

/-- All containers and widgets have ids afterwards. -/
theorem Dashboard.hasIds_run_assignIds (d : Dashboard) {ids : IdSupply} (h : ids.NonEmpty) :
    ((d.assignIds).run ids).1.HasIds ∧ IdSupply.NonEmpty ((d.assignIds).run ids).2 := by
  rcases d with ⟨id, title, version, params, _ | cs, extra⟩
  · exact ⟨fun c hc => (nomatch hc), h⟩
  · exact forall_mem_run_mapM IdSupply.NonEmpty Container.HasIds cs
      (fun c _ _ hs => c.hasIds_run_assignIds hs) h

/-- Giving out the ids first makes no difference to the completion. -/
theorem Dashboard.run_complete_assignIds (d : Dashboard) {ids : IdSupply} (h : ids.NonEmpty) :
    ((d.assignIds).run ids).1.complete.run ((d.assignIds).run ids).2 = d.complete.run ids := by
  -- once they are given out there is nothing left that takes an id
  rw [Dashboard.complete_of_hasIds (d.hasIds_run_assignIds h).1, d.complete_eq, StateT.run_map]
  rfl

end Dashboards
