import Dashboards.Proofs.Schema.Parts.Widget

/-!
# Parts of dashboards

The history of the schema asks for parts of the dashboard itself, of all its containers and of all
its widgets.

## Key results

- `Dashboard.Has`: a dashboard has a part wherever it is asked for
- `Dashboard.completeParts_of_has`: a dashboard that has all parts is complete
- `Dashboard.has_eraseIds_iff`: parts other than ids do not depend on ids
-/

namespace Dashboards

/-! ## What a dashboard has -/

/-- What the history of the schema asks of a container. -/
inductive Container.Part where
  | id
  | flow
  | columns
  | height
deriving DecidableEq, Repr

/-- Whether a container has a part. -/
def Container.has (c : Container) : Container.Part → Bool
  | .id => hasId c.id
  | .flow => (c.grid.getD {}).flow.isSome
  | .columns => (c.grid.getD {}).columns.isSome
  | .height => (c.grid.getD {}).height.isSome

/-- What the history of the schema asks of a dashboard. -/
inductive Dashboard.Part where
  | params
  | ofContainers (p : Container.Part)
  | ofWidgets (p : Widget.Part)
deriving DecidableEq, Repr

/-- A dashboard has a part: itself, in all its containers, or in all its widgets. -/
def Dashboard.Has (d : Dashboard) : Dashboard.Part → Prop
  | .params => d.params.isSome
  | .ofContainers p => ∀ c ∈ d.containers, c.has p
  | .ofWidgets p => ∀ w ∈ d.widgets, w.has p

/-- A dashboard has all ids iff it has the parts that are ids. -/
theorem Dashboard.hasIds_iff (d : Dashboard) :
    d.HasIds ↔ d.Has (.ofContainers .id) ∧ d.Has (.ofWidgets .id) := by
  simp only [Dashboard.HasIds, Container.HasIds, Dashboard.Has, Container.has, Widget.has,
    Dashboard.widgets, List.forall_mem_flatMap]
  exact ⟨fun h => ⟨fun c hc => (h c hc).1, fun c hc => (h c hc).2⟩,
    fun h c hc => ⟨h.1 c hc, h.2 c hc⟩⟩

/-- The widgets of a dashboard whose containers are changed in their widgets only. -/
theorem Dashboard.widgets_mapContainers (f : Container → Container) (g : Widget → Widget)
    (h : ∀ c, (f c).widgets = c.widgets.map g) (d : Dashboard) :
    (d.mapContainers f).widgets = d.widgets.map g := by
  simp only [Dashboard.widgets, Dashboard.containers_mapContainers, List.flatMap_map,
    List.map_flatMap, h]

/-! ## Parts in all widgets -/

/-- A dashboard has some parts in all its widgets. -/
theorem Dashboard.forall_has_ofWidgets_iff (d : Dashboard) (ps : List Widget.Part) :
    (∀ q ∈ ps.map Dashboard.Part.ofWidgets, d.Has q) ↔
      ∀ c ∈ d.containers, ∀ w ∈ c.widgets, ∀ p ∈ ps, w.has p := by
  simp only [List.forall_mem_map, Dashboard.Has, Dashboard.widgets, List.forall_mem_flatMap]
  exact ⟨fun h c hc w hw p hp => h p hp c hc w hw, fun h p hp c hc w hw => h c hc w hw p hp⟩

/-- The parts of a container itself do not depend on its widgets. -/
theorem Container.has_mapWidgets (f : Widget → Widget) (c : Container) (p : Container.Part) :
    (c.mapWidgets f).has p = c.has p := by
  rcases c with ⟨cid, title, _ | g, extra⟩ <;> cases p <;> rfl

/-! ## The layout of containers -/

/-- The parts of a container that make its layout. -/
def layoutParts : List Container.Part := [.flow, .columns, .height]

/-- A container keeps its widgets when it gets a layout. -/
theorem Container.widgets_addLayout (c : Container) : c.addLayout.widgets = c.widgets := by
  rcases c with ⟨cid, title, _ | g, extra⟩ <;> rfl

/-- A container keeps its list of widgets when it gets a layout. -/
theorem Container.structurallyComplete_addLayout {c : Container} (h : c.StructurallyComplete) :
    c.addLayout.StructurallyComplete := by
  obtain ⟨g, ws, hg, hws⟩ := h
  refine ⟨_, ws, rfl, ?_⟩
  rw [hg]
  exact hws

/-- A container has its layout afterwards, and else what it had before. -/
theorem Container.has_addLayout (c : Container) (p : Container.Part) :
    c.addLayout.has p = (c.has p || decide (p ∈ layoutParts)) := by
  rcases c with ⟨cid, title, _ | g, extra⟩ <;> cases p <;>
    simp [Container.has, Container.addLayout, layoutParts]

/-- A container that has a layout is left alone. -/
theorem Container.addLayout_of_has {c : Container}
    (h : ∀ p ∈ layoutParts, c.has p) : c.addLayout = c := by
  have hf := h .flow (by decide)
  have hc := h .columns (by decide)
  have hh := h .height (by decide)
  -- without a grid there is no flow; with one, its three fields are there already
  rcases c with ⟨cid, title, _ | ⟨flow, columns, height, children, extra⟩, rest⟩
  · exact nomatch hf
  · obtain ⟨_, rfl⟩ := Option.isSome_iff_exists.1 hf
    obtain ⟨_, rfl⟩ := Option.isSome_iff_exists.1 hc
    obtain ⟨_, rfl⟩ := Option.isSome_iff_exists.1 hh
    rfl

/-- The check of a container asks for the layout. -/
theorem Container.verifyLayout_eq_satisfied_iff (c : Container) :
    c.verifyLayout = .satisfied ↔ ∀ p ∈ layoutParts, c.has p := by
  cases hg : c.grid <;> simp [Container.verifyLayout, Container.has, hg, layoutParts, and_assoc]

/-- A container is completed alike after it has got a layout, if it has a grid. -/
theorem Container.complete_addLayout {c : Container} (h : c.StructurallyComplete) :
    c.addLayout.complete = c.complete := by
  -- completion keeps a grid that is there, and gives it the same three fields
  obtain ⟨g, ws, hg, hws⟩ := h
  rcases c with ⟨cid, title, grid, extra⟩
  obtain rfl : grid = some g := hg
  rfl

/-! ## Complete documents -/

/-- A container with a grid is completed but for ids by completing its widgets and its layout. -/
theorem Container.completeParts_eq_addLayout {c : Container} {g : Grid} (hg : c.grid = some g) :
    c.completeParts = (c.mapWidgets Widget.completeParts).addLayout := by
  simp only [Container.completeParts, Container.mapWidgets, Container.addLayout, hg]
  rfl

/-- A container that has its layout, and whose widgets have all parts, is complete but for ids. -/
theorem Container.completeParts_of_has {c : Container} (hc : ∀ p, p ≠ .id → c.has p)
    (hw : ∀ w ∈ c.widgets, ∀ p, p ≠ .id → w.has p) : c.completeParts = c := by
  -- a flow is found only in a grid
  obtain ⟨g, _, hg, _⟩ := exists_of_isSome_getD rfl (hc .flow (by decide))
  have hws : c.mapWidgets Widget.completeParts = c :=
    Container.mapWidgets_eq_self fun w hm => Widget.completeParts_of_has (hw w hm)
  have hid : Container.Part.id ∉ layoutParts := by decide
  have hlayout : ∀ p ∈ layoutParts, c.has p := fun p hp => hc p fun heq => hid (heq ▸ hp)
  rw [Container.completeParts_eq_addLayout hg, hws, Container.addLayout_of_has hlayout]

/-- A dashboard that has all parts is complete but for its version. -/
theorem Dashboard.completeParts_of_has {d : Dashboard} (h : ∀ p, d.Has p) :
    d.completeParts = d := by
  -- nothing but the id of a container or a widget is left out of what completion puts in
  have hc : ∀ c ∈ d.containers, c.completeParts = c := by
    intro c hm
    refine Container.completeParts_of_has (fun p _ => h (.ofContainers p) c hm) ?_
    intro w hw p _
    exact h (.ofWidgets p) w (List.mem_flatMap.2 ⟨c, hm, hw⟩)
  obtain ⟨ps, hps⟩ := Option.isSome_iff_exists.1 (h .params)
  rw [Dashboard.completeParts, Dashboard.mapContainers_eq_self hc, hps, Option.getD_some, ← hps]

/-! ## Parts other than ids -/

/-- A part that is an id. -/
def Dashboard.Part.IsId (p : Dashboard.Part) : Prop := p = .ofContainers .id ∨ p = .ofWidgets .id

/-- Parts other than ids do not depend on ids. -/
theorem Dashboard.has_eraseIds_iff (d : Dashboard) {p : Dashboard.Part} (hp : ¬ p.IsId) :
    d.eraseIds.Has p ↔ d.Has p := by
  -- a part is in the document, in its containers or in its widgets, which keep all else
  cases p with
  | params => rfl
  | ofContainers q =>
    have hq : ∀ c : Container, c.eraseIds.has q = c.has q := by
      intro c
      rcases c with ⟨cid, title, _ | g, extra⟩ <;> cases q <;>
        first | exact absurd (.inl rfl) hp | rfl
    simp only [Dashboard.Has, Dashboard.eraseIds, Dashboard.containers_mapContainers,
      List.forall_mem_map, hq]
  | ofWidgets q =>
    have hq : ∀ w : Widget, w.eraseId.has q = w.has q := by
      intro w
      cases q <;> first | exact absurd (.inr rfl) hp | rfl
    have hw := Dashboard.widgets_mapContainers Container.eraseIds Widget.eraseId
      (fun c => Container.widgets_mapWidgets Widget.eraseId c) d
    simp only [Dashboard.Has, Dashboard.eraseIds, hw, List.forall_mem_map, hq]

/-- The structure of a container does not depend on ids. -/
theorem Container.structurallyComplete_eraseIds_iff (c : Container) :
    c.eraseIds.StructurallyComplete ↔ c.StructurallyComplete := by
  refine ⟨fun h => ?_, fun h => Container.structurallyComplete_mapWidgets h⟩
  obtain ⟨g, ws, hg, hws⟩ := h
  -- the grid and its list are there before iff they are there after
  rcases c with ⟨cid, title, _ | ⟨flow, columns, height, _ | ws', extra⟩, rest⟩
  · exact nomatch hg
  · obtain rfl := Option.some.inj hg
    exact nomatch hws
  · exact ⟨_, ws', rfl, rfl⟩

/-- The structure of a dashboard does not depend on ids. -/
theorem Dashboard.reaches_eraseIds_iff (d : Dashboard) (depth : Depth) :
    d.eraseIds.Reaches depth ↔ d.Reaches depth := by
  refine ⟨fun h => ?_, fun h => Dashboard.reaches_mapContainers
    (fun c hc => c.structurallyComplete_eraseIds_iff.2 hc) h⟩
  cases depth with
  | root => trivial
  | containers =>
    obtain ⟨cs, hcs⟩ := h
    obtain ⟨cs', hcs', _⟩ := Option.map_eq_some_iff.1 hcs
    exact ⟨cs', hcs'⟩
  | widgets =>
    obtain ⟨cs, hcs, hall⟩ := h
    obtain ⟨cs', hcs', rfl⟩ := Option.map_eq_some_iff.1 hcs
    refine ⟨cs', hcs', fun c hc => ?_⟩
    exact c.structurallyComplete_eraseIds_iff.1 (hall _ (List.mem_map_of_mem hc))

end Dashboards
