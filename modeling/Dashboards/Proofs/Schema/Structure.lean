import Dashboards.Schema.Migration

/-!
# The structure that walks need

A walk over a dashboard needs the list of containers, and a walk that visits widgets needs the list
of widgets of every container.  This file tells when these lists are all there, which of them is the
first that is not, and what is found of them in either case.

## Key results

- `checkStructure_eq_ok_iff`: a walk is possible iff the lists that it needs are there
- `Dashboard.FirstHole.checkStructure_eq`: otherwise the error is the path of the first hole
-/

namespace Dashboards

/-! ## Holes -/

/-- A container has a grid with a list of widgets. -/
def Container.StructurallyComplete (c : Container) : Prop :=
  ∃ g ws, c.grid = some g ∧ g.children = some ws

/-- A dashboard has a list of containers, and all of them have lists of widgets. -/
def Dashboard.StructurallyComplete (d : Dashboard) : Prop :=
  ∃ cs, d.children = some cs ∧ ∀ c ∈ cs, c.StructurallyComplete

/-- What a container lacks on the way to its widgets, as the end of a path. -/
inductive Container.Hole (c : Container) : String → Prop where
  | grid (h : c.grid = none) : Hole c ".container"
  | widgets {g : Grid} (h : c.grid = some g) (hw : g.children = none) :
      Hole c ".container.children"

/-- The path of the first thing that a dashboard lacks on the way to its widgets. -/
inductive Dashboard.FirstHole (d : Dashboard) : String → Prop where
  | containers (h : d.children = none) : FirstHole d "children"
  | ofContainer {before after : List Container} {c : Container} {place : String}
      (h : d.children = some (before ++ c :: after))
      (hb : ∀ b ∈ before, b.StructurallyComplete) (hc : c.Hole place) :
      FirstHole d (containerPath before.length ++ place)

/-- How far a walk goes. -/
inductive Depth where
  | root
  | containers
  | widgets
deriving DecidableEq, Repr

/-- The lists that a walk of some depth needs are there. -/
def Dashboard.Reaches (d : Dashboard) : Depth → Prop
  | .root => True
  | .containers => ∃ cs, d.children = some cs
  | .widgets => d.StructurallyComplete

/-- The depth of a walk over containers, or over widgets too. -/
def Depth.ofWalk (toWidgets : Bool) : Depth := if toWidgets then .widgets else .containers

/-- A structurally complete dashboard can be walked to any depth. -/
theorem Dashboard.StructurallyComplete.reaches {d : Dashboard} (h : d.StructurallyComplete)
    (depth : Depth) : d.Reaches depth := by
  cases depth with
  | root => trivial
  | containers =>
    obtain ⟨cs, hcs, _⟩ := h
    exact ⟨cs, hcs⟩
  | widgets => exact h

/-! ## Containers -/

/-- A container with a list of widgets gives that list. -/
theorem Container.StructurallyComplete.widgets?_eq {c : Container} (h : c.StructurallyComplete)
    (i : Nat) : c.widgets? i = .ok c.widgets := by
  obtain ⟨g, ws, hg, hws⟩ := h
  simp only [Container.widgets?, Container.widgets, hg, hws, Option.bind_some, Option.getD_some]

/-- A container with a hole gives the path of that hole. -/
theorem Container.Hole.widgets?_eq {c : Container} {place : String} (h : c.Hole place) (i : Nat) :
    c.widgets? i = .error (.malformed (containerPath i ++ place)) := by
  cases h with
  | grid h => simp only [Container.widgets?, h]
  | widgets h hw => simp only [Container.widgets?, h, hw, widgetsPath]

/-- A container has a list of widgets or a hole. -/
theorem Container.structurallyComplete_or_hole (c : Container) :
    c.StructurallyComplete ∨ ∃ place, c.Hole place := by
  -- the grid is looked at first, and then its list
  cases hg : c.grid with
  | none => exact .inr ⟨_, .grid hg⟩
  | some g =>
    cases hw : g.children with
    | none => exact .inr ⟨_, .widgets hg hw⟩
    | some ws => exact .inl ⟨g, ws, hg, hw⟩

/-- A container with a hole has no list of widgets. -/
theorem Container.Hole.not_structurallyComplete {c : Container} {place : String}
    (h : c.Hole place) : ¬ c.StructurallyComplete := by
  intro hc
  have hok := hc.widgets?_eq 0
  rw [h.widgets?_eq] at hok
  exact nomatch hok

/-! ## The whole structure -/

/-- The lists of widgets are all there iff every container has one. -/
theorem checkWidgetLists_eq_ok_iff (i : Nat) (cs : List Container) :
    checkWidgetLists i cs = .ok () ↔ ∀ c ∈ cs, c.StructurallyComplete := by
  induction cs generalizing i with
  | nil => simp [checkWidgetLists]
  | cons c cs ih =>
    simp only [checkWidgetLists, List.mem_cons, forall_eq_or_imp]
    -- the walk goes on after a container with a list of widgets, and ends at a hole
    rcases c.structurallyComplete_or_hole with h | ⟨place, h⟩
    · simp only [h.widgets?_eq, h, true_and]
      exact ih (i + 1)
    · simp only [h.widgets?_eq]
      exact ⟨fun he => (nomatch he), fun hc => absurd hc.1 h.not_structurallyComplete⟩

/-- Containers that have lists of widgets are passed over until the first that has none. -/
theorem checkWidgetLists_of_hole (i : Nat) (before after : List Container) (c : Container)
    (place : String) (hb : ∀ b ∈ before, b.StructurallyComplete) (hc : c.Hole place) :
    checkWidgetLists i (before ++ c :: after) =
      .error (.malformed (containerPath (i + before.length) ++ place)) := by
  induction before generalizing i with
  | nil => simp only [List.nil_append, checkWidgetLists, hc.widgets?_eq, List.length_nil,
      Nat.add_zero]
  | cons b before ih =>
    simp only [List.mem_cons, forall_eq_or_imp] at hb
    simp only [List.cons_append, checkWidgetLists, hb.1.widgets?_eq, List.length_cons]
    rw [ih (i + 1) hb.2]
    -- the number of the container counts from the start of the whole list
    have : i + 1 + before.length = i + (before.length + 1) := by omega
    rw [this]

/-- A walk is possible iff the lists that it needs are there. -/
theorem checkStructure_eq_ok_iff (toWidgets : Bool) (d : Dashboard) :
    d.checkStructure toWidgets = .ok () ↔ d.Reaches (.ofWalk toWidgets) := by
  simp only [Dashboard.checkStructure, Dashboard.containers?]
  -- no walk does without the list of containers, and only the deeper one needs more
  cases hcs : d.children with
  | none =>
    cases toWidgets <;> simp [Depth.ofWalk, Dashboard.Reaches, Dashboard.StructurallyComplete, hcs]
  | some cs =>
    cases toWidgets with
    | false => simp [Depth.ofWalk, Dashboard.Reaches, hcs]
    | true =>
      simp only [Depth.ofWalk, Dashboard.Reaches, Dashboard.StructurallyComplete, hcs, if_true,
        Option.some.injEq, exists_eq_left']
      exact checkWidgetLists_eq_ok_iff 0 cs

/-- A walk to the widgets of a dashboard with a hole ends at the first hole. -/
theorem Dashboard.FirstHole.checkStructure_eq {d : Dashboard} {path : String}
    (h : d.FirstHole path) : d.checkStructure true = .error (.malformed path) := by
  cases h with
  | containers h => simp only [Dashboard.checkStructure, Dashboard.containers?, h]
  | ofContainer h hb hc =>
    simp only [Dashboard.checkStructure, Dashboard.containers?, h, if_true]
    rw [checkWidgetLists_of_hole 0 _ _ _ _ hb hc, Nat.zero_add]

/-- Either all containers have lists of widgets, or there is a first one that has none. -/
theorem exists_first_hole (cs : List Container) :
    (∀ c ∈ cs, c.StructurallyComplete) ∨ ∃ before c after place, cs = before ++ c :: after ∧
      (∀ b ∈ before, b.StructurallyComplete) ∧ c.Hole place := by
  induction cs with
  | nil => exact .inl fun c hc => nomatch hc
  | cons c cs ih =>
    -- the first container has the first hole, or the hole is among the others
    rcases c.structurallyComplete_or_hole with h | ⟨place, h⟩
    · rcases ih with hall | ⟨before, b, after, place, rfl, hb, hc⟩
      · exact .inl (List.forall_mem_cons.2 ⟨h, hall⟩)
      · exact .inr ⟨c :: before, b, after, place, rfl, List.forall_mem_cons.2 ⟨h, hb⟩, hc⟩
    · exact .inr ⟨[], c, cs, place, rfl, fun b hb => (nomatch hb), h⟩

/-- A dashboard that is not structurally complete has a first hole. -/
theorem Dashboard.exists_firstHole {d : Dashboard} (h : ¬ d.StructurallyComplete) :
    ∃ path, d.FirstHole path := by
  cases hcs : d.children with
  | none => exact ⟨_, .containers hcs⟩
  | some cs =>
    rcases exists_first_hole cs with hall | ⟨before, c, after, place, rfl, hb, hc⟩
    · exact absurd ⟨cs, hcs, hall⟩ h
    · exact ⟨_, .ofContainer hcs hb hc⟩

/-- A dashboard with a hole is not structurally complete. -/
theorem Dashboard.FirstHole.not_structurallyComplete {d : Dashboard} {path : String}
    (h : d.FirstHole path) : ¬ d.StructurallyComplete := by
  intro hd
  have hok := (checkStructure_eq_ok_iff true d).2 hd
  rw [h.checkStructure_eq] at hok
  exact nomatch hok

end Dashboards
