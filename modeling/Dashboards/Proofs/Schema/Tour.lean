import Dashboards.Proofs.Schema.Places
import Dashboards.Proofs.Schema.Structure

/-!
# Tours of dashboards

The order of a document as one list: each container, then its widgets, and in its place anything
absent that a walk would have to go into.  A check of a dashboard is two loops, one in the other,
with three ways out; it is shown to be one pass over this list that ends at the first part that is
not satisfied or at the first hole.

## Key results

- `Dashboard.mem_tour`: what the stops of a tour are
- `verifyParts_eq_scan`: a check of a dashboard passes over its tour, whatever effects it has
- `exists_split_of_verifyParts_missing`, `exists_split_of_verifyParts_error`: where a check without
  effects ends
-/

namespace Dashboards

/-! ## Stops -/

/-- A part of a dashboard that walks visit. -/
inductive Visited where
  | container (c : Container)
  | widget (w : Widget)
deriving DecidableEq, Repr

/-- A visit to a part in its place. -/
structure Visit where
  place : Place
  visited : Visited
deriving DecidableEq, Repr

/-- What comes next on a tour: a part, or the path of something absent that the way leads into. -/
inductive Stop where
  | visit (v : Visit)
  | hole (path : String)
deriving DecidableEq, Repr

/-- The widgets of the container in a place. -/
def Container.widgetStops (i : Nat) (c : Container) : List Stop :=
  match c.grid with
  | none => [.hole (containerPath i ++ ".container")]
  | some g =>
    match g.children with
    | none => [.hole (containerPath i ++ ".container.children")]
    | some ws => ws.zipIdx.map fun (w, j) => .visit ⟨.widget i j, .widget w⟩

/-- The container in a place and its widgets, as far as containers or widgets are visited. -/
def Container.stops (toContainers toWidgets : Bool) (i : Nat) (c : Container) : List Stop :=
  (if toContainers then [.visit ⟨.container i, .container c⟩] else []) ++
    if toWidgets then c.widgetStops i else []

/-- The tour of a dashboard in the order of the document. -/
def Dashboard.tour (toContainers toWidgets : Bool) (d : Dashboard) : List Stop :=
  match d.children with
  | none => [.hole "children"]
  | some cs => cs.zipIdx.flatMap fun (c, i) => c.stops toContainers toWidgets i

/-- What the stops at the widgets of a container are. -/
theorem Container.mem_widgetStops {i : Nat} {c : Container} {stop : Stop}
    (h : stop ∈ c.widgetStops i) :
    (∃ place, c.Hole place ∧ stop = .hole (containerPath i ++ place)) ∨
      ∃ j w, c.widgets[j]? = some w ∧ stop = .visit ⟨.widget i j, .widget w⟩ := by
  rw [Container.widgetStops] at h
  -- no grid, a grid without a list, or a list whose widgets are numbered from zero
  cases hg : c.grid with
  | none =>
    rw [hg] at h
    exact .inl ⟨_, .grid hg, List.mem_singleton.1 h⟩
  | some g =>
    simp only [hg] at h
    cases hw : g.children with
    | none =>
      rw [hw] at h
      exact .inl ⟨_, .widgets hg hw, List.mem_singleton.1 h⟩
    | some ws =>
      rw [hw] at h
      obtain ⟨⟨w, j⟩, hmem, rfl⟩ := List.mem_map.1 h
      refine .inr ⟨j, w, ?_, rfl⟩
      rw [Container.widgets, hg, Option.bind_some, hw]
      exact List.mk_mem_zipIdx_iff_getElem?.1 hmem

/-- What the stops of a tour are: parts in their places, and holes. -/
theorem Dashboard.mem_tour {toContainers toWidgets : Bool} {d : Dashboard} {stop : Stop}
    (h : stop ∈ d.tour toContainers toWidgets) :
    (d.children = none ∧ stop = .hole "children") ∨ ∃ i c, d.containers[i]? = some c ∧
      ((toContainers ∧ stop = .visit ⟨.container i, .container c⟩) ∨
        (toWidgets ∧ ∃ place, c.Hole place ∧ stop = .hole (containerPath i ++ place)) ∨
        (toWidgets ∧ ∃ j w, c.widgets[j]? = some w ∧ stop = .visit ⟨.widget i j, .widget w⟩)) := by
  rw [Dashboard.tour] at h
  cases hcs : d.children with
  | none =>
    rw [hcs] at h
    exact .inl ⟨rfl, List.mem_singleton.1 h⟩
  | some cs =>
    rw [hcs] at h
    obtain ⟨⟨c, i⟩, hc, h⟩ := List.mem_flatMap.1 h
    refine .inr ⟨i, c, ?_, ?_⟩
    · rw [Dashboard.containers, hcs]
      exact List.mk_mem_zipIdx_iff_getElem?.1 hc
    -- the stop is the container itself or one inside of it
    · rcases List.mem_append.1 h with h | h
      · cases toContainers with
        | false => cases h
        | true => exact .inl ⟨rfl, List.mem_singleton.1 h⟩
      · cases toWidgets with
        | false => cases h
        | true => exact .inr ((Container.mem_widgetStops h).imp (⟨rfl, ·⟩) (⟨rfl, ·⟩))

/-! ## Passes over stops -/

section Scan

variable {m : Type → Type} [Monad m]

/-- The check of a part; parts of a kind that is not visited are satisfied. -/
def Visited.checkWith (onContainer : Option (Container → m Verification))
    (onWidget : Option (Widget → m Verification)) : Visited → m Verification
  | container c =>
    match onContainer with
    | some check => check c
    | none => pure .satisfied
  | widget w =>
    match onWidget with
    | some check => check w
    | none => pure .satisfied

/-- Passes over stops up to the first part that is not satisfied or the first hole. -/
def scan (check : Visited → m Verification) :
    List Stop → m (Except MigrationError Verification)
  | [] => pure (.ok .satisfied)
  | .hole path :: _ => pure (.error (.malformed path))
  | .visit v :: stops => do
    match ← check v.visited with
    | .satisfied => scan check stops
    | .missing field => pure (.ok (.missing (v.place.fieldPath field)))

variable [LawfulMonad m]

/-- A pass over two lists goes on to the second if it has got through the first. -/
theorem scan_append (check : Visited → m Verification) (first second : List Stop) :
    scan check (first ++ second) =
      (do match ← scan check first with
          | .ok .satisfied => scan check second
          | outcome => pure outcome) := by
  induction first with
  | nil => simp [scan]
  | cons stop first ih =>
    cases stop with
    | hole path => simp [scan]
    | visit v =>
      simp only [List.cons_append, scan, bind_assoc]
      refine bind_congr fun own => ?_
      cases own with
      | satisfied => exact ih
      | missing field => simp

variable (onContainer : Option (Container → m Verification))
variable (onWidget : Option (Widget → m Verification))

/-- The loop over widgets is a pass over the widgets in their places. -/
theorem verifyWidgetList_eq_scan (check : Widget → m Verification) (i j : Nat)
    (ws : List Widget) :
    (return .ok (← verifyWidgetList check i j ws)) =
      scan (Visited.checkWith onContainer (some check))
        ((ws.zipIdx j).map fun (w, j) => .visit ⟨.widget i j, .widget w⟩) := by
  induction ws generalizing j with
  | nil => simp [verifyWidgetList, scan]
  | cons w ws ih =>
    simp only [verifyWidgetList, List.zipIdx_cons, List.map_cons, scan, bind_assoc]
    refine bind_congr fun own => ?_
    -- a widget that is satisfied is followed by the rest, with the next number
    cases own with
    | satisfied => exact ih (j + 1)
    | missing field => simp [Verification.within, Place.fieldPath, Place.path]

/-- The check of the widgets of a container is a pass over its stops. -/
theorem verifyWidgetsOf_eq_scan (check : Widget → m Verification) (i : Nat) (c : Container) :
    verifyWidgetsOf check i c =
      scan (Visited.checkWith onContainer (some check)) (c.widgetStops i) := by
  rcases c with ⟨cid, title, _ | ⟨flow, columns, height, _ | ws, extra⟩, rest⟩
  · rfl
  · rfl
  · exact verifyWidgetList_eq_scan onContainer check i 0 ws

/-- The check of a container and its widgets is a pass over their stops. -/
theorem verifyContainer_eq_scan (i : Nat) (c : Container) :
    verifyContainer onContainer onWidget i c =
      scan (Visited.checkWith onContainer onWidget)
        (c.stops onContainer.isSome onWidget.isSome i) := by
  -- what follows the container itself
  have hwidgets : (match onWidget with
      | some check => verifyWidgetsOf check i c
      | none => pure (.ok .satisfied)) =
      scan (Visited.checkWith onContainer onWidget)
        (if onWidget.isSome then c.widgetStops i else []) := by
    cases onWidget with
    | none => rfl
    | some check => exact verifyWidgetsOf_eq_scan onContainer check i c
  cases onContainer with
  | none =>
    simp only [verifyContainer, Container.stops, pure_bind]
    exact hwidgets
  | some own =>
    simp only [verifyContainer, Container.stops, Option.isSome_some, if_true, List.cons_append,
      List.nil_append, scan]
    refine bind_congr fun v => ?_
    cases v with
    | satisfied => exact hwidgets
    | missing field => rfl

/-- The loop over containers is a pass over the stops of all of them. -/
theorem verifyContainerList_eq_scan (i : Nat) (cs : List Container) :
    verifyContainerList onContainer onWidget i cs =
      scan (Visited.checkWith onContainer onWidget)
        ((cs.zipIdx i).flatMap fun (c, i) => c.stops onContainer.isSome onWidget.isSome i) := by
  induction cs generalizing i with
  | nil => rfl
  | cons c cs ih =>
    simp only [verifyContainerList, verifyContainer_eq_scan, ih]
    exact (scan_append _ _ _).symm

/-- A check of a dashboard passes over its tour. -/
theorem verifyParts_eq_scan (d : Dashboard) :
    d.verifyParts onContainer onWidget =
      scan (Visited.checkWith onContainer onWidget)
        (d.tour onContainer.isSome onWidget.isSome) := by
  simp only [Dashboard.verifyParts, Dashboard.containers?, Dashboard.tour]
  cases d.children with
  | none => rfl
  | some cs => exact verifyContainerList_eq_scan onContainer onWidget 0 cs

end Scan

/-! ## Checks without effects -/

section Pure

variable {check : Visited → Id Verification} {stops : List Stop}

/-- A pass that ends at a part has found all parts before it satisfied. -/
theorem exists_split_of_scan_missing {path : String}
    (h : Id.run (scan check stops) = .ok (.missing path)) :
    ∃ (passed : List Visit) (v : Visit) (rest : List Stop) (field : String),
      stops = passed.map Stop.visit ++ .visit v :: rest ∧
      (∀ u ∈ passed, Id.run (check u.visited) = .satisfied) ∧
      Id.run (check v.visited) = .missing field ∧ path = v.place.fieldPath field := by
  induction stops with
  | nil => exact nomatch h
  | cons stop stops ih =>
    cases stop with
    | hole hole => exact nomatch h
    | visit v =>
      rw [scan, Id.run_bind] at h
      cases hv : Id.run (check v.visited) with
      | missing field =>
        rw [hv] at h
        exact ⟨[], v, stops, field, rfl, fun u hu => (nomatch hu), hv,
          (Verification.missing.inj (Except.ok.inj h)).symm⟩
      -- the part was passed, so the pass ends further on
      | satisfied =>
        rw [hv] at h
        obtain ⟨passed, u, rest, field, rfl, hpassed, hu, hpath⟩ := ih h
        exact ⟨v :: passed, u, rest, field, rfl, List.forall_mem_cons.2 ⟨hv, hpassed⟩, hu, hpath⟩

/-- A pass that fails has found all parts satisfied up to a hole. -/
theorem exists_split_of_scan_error {e : MigrationError}
    (h : Id.run (scan check stops) = .error e) :
    ∃ (passed : List Visit) (path : String) (rest : List Stop),
      stops = passed.map Stop.visit ++ .hole path :: rest ∧
      (∀ u ∈ passed, Id.run (check u.visited) = .satisfied) ∧ e = .malformed path := by
  induction stops with
  | nil => exact nomatch h
  | cons stop stops ih =>
    cases stop with
    | hole path => exact ⟨[], path, stops, rfl, fun u hu => (nomatch hu), (Except.error.inj h).symm⟩
    | visit v =>
      rw [scan, Id.run_bind] at h
      cases hv : Id.run (check v.visited) with
      | missing field => exact nomatch (hv ▸ h :)
      | satisfied =>
        rw [hv] at h
        obtain ⟨passed, path, rest, rfl, hpassed, he⟩ := ih h
        exact ⟨v :: passed, path, rest, rfl, List.forall_mem_cons.2 ⟨hv, hpassed⟩, he⟩

end Pure

end Dashboards
