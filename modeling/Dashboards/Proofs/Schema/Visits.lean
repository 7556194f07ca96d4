import Dashboards.Proofs.Schema.Tour

/-!
# What walks visit

Checks of containers and widgets may have effects, so what counts is not only the outcome of a walk
but also which checks it makes and in which order.  A walk calls them on an initial part of the
tour: it ends with the first part that is not satisfied, or just before the first hole, or it gets
through to the end.

The calls are observed by checks that note what they are called with and else do what they did.

## Key results

- `Dashboard.filterMap_widget?_tour`, `Dashboard.filterMap_container?_tour`: a tour has the same
  widgets and the same containers as the dashboard, in order
- `scan_ends`: how a pass over stops ends, what it has called by then, and in which state
- `verifyParts_visits_tour`: a walk over a dashboard, its paths and its widgets
-/

namespace Dashboards

/-! ## Parts on a tour -/

/-- The container that is visited, if it is one. -/
def Visited.container? : Visited → Option Container
  | container c => some c
  | widget _ => none

/-- The widget that is visited, if it is one. -/
def Visited.widget? : Visited → Option Widget
  | container _ => none
  | widget w => some w

/-- What is visited at a stop, if it is no hole. -/
def Stop.visited? : Stop → Option Visited
  | visit v => some v.visited
  | hole _ => none

/-- Whether a part is of a kind that is visited. -/
def Visited.IsOf (toContainers toWidgets : Bool) : Visited → Prop
  | container _ => toContainers
  | widget _ => toWidgets

/-- Visits are stops at what they visit. -/
theorem filterMap_visited?_map_visit (vs : List Visit) :
    (vs.map Stop.visit).filterMap Stop.visited? = vs.map (·.visited) := by
  rw [List.filterMap_map]
  exact congrFun (List.filterMap_eq_map (f := fun v : Visit => v.visited)) vs

/-- The stops at the widgets of a container are its widgets, in order. -/
theorem Container.filterMap_visited?_widgetStops (i : Nat) (c : Container) :
    (c.widgetStops i).filterMap Stop.visited? = c.widgets.map .widget := by
  rcases c with ⟨cid, title, _ | ⟨flow, columns, height, _ | ws, extra⟩, rest⟩
  · rfl
  · rfl
  · have hmap : ∀ j, ((ws.zipIdx j).map fun x =>
        Stop.visit ⟨.widget i x.2, .widget x.1⟩).filterMap Stop.visited? = ws.map .widget := by
      intro j
      induction ws generalizing j with
      | nil => rfl
      | cons w ws ih => exact congrArg (Visited.widget w :: ·) (ih (j + 1))
    exact hmap 0

/-- The stops of a container are itself and then its widgets, as far as these are visited. -/
theorem Container.filterMap_visited?_stops (toContainers toWidgets : Bool) (c : Container)
    (i : Nat) : (c.stops toContainers toWidgets i).filterMap Stop.visited? =
      (if toContainers then [Visited.container c] else []) ++
        if toWidgets then c.widgets.map .widget else [] := by
  rw [Container.stops, List.filterMap_append]
  congr 1
  · cases toContainers <;> rfl
  · cases toWidgets
    · rfl
    · exact c.filterMap_visited?_widgetStops i

/-- A tour visits the parts of each container in order. -/
theorem Dashboard.filterMap_visited?_tour (toContainers toWidgets : Bool) (d : Dashboard) :
    (d.tour toContainers toWidgets).filterMap Stop.visited? = d.containers.flatMap fun c =>
      (if toContainers then [Visited.container c] else []) ++
        if toWidgets then c.widgets.map .widget else [] := by
  -- wherever the containers are in the list
  have hlist (i : Nat) (cs : List Container) :
      ((cs.zipIdx i).flatMap fun x => x.1.stops toContainers toWidgets x.2).filterMap
        Stop.visited? = cs.flatMap fun c =>
          (if toContainers then [Visited.container c] else []) ++
            if toWidgets then c.widgets.map .widget else [] := by
    induction cs generalizing i with
    | nil => rfl
    | cons c cs ih =>
      rw [List.zipIdx_cons, List.flatMap_cons, List.filterMap_append, ih, List.flatMap_cons,
        c.filterMap_visited?_stops]
  rw [Dashboard.tour, Dashboard.containers]
  cases d.children with
  | none => rfl
  | some cs => exact hlist 0 cs

/-- The widgets on a tour are those of the dashboard. -/
theorem Dashboard.filterMap_widget?_tour (toContainers : Bool) (d : Dashboard) :
    ((d.tour toContainers true).filterMap Stop.visited?).filterMap Visited.widget? =
      d.widgets := by
  rw [filterMap_visited?_tour, List.filterMap_flatMap, Dashboard.widgets]
  congr 1
  funext c
  cases toContainers <;>
    simp [List.filterMap_cons, List.filterMap_map, Visited.widget?, Function.comp_def]

/-- The containers on a tour are those of the dashboard. -/
theorem Dashboard.filterMap_container?_tour (toWidgets : Bool) (d : Dashboard) :
    ((d.tour true toWidgets).filterMap Stop.visited?).filterMap Visited.container? =
      d.containers := by
  rw [filterMap_visited?_tour, List.filterMap_flatMap]
  -- each container gives itself, whether or not its widgets follow
  have hsingle (c : Container) : ((if true then [Visited.container c] else []) ++
      if toWidgets then c.widgets.map Visited.widget else []).filterMap Visited.container? =
        [c] := by
    cases toWidgets <;> simp [List.filterMap_map, Visited.container?, Function.comp_def]
  exact (congrArg (List.flatMap · d.containers) (funext hsingle)).trans (List.flatMap_singleton' _)

/-- Only parts of the kinds that are visited are on a tour. -/
theorem Dashboard.isOf_of_mem_tour {toContainers toWidgets : Bool} {d : Dashboard} {v : Visit}
    (h : .visit v ∈ d.tour toContainers toWidgets) : v.visited.IsOf toContainers toWidgets := by
  rcases Dashboard.mem_tour h with
    ⟨-, he⟩ | ⟨i, c, -, ⟨hkind, he⟩ | ⟨-, place, -, he⟩ | ⟨hkind, j, w, -, he⟩⟩
  · exact nomatch he
  · exact Stop.visit.inj he ▸ hkind
  · exact nomatch he
  · exact Stop.visit.inj he ▸ hkind

/-- There is no hole on the tour of a dashboard that can be walked through. -/
theorem Dashboard.hole_notMem_tour {d : Dashboard} (hd : d.StructurallyComplete)
    (toContainers toWidgets : Bool) (path : String) :
    .hole path ∉ d.tour toContainers toWidgets := by
  obtain ⟨cs, hcs, hall⟩ := hd
  intro h
  rcases Dashboard.mem_tour h with
    ⟨hnone, -⟩ | ⟨i, c, hc, ⟨-, he⟩ | ⟨-, place, hhole, -⟩ | ⟨-, j, w, -, he⟩⟩
  · exact nomatch hcs.symm.trans hnone
  · exact nomatch he
  -- the hole would be that of a container, all of which have their widgets
  · rw [Dashboard.containers, hcs] at hc
    exact hhole.not_structurallyComplete (hall c (List.mem_of_getElem? hc))
  · exact nomatch he

/-! ## How passes end -/

section Stateful

variable {σ : Type}

/-- The checks of parts in order are all satisfied, and take one state to another. -/
inductive Passes (check : Visited → StateM σ Verification) : List Visit → σ → σ → Prop
  | nil (s : σ) : Passes check [] s s
  | cons {v : Visit} {vs : List Visit} {s s₁ s' : σ} :
      (check v.visited).run s = (.satisfied, s₁) → Passes check vs s₁ s' →
        Passes check (v :: vs) s s'

/-- How a pass over stops from some state ends: which checks were made, in order, what comes of it,
and in which state. -/
inductive Ends (check : Visited → StateM σ Verification) (s : σ) :
    List Stop → List Visit → Except MigrationError Verification → σ → Prop
  | through (passed : List Visit) {s' : σ} : Passes check passed s s' →
      Ends check s (passed.map .visit) passed (.ok .satisfied) s'
  | atHole (passed : List Visit) {path : String} {rest : List Stop} {s' : σ} :
      Passes check passed s s' →
        Ends check s (passed.map .visit ++ .hole path :: rest) passed (.error (.malformed path)) s'
  | atPart (passed : List Visit) {v : Visit} {rest : List Stop} {field : String} {s₁ s' : σ} :
      Passes check passed s s₁ → (check v.visited).run s₁ = (.missing field, s') →
        Ends check s (passed.map .visit ++ .visit v :: rest) (passed ++ [v])
          (.ok (.missing (v.place.fieldPath field))) s'

/-- A satisfied part comes before what follows it. -/
theorem Ends.cons {check : Visited → StateM σ Verification} {v : Visit} {stops : List Stop}
    {s s₁ s' : σ} {called : List Visit} {outcome : Except MigrationError Verification}
    (hv : (check v.visited).run s = (.satisfied, s₁)) (h : Ends check s₁ stops called outcome s') :
    Ends check s (.visit v :: stops) (v :: called) outcome s' := by
  cases h with
  | through _ h => exact .through (v :: called) (.cons hv h)
  | atHole _ h => exact .atHole (v :: _) (.cons hv h)
  | atPart _ h hfield => exact .atPart (v :: _) (.cons hv h) hfield

/-- The check, which also notes what it is called with. -/
def noting {α : Type} (visited : α → Visited) (check : α → StateM σ Verification) (a : α) :
    StateM (σ × List Visited) Verification := do
  let (s, called) ← get
  let (outcome, s) := (check a).run s
  set (s, called ++ [visited a])
  return outcome

variable (onContainer : Option (Container → StateM σ Verification))
variable (onWidget : Option (Widget → StateM σ Verification))

/-- Checks that note their calls do so for every part of a kind that is visited. -/
theorem checkWith_noting {v : Visited} (hv : v.IsOf onContainer.isSome onWidget.isSome) :
    v.checkWith (onContainer.map (noting .container)) (onWidget.map (noting .widget)) =
      noting id (Visited.checkWith onContainer onWidget) v := by
  cases v with
  | container c =>
    cases onContainer with
    | none => exact nomatch hv
    | some check => rfl
  | widget w =>
    cases onWidget with
    | none => exact nomatch hv
    | some check => rfl

/-- A pass over stops ends in one of the three ways, and its checks are called as this says. -/
theorem scan_ends {stops : List Stop}
    (hstops : ∀ v, .visit v ∈ stops → v.visited.IsOf onContainer.isSome onWidget.isSome)
    (s : σ) (before : List Visited) : ∃ called outcome s',
      Ends (Visited.checkWith onContainer onWidget) s stops called outcome s' ∧
      (scan (Visited.checkWith onContainer onWidget) stops).run s = (outcome, s') ∧
      (scan (Visited.checkWith (onContainer.map (noting .container))
        (onWidget.map (noting .widget))) stops).run (s, before) =
          (outcome, s', before ++ called.map (·.visited)) := by
  induction stops generalizing s before with
  | nil => exact ⟨[], _, s, .through [] (.nil s), rfl, by simp [scan]; rfl⟩
  | cons stop stops ih =>
    cases stop with
    | hole path =>
      exact ⟨[], _, s, .atHole [] (.nil s), rfl, by simp [scan]; rfl⟩
    | visit v =>
      have hkind := hstops v List.mem_cons_self
      have hrest := fun u hu => hstops u (List.mem_cons_of_mem _ hu)
      -- the check of this part, and the same check with its call noted
      obtain ⟨⟨own, s₁⟩, hv⟩ :
          ∃ r, (Visited.checkWith onContainer onWidget v.visited).run s = r := ⟨_, rfl⟩
      have hnoted : (v.visited.checkWith (onContainer.map (noting .container))
          (onWidget.map (noting .widget))).run (s, before) =
            (own, s₁, before ++ [v.visited]) := by
        rw [checkWith_noting onContainer onWidget hkind]
        simp only [noting, StateT.run_bind, StateT.run_get, pure_bind]
        rw [hv]
        rfl
      simp only [scan, StateT.run_bind, hv, hnoted]
      cases own with
      -- the walk ends here, and the last call noted is that of this part
      | missing field =>
        exact ⟨[v], _, s₁, .atPart [] (.nil s) hv, rfl, rfl⟩
      | satisfied =>
        obtain ⟨called, outcome, s', hends, hrun, hnoting⟩ := ih hrest s₁ (before ++ [v.visited])
        refine ⟨v :: called, outcome, s', hends.cons hv, hrun, hnoting.trans ?_⟩
        rw [List.append_assoc, List.map_cons, List.singleton_append]

/-- A pass in which nothing is missing gets through if there is no hole. -/
theorem Ends.eq_through {check : Visited → StateM σ Verification} {stops : List Stop} {s s' : σ}
    {called : List Visit} {outcome : Except MigrationError Verification}
    (h : Ends check s stops called outcome s')
    (hcheck : ∀ v s, ((check v).run s).1 = .satisfied) (hholes : ∀ path, .hole path ∉ stops) :
    stops = called.map .visit ∧ outcome = .ok .satisfied := by
  -- it can end neither at a hole nor at a part that is not satisfied
  cases h with
  | through => exact ⟨rfl, rfl⟩
  | @atHole _ path => exact absurd (List.mem_append_right _ List.mem_cons_self) (hholes path)
  | @atPart _ v _ _ s₁ _ _ hv =>
    have hsatisfied := hcheck v.visited s₁
    rw [hv] at hsatisfied
    exact nomatch hsatisfied

/-- A walk over a dashboard makes its checks along the tour, which has each container and then its
widgets: up to the first part that is not satisfied, or just before the first hole, or to the end.
The path that it gives tells the part and the field.  If no check fails and nothing is absent that
has to be walked into, then its checks of widgets are those of all widgets in order. -/
theorem verifyParts_visits_tour (d : Dashboard) (s : σ) :
    ((d.tour onContainer.isSome onWidget.isSome).filterMap Stop.visited? =
      d.containers.flatMap fun c => (if onContainer.isSome then [Visited.container c] else []) ++
        if onWidget.isSome then c.widgets.map .widget else []) ∧
    (∃ called outcome s',
      Ends (Visited.checkWith onContainer onWidget) s
        (d.tour onContainer.isSome onWidget.isSome) called outcome s' ∧
      (d.verifyParts onContainer onWidget).run s = (outcome, s') ∧
      (d.verifyParts (onContainer.map (noting .container)) (onWidget.map (noting .widget))).run
        (s, []) = (outcome, s', called.map (·.visited))) ∧
    (∀ (p q : Place) (field field' : String), '[' ∉ field.toList → '[' ∉ field'.toList →
      p.fieldPath field = q.fieldPath field' → p = q ∧ field = field') ∧
    (d.StructurallyComplete → onWidget.isSome →
      (∀ check ∈ onContainer, ∀ c s, ((check c).run s).1 = .satisfied) →
      (∀ check ∈ onWidget, ∀ w s, ((check w).run s).1 = .satisfied) →
      ∃ s' visited,
        (d.verifyParts (onContainer.map (noting .container)) (onWidget.map (noting .widget))).run
          (s, []) = (.ok .satisfied, s', visited) ∧
        visited.filterMap Visited.widget? = d.widgets) := by
  obtain ⟨called, outcome, s', hends, hrun, hnoting⟩ :=
    scan_ends onContainer onWidget (fun _ => Dashboard.isOf_of_mem_tour (d := d)) s []
  rw [← verifyParts_eq_scan] at hrun
  -- the noted walk goes the same way, since it has checks for the same kinds of parts
  have htour := verifyParts_eq_scan (onContainer.map (noting .container))
    (onWidget.map (noting .widget)) d
  rw [Option.isSome_map, Option.isSome_map] at htour
  rw [← htour, List.nil_append] at hnoting
  refine ⟨d.filterMap_visited?_tour _ _, ⟨called, outcome, s', hends, hrun, hnoting⟩,
    fun p q field field' hp hq h => Place.fieldPath_inj hp hq h, ?_⟩
  intro hd hwidgets hcontainer hwidget
  have hcheck : ∀ v s, ((Visited.checkWith onContainer onWidget v).run s).1 = .satisfied := by
    intro v s
    cases v with
    | container c =>
      cases onContainer with
      | none => rfl
      | some check => exact hcontainer check rfl c s
    | widget w =>
      cases onWidget with
      | none => rfl
      | some check => exact hwidget check rfl w s
  obtain ⟨hcalled, rfl⟩ := hends.eq_through hcheck fun path =>
    Dashboard.hole_notMem_tour hd _ _ path
  refine ⟨s', called.map (·.visited), hnoting, ?_⟩
  rw [← filterMap_visited?_map_visit, ← hcalled, hwidgets, Dashboard.filterMap_widget?_tour]

end Stateful

/-- A dashboard of two containers with two widgets each. -/
def twoByTwo : Dashboard :=
  ((Dashboard.titled "d").addContainer
    { Container.ofWidgets [{ id := some "a" }, { id := some "b" }] with id := some "first" }
  ).addContainer
    { Container.ofWidgets [{ id := some "c" }, { id := some "d" }] with id := some "second" }

/-- Every part of this dashboard can be reached. -/
theorem twoByTwo_structurallyComplete : twoByTwo.StructurallyComplete :=
  (checkStructure_eq_ok_iff true twoByTwo).1 rfl

/-- Checks of containers and widgets that count their calls. -/
theorem verifyParts_visits_tour_count :
    let onContainer : Container → StateM Nat Verification := fun _ =>
      modifyGet fun n => (.satisfied, n + 1)
    let onWidget : Widget → StateM Nat Verification := fun _ =>
      modifyGet fun n => (.satisfied, n + 1)
    ∃ n visited,
      (twoByTwo.verifyParts (some (noting .container onContainer))
        (some (noting .widget onWidget))).run (0, []) = (.ok .satisfied, n, visited) ∧
      visited.filterMap Visited.widget? = twoByTwo.widgets := by
  intro onContainer onWidget
  obtain ⟨-, -, -, h⟩ := verifyParts_visits_tour (some onContainer) (some onWidget) twoByTwo 0
  refine h twoByTwo_structurallyComplete rfl (fun check hc c n => ?_) fun check hc w n => ?_
  · obtain rfl := Option.some.inj hc
    rfl
  · obtain rfl := Option.some.inj hc
    rfl

/-- A container that fails its check ends the walk, so that a check of widgets that never fails is
not made for the widgets of this container. -/
theorem verifyParts_ends_at_container :
    let onContainer : Container → StateM Unit Verification := fun c =>
      pure (.require (c.id != some "second") "container.flow")
    let onWidget : Widget → StateM Unit Verification := fun _ => pure .satisfied
    twoByTwo.StructurallyComplete ∧ (∀ w s, ((onWidget w).run s).1 = .satisfied) ∧
      ∃ visited,
        (twoByTwo.verifyParts (some (noting .container onContainer))
          (some (noting .widget onWidget))).run ((), []) =
            (.ok (.missing "children[1].container.flow"), (), visited) ∧
        visited.filterMap Visited.widget? = twoByTwo.widgets.take 2 ∧
        visited.filterMap Visited.widget? ≠ twoByTwo.widgets := by
  intro onContainer onWidget
  -- the walk has called the first container, its two widgets and the second container
  refine ⟨twoByTwo_structurallyComplete, fun _ _ => rfl, _, rfl, rfl, fun h => ?_⟩
  exact nomatch congrArg List.length h

end Dashboards
