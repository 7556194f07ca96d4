import Dashboards.Proofs.Schema.Tour
import Dashboards.Proofs.Schema.Work

/-!
# What changes touch

A change of containers and widgets may have effects, and what it does to a container decides which
widgets it comes to afterwards: it may put widgets into the container, take them out, or take away
the whole grid.  So the calls of a change cannot be read off the document as it was.  They are told
here as touches, each of which replaces the part in some place of the document by what has been made
of it.

Either the structure of the dashboard does not allow the change, and nothing is touched, or every
container is touched once, in order, and after each of them the widgets that it has by then.

As for checks, the calls are observed by changes that note them and else do what they did.

## Key results

- `Touches`: a document and the state beside it, taken from one touch to the next
- `Container.Toured`, `ToursAll`: which touches there are, and in which order
- `exists_toursAll`: the run of a change over containers, its calls, and what it does in place
- `updateParts_touches`: a change touches nothing or all
-/

namespace Dashboards

/-! ## Replaced parts -/

/-- Another widget in the place of the one with the given number. -/
def Container.setWidget (j : Nat) (w : Widget) (c : Container) : Container :=
  { c with grid := c.grid.map fun g => { g with children := g.children.map (·.set j w) } }

/-- Other widgets in the place of those in the container, if it has a list of them. -/
def Container.setWidgets (ws : List Widget) (c : Container) : Container :=
  { c with grid := c.grid.map fun g => { g with children := g.children.map fun _ => ws } }

/-- Another container in the place of the one with the given number. -/
def Dashboard.setContainer (i : Nat) (c : Container) (d : Dashboard) : Dashboard :=
  { d with children := d.children.map (·.set i c) }

/-- Putting the widgets in their own places changes nothing. -/
@[simp] theorem Container.setWidgets_widgets (c : Container) : c.setWidgets c.widgets = c := by
  rcases c with ⟨cid, title, _ | ⟨flow, columns, height, _ | ws, extra⟩, rest⟩ <;> rfl

/-- A widget that was replaced before all of them are makes no difference. -/
@[simp] theorem Container.setWidgets_setWidget (j : Nat) (w : Widget) (ws : List Widget)
    (c : Container) : (c.setWidget j w).setWidgets ws = c.setWidgets ws := by
  rcases c with ⟨cid, title, _ | ⟨flow, columns, height, _ | ws, extra⟩, rest⟩ <;> rfl

/-- Replacing a widget replaces it in the list of widgets. -/
@[simp] theorem Container.widgets_setWidget (j : Nat) (w : Widget) (c : Container) :
    (c.setWidget j w).widgets = c.widgets.set j w := by
  rcases c with ⟨cid, title, _ | ⟨flow, columns, height, _ | ws, extra⟩, rest⟩ <;> rfl

/-- Of two containers put in one place the later one stays. -/
@[simp] theorem Dashboard.setContainer_setContainer (i : Nat) (b c : Container) (d : Dashboard) :
    (d.setContainer i b).setContainer i c = d.setContainer i c := by
  rcases d with ⟨id, title, version, params, _ | cs, extra⟩
  · rfl
  · simp [Dashboard.setContainer]

/-- Replacing a container replaces it in the list of containers. -/
@[simp] theorem Dashboard.containers_setContainer (i : Nat) (c : Container) (d : Dashboard) :
    (d.setContainer i c).containers = d.containers.set i c := by
  rcases d with ⟨id, title, version, params, _ | cs, extra⟩ <;> rfl

/-- The container that is there in the place of itself. -/
theorem Dashboard.setContainer_eq_self {d : Dashboard} {i : Nat} {c : Container}
    (h : d.containers[i]? = some c) : d.setContainer i c = d := by
  rcases d with ⟨id, title, version, params, _ | cs, extra⟩
  · rfl
  · obtain ⟨hi, rfl⟩ := List.getElem?_eq_some_iff.1 h
    simp [Dashboard.setContainer, Dashboard.containers]

/-! ## Touches -/

/-- A call of a change: the place of the part, the part, and what is made of it. -/
structure Touch where
  place : Place
  given : Visited
  made : Visited
deriving DecidableEq, Repr

section Stateful

variable {σ : Type}
variable (onContainer : Option (Container → StateM σ Container))
variable (onWidget : Option (Widget → StateM σ Widget))

/-- One touch after another takes a document and a state to others: the part that is in the place by
then is given to the change, and what comes of it is put there. -/
inductive Touches : List Touch → Dashboard → σ → Dashboard → σ → Prop
  | nil (d : Dashboard) (s : σ) : Touches [] d s d s
  | container {change : Container → StateM σ Container} {i : Nat} {c c' : Container}
      {touches : List Touch} {d d' : Dashboard} {s s₁ s' : σ} (h : onContainer = some change)
      (hc : d.containers[i]? = some c) (hrun : (change c).run s = (c', s₁))
      (hrest : Touches touches (d.setContainer i c') s₁ d' s') :
      Touches (⟨.container i, .container c, .container c'⟩ :: touches) d s d' s'
  | widget {change : Widget → StateM σ Widget} {i j : Nat} {c : Container} {w w' : Widget}
      {touches : List Touch} {d d' : Dashboard} {s s₁ s' : σ} (h : onWidget = some change)
      (hc : d.containers[i]? = some c) (hw : c.widgets[j]? = some w)
      (hrun : (change w).run s = (w', s₁))
      (hrest : Touches touches (d.setContainer i (c.setWidget j w')) s₁ d' s') :
      Touches (⟨.widget i j, .widget w, .widget w'⟩ :: touches) d s d' s'

variable {onContainer onWidget}

/-- Touches can be made one after the other. -/
theorem Touches.append {first second : List Touch} {d d₁ d' : Dashboard} {s s₁ s' : σ}
    (h : Touches onContainer onWidget first d s d₁ s₁)
    (hsecond : Touches onContainer onWidget second d₁ s₁ d' s') :
    Touches onContainer onWidget (first ++ second) d s d' s' := by
  induction h with
  | nil => exact hsecond
  | container h hc hrun _ ih => exact .container h hc hrun (ih hsecond)
  | widget h hc hw hrun _ ih => exact .widget h hc hw hrun (ih hsecond)

/-! ## Order of touches -/

/-- The touch of a container itself, if containers are touched. -/
def ownTouches (toContainers : Bool) (i : Nat) (c own : Container) : List Touch :=
  if toContainers then [⟨.container i, .container c, .container own⟩] else []

/-- The touches of widgets, the first of which has the given number in its container. -/
def widgetTouches (i j : Nat) (ws ws' : List Widget) : List Touch :=
  ((ws.zip ws').zipIdx j).map fun ((w, w'), j) => ⟨.widget i j, .widget w, .widget w'⟩

/-- How a container is toured: it is touched itself, then each of the widgets that it has after that
is touched once, in order, and what is made of the widgets is what it has in the end.  What is not
to be touched stays as it is. -/
inductive Container.Toured (toContainers toWidgets : Bool) (i : Nat) (c : Container) :
    List Touch → Container → Prop
  | intro (own : Container) (ws : List Widget) (hown : toContainers = false → own = c)
      (hws : ws.length = own.widgets.length) (hkept : toWidgets = false → ws = own.widgets) :
      Toured toContainers toWidgets i c
        (ownTouches toContainers i c own ++
          if toWidgets then widgetTouches i 0 own.widgets ws else [])
        (own.setWidgets ws)

/-- Containers are toured in order; the first one has the given number. -/
inductive ToursAll (toContainers toWidgets : Bool) :
    Nat → List Container → List Touch → List Container → Prop
  | nil (i : Nat) : ToursAll toContainers toWidgets i [] [] []
  | cons {i : Nat} {c c' : Container} {cs cs' : List Container} {first rest : List Touch}
      (h : c.Toured toContainers toWidgets i first c')
      (hrest : ToursAll toContainers toWidgets (i + 1) cs rest cs') :
      ToursAll toContainers toWidgets i (c :: cs) (first ++ rest) (c' :: cs')

/-- A tour keeps the number of containers. -/
theorem ToursAll.length_eq {toContainers toWidgets : Bool} {i : Nat} {cs cs' : List Container}
    {touches : List Touch} (h : ToursAll toContainers toWidgets i cs touches cs') :
    cs'.length = cs.length := by
  induction h with
  | nil => rfl
  | cons _ _ ih => rw [List.length_cons, List.length_cons, ih]

/-! ## Noted calls -/

/-- The change, which also notes what it is given and what it makes of that. -/
def notingChange {α : Type} (part : α → Visited) (change : α → StateM σ α) (a : α) :
    StateM (σ × List (Visited × Visited)) α := do
  let (s, called) ← get
  let (a', s) := (change a).run s
  set (s, called ++ [(part a, part a')])
  return a'

/-- Some work from one state to another gives a result, and the same work with its calls noted gives
this result too and notes the given touches. -/
structure Traced {α : Type} (work : StateM σ α) (noted : StateM (σ × List (Visited × Visited)) α)
    (s : σ) (touches : List Touch) (a : α) (s' : σ) : Prop where
  run : work.run s = (a, s')
  notes : ∀ called, noted.run (s, called) =
    (a, s', called ++ touches.map fun t => (t.given, t.made))

namespace Traced

variable {α β : Type}

/-- Work that does nothing calls nothing. -/
protected theorem pure (a : α) (s : σ) : Traced (pure a) (pure a) s [] a s where
  run := rfl
  notes called := by
    rw [List.map_nil, List.append_nil]
    rfl

/-- The calls of work in two parts are those of the one, then those of the other. -/
protected theorem bind {work : StateM σ α} {noted : StateM (σ × List (Visited × Visited)) α}
    {next : α → StateM σ β} {notedNext : α → StateM (σ × List (Visited × Visited)) β}
    {first second : List Touch} {s s₁ s' : σ} {a : α} {b : β}
    (h : Traced work noted s first a s₁) (hnext : Traced (next a) (notedNext a) s₁ second b s') :
    Traced (work >>= next) (noted >>= notedNext) s (first ++ second) b s' where
  run := by
    rw [StateT.run_bind, h.run]
    exact hnext.run
  notes called := by
    rw [StateT.run_bind, h.notes, List.map_append, ← List.append_assoc]
    exact hnext.notes _

/-- What is made of the result does not call anything. -/
protected theorem map {work : StateM σ α} {noted : StateM (σ × List (Visited × Visited)) α}
    {touches : List Touch} {s s' : σ} {a : α} (h : Traced work noted s touches a s') (f : α → β) :
    Traced (do return f (← work)) (do return f (← noted)) s touches (f a) s' := by
  have hbind : Traced (do return f (← work)) (do return f (← noted)) s (touches ++ []) (f a) s' :=
    h.bind (Traced.pure (f a) s')
  rwa [List.append_nil] at hbind

/-- The call of a change. -/
theorem of_call {part : α → Visited} {change : α → StateM σ α} {a a' : α} {s s' : σ}
    (h : (change a).run s = (a', s')) (place : Place) :
    Traced (change a) (notingChange part change a) s [⟨place, part a, part a'⟩] a' s' where
  run := h
  notes called := by
    simp only [notingChange, StateT.run_bind, StateT.run_get, pure_bind, h]
    rfl

end Traced

/-! ## Runs -/

/-- A loop with effects goes on where its first round has ended. -/
theorem run_mapM_cons {α β : Type} {f : α → StateM σ β} {a : α} {as : List α} {b : β} {bs : List β}
    {s s₁ s' : σ} (h : (f a).run s = (b, s₁)) (hrest : (as.mapM f).run s₁ = (bs, s')) :
    ((a :: as).mapM f).run s = (b :: bs, s') := by
  rw [List.mapM_cons, StateT.run_bind, h]
  exact congrArg (fun r : List β × σ => (b :: r.1, r.2)) hrest

/-- The loop over widgets touches each of them once and keeps their number. -/
theorem exists_traced_widgets (change : Widget → StateM σ Widget) (i j : Nat) (ws : List Widget)
    (s : σ) : ∃ ws' s', ws'.length = ws.length ∧
      Traced (ws.mapM change) (ws.mapM (notingChange .widget change)) s (widgetTouches i j ws ws')
        ws' s' := by
  -- induction on the widgets: each call takes the state that the one before has left
  induction ws generalizing j s with
  | nil => exact ⟨[], s, rfl, .pure [] s⟩
  | cons w ws ih =>
    obtain ⟨⟨w', s₁⟩, hw⟩ : ∃ r, (change w).run s = r := ⟨_, rfl⟩
    obtain ⟨ws', s', hlength, hrest⟩ := ih (j + 1) s₁
    refine ⟨w' :: ws', s', by rw [List.length_cons, List.length_cons, hlength], ?_⟩
    rw [List.mapM_cons, List.mapM_cons]
    exact (Traced.of_call hw (.widget i j)).bind (hrest.map (w' :: ·))

/-- In the document, the loop over widgets replaces one after another in its place. -/
theorem touches_widgets {change : Widget → StateM σ Widget} (hchange : onWidget = some change)
    {ws ws' : List Widget} {s s' : σ} (hrun : (ws.mapM change).run s = (ws', s')) {d : Dashboard}
    {i : Nat} {c : Container} {done : List Widget} (hc : d.containers[i]? = some c)
    (hws : c.widgets = done ++ ws) :
    Touches onContainer onWidget (widgetTouches i done.length ws ws') d s
      (d.setContainer i (c.setWidgets (done ++ ws'))) s' := by
  -- induction on the widgets that are left, while those that are done stay in front of them
  induction ws generalizing ws' s d c done with
  | nil =>
    obtain rfl : ws' = [] := (Prod.mk.inj hrun).1.symm
    obtain rfl : s' = s := (Prod.mk.inj hrun).2.symm
    rw [← hws, Container.setWidgets_widgets, Dashboard.setContainer_eq_self hc]
    exact .nil d _
  | cons w ws ih =>
    obtain ⟨⟨w', s₁⟩, hw⟩ : ∃ r, (change w).run s = r := ⟨_, rfl⟩
    obtain ⟨⟨rest, s₂⟩, hrest⟩ : ∃ r, (ws.mapM change).run s₁ = r := ⟨_, rfl⟩
    rw [run_mapM_cons hw hrest] at hrun
    obtain ⟨rfl, rfl⟩ := Prod.mk.inj hrun
    -- the widget is replaced, and those that follow it are still the same
    have hget : c.widgets[done.length]? = some w := by
      rw [hws, List.getElem?_append_right (Nat.le_refl _), Nat.sub_self]
      rfl
    have hset : (d.setContainer i (c.setWidget done.length w')).containers[i]? =
        some (c.setWidget done.length w') := by
      rw [Dashboard.containers_setContainer, List.getElem?_set_self]
      exact (List.getElem?_eq_some_iff.1 hc).1
    have hsplit : (c.setWidget done.length w').widgets = (done ++ [w']) ++ ws := by
      rw [Container.widgets_setWidget, hws, List.set_append_right _ _ (Nat.le_refl _),
        Nat.sub_self, List.set_cons_zero, List.append_assoc, List.singleton_append]
    have htouches := ih hrest hset hsplit
    rw [Dashboard.setContainer_setContainer, Container.setWidgets_setWidget, List.length_append,
      List.length_singleton, List.append_assoc, List.singleton_append] at htouches
    exact .widget hchange hc hget hw htouches

section

variable (onContainer : Option (Container → StateM σ Container))
variable (onWidget : Option (Widget → StateM σ Widget))

/-- The change of a container itself, if containers are touched. -/
def Container.updateSelf {m : Type → Type} [Monad m]
    (onContainer : Option (Container → m Container)) (c : Container) : m Container :=
  match onContainer with
  | some change => change c
  | none => pure c

/-- The change of the widgets that a container has, if widgets are touched. -/
def Container.updateInside {m : Type → Type} [Monad m] (onWidget : Option (Widget → m Widget))
    (c : Container) : m Container :=
  match onWidget with
  | some change => c.updateWidgets change
  | none => pure c

/-- A container is changed itself before its widgets are. -/
theorem Container.updateParts_eq {m : Type → Type} [Monad m]
    (onContainer : Option (Container → m Container)) (onWidget : Option (Widget → m Widget))
    (c : Container) :
    c.updateParts onContainer onWidget =
      c.updateSelf onContainer >>= (·.updateInside onWidget) := by
  cases onContainer <;> cases onWidget <;> rfl

/-- The widgets of a container are changed where they are. -/
theorem Container.updateWidgets_eq {m : Type → Type} [Monad m] [LawfulMonad m]
    (change : Widget → m Widget) (c : Container) :
    c.updateWidgets change = do return c.setWidgets (← c.widgets.mapM change) := by
  rcases c with ⟨cid, title, _ | ⟨flow, columns, height, _ | ws, extra⟩, rest⟩ <;>
    simp [Container.updateWidgets, Container.widgets, Container.setWidgets]

/-- A container itself is touched once, in its place in a document. -/
theorem exists_traced_self (i : Nat) (c : Container) (s : σ) :
    ∃ own s', (onContainer.isSome = false → own = c) ∧
      Traced (c.updateSelf onContainer)
        (c.updateSelf (onContainer.map (notingChange .container))) s
        (ownTouches onContainer.isSome i c own) own s' ∧
      ∀ d : Dashboard, d.containers[i]? = some c →
        Touches onContainer onWidget (ownTouches onContainer.isSome i c own) d s
          (d.setContainer i own) s' := by
  -- without a change of containers there is no call, and the container is put where it is
  cases honContainer : onContainer with
  | none =>
    refine ⟨c, s, fun _ => rfl, .pure c s, fun d hd => ?_⟩
    rw [Dashboard.setContainer_eq_self hd]
    exact .nil d s
  | some change =>
    obtain ⟨⟨own, s'⟩, hrun⟩ : ∃ r, (change c).run s = r := ⟨_, rfl⟩
    exact ⟨own, s', nofun, .of_call hrun (.container i),
      fun d hd => .container rfl hd hrun (.nil _ s')⟩

/-- The widgets of a container are touched once, in their places in a document. -/
theorem exists_traced_inside (i : Nat) (c : Container) (s : σ) :
    ∃ ws s', ws.length = c.widgets.length ∧ (onWidget.isSome = false → ws = c.widgets) ∧
      Traced (c.updateInside onWidget) (c.updateInside (onWidget.map (notingChange .widget))) s
        (if onWidget.isSome then widgetTouches i 0 c.widgets ws else []) (c.setWidgets ws) s' ∧
      ∀ d : Dashboard, d.containers[i]? = some c →
        Touches onContainer onWidget
          (if onWidget.isSome then widgetTouches i 0 c.widgets ws else []) d s
          (d.setContainer i (c.setWidgets ws)) s' := by
  cases honWidget : onWidget with
  | none =>
    refine ⟨c.widgets, s, rfl, fun _ => rfl, ?_, fun d hd => ?_⟩
    · rw [Container.setWidgets_widgets]
      exact .pure c s
    · rw [Container.setWidgets_widgets, Dashboard.setContainer_eq_self hd]
      exact .nil d s
  | some change =>
    obtain ⟨ws, s', hlength, htraced⟩ := exists_traced_widgets change i 0 c.widgets s
    refine ⟨ws, s', hlength, nofun, ?_, fun d hd => ?_⟩
    · rw [Option.map_some, Container.updateInside, Container.updateInside,
        Container.updateWidgets_eq, Container.updateWidgets_eq]
      exact htraced.map (c.setWidgets ·)
    -- no widget is done when the loop begins
    · exact touches_widgets rfl htraced.run hd (List.nil_append _).symm

/-- A container is toured, in its place in a document. -/
theorem exists_toured (i : Nat) (c : Container) (s : σ) :
    ∃ touches c' s', c.Toured onContainer.isSome onWidget.isSome i touches c' ∧
      Traced (c.updateParts onContainer onWidget)
        (c.updateParts (onContainer.map (notingChange .container))
          (onWidget.map (notingChange .widget))) s touches c' s' ∧
      ∀ d : Dashboard, d.containers[i]? = some c →
        Touches onContainer onWidget touches d s (d.setContainer i c') s' := by
  -- the container first, and then the widgets of what has been made of it
  obtain ⟨own, s₁, hown, htracedSelf, htouchesSelf⟩ :=
    exists_traced_self onContainer onWidget i c s
  obtain ⟨ws, s', hlength, hkept, htracedInside, htouchesInside⟩ :=
    exists_traced_inside onContainer onWidget i own s₁
  rw [Container.updateParts_eq, Container.updateParts_eq]
  refine ⟨_, _, s', .intro own ws hown hlength hkept, htracedSelf.bind htracedInside, ?_⟩
  intro d hd
  have hi := (List.getElem?_eq_some_iff.1 hd).1
  -- the widgets are those that the container has after its own touch
  have hinside := htouchesInside (d.setContainer i own) (by
    rw [Dashboard.containers_setContainer, List.getElem?_set_self hi])
  rw [Dashboard.setContainer_setContainer] at hinside
  exact (htouchesSelf d hd).append hinside

/-- Containers are toured in order, in their places in a document. -/
theorem exists_toursAll (i : Nat) (cs : List Container) (s : σ) :
    ∃ touches cs' s', ToursAll onContainer.isSome onWidget.isSome i cs touches cs' ∧
      Traced (cs.mapM (·.updateParts onContainer onWidget))
        (cs.mapM (·.updateParts (onContainer.map (notingChange .container))
          (onWidget.map (notingChange .widget)))) s touches cs' s' ∧
      ∀ (d : Dashboard) (done : List Container), d.children = some (done ++ cs) →
        done.length = i →
        Touches onContainer onWidget touches d s { d with children := some (done ++ cs') } s' := by
  -- induction on the containers, which are counted from the first
  induction cs generalizing i s with
  | nil =>
    refine ⟨[], [], s, .nil i, .pure [] s, fun d done hd _ => ?_⟩
    rw [← hd]
    exact .nil d s
  | cons c cs ih =>
    obtain ⟨first, c', s₁, htoured, htraced, htouches⟩ := exists_toured onContainer onWidget i c s
    obtain ⟨rest, cs', s', htours, htracedRest, htouchesRest⟩ := ih (i + 1) s₁
    refine ⟨first ++ rest, c' :: cs', s', .cons htoured htours, ?_, ?_⟩
    · rw [List.mapM_cons, List.mapM_cons]
      exact htraced.bind (htracedRest.map (c' :: ·))
    · intro d done hd hdone
      -- the containers that are done stand before this one
      have hget : d.containers[i]? = some c := by
        rw [Dashboard.containers, hd, ← hdone]
        simp
      have hset : (d.setContainer i c').children = some ((done ++ [c']) ++ cs) := by
        rw [Dashboard.setContainer, hd, ← hdone]
        simp
      have hrest := htouchesRest (d.setContainer i c') (done ++ [c']) hset (by simp [hdone])
      rw [List.append_assoc, List.singleton_append] at hrest
      exact (htouches d hget).append hrest

end

/-! ## Changes of dashboards -/

/-- The path of the first thing that a dashboard lacks on a walk over its containers, or over their
widgets too. -/
inductive Dashboard.FirstHoleTo (d : Dashboard) : Bool → String → Prop
  | containers (toWidgets : Bool) (h : d.children = none) : FirstHoleTo d toWidgets "children"
  | widgets {path : String} (h : d.FirstHole path) : FirstHoleTo d true path

/-- The walk reports the first thing that the dashboard lacks. -/
theorem Dashboard.FirstHoleTo.checkStructure_eq {d : Dashboard} {toWidgets : Bool} {path : String}
    (h : d.FirstHoleTo toWidgets path) :
    d.checkStructure toWidgets = .error (.malformed path) := by
  cases h with
  | containers _ h => simp only [Dashboard.checkStructure, Dashboard.containers?, h]
  | widgets h => exact h.checkStructure_eq

/-- A walk gets through a dashboard, or there is a first thing that it lacks. -/
theorem Dashboard.reaches_or_firstHoleTo (d : Dashboard) (toWidgets : Bool) :
    d.Reaches (.ofWalk toWidgets) ∨ ∃ path, d.FirstHoleTo toWidgets path := by
  cases toWidgets with
  | false =>
    cases hcs : d.children with
    | none => exact .inr ⟨_, .containers false hcs⟩
    | some cs => exact .inl ⟨cs, hcs⟩
  | true =>
    by_cases hd : d.StructurallyComplete
    · exact .inl hd
    · obtain ⟨path, hpath⟩ := Dashboard.exists_firstHole hd
      exact .inr ⟨path, .widgets hpath⟩

/-- A dashboard that a walk gets through has a list of containers. -/
theorem Dashboard.Reaches.exists_children {d : Dashboard} {toWidgets : Bool}
    (h : d.Reaches (.ofWalk toWidgets)) : ∃ cs, d.children = some cs := by
  cases toWidgets with
  | false => exact h
  | true =>
    obtain ⟨cs, hcs, -⟩ := h
    exact ⟨cs, hcs⟩

/-- A change that cannot get through a dashboard calls nothing. -/
theorem Dashboard.FirstHoleTo.traced_updateParts {d : Dashboard} {path : String}
    (h : d.FirstHoleTo onWidget.isSome path) (s : σ) :
    Traced (d.updateParts onContainer onWidget)
      (d.updateParts (onContainer.map (notingChange .container))
        (onWidget.map (notingChange .widget))) s [] (.error (.malformed path)) s := by
  have hnoted : d.checkStructure (onWidget.map (notingChange .widget)).isSome =
      .error (.malformed path) := by
    rw [Option.isSome_map]
    exact h.checkStructure_eq
  rw [updateParts_of_error h.checkStructure_eq, updateParts_of_error hnoted]
  exact .pure _ s

/-- A change that gets through a dashboard calls what the change of its containers calls. -/
theorem Dashboard.Reaches.traced_updateParts {d : Dashboard} {cs cs' : List Container}
    (h : d.Reaches (.ofWalk onWidget.isSome)) (hcs : d.children = some cs) {touches : List Touch}
    {s s' : σ}
    (hcontainers : Traced (cs.mapM (·.updateParts onContainer onWidget))
      (cs.mapM (·.updateParts (onContainer.map (notingChange .container))
        (onWidget.map (notingChange .widget)))) s touches cs' s') :
    Traced (d.updateParts onContainer onWidget)
      (d.updateParts (onContainer.map (notingChange .container))
        (onWidget.map (notingChange .widget))) s touches
      (.ok { d with children := some cs' }) s' := by
  have hnoted : d.Reaches (.ofWalk (onWidget.map (notingChange .widget)).isSome) := by
    rwa [Option.isSome_map]
  rw [updateParts_of_reaches h, updateParts_of_reaches hnoted, hcs]
  simp only [Option.mapM_some, bind_map_left]
  exact hcontainers.map fun cs => Except.ok { d with children := some cs }

variable (onContainer onWidget) in
/-- A change of a dashboard touches nothing or all.

If the dashboard lacks something that the change would have to walk into, then the path of the first
such thing is the error, no call is made, and the state stays as it is.  Otherwise every container
is touched once, and after it every widget that it has by then, in order; in place, these touches
make the resulting dashboard of the given one.  It has as many containers, and nothing else is
changed.

A change at work that fails leaves the document and the ids as they are. -/
theorem updateParts_touches (d : Dashboard) (s : σ) :
    ((∃ path, d.FirstHoleTo onWidget.isSome path ∧
        Traced (d.updateParts onContainer onWidget)
          (d.updateParts (onContainer.map (notingChange .container))
            (onWidget.map (notingChange .widget))) s [] (.error (.malformed path)) s) ∨
      (d.Reaches (.ofWalk onWidget.isSome) ∧ ∃ cs touches cs' s', d.children = some cs ∧
        ToursAll onContainer.isSome onWidget.isSome 0 cs touches cs' ∧ cs'.length = cs.length ∧
        Traced (d.updateParts onContainer onWidget)
          (d.updateParts (onContainer.map (notingChange .container))
            (onWidget.map (notingChange .widget))) s touches
          (.ok { d with children := some cs' }) s' ∧
        Touches onContainer onWidget touches d s { d with children := some cs' } s')) ∧
    ∀ (f : Option (Container → StateM IdSupply Container))
      (g : Option (Widget → StateM IdSupply Widget)) (ids : IdSupply),
      (∃ path, d.FirstHoleTo g.isSome path ∧
        Work.runOn (Work.changeParts f g) ⟨d, ids⟩ = (.error (.malformed path), ⟨d, ids⟩)) ∨
      ∃ d' ids', (d.updateParts f g).run ids = (.ok d', ids') ∧
        Work.runOn (Work.changeParts f g) ⟨d, ids⟩ = (.ok (), ⟨d', ids'⟩) := by
  constructor
  · rcases d.reaches_or_firstHoleTo onWidget.isSome with h | ⟨path, hpath⟩
    · obtain ⟨cs, hcs⟩ := h.exists_children
      -- the first container has the number 0, and none is done before it
      obtain ⟨touches, cs', s', htours, htraced, htouches⟩ :=
        exists_toursAll onContainer onWidget 0 cs s
      exact .inr ⟨h, cs, touches, cs', s', hcs, htours, htours.length_eq,
        h.traced_updateParts hcs htraced, htouches d [] hcs rfl⟩
    · exact .inl ⟨path, hpath, hpath.traced_updateParts s⟩
  · intro f g ids
    -- a change at work has the supply of ids for its state
    rcases d.reaches_or_firstHoleTo g.isSome with h | ⟨path, hpath⟩
    · obtain ⟨cs, hcs⟩ := h.exists_children
      obtain ⟨touches, cs', ids', -, htraced, -⟩ := exists_toursAll f g 0 cs ids
      have hrun := (h.traced_updateParts hcs htraced).run
      exact .inr ⟨_, ids', hrun, Work.runOn_changeParts_of_ok hrun⟩
    · exact .inl ⟨path, hpath, Work.runOn_changeParts_of_error hpath.checkStructure_eq⟩

end Stateful

/-- The widgets of a container that loses its grid are not touched. -/
example :
    let d := (Dashboard.titled "d").addContainer (.ofWidgets [{ id := some "a" }])
      |>.addContainer (.ofWidgets [{ id := some "b" }, { id := some "c" }])
    let empty : Container → StateM Nat Container := fun c =>
      modifyGet fun n => (if n = 0 then { c with grid := none } else c, n + 1)
    let count : Widget → StateM Nat Widget := fun w => modifyGet fun n => (w, n + 10)
    ((d.updateParts (some empty) (some count)).run 0).2 = 22 := rfl

end Dashboards
