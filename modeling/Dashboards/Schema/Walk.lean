import Dashboards.Schema.Verification

/-!
# Walks

Visits to the containers and widgets of a dashboard in the order of the document: each container,
then its widgets.  A visit may have effects of any monad.  A dashboard without a list of containers
cannot be walked, and neither can a container without a list of widgets if widgets are visited.

A check stops at the first part that is not satisfied.  A change looks at the whole structure
before it touches anything.
-/

namespace Dashboards

/-! ## Paths -/

/-- The path of a container from the dashboard. -/
def containerPath (i : Nat) : String := "children[" ++ Decimal.natText i ++ "]"

/-- The path of the list of widgets of a container. -/
def widgetsPath (i : Nat) : String := containerPath i ++ ".container.children"

/-- The path of a widget from the dashboard. -/
def widgetPath (i j : Nat) : String := widgetsPath i ++ "[" ++ Decimal.natText j ++ "]"

/-! ## Structure -/

/-- The list of containers, which a walk needs. -/
def Dashboard.containers? (d : Dashboard) : Except MigrationError (List Container) :=
  match d.children with
  | some cs => .ok cs
  | none => .error (.malformed "children")

/-- The list of widgets of the container in a place, which a walk over widgets needs. -/
def Container.widgets? (i : Nat) (c : Container) : Except MigrationError (List Widget) :=
  match c.grid with
  | none => .error (.malformed (containerPath i ++ ".container"))
  | some g =>
    match g.children with
    | some ws => .ok ws
    | none => .error (.malformed (widgetsPath i))

/-- The containers, the first of which has the given index, must all have lists of widgets. -/
def checkWidgetLists : Nat → List Container → Except MigrationError Unit
  | _, [] => .ok ()
  | i, c :: cs =>
    match c.widgets? i with
    | .error e => .error e
    | .ok _ => checkWidgetLists (i + 1) cs

/-- What a walk needs of the structure of a dashboard. -/
def Dashboard.checkStructure (toWidgets : Bool) (d : Dashboard) : Except MigrationError Unit :=
  match d.containers? with
  | .error e => .error e
  | .ok cs => if toWidgets then checkWidgetLists 0 cs else .ok ()

/-! ## Checks -/

section Checks

variable {m : Type → Type} [Monad m]

/-- Checks widgets in order up to the first that is not satisfied; the first one has index `j`. -/
def verifyWidgetList (check : Widget → m Verification) (i : Nat) :
    Nat → List Widget → m Verification
  | _, [] => pure .satisfied
  | j, w :: ws => do
    match ← check w with
    | .satisfied => verifyWidgetList check i (j + 1) ws
    | .missing field => pure (Verification.within (widgetPath i j) (.missing field))

/-- Checks the widgets of the container in a place. -/
def verifyWidgetsOf (check : Widget → m Verification) (i : Nat) (c : Container) :
    m (Except MigrationError Verification) :=
  match c.widgets? i with
  | .error e => pure (.error e)
  | .ok ws => do return .ok (← verifyWidgetList check i 0 ws)

/-- Checks a container and its widgets. -/
def verifyContainer (onContainer : Option (Container → m Verification))
    (onWidget : Option (Widget → m Verification)) (i : Nat) (c : Container) :
    m (Except MigrationError Verification) := do
  let own ← match onContainer with
    | some check => check c
    | none => pure .satisfied
  match own with
  | .missing field => pure (.ok (Verification.within (containerPath i) (.missing field)))
  | .satisfied =>
    match onWidget with
    | some check => verifyWidgetsOf check i c
    | none => pure (.ok .satisfied)

/-- Checks containers with their widgets, in order; the first container has index `i`. -/
def verifyContainerList (onContainer : Option (Container → m Verification))
    (onWidget : Option (Widget → m Verification)) :
    Nat → List Container → m (Except MigrationError Verification)
  | _, [] => pure (.ok .satisfied)
  | i, c :: cs => do
    match ← verifyContainer onContainer onWidget i c with
    | .ok .satisfied => verifyContainerList onContainer onWidget (i + 1) cs
    | outcome => pure outcome

/-- Checks the containers, the widgets, or both, up to the first that is not satisfied. -/
def Dashboard.verifyParts (onContainer : Option (Container → m Verification))
    (onWidget : Option (Widget → m Verification)) (d : Dashboard) :
    m (Except MigrationError Verification) :=
  match d.containers? with
  | .error e => pure (.error e)
  | .ok cs => verifyContainerList onContainer onWidget 0 cs

end Checks

/-- Checks every container. -/
def Dashboard.verifyContainers (check : Container → Verification) (d : Dashboard) :
    Except MigrationError Verification :=
  Id.run (d.verifyParts (m := Id) (some check) none)

/-- Checks every widget. -/
def Dashboard.verifyWidgets (check : Widget → Verification) (d : Dashboard) :
    Except MigrationError Verification :=
  Id.run (d.verifyParts (m := Id) none (some check))

/-! ## Changes -/

section Changes

variable {m : Type → Type} [Monad m]

/-- Changes the widgets that a container has. -/
def Container.updateWidgets (change : Widget → m Widget) (c : Container) : m Container :=
  match c.grid with
  | none => pure c
  | some g =>
    match g.children with
    | none => pure c
    | some ws => do
      let ws ← ws.mapM change
      return { c with grid := some { g with children := some ws } }

/-- Changes a container, then the widgets that it has after that. -/
def Container.updateParts (onContainer : Option (Container → m Container))
    (onWidget : Option (Widget → m Widget)) (c : Container) : m Container := do
  let c ← match onContainer with
    | some change => change c
    | none => pure c
  match onWidget with
  | some change => c.updateWidgets change
  | none => pure c

/-- Changes the containers, the widgets, or both, if the structure of the dashboard allows it. -/
def Dashboard.updateParts (onContainer : Option (Container → m Container))
    (onWidget : Option (Widget → m Widget)) (d : Dashboard) :
    m (Except MigrationError Dashboard) :=
  match d.checkStructure onWidget.isSome with
  | .error e => pure (.error e)
  | .ok () =>
    match d.children with
    | none => pure (.ok d)
    | some cs => do
      let cs ← cs.mapM (·.updateParts onContainer onWidget)
      return .ok { d with children := some cs }

end Changes

end Dashboards
