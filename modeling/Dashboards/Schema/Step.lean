import Dashboards.Schema.Walk

/-!
# Steps of the schema

A step is one version in the history of the schema: a check whether a document satisfies it, and an
update that makes the document satisfy it.  Updates change a document in place and may take new ids
from a supply, so they act on a workspace that holds both.  What an update has done stays done if
it fails.
-/

namespace Dashboards

/-- A supply of new ids: those to be handed out next, in order. -/
abbrev IdSupply := Nat → String

/-- Takes the next id from the supply. -/
def IdSupply.take : StateM IdSupply String := fun ids => (ids 0, fun n => ids (n + 1))

/-- A document at work, with the ids that are left. -/
structure Workspace where
  dashboard : Dashboard
  ids : IdSupply

/-- Work on a document that may fail. -/
abbrev Work := ExceptT MigrationError (StateM Workspace)

namespace Work

/-- What a check of the document says. -/
def inspect {α : Type} (check : Dashboard → Except MigrationError α) : Work α := do
  let ws ← get
  match check ws.dashboard with
  | .ok a => return a
  | .error e => throw e

/-- Changes the document. -/
def change (f : Dashboard → Dashboard) : Work Unit :=
  modify fun ws => { ws with dashboard := f ws.dashboard }

/-- Changes the containers, the widgets, or both, with new ids at hand. -/
def changeParts (onContainer : Option (Container → StateM IdSupply Container))
    (onWidget : Option (Widget → StateM IdSupply Widget)) : Work Unit := do
  let ws ← get
  match (ws.dashboard.updateParts onContainer onWidget).run ws.ids with
  | (.ok d, ids) => set (Workspace.mk d ids)
  | (.error e, _) => throw e

/-- Changes every widget. -/
def changeWidgets (f : Widget → Widget) : Work Unit :=
  changeParts none (some fun w => pure (f w))

/-- Changes every container. -/
def changeContainers (f : Container → Container) : Work Unit :=
  changeParts (some fun c => pure (f c)) none

end Work

/-- One version in the history of the schema. -/
structure Step where
  version : Version
  description : String
  verify : Dashboard → Except MigrationError Verification
  update : Work Unit

namespace Step

/-- How a step is shown to developers. -/
def debugText (s : Step) : String :=
  "SchemaVersion \x7b id: SchemaVersionId(" ++ s.version.text ++ "), description: " ++
    Text.quoted s.description ++ ", .. \x7d"

/-- Updates the document unless it satisfies the step, and tells whether that was needed.  The
update must be enough. -/
def apply (s : Step) : Work Bool := do
  match ← Work.inspect s.verify with
  | .satisfied => return false
  | .missing _ =>
    s.update
    match ← Work.inspect s.verify with
    | .satisfied => return true
    | .missing field => throw (.updateIncomplete s.version field)

end Step

end Dashboards
