import Dashboards.Schema.History

/-!
# Migrations

A catalogue is a list of steps in strictly ascending order of their versions.  It tells how far a
document has come, by what the document holds and not by the version written in it, and brings
documents up to its latest version.
-/

namespace Dashboards

/-- The versions of the first two neighbours that do not ascend. -/
def firstDescent? : List Step → Option (Version × Version)
  | a :: b :: steps =>
    if b.version ≤ a.version then some (a.version, b.version) else firstDescent? (b :: steps)
  | _ => none

/-- If all neighbours ascend, then so does the whole list. -/
theorem pairwise_of_firstDescent?_eq_none {steps : List Step} (h : firstDescent? steps = none) :
    steps.Pairwise fun a b => a.version < b.version := by
  induction steps with
  | nil => exact .nil
  | cons a steps ih =>
    cases steps with
    | nil => exact List.pairwise_singleton _ _
    | cons b steps =>
      simp only [firstDescent?] at h
      split at h
      · exact nomatch h
      next hab =>
        have hb := ih h
        refine List.pairwise_cons.2 ⟨fun c hc => ?_, hb⟩
        have hlt : a.version.number < b.version.number := UInt32.not_le.1 hab
        rcases List.mem_cons.1 hc with rfl | hc
        · exact hlt
        · exact UInt32.lt_trans hlt (List.rel_of_pairwise_cons hb hc)

/-- A list of steps in strictly ascending order of their versions, with at least one step. -/
structure Catalogue where
  steps : List Step
  nonempty : steps ≠ []
  ascending : steps.Pairwise fun a b => a.version < b.version

/-- What a migration found and did. -/
structure MigrationReport where
  /-- the version written in the document before -/
  stored : Option Version
  /-- the latest version that the document satisfied before, together with all earlier ones -/
  detected : Option Version
  /-- the latest version of the catalogue -/
  current : Version
  /-- the versions whose updates were made, in order -/
  applied : List Version
deriving DecidableEq, Repr

/-- Whether the migration changed the document. -/
def MigrationReport.changed (r : MigrationReport) : Bool :=
  !r.applied.isEmpty || (match r.stored with
    | some v => decide (v < r.current)
    | none => true)

/-- The first version of a list that a document does not satisfy makes the outcome. -/
def verifySteps (d : Dashboard) : List Step → Except MigrationError Verification
  | [] => .ok .satisfied
  | s :: steps =>
    match s.verify d with
    | .ok .satisfied => verifySteps d steps
    | outcome => outcome

/-- The last version of a list up to which a document satisfies all, or the one given before it. -/
def detectIn (d : Dashboard) (before : Option Version) :
    List Step → Except MigrationError (Option Version)
  | [] => .ok before
  | s :: steps =>
    match s.verify d with
    | .ok .satisfied => detectIn d (some s.version) steps
    | .ok (.missing _) => .ok before
    | .error e => .error e

/-- Applies steps in order, and returns the versions whose updates were made. -/
def applySteps : List Step → Work (List Version)
  | [] => return []
  | s :: steps => do
    let updated ← s.apply
    let rest ← applySteps steps
    return if updated then s.version :: rest else rest

namespace Catalogue

/-- The catalogue of some steps, which must be in strictly ascending order. -/
def ofSteps (steps : List Step) : Except MigrationError Catalogue :=
  if h : steps = [] then .error .emptyCatalogue
  else
    match hd : firstDescent? steps with
    | some (previous, next) => .error (.outOfOrder previous next)
    | none => .ok ⟨steps, h, pairwise_of_firstDescent?_eq_none hd⟩

/-- The catalogue of the history of the schema. -/
def builtin : Catalogue where
  steps := schemaHistory
  nonempty := nofun
  ascending := pairwise_of_firstDescent?_eq_none (by decide)

/-- The latest version. -/
def latest (c : Catalogue) : Version := (c.steps.getLast c.nonempty).version

/-- The step of a version. -/
def step? (c : Catalogue) (v : Version) : Option Step := c.steps.find? (·.version == v)

/-- The outcome of checking all versions in order. -/
def verify (c : Catalogue) (d : Dashboard) : Except MigrationError Verification :=
  verifySteps d c.steps

/-- The latest version that a document satisfies together with all earlier ones. -/
def detect (c : Catalogue) (d : Dashboard) : Except MigrationError (Option Version) :=
  detectIn d none c.steps

/-- Whether a document satisfies all versions. -/
def isCurrent (c : Catalogue) (d : Dashboard) : Except MigrationError Bool :=
  (c.verify d).map (·.isSatisfied)

/-- The version of a document that has been brought up to date: a later one stays. -/
def finalVersion (c : Catalogue) (stored : Option Version) : Version :=
  match stored with
  | some v => if c.latest < v then v else c.latest
  | none => c.latest

/-- Writes the version of a document that has been brought up to date.  Where a version was stored
that is not before the latest one, nothing is written. -/
def writeVersion (c : Catalogue) (stored : Option Version) (d : Dashboard) : Dashboard :=
  if stored = some (c.finalVersion stored) then d
  else { d with version := some (c.finalVersion stored) }

/-- Brings a document up to the latest version. -/
def migrate (c : Catalogue) : Work MigrationReport := do
  let stored := (← get).dashboard.version
  let detected ← Work.inspect c.detect
  let applied ← applySteps c.steps
  -- the version that counts is the one from before the updates
  Work.change (c.writeVersion stored)
  return ⟨stored, detected, c.latest, applied⟩

/-- Brings a document given as a value up to the latest version. -/
def migrateValue (c : Catalogue) (ids : IdSupply) (v : Json.Value) :
    Except MigrationError (Json.Value × MigrationReport) :=
  match Dashboard.codec.ofValue v with
  | .error p => .error (.invalidDocument p)
  | .ok d =>
    match c.migrate.run.run ⟨d, ids⟩ with
    | (.error e, _) => .error e
    | (.ok report, ws) => .ok (Dashboard.codec.toValue ws.dashboard, report)

end Catalogue

end Dashboards
