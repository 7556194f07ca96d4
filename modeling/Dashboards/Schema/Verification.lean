import Dashboards.Document.Codec

/-!
# Verifications and errors of migrations

The outcome of checking a document against a schema version, and why a document cannot be checked
or brought up to date.
-/

namespace Dashboards

/-- The outcome of a check: the version is satisfied, or there is a first field, given by its path,
that does not satisfy it. -/
inductive Verification where
  | satisfied
  | missing (path : String)
deriving DecidableEq, Repr

namespace Verification

/-- Satisfied if the condition holds; otherwise the field is missing. -/
def require (condition : Bool) (field : String) : Verification :=
  if condition then satisfied else missing field

/-- Whether nothing is missing. -/
def isSatisfied : Verification → Bool
  | satisfied => true
  | missing _ => false

/-- A second check, made only if the first is satisfied. -/
def andThen : Verification → (Unit → Verification) → Verification
  | satisfied, next => next ()
  | missing path, _ => missing path

/-- The outcome of a check of a part, with the path counted from the whole. -/
def within (place : String) : Verification → Verification
  | satisfied => satisfied
  | missing path => missing (place ++ "." ++ path)

/-- How an outcome is shown. -/
def text : Verification → String
  | satisfied => "satisfied"
  | missing path => "missing '" ++ path ++ "'"

end Verification

/-- Why a document cannot be checked or brought up to date. -/
inductive MigrationError where
  /-- a part through which the way leads is absent -/
  | malformed (path : String)
  /-- an update was made and its version is still not satisfied -/
  | updateIncomplete (version : Version) (field : String)
  | emptyCatalogue
  | outOfOrder (previous next : Version)
  | invalidDocument (problem : Problem)
deriving DecidableEq, Repr

/-- What is said of an error. -/
def MigrationError.message : MigrationError → String
  | malformed path => "Malformed dashboard: missing '" ++ path ++ "'"
  | updateIncomplete version field =>
    "Update to schema version " ++ version.text ++ " left '" ++ field ++ "' unsatisfied"
  | emptyCatalogue => "No schema versions registered"
  | outOfOrder previous next =>
    "Schema version " ++ next.text ++ " registered after " ++ previous.text ++
      "; versions must be strictly ascending"
  | invalidDocument problem => "Invalid dashboard JSON: " ++ problem.message

end Dashboards
