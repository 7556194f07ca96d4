import Dashboards.Document.Codec
import Dashboards.Yaml.Query

/-!
# Loading and saving

Queries from YAML text, dashboards from and to JSON text, and both from the contents of files.
-/

namespace Dashboards

/-- Why a file gives no text. -/
inductive FileProblem where
  | notFound
  | notText
deriving DecidableEq, Repr

/-- What is said of a file that gives no text. -/
def FileProblem.message : FileProblem → String
  | notFound => "No such file or directory (os error 2)"
  | notText => "stream did not contain valid UTF-8"

/-- Why a document cannot be loaded. -/
inductive LoadError where
  /-- a file gives no text; an empty path names no file -/
  | unreadable (path : String) (problem : FileProblem)
  /-- a failure to read, with what is said of it, where no path is known -/
  | unreadableSource (reason : String)
  | invalidQuery
  | invalidDashboard (problem : Problem)
deriving DecidableEq, Repr

/-- What every message about an invalid query starts with. -/
def invalidQueryText : String := "Invalid query properties: "

/-- How a message names a source: by its path, if it has one. -/
def sourceText (path : String) : String := if path = "" then "document" else "'" ++ path ++ "'"

/-- What is said of an error. -/
def LoadError.message : LoadError → String
  | unreadable path problem => "Failed to read " ++ sourceText path ++ ": " ++ problem.message
  | unreadableSource reason => "Failed to read " ++ sourceText "" ++ ": " ++ reason
  | invalidQuery => invalidQueryText
  | invalidDashboard problem => "Invalid dashboard document: " ++ problem.message

/-- The text of a file, given its contents if there is such a file. -/
def fileText (path : String) : Option ByteArray → Except LoadError String
  | none => .error (.unreadable path .notFound)
  | some bytes =>
    match String.fromUTF8? bytes with
    | some text => .ok text
    | none => .error (.unreadable path .notText)

/-- The query of a YAML text. -/
def Query.ofYaml (text : String) : Except LoadError Query :=
  match Yaml.query? text with
  | some q => .ok q
  | none => .error .invalidQuery

/-- The query of a file. -/
def Query.ofFile (path : String) (contents : Option ByteArray) : Except LoadError Query := do
  Query.ofYaml (← fileText path contents)

/-- The dashboard of a JSON text. -/
def Dashboard.ofText (text : String) : Except LoadError Dashboard :=
  match Dashboard.codec.ofText text with
  | .ok d => .ok d
  | .error p => .error (.invalidDashboard p)

/-- The dashboard of a file. -/
def Dashboard.ofFile (path : String) (contents : Option ByteArray) :
    Except LoadError Dashboard := do
  Dashboard.ofText (← fileText path contents)

/-- The indented JSON text of a dashboard. -/
def Dashboard.toText (d : Dashboard) : String := Dashboard.codec.toText d

end Dashboards
