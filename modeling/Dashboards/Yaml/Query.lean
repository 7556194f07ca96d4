import Dashboards.Query.Codec
import Dashboards.Yaml.Meaning
import Dashboards.Yaml.Node.Compose

/-!
# Queries in YAML documents

How a query is read from a YAML document.  Where text is asked for, a scalar gives its text however
it is written, and a place where nothing is written is an empty list or an empty record.  What is
wrong with a document is not told.

A short document can stand for a very long query, because aliases may be followed again and again.
So the number of aliases that a reading may follow is limited by the weight of the document.
-/

namespace Dashboards.Yaml

/-- A reading, with the number of aliases that it may still follow. -/
abbrev Reading := StateT Nat Option

namespace Document

variable {α : Type}

/-! ## Kinds of nodes -/

/-- The node itself, or the one that it stands for. -/
def resolve (d : Document) : Node → Reading Node
  | .aliasOf id => do
    match ← get with
    | 0 => failure
    | left + 1 =>
      set left
      latest d.anchored id
  | n => return n

/-- A scalar. -/
def scalar? (d : Document) (n : Node) : Reading Scalar := do
  match ← d.resolve n with
  | .scalar s => return s
  | _ => failure

/-- The text of a scalar. -/
def text? (d : Document) (n : Node) : Reading String := do return (← d.scalar? n).text

/-- The items of a list. -/
def items? (d : Document) (n : Node) : Reading (List Node) := do
  match ← d.resolve n with
  | .sequence items => return items
  | .scalar s => if s.style = .plain ∧ s.text = "" then return [] else failure
  | _ => failure

/-- A list of things. -/
def list? (d : Document) (read : Node → Reading α) (n : Node) : Reading (List α) := do
  (← d.items? n).mapM read

/-- The entries of a record. -/
def entries? (d : Document) (n : Node) : Reading (List (Node × Node)) := do
  match ← d.resolve n with
  | .mapping entries => return entries
  | .scalar s => if s.style = .plain ∧ s.text = "" then return [] else failure
  | _ => failure

/-- The values of the entries whose keys are among some, by key.  All keys must be scalars, and none
of those asked for may occur twice. -/
def members? (d : Document) (known : List String) :
    List (Node × Node) → Reading (List (String × Node))
  | [] => return []
  | (k, v) :: entries => do
    let key ← d.text? k
    let rest ← d.members? known entries
    if !known.contains key then return rest
    if rest.any (·.1 == key) then failure
    return (key, v) :: rest

/-- The members of a record. -/
def record? (d : Document) (known : List String) (n : Node) : Reading (List (String × Node)) := do
  d.members? known (← d.entries? n)

/-- A truth value: a plain word, or a literal one with the tag of truth values. -/
def bool? (d : Document) (n : Node) : Reading Bool := do
  let s ← d.scalar? n
  if s.style = .plain ∨ (s.style = .literal ∧ s.tag = some boolTag) then boolWord? s.text
  else failure

/-- A text that may be absent: nothing written, or a plain word for nothing.  With a tag, only such
a word with the tag of nothing is absent. -/
def optionalText? (d : Document) (n : Node) : Reading (Option String) := do
  let s ← d.scalar? n
  if s.style ≠ .plain then return some s.text
  match s.tag with
  | none => return if s.isNothing then none else some s.text
  | some tag =>
    if tag ≠ nullTag then return some s.text
    else if isNullWord s.text then return none
    else failure

/-- A member that a record must have. -/
def required (members : List (String × Node)) (key : String) (read : Node → Reading α) :
    Reading α :=
  match members.lookup key with
  | some n => read n
  | none => failure

/-- A member that has a default. -/
def defaulted (members : List (String × Node)) (key : String) (default : α)
    (read : Node → Reading α) : Reading α :=
  match members.lookup key with
  | some n => read n
  | none => return default

/-! ## Queries -/

/-- An operand: a number or a text.  A tag of the document's own makes a scalar something else. -/
def operand? (d : Document) (n : Node) : Reading Operand := do
  let s ← d.scalar? n
  if s.ownName?.isSome then failure
  match s.meaning? with
  | some (.number m) => return .number m
  | some .text => return .text s.text
  | _ => failure

/-- A way of display: one of the two words, or nothing with a tag that names it. -/
def display? (d : Document) (n : Node) : Reading Display := do
  let s ← d.scalar? n
  match s.ownName? with
  | none => (Display.ofWord s.text).toOption
  | some name => if s.isNothing then (Display.ofWord name).toOption else failure

/-- A clause. -/
def clause? (d : Document) (n : Node) : Reading Clause := do
  let ms ← d.record? ["matchOn", "matchRule", "isFunction"] n
  let operands ← required ms "matchOn" (d.list? d.operand?)
  let rule ← required ms "matchRule" d.text?
  let isExpression ← defaulted ms "isFunction" false d.bool?
  return ⟨operands, .ofCode rule, isExpression⟩

/-- A filter. -/
def filter? (d : Document) (n : Node) : Reading Filter := do
  let ms ← d.record? ["fieldName", "filterClauses", "displayMode", "fieldAlias"] n
  let name ← required ms "fieldName" d.text?
  let clauses ← defaulted ms "filterClauses" [] (d.list? d.clause?)
  let display ← defaulted ms "displayMode" .column d.display?
  let label ← defaulted ms "fieldAlias" none d.optionalText?
  return ⟨name, clauses, display, label⟩

/-- A query. -/
def query? (d : Document) (n : Node) : Reading Query := do
  let ms ← d.record? ["aggregations", "fieldFilters", "metadataFilters"] n
  let aggregations ← defaulted ms "aggregations" [] (d.list? fun n => return .ofText (← d.text? n))
  let fieldFilters ← defaulted ms "fieldFilters" [] (d.list? d.filter?)
  let metadataFilters ← defaulted ms "metadataFilters" [] (d.list? d.filter?)
  return ⟨aggregations, fieldFilters, metadataFilters⟩

end Document

/-- The query of a YAML text; a text with nothing in it is the empty query. -/
def query? (text : String) : Option Query := do
  let d ← Document.ofText? text
  match d.root with
  | some n => (d.query? n).run' (100 * n.weight)
  | none => return .empty

end Dashboards.Yaml
