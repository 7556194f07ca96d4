import Dashboards.Json.Value

/-!
# Drafts

What is found when a document is read from the front: a value, as far as it goes, with the fault
that ended it in place of what could not be read.  A document that arrives as a value has a draft
without faults.

A draft tells more than the first fault of a text.  Whoever reads a document for a purpose meets the
contents in the order of the text, so that a member of the wrong kind is found before a fault that
comes later, and contents that nobody asks for are held to the grammar only: a number out of range
or half of a surrogate pair is a fault of those who read it, not of those who skip it.
-/

namespace Dashboards.Json

/-- Why a text is not JSON: it breaks the grammar, or it ends too early. -/
inductive Fault where
  | malformed
  | unfinished
deriving DecidableEq, Repr

/-- What is found at the front of a value that cannot be read. -/
inductive Beginning where
  /-- the end of the text -/
  | nothing
  | string
  /-- anything else, whether or not a value can begin like that -/
  | other
deriving DecidableEq, Repr

/-- A document as found. -/
inductive Draft where
  | null
  | bool (b : Bool)
  /-- a number literal, with a fault if no number can be made of it -/
  | number (value : Except Fault Number)
  /-- a string, with a fault if its escapes make no text -/
  | string (value : Except Fault String)
  /-- the items up to the closing bracket, or up to the fault in its place -/
  | array (items : List Draft) (stop : Option Fault)
  /-- the members up to the closing brace, or up to the fault in its place; a member whose key is no
  text has a fault for one who reads the key, and a value that is broken for one who skips it -/
  | object (members : List (Except Fault String × Draft)) (stop : Option Fault)
  /-- no value: how it begins, the fault for one who reads it, and the fault for one who skips it -/
  | broken (beginning : Beginning) (read skipped : Fault)
deriving Inhabited

/-- The members of an object as found. -/
abbrev DraftMembers := List (Except Fault String × Draft)

/-! ## Drafts of values -/

mutual

/-- A value as a document without faults. -/
def Value.draft : Value → Draft
  | .null => .null
  | .bool b => .bool b
  | .number n => .number (.ok n)
  | .string s => .string (.ok s)
  | .array items => .array (Value.draftItems items) none
  | .object ms => .object (Value.draftMembers ms) none

/-- The drafts of a list of values. -/
def Value.draftItems : List Value → List Draft
  | [] => []
  | v :: vs => v.draft :: Value.draftItems vs

/-- The drafts of a list of members. -/
def Value.draftMembers : List (String × Value) → List (Except Fault String × Draft)
  | [] => []
  | (k, v) :: ms => (.ok k, v.draft) :: Value.draftMembers ms

end

/-! ## Where a document comes from -/

/-- Where a document comes from.  A value has any depth; a text may be nested only so deep, and
`room` counts the levels that are left. -/
inductive Origin where
  | value
  | text (room : Nat)
deriving DecidableEq, Repr

namespace Origin

/-- One level further in; a fault if there is no room for it. -/
def inside : Origin → Except Fault Origin
  | .value => .ok .value
  | .text 0 => .error .malformed
  | .text (n + 1) => .ok (.text n)

/-- A text at its start: 127 levels of nesting. -/
def wholeText : Origin := .text 127

end Origin

/-! ## Reading the value of a draft -/

mutual

/-- The sorted value of a draft, or the first fault that one meets on reading it. -/
def Draft.read (o : Origin) : Draft → Except Fault Value
  | .null => .ok .null
  | .bool b => .ok (.bool b)
  | .number n => n.map .number
  | .string s => s.map .string
  | .array items stop =>
    match o.inside with
    | .error f => .error f
    | .ok o =>
      match Draft.readItems o items with
      | .error f => .error f
      | .ok vs =>
        -- the fault in the place of the closing bracket comes after those of the items
        match stop with
        | none => .ok (.array vs)
        | some f => .error f
  | .object ms stop =>
    match o.inside with
    | .error f => .error f
    | .ok o =>
      match Draft.readMembers o ms with
      | .error f => .error f
      | .ok vs =>
        match stop with
        | none => .ok (.object (Members.sort vs))
        | some f => .error f
  | .broken _ f _ => .error f

/-- The values of items. -/
def Draft.readItems (o : Origin) : List Draft → Except Fault (List Value)
  | [] => .ok []
  | d :: ds =>
    match Draft.read o d with
    | .error f => .error f
    | .ok v => (Draft.readItems o ds).map (v :: ·)

/-- The values of members, in the order found. -/
def Draft.readMembers (o : Origin) :
    List (Except Fault String × Draft) → Except Fault (List (String × Value))
  | [] => .ok []
  | (.error f, _) :: _ => .error f
  | (.ok k, d) :: ms =>
    match Draft.read o d with
    | .error f => .error f
    | .ok v => (Draft.readMembers o ms).map ((k, v) :: ·)

end

/-! ## Skipping a draft -/

mutual

/-- The first fault that one meets on skipping a draft. -/
def Draft.skip : Draft → Except Fault Unit
  | .array items stop =>
    match Draft.skipItems items with
    | .error f => .error f
    | .ok () => match stop with
      | none => .ok ()
      | some f => .error f
  | .object ms stop =>
    match Draft.skipMembers ms with
    | .error f => .error f
    | .ok () => match stop with
      | none => .ok ()
      | some f => .error f
  | .broken _ _ f => .error f
  | _ => .ok ()

/-- The first fault met on skipping items. -/
def Draft.skipItems : List Draft → Except Fault Unit
  | [] => .ok ()
  | d :: ds =>
    match d.skip with
    | .error f => .error f
    | .ok () => Draft.skipItems ds

/-- The first fault met on skipping members.  A key that ends well is no fault, and one that does
not has a broken value. -/
def Draft.skipMembers : List (Except Fault String × Draft) → Except Fault Unit
  | [] => .ok ()
  | (_, d) :: ms =>
    match d.skip with
    | .error f => .error f
    | .ok () => Draft.skipMembers ms

end

end Dashboards.Json
