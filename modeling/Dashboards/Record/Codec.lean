import Dashboards.Json.Reader
import Dashboards.Json.Writer
import Dashboards.Record.Problem

/-!
# Codecs

How a type is written as a JSON value and read from a document: a reader and a writer in one
structure, for the kinds of scalars, for lists, and for records.

A record is described by a table of its members, and both its reader and its writer follow the
table.  The members of a document are visited in the order in which the document has them, and the
first problem met is the one reported; what is missing is seen last.  Members that are not in the
table are kept with the record or dropped, as the record's `Remainder` says.
-/

namespace Dashboards

open Json (Draft DraftMembers Fault Members Origin Value)

/-- A reader and a writer of a type. -/
structure Codec (α : Type) where
  read : Origin → Draft → Except Problem α
  write : α → Value

namespace Codec

/-! ## Problems of a place -/

/-- The problem of a place that holds something else than expected. -/
def mismatch (expected : String) : Draft → Problem
  | .null => .wrongKind .null expected
  | .bool b => .wrongKind (.boolean b) expected
  | .number (.ok (.integer n _)) => .wrongKind (.integer n) expected
  | .number (.ok (.double x)) => .wrongKind (.double x) expected
  | .number (.error f) => .broken f
  | .string (.ok s) => .wrongKind (.string s) expected
  | .string (.error f) => .broken f
  | .array _ _ => .wrongKind .sequence expected
  | .object _ _ => .wrongKind .mapping expected
  | .broken _ f _ => .broken f

/-- A fault as a problem. -/
def orBroken {α : Type} : Except Fault α → Except Problem α
  | .ok a => .ok a
  | .error f => .error (.broken f)

/-- The place of a closing bracket or brace. -/
def checkStop : Option Fault → Except Problem Unit
  | none => .ok ()
  | some f => .error (.broken f)

/-! ## Scalars -/

/-- Text. -/
def string : Codec String where
  read
    | _, .string (.ok s) => .ok s
    | _, d => .error (mismatch "a string" d)
  write := .string

/-- A truth value. -/
def bool : Codec Bool where
  read
    | _, .bool b => .ok b
    | _, d => .error (mismatch "a boolean" d)
  write := .bool

/-- An unsigned whole number below a limit. -/
def readBelow (limit : Nat) (expected : String) : Draft → Except Problem Nat
  | .number (.ok (.integer n _)) =>
    if 0 ≤ n ∧ n < limit then .ok n.toNat else .error (.outOfRange n expected)
  | d => .error (mismatch expected d)

/-- An unsigned number of 32 bits. -/
def uint32 : Codec UInt32 where
  read _ d := (readBelow UInt32.size "u32" d).map fun n => UInt32.ofNat n
  write n := .ofNat n.toNat

/-- An unsigned number of 64 bits. -/
def uint64 : Codec UInt64 where
  read _ d := (readBelow UInt64.size "u64" d).map fun n => UInt64.ofNat n
  write n := .ofNat n.toNat

/-- Any value, kept as it is. -/
def raw : Codec Value where
  read o d := orBroken (d.read o)
  write v := v

/-- The members of any object, kept as they are. -/
def rawObject : Codec Members where
  read
    | o, .object ms stop =>
      match orBroken (Draft.read o (.object ms stop)) with
      | .ok (.object ms) => .ok ms
      | .ok _ => .ok []
      | .error p => .error p
    | _, d => .error (mismatch "a map" d)
  write := .object

/-! ## Lists -/

/-- The items of a list, in order. -/
def readAll {α : Type} (read : Draft → Except Problem α) : List Draft → Except Problem (List α)
  | [] => .ok []
  | d :: ds =>
    match read d with
    | .error p => .error p
    | .ok a => (readAll read ds).map (a :: ·)

/-- A list. -/
def list {α : Type} (c : Codec α) : Codec (List α) where
  read
    | o, .array items stop => do
      let o ← orBroken o.inside
      let as ← readAll (c.read o) items
      checkStop stop
      return as
    | _, d => .error (mismatch "a sequence" d)
  write as := .array (as.map c.write)

/-- A value that `null` stands in for if there is none. -/
def readOptional {α : Type} (c : Codec α) : Origin → Draft → Except Problem (Option α)
  | _, .null => .ok none
  | o, d => (c.read o d).map some

end Codec

/-! ## Records -/

/-- A member of a record: its key, whether a document must have it, what reading it does to the
record, and how it is written. -/
structure Member (α : Type) where
  key : String
  isRequired : Bool
  read : Origin → Draft → α → Except Problem α
  write : α → Option Value

namespace Member

variable {α β : Type}

/-- A member that a document must have. -/
def required (key : String) (c : Codec β) (get : α → β) (set : β → α → α) : Member α where
  key := key
  isRequired := true
  read o d a := (c.read o d).map (set · a)
  write a := some (c.write (get a))

/-- A member that has a default. -/
def defaulted (key : String) (c : Codec β) (get : α → β) (set : β → α → α) : Member α where
  key := key
  isRequired := false
  read o d a := (c.read o d).map (set · a)
  write a := some (c.write (get a))

/-- A member that may be absent; `null` is the same as absent. -/
def optional (key : String) (c : Codec β) (get : α → Option β) (set : Option β → α → α) :
    Member α where
  key := key
  isRequired := false
  read o d a := (Codec.readOptional c o d).map (set · a)
  write a := (get a).map c.write

end Member

/-- What becomes of the members of a document that a record does not know. -/
inductive Remainder (α : Type) where
  | dropped
  | kept (get : α → Members) (set : Members → α → α)

/-- The description of a record: how messages name it, the record with every member absent, its
members in the order in which they are written, and what becomes of other members. -/
structure Shape (α : Type) where
  title : String
  blank : α
  members : List (Member α)
  remainder : Remainder α

namespace Shape

variable {α : Type}

/-- How far the reading of a record has come: the record so far, the keys met, and the members that
are not in the table. -/
structure Progress (α : Type) where
  record : α
  met : List String
  others : Members

/-- The member of the table with a key. -/
def member? (s : Shape α) (key : String) : Option (Member α) :=
  s.members.find? (·.key == key)

/-- Reads one member of a document. -/
def readMember (s : Shape α) (o : Origin) (key : String) (d : Draft) (p : Progress α) :
    Except Problem (Progress α) :=
  match s.member? key with
  | some m =>
    if p.met.contains key then .error (.duplicateField key)
    else
      match m.read o d p.record with
      | .error e => .error e
      | .ok a => .ok { p with record := a, met := key :: p.met }
  | none =>
    match s.remainder with
    | .dropped =>
      -- what is passed over must still be well formed
      match d.skip with
      | .error f => .error (.broken f)
      | .ok () => .ok p
    | .kept _ _ =>
      match d.read o with
      | .error f => .error (.broken f)
      | .ok v => .ok { p with others := p.others ++ [(key, v)] }

/-- Reads the members of a document, in their order. -/
def readMembers (s : Shape α) (o : Origin) : DraftMembers → Progress α →
    Except Problem (Progress α)
  | [], p => .ok p
  | (.error f, _) :: _, _ => .error (.broken f)
  | (.ok key, d) :: ms, p =>
    match s.readMember o key d p with
    | .error e => .error e
    | .ok p => s.readMembers o ms p

/-- Puts the members that are not in the table into the record, if it keeps them. -/
def keepOthers (s : Shape α) (others : Members) (a : α) : α :=
  match s.remainder with
  | .dropped => a
  | .kept _ set => set others.sort a

/-- The first member that a document must have and has not. -/
def missing? (s : Shape α) (met : List String) : Option String :=
  (s.members.find? fun m => m.isRequired && !met.contains m.key).map (·.key)

/-- A record from an object. -/
def readObject (s : Shape α) (o : Origin) (ms : DraftMembers) (stop : Option Fault) :
    Except Problem α := do
  let o ← Codec.orBroken o.inside
  let p ← s.readMembers o ms ⟨s.blank, [], []⟩
  Codec.checkStop stop
  -- what is missing is known only after the closing brace
  match s.missing? p.met with
  | some key => throw (.missingField key)
  | none => return s.keepOthers p.others p.record

/-- The members of a record from a list that has them in the order of the table, and the items left
over. -/
def readItems (s : Shape α) (o : Origin) (stop : Option Fault) :
    List (Member α) → List Draft → Nat → α → Except Problem (α × List Draft)
  | [], ds, _, a => .ok (a, ds)
  -- a list that ends early leaves the members after it absent
  | m :: ms, [], n, a =>
    match stop with
    | some f => .error (.broken f)
    | none =>
      if m.isRequired then .error (.tooFewItems n s.title s.members.length)
      else s.readItems o stop ms [] (n + 1) a
  | m :: ms, d :: ds, n, a =>
    match m.read o d a with
    | .error e => .error e
    | .ok a => s.readItems o stop ms ds (n + 1) a

/-- A record from a list.  In a text, the place after the last member must hold the closing
bracket. -/
def readList (s : Shape α) (o : Origin) (items : List Draft) (stop : Option Fault) :
    Except Problem α := do
  let inner ← Codec.orBroken o.inside
  let (a, left) ← s.readItems inner stop s.members items 0 s.blank
  if left.isEmpty then
    Codec.checkStop stop
    return a
  else
    -- in a text the next character is not the bracket that is asked for
    match o with
    | .value => throw (.tooManyItems items.length)
    | .text _ => throw (.broken .malformed)

/-- Reads a record.  Records that keep other members must be objects; the others may also be lists
of their members. -/
def read (s : Shape α) (o : Origin) (d : Draft) : Except Problem α :=
  match d, s.remainder with
  | .object ms stop, _ => s.readObject o ms stop
  | .array items stop, .dropped => s.readList o items stop
  | d, _ => .error (Codec.mismatch s.title d)

/-- The members of a record that the table does not know. -/
def others (s : Shape α) (a : α) : Members :=
  match s.remainder with
  | .dropped => []
  | .kept get _ => get a

/-- A record as an object: the members of the table in its order, then the others. -/
def write (s : Shape α) (a : α) : Value :=
  .object (s.members.filterMap (fun m => (m.write a).map fun v => (m.key, v)) ++ s.others a)

/-- The codec of a record. -/
def codec (s : Shape α) : Codec α := ⟨s.read, s.write⟩

end Shape

/-! ## Whole documents -/

namespace Codec

variable {α : Type}

/-- Reads a value; the members of its objects are visited in ascending order of their keys. -/
def ofValue (c : Codec α) (v : Value) : Except Problem α :=
  c.read .value v.sorted.draft

/-- The sorted value of something. -/
def toValue (c : Codec α) (a : α) : Value := (c.write a).sorted

/-- Reads a text.  A problem of its contents that comes first hides what is wrong further on. -/
def ofText (c : Codec α) (text : String) : Except Problem α := do
  let (d, stop) := Draft.ofText text
  let a ← c.read .wholeText d
  checkStop stop
  return a

/-- The indented text of something. -/
def toText (c : Codec α) (a : α) : String := (c.write a).pretty

end Codec

end Dashboards
