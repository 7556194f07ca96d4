import Dashboards.Json.Number

/-!
# JSON values

Values of JSON documents.  The members of an object are a list of keys and values.  A *sorted*
object has its keys in ascending order and each only once; `Value.sorted` gives that form to every
object of a value, the last of several members with one key being the one that stays.
-/

namespace Dashboards.Json

/-- A JSON value. -/
inductive Value where
  | null
  | bool (b : Bool)
  | number (n : Number)
  | string (s : String)
  | array (items : List Value)
  | object (members : List (String × Value))
deriving Repr, Inhabited

/-- The members of an object. -/
abbrev Members := List (String × Value)

/-! ## Equality -/

mutual

/-- Equality of values is decidable. -/
def Value.decEq : (a b : Value) → Decidable (a = b)
  | .null, .null => isTrue rfl
  | .bool a, .bool b => decidable_of_iff (a = b) (by simp)
  | .number a, .number b => decidable_of_iff (a = b) (by simp)
  | .string a, .string b => decidable_of_iff (a = b) (by simp)
  | .array as, .array bs =>
    match Value.decEqItems as bs with
    | isTrue h => isTrue (h ▸ rfl)
    | isFalse h => isFalse fun e => h (Value.array.inj e)
  | .object as, .object bs =>
    match Value.decEqMembers as bs with
    | isTrue h => isTrue (h ▸ rfl)
    | isFalse h => isFalse fun e => h (Value.object.inj e)
  | .null, .bool _ | .null, .number _ | .null, .string _ | .null, .array _ | .null, .object _
  | .bool _, .null | .bool _, .number _ | .bool _, .string _ | .bool _, .array _
  | .bool _, .object _
  | .number _, .null | .number _, .bool _ | .number _, .string _ | .number _, .array _
  | .number _, .object _
  | .string _, .null | .string _, .bool _ | .string _, .number _ | .string _, .array _
  | .string _, .object _
  | .array _, .null | .array _, .bool _ | .array _, .number _ | .array _, .string _
  | .array _, .object _
  | .object _, .null | .object _, .bool _ | .object _, .number _ | .object _, .string _
  | .object _, .array _ => isFalse nofun

/-- Equality of lists of values is decidable. -/
def Value.decEqItems : (as bs : List Value) → Decidable (as = bs)
  | [], [] => isTrue rfl
  | [], _ :: _ | _ :: _, [] => isFalse nofun
  | a :: as, b :: bs =>
    match Value.decEq a b with
    | isFalse h => isFalse fun e => h (List.cons.inj e).1
    | isTrue h =>
      match Value.decEqItems as bs with
      | isTrue h' => isTrue (h ▸ h' ▸ rfl)
      | isFalse h' => isFalse fun e => h' (List.cons.inj e).2

/-- Equality of lists of members is decidable. -/
def Value.decEqMembers : (as bs : List (String × Value)) → Decidable (as = bs)
  | [], [] => isTrue rfl
  | [], _ :: _ | _ :: _, [] => isFalse nofun
  | (j, a) :: as, (k, b) :: bs =>
    if hk : j = k then
      match Value.decEq a b with
      | isFalse h => isFalse fun e => h (Prod.mk.inj (List.cons.inj e).1).2
      | isTrue h =>
        match Value.decEqMembers as bs with
        | isTrue h' => isTrue (hk ▸ h ▸ h' ▸ rfl)
        | isFalse h' => isFalse fun e => h' (List.cons.inj e).2
    else isFalse fun e => hk (Prod.mk.inj (List.cons.inj e).1).1

end

instance : DecidableEq Value := Value.decEq

/-! ## Members -/

namespace Members

/-- The value of a key. -/
def get? (ms : Members) (key : String) : Option Value := ms.lookup key

/-- Whether a key occurs. -/
def contains (ms : Members) (key : String) : Bool := ms.any (·.1 == key)

/-- The keys, in order. -/
def keys (ms : Members) : List String := ms.map (·.1)

/-- Puts a member at its place among sorted members; a member with the same key gives way. -/
def insert (key : String) (value : Value) : Members → Members
  | [] => [(key, value)]
  | (k, v) :: ms =>
    if key < k then (key, value) :: (k, v) :: ms
    else if key = k then (key, value) :: ms
    else (k, v) :: insert key value ms

/-- The members in ascending order of their keys; the last one of a key stays. -/
def sort (ms : Members) : Members :=
  ms.foldl (fun sorted m => sorted.insert m.1 m.2) []

end Members

/-! ## Sorted values -/

mutual

/-- The value with the members of every object in ascending order of their keys. -/
def Value.sorted : Value → Value
  | .array items => .array (Value.sortedItems items)
  | .object ms => .object (Members.sort (Value.sortedMembers ms))
  | v => v

/-- The values of a list, sorted. -/
def Value.sortedItems : List Value → List Value
  | [] => []
  | v :: vs => v.sorted :: Value.sortedItems vs

/-- The members of a list with their values sorted. -/
def Value.sortedMembers : List (String × Value) → List (String × Value)
  | [] => []
  | (k, v) :: ms => (k, v.sorted) :: Value.sortedMembers ms

end

namespace Value

/-- The member of an object. -/
def get? : Value → String → Option Value
  | .object ms, key => Members.get? ms key
  | _, _ => none

/-- The whole number `n`; `null` stands for one that does not fit. -/
def ofNat (n : Nat) : Value :=
  match Number.ofInt? n with
  | some m => .number m
  | none => .null

end Value

end Dashboards.Json
