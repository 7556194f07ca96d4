import Dashboards.Proofs.Json.Drafts
import Dashboards.Proofs.Record.Passthrough

/-!
# Reading back what was written

What a codec writes is read back as the same thing, but not for everything that a type has room for:
a percentile may have no number in it, and a legend may be `null`.  It is so for whatever was read
from a document, and that is what makes a codec faithful.

For a record both are looked at member by member.  A member *holds* a value if reading the value
into the record changes nothing.  Reading one member does not disturb what another one holds, so
that in the end every member holds what was written of it, and there is only one such record.

## Key results

- `Codec.list_returns_iff`: lists, item by item
- `Shape.Faithful.returns_iff`: records, member by member
- `Shape.Faithful.codec`: records that were read from a document are read back as they are
-/

namespace Dashboards

open Json (Draft DraftMembers Members Number Origin Value)

/-! ## Codecs -/

namespace Codec

variable {β : Type}

/-- What is written of `b` is read back as `b`. -/
def Returns (c : Codec β) (b : β) : Prop := c.read .value (c.toValue b).draft = .ok b

/-- Whatever is read from a sorted value is read back after it was written. -/
def Faithful (c : Codec β) : Prop :=
  ∀ (v : Value) b, v.IsSorted → c.read .value v.draft = .ok b → c.Returns b

/-- Nothing is read from `null`. -/
def RefusesNull (c : Codec β) : Prop := ∀ b, c.read .value .null ≠ .ok b

/-- What is written is sorted already when it is read. -/
theorem ofValue_toValue_iff {c : Codec β} {b : β} :
    c.ofValue (c.toValue b) = .ok b ↔ c.Returns b := by
  have hsorted : (c.toValue b).sorted = c.toValue b := Value.isSorted_sorted _
  rw [ofValue, hsorted]
  rfl

/-- What is returned is read from its own value. -/
theorem Returns.ofValue_toValue {c : Codec β} {b : β} (h : c.Returns b) :
    c.ofValue (c.toValue b) = .ok b :=
  ofValue_toValue_iff.2 h

/-- A codec that returns everything is faithful. -/
theorem faithful_of_returns {c : Codec β} (h : ∀ b, c.Returns b) : c.Faithful :=
  fun _ b _ _ => h b

/-! ### Scalars -/

/-- Every string is read back. -/
@[simp] theorem string_returns (s : String) : string.Returns s := rfl

/-- Both truth values are read back. -/
@[simp] theorem bool_returns (b : Bool) : bool.Returns b := rfl

/-- What is written as it was read is read back. -/
theorem Passes.returns {c : Codec β} {b : β} (h : c.Passes b b .same) {v : Value}
    (hv : v.IsSorted) (hread : c.read .value v.draft = .ok b) : c.Returns b := by
  have hsame : c.toValue b = v := h v hv hread
  rw [Returns, hsame]
  exact hread

/-- A whole number below a limit is read from itself. -/
theorem readBelow_integer {limit k : Nat} (hk : k < limit) (fits : Json.FitsInteger k)
    (expected : String) :
    readBelow limit expected (Value.number (.integer k fits)).draft = .ok k := by
  have hin : 0 ≤ (k : Int) ∧ (k : Int) < limit := ⟨by omega, by omega⟩
  simp only [Value.draft, readBelow, if_pos hin, Int.toNat_natCast]

/-- A number that is written as it was read is read back. -/
theorem returns_of_readBelow {c : Codec β} {limit k : Nat} {expected : String} {ofNat : Nat → β}
    (hread : ∀ d, c.read .value d = (readBelow limit expected d).map ofNat)
    (hpasses : c.Passes (ofNat k) (ofNat k) .same) (hk : k < limit) (fits : Json.FitsInteger k) :
    c.Returns (ofNat k) := by
  refine hpasses.returns (v := .number (.integer k fits)) rfl ?_
  rw [hread, readBelow_integer hk]
  rfl

/-- Every number of 32 bits is read back. -/
@[simp] theorem uint32_returns (n : UInt32) : uint32.Returns n := by
  have hn : n.toNat < 2 ^ 32 := n.toNat_lt
  have h : uint32.Returns (UInt32.ofNat n.toNat) :=
    returns_of_readBelow (fun _ => rfl) (uint32_passes _) n.toNat_lt_size ⟨by omega, by omega⟩
  rwa [UInt32.ofNat_toNat] at h

/-- Every number of 64 bits is read back. -/
@[simp] theorem uint64_returns (n : UInt64) : uint64.Returns n := by
  have hn : n.toNat < 2 ^ 64 := n.toNat_lt
  have h : uint64.Returns (UInt64.ofNat n.toNat) :=
    returns_of_readBelow (fun _ => rfl) (uint64_passes _) n.toNat_lt_size ⟨by omega, by omega⟩
  rwa [UInt64.ofNat_toNat] at h

/-- A value is read back if it is sorted. -/
theorem raw_returns {v : Value} (hv : v.IsSorted) : raw.Returns v := by
  have hread : raw.read .value v.draft = .ok v := by simp only [raw, hv.read_draft, orBroken]
  exact Passes.returns (raw_passes (f := fun v => v) (fun _ h => h) v) hv hread

/-- An object that is kept as it is is read back: it is sorted, as the value that it came from. -/
@[simp] theorem rawObject_faithful : rawObject.Faithful :=
  fun _ ms hv h => (rawObject_passes ms).returns hv h

/-- Strings are read back whatever they were read from. -/
@[simp] theorem string_faithful : string.Faithful := faithful_of_returns string_returns

/-- Truth values are read back whatever they were read from. -/
@[simp] theorem bool_faithful : bool.Faithful := faithful_of_returns bool_returns

/-- Numbers of 32 bits are read back whatever they were read from. -/
@[simp] theorem uint32_faithful : uint32.Faithful := faithful_of_returns uint32_returns

/-- Numbers of 64 bits are read back whatever they were read from. -/
@[simp] theorem uint64_faithful : uint64.Faithful := faithful_of_returns uint64_returns

/-- No string is `null`. -/
@[simp] theorem string_refusesNull : string.RefusesNull := nofun

/-- No truth value is `null`. -/
@[simp] theorem bool_refusesNull : bool.RefusesNull := nofun

/-- No number of 32 bits is `null`. -/
@[simp] theorem uint32_refusesNull : uint32.RefusesNull := nofun

/-- No number of 64 bits is `null`. -/
@[simp] theorem uint64_refusesNull : uint64.RefusesNull := nofun

/-- No object is `null`. -/
@[simp] theorem rawObject_refusesNull : rawObject.RefusesNull := nofun

/-! ### Lists -/

/-- A list is read back if its items are. -/
@[simp] theorem list_returns_iff {c : Codec β} {bs : List β} :
    (list c).Returns bs ↔ ∀ b ∈ bs, c.Returns b := by
  rw [Returns, toValue_list, list_read_eq_ok_iff]
  simp only [Value.array.injEq, exists_eq_left', List.forall₂_map_left_iff, List.forall₂_same]
  rfl

/-- A list whose items are changed. -/
theorem list_returns_map {c : Codec β} {bs : List β} (hbs : (list c).Returns bs) {f : β → β}
    (hf : ∀ b, c.Returns b → c.Returns (f b)) : (list c).Returns (bs.map f) := by
  rw [list_returns_iff] at hbs ⊢
  exact List.forall_mem_map.2 fun b hb => hf b (hbs b hb)

/-- A list is read back if each of its items was read by a faithful codec. -/
@[simp] theorem list_faithful {c : Codec β} (hc : c.Faithful) : (list c).Faithful := by
  intro v bs hv h
  obtain ⟨vs, rfl, hvs⟩ := list_read_eq_ok_iff.1 h
  refine list_returns_iff.2 fun b hb => ?_
  obtain ⟨u, hu, hread⟩ := Shape.exists_mem_left_of_forall₂ hvs hb
  exact hc u b (Value.isSorted_array_iff.1 hv u hu) hread

/-- No list is `null`, not even the empty one. -/
@[simp] theorem list_refusesNull (c : Codec β) : (list c).RefusesNull := nofun

/-! ### Values that may be absent -/

/-- A value that may be absent, with `null` in its place. -/
def optional (c : Codec β) : Codec (Option β) where
  read := readOptional c
  write x := (x.map c.write).getD .null

/-- What is absent is written as `null` and read back as absent. -/
@[simp] theorem optional_returns_none (c : Codec β) : (optional c).Returns none := rfl

/-- What is there is read back if it is not written as `null`. -/
theorem optional_returns_some {c : Codec β} {b : β} (hb : c.Returns b)
    (hnull : c.toValue b ≠ .null) : (optional c).Returns (some b) := by
  have hread : readOptional c .value (c.toValue b).draft = .ok (some b) := by
    rw [readOptional_of_ne_null (Value.draft_ne_null hnull), hb]
    rfl
  exact hread

/-- What may be absent is read back if what is there is. -/
@[simp] theorem optional_returns_iff {c : Codec β} (hc : c.RefusesNull) {x : Option β} :
    (optional c).Returns x ↔ ∀ b, x = some b → c.Returns b := by
  constructor
  · rintro h b rfl
    have hread : readOptional c .value (c.toValue b).draft = .ok (some b) := h
    -- `null` would be read as something absent, and not as `b`
    by_cases hnull : c.toValue b = .null
    · rw [hnull] at hread
      exact nomatch hread
    · rw [readOptional_of_ne_null (Value.draft_ne_null hnull)] at hread
      obtain ⟨b', hb', he⟩ := exists_of_map_eq_ok hread
      exact Option.some.inj he ▸ hb'
  · intro h
    cases x with
    | none => rfl
    | some b =>
      have hb : c.Returns b := h b rfl
      refine optional_returns_some hb fun hnull => ?_
      rw [Returns, hnull] at hb
      exact hc b hb

/-- What is there is read back as itself or not at all. -/
theorem optional_returns_some_iff {c : Codec β} (hc : c.RefusesNull) {b : β} :
    (optional c).Returns (some b) ↔ c.Returns b := by
  rw [optional_returns_iff hc]
  exact ⟨fun h => h b rfl, fun h b' hb' => Option.some.inj hb' ▸ h⟩

/-- A part that is changed, and put in before if it is absent, is read back if the change keeps it
so. -/
theorem optional_returns_update {c : Codec β} (hc : c.RefusesNull) {x : Option β}
    (hx : (optional c).Returns x) {blank : β} (hblank : c.Returns blank) {f : β → β}
    (hf : ∀ b, c.Returns b → c.Returns (f b)) :
    (optional c).Returns (some (f (x.getD blank))) := by
  rw [optional_returns_iff hc] at hx ⊢
  intro b hb
  obtain rfl := Option.some.inj hb
  cases x with
  | none => exact hf blank hblank
  | some b => exact hf b (hx b rfl)

/-- A part that is put in if it is absent. -/
theorem optional_returns_fill {c : Codec β} (hc : c.RefusesNull) {x : Option β}
    (hx : (optional c).Returns x) {blank : β} (hblank : c.Returns blank) :
    (optional c).Returns (some (x.getD blank)) :=
  optional_returns_update hc hx hblank fun _ h => h

/-- A value that may be absent is read back if its codec is faithful and never reads `null`. -/
@[simp] theorem optional_faithful {c : Codec β} (hc : c.Faithful) (hnull : c.RefusesNull) :
    (optional c).Faithful := by
  intro v x hv h
  refine (optional_returns_iff hnull).2 fun b hb => ?_
  subst hb
  by_cases hne : v = .null
  · subst hne
    exact nomatch h
  · have hread : readOptional c .value v.draft = .ok (some b) := h
    rw [readOptional_of_ne_null (Value.draft_ne_null hne)] at hread
    obtain ⟨b', hb', he⟩ := exists_of_map_eq_ok hread
    exact Option.some.inj he ▸ hc v b' hv hb'

/-- A part that is changed if it is there. -/
theorem optional_returns_map {c : Codec β} (hc : c.RefusesNull) {x : Option β}
    (hx : (optional c).Returns x) {f : β → β} (hf : ∀ b, c.Returns b → c.Returns (f b)) :
    (optional c).Returns (x.map f) := by
  rw [optional_returns_iff hc] at hx ⊢
  intro b' hb'
  obtain ⟨b, hb, rfl⟩ := Option.map_eq_some_iff.1 hb'
  exact hf b (hx b hb)

/-- A value that is there is read back iff it is sorted and not `null`. -/
theorem optional_raw_returns_some_iff {v : Value} :
    (optional raw).Returns (some v) ↔ v.IsSorted ∧ v ≠ .null := by
  constructor
  · intro h
    have hread : readOptional raw .value v.sorted.draft = .ok (some v) := h
    by_cases hnull : v.sorted = .null
    · rw [hnull] at hread
      exact nomatch hread
    · rw [readOptional_of_ne_null (Value.draft_ne_null hnull)] at hread
      simp only [raw, v.isSorted_sorted.read_draft, orBroken, Except.map] at hread
      -- reading sorts, so only a sorted value comes back as it was
      have hsame : v.sorted = v := Option.some.inj (Except.ok.inj hread)
      exact ⟨hsame, hsame ▸ hnull⟩
  · rintro ⟨hv, hnull⟩
    have hsame : raw.toValue v = v := hv
    exact optional_returns_some (raw_returns hv) (hsame.symm ▸ hnull)

/-- Any value but `null` that may be absent. -/
@[simp] theorem optional_raw_faithful : (optional raw).Faithful := by
  intro v x hv h
  by_cases hne : v = .null
  · subst hne
    obtain rfl := Except.ok.inj h
    rfl
  · have hread : readOptional raw .value v.draft = .ok x := h
    rw [readOptional_of_ne_null (Value.draft_ne_null hne)] at hread
    simp only [raw, hv.read_draft, orBroken, Except.map] at hread
    obtain rfl := Except.ok.inj hread
    exact optional_raw_returns_some_iff.2 ⟨hv, hne⟩

end Codec

/-! ## Members -/

namespace Member

variable {α β : Type}

/-- What is written of a member, `null` if that is nothing. -/
def written (m : Member α) (a : α) : Value := ((m.write a).getD .null).sorted

/-- Reading the value into the record changes nothing. -/
def Holds (m : Member α) (v : Value) (a : α) : Prop := m.read .value v.draft a = .ok a

/-- A member holds what is written of it. -/
def Returns (m : Member α) (a : α) : Prop := m.Holds (m.written a) a

/-- Two records hold the same in a member. -/
def Agrees (m : Member α) (a a' : α) : Prop := ∃ v, m.Holds v a ∧ m.Holds v a'

/-- What is written of a member is sorted. -/
theorem isSorted_written (m : Member α) (a : α) : (m.written a).IsSorted :=
  Value.isSorted_sorted _

/-- Reading one member does not disturb what another one holds. -/
theorem Holds.of_commutes {m m' : Member α} {v : Value} {d : Draft} {a a' : α}
    (h : m.Holds v a) (hcommutes : m.Commutes m') (hread : m'.read .value d a = .ok a') :
    m.Holds v a' := by
  obtain ⟨a₁, h₁, hv⟩ := (hcommutes .value v.draft d a a').1 ⟨a, h, hread⟩
  obtain rfl := Except.ok.inj (h₁.symm.trans hread)
  exact hv

/-- A change that commutes with a member does not disturb what the member holds. -/
theorem Holds.of_commutesWith {m : Member α} {v : Value} {a : α} {f : α → α} (h : m.Holds v a)
    (hf : m.CommutesWith f) : m.Holds v (f a) := by
  rw [Holds, hf, h]
  rfl

/-- What a round trip asks of a member of a table, for the record with every member absent. -/
structure Faithful (m : Member α) (blank : α) : Prop where
  -- reading depends on the record only in what it leaves alone
  again : ∀ d a₀ a, m.read .value d a₀ = .ok a → m.read .value d a = .ok a
  anywhere : ∀ d a₀ a, m.read .value d a₀ = .ok a → ∀ b, ∃ b', m.read .value d b = .ok b'
  returns : ∀ v a, v.IsSorted → m.Holds v a → m.Returns a
  returns_blank : m.Returns blank
  absent : ∀ a, m.write a = none → m.isRequired = false ∧ m.Holds .null blank

/-- A member reads and writes the part of a record that `get` and `set` are about. -/
structure Covers (m : Member α) (c : Codec β) (get : α → β) (set : β → α → α) : Prop where
  read_eq : ∀ d a, m.read .value d a = (c.read .value d).map (set · a)
  written_eq : ∀ a, m.written a = c.toValue (get a)
  get_set : ∀ x a, get (set x a) = x
  set_set : ∀ x y a, set x (set y a) = set x a
  set_get : ∀ a, set (get a) a = a

namespace Covers

variable {m : Member α} {c : Codec β} {get : α → β} {set : β → α → α}

/-- A member holds the values that its part is read from. -/
theorem holds_iff (h : m.Covers c get set) {v : Value} {a : α} :
    m.Holds v a ↔ c.read .value v.draft = .ok (get a) := by
  rw [Holds, h.read_eq]
  constructor
  · intro hread
    obtain ⟨x, hx, hset⟩ := exists_of_map_eq_ok hread
    rw [hx, ← hset, h.get_set]
  · intro hread
    rw [hread]
    exact congrArg Except.ok (h.set_get a)

/-- A member holds what is written of it if its part is read back. -/
theorem returns_iff (h : m.Covers c get set) {a : α} : m.Returns a ↔ c.Returns (get a) := by
  rw [Returns, h.holds_iff, h.written_eq, Codec.Returns]

/-- Records agree in a member iff they have the same part there, and it can be read. -/
theorem agrees_iff (h : m.Covers c get set) {a a' : α} :
    m.Agrees a a' ↔ get a = get a' ∧ ∃ v : Value, c.read .value v.draft = .ok (get a) := by
  simp only [Agrees, h.holds_iff]
  constructor
  · rintro ⟨v, hv, hv'⟩
    exact ⟨Except.ok.inj (hv.symm.trans hv'), v, hv⟩
  · rintro ⟨hget, v, hv⟩
    exact ⟨v, hv, hget ▸ hv⟩

/-- A member is faithful if the codec of its part is, and returns what is there at first. -/
theorem faithful (h : m.Covers c get set) {blank : α} (hc : c.Faithful)
    (hblank : c.Returns (get blank))
    (habsent : ∀ a, m.write a = none → m.isRequired = false ∧ m.write blank = none) :
    m.Faithful blank where
  again d a₀ a hread := by
    rw [h.read_eq] at hread ⊢
    obtain ⟨x, hx, rfl⟩ := exists_of_map_eq_ok hread
    rw [hx]
    exact congrArg Except.ok (h.set_set x x a₀)
  anywhere d a₀ a hread b := by
    rw [h.read_eq] at hread ⊢
    obtain ⟨x, hx, -⟩ := exists_of_map_eq_ok hread
    exact ⟨set x b, by rw [hx]; rfl⟩
  returns v a hv hholds := h.returns_iff.2 (hc v _ hv (h.holds_iff.1 hholds))
  returns_blank := h.returns_iff.2 hblank
  absent a ha := by
    obtain ⟨hoptional, hnone⟩ := habsent a ha
    -- what is not written is what the blank record has, which `null` stands for
    have hwritten : m.written blank = .null := by rw [written, hnone]; rfl
    have hreturns : m.Returns blank := h.returns_iff.2 hblank
    exact ⟨hoptional, hwritten ▸ hreturns⟩

end Covers

/-! ### The kinds of members -/

section

variable {key : String} {c : Codec β} {blank a a' : α}

section

variable {get : α → β} {set : β → α → α} (hget : ∀ x a, get (set x a) = x)
  (hset : ∀ x y a, set x (set y a) = set x a) (hsame : ∀ a, set (get a) a = a)
include hget hset hsame

/-- A required member is about one part of the record. -/
theorem required_covers : (required key c get set).Covers c get set :=
  ⟨fun _ _ => rfl, fun _ => rfl, hget, hset, hsame⟩

/-- A member with a default is about one part of the record. -/
theorem defaulted_covers : (defaulted key c get set).Covers c get set :=
  ⟨fun _ _ => rfl, fun _ => rfl, hget, hset, hsame⟩

/-- A required member is faithful if its codec is. -/
@[simp] theorem required_faithful (hc : c.Faithful) (hblank : c.Returns (get blank)) :
    (required key c get set).Faithful blank :=
  (required_covers hget hset hsame).faithful hc hblank nofun

/-- A member with a default is faithful if its codec is. -/
@[simp] theorem defaulted_faithful (hc : c.Faithful) (hblank : c.Returns (get blank)) :
    (defaulted key c get set).Faithful blank :=
  (defaulted_covers hget hset hsame).faithful hc hblank nofun

/-- Records agree in a required member iff they have the same in its place. -/
@[simp] theorem required_agrees_iff : (required key c get set).Agrees a a' ↔
    get a = get a' ∧ ∃ v : Value, c.read .value v.draft = .ok (get a) :=
  (required_covers hget hset hsame).agrees_iff

/-- Records agree in a member with a default iff they have the same in its place. -/
@[simp] theorem defaulted_agrees_iff : (defaulted key c get set).Agrees a a' ↔
    get a = get a' ∧ ∃ v : Value, c.read .value v.draft = .ok (get a) :=
  (defaulted_covers hget hset hsame).agrees_iff

/-- A required member holds what is written of it if its part is read back. -/
@[simp] theorem required_returns_iff :
    (required key c get set).Returns a ↔ c.Returns (get a) :=
  (required_covers hget hset hsame).returns_iff

/-- A member with a default holds what is written of it if its part is read back. -/
@[simp] theorem defaulted_returns_iff :
    (defaulted key c get set).Returns a ↔ c.Returns (get a) :=
  (defaulted_covers hget hset hsame).returns_iff

end

section

variable {get : α → Option β} {set : Option β → α → α} (hget : ∀ x a, get (set x a) = x)
  (hset : ∀ x y a, set x (set y a) = set x a) (hsame : ∀ a, set (get a) a = a)
include hget hset hsame

/-- An optional member is about one part of the record, which may be absent. -/
theorem optional_covers : (optional key c get set).Covers (.optional c) get set :=
  ⟨fun _ _ => rfl, fun _ => rfl, hget, hset, hsame⟩

/-- An optional member is faithful if its codec is and the part is absent at first. -/
@[simp] theorem optional_faithful (hc : (Codec.optional c).Faithful) (hblank : get blank = none) :
    (optional key c get set).Faithful blank := by
  have hreturns : (Codec.optional c).Returns (get blank) := hblank ▸ Codec.optional_returns_none c
  refine (optional_covers hget hset hsame).faithful hc hreturns fun _ _ => ⟨rfl, ?_⟩
  exact congrArg (Option.map c.write) hblank

/-- Records agree in an optional member iff they have the same in its place, or both nothing. -/
@[simp] theorem optional_agrees_iff : (optional key c get set).Agrees a a' ↔
    get a = get a' ∧ ∃ v : Value, (Codec.optional c).read .value v.draft = .ok (get a) :=
  (optional_covers hget hset hsame).agrees_iff

/-- An optional member holds what is written of it if its part is read back or absent. -/
@[simp] theorem optional_returns_iff :
    (optional key c get set).Returns a ↔ (Codec.optional c).Returns (get a) :=
  (optional_covers hget hset hsame).returns_iff

end

end

end Member

/-! ## Records -/

namespace Shape

variable {α : Type} {s : Shape α}

/-- The other members of a record are sorted, and their keys are not in the table. -/
def HasOwnOthers (s : Shape α) (a : α) : Prop :=
  (Value.object (s.others a)).IsSorted ∧ ∀ key ∈ (s.others a).keys, key ∉ s.keys

/-- Every member of the table holds what is written of it. -/
def Settled (s : Shape α) (a : α) : Prop := ∀ m ∈ s.members, m.Returns a

/-- A record that keeps no other members has only its own. -/
theorem hasOwnOthers_of_dropped (hdropped : s.remainder = .dropped) (a : α) : s.HasOwnOthers a := by
  have hnone : s.others a = [] := by simp only [others, hdropped]
  rw [HasOwnOthers, hnone]
  exact ⟨rfl, fun key hkey => absurd hkey List.not_mem_nil⟩

/-- A table from which records are read back as they were written. -/
structure Faithful (s : Shape α) : Prop where
  separate : s.Separate
  lawful : s.remainder ≠ .dropped → s.Lawful
  members : ∀ m ∈ s.members, m.Faithful s.blank
  -- the parts that the members set make up the record
  determined : ∀ a a', s.others a = s.others a' → (∀ m ∈ s.members, m.Agrees a a') → a = a'

/-- How far a record `a` has been put together from the members of an object when `ms` is left of
them: the members of the table that come hold their values in `a`, and one that does not come any
more has been read, and agrees with `a`. -/
structure Restores (s : Shape α) (a : α) (ms : Members) (p : Progress α) : Prop where
  fresh : ∀ key ∈ ms.keys, key ∉ p.met
  given : ∀ m ∈ s.members, ∀ v, (m.key, v) ∈ ms → m.Holds v a
  agrees : ∀ m ∈ s.members, m.key ∉ ms.keys → m.Agrees a p.record
  met : ∀ m ∈ s.members, m.isRequired → m.key ∉ ms.keys → m.key ∈ p.met

namespace Faithful

/-! ### What was read -/

/-- Reading a member leaves a record settled. -/
theorem settled_of_read (hs : s.Faithful) {m : Member α} (hm : m ∈ s.members) {v : Value}
    (hv : v.IsSorted) {a a' : α} (hread : m.read .value v.draft a = .ok a') (ha : s.Settled a) :
    s.Settled a' := by
  intro m' hm'
  by_cases hkey : m'.key = m.key
  · obtain rfl := List.inj_on_of_nodup_map hs.separate.nodup hm' hm hkey
    exact (hs.members m' hm).returns v a' hv ((hs.members m' hm).again _ a a' hread)
  · -- what the other member held it still holds
    have hcommutes := hs.separate.commutes_of_key_ne hm' hm hkey
    have hholds := (ha m' hm').of_commutes hcommutes hread
    exact (hs.members m' hm').returns _ a' (m'.isSorted_written a) hholds

/-- Reading the members of an object leaves a record settled. -/
theorem settled_of_readMembers (hs : s.Faithful) (ms : Members) (hms : ∀ m ∈ ms, m.2.IsSorted)
    {p p' : Progress α} (h : s.readMembers .value (Value.draftMembers ms) p = .ok p')
    (hp : s.Settled p.record) : s.Settled p'.record := by
  induction ms generalizing p with
  | nil => exact Except.ok.inj h ▸ hp
  | cons m ms ih =>
    obtain ⟨key, v⟩ := m
    obtain ⟨p₁, h₁, hrest⟩ := readMembers_cons_eq_ok_iff.1 h
    rw [List.forall_mem_cons] at hms
    refine ih hms.2 hrest ?_
    -- members that are passed over or kept aside do not touch the table
    rcases h₁ with ⟨hm', _, hread⟩ | ⟨_, _, _⟩ | ⟨_, _, _⟩
    · exact hs.settled_of_read (member?_eq_some hm').1 hms.1 hread hp
    · exact hp
    · exact hp

/-- Reading the members from a list leaves a record settled. -/
theorem settled_of_readItems (hs : s.Faithful) {members : List (Member α)}
    (hmembers : members ⊆ s.members) (vs : List Value) (hvs : ∀ v ∈ vs, v.IsSorted) {n : Nat}
    {a a' : α} {left : List Draft}
    (h : s.readItems .value none members (Value.draftItems vs) n a = .ok (a', left))
    (ha : s.Settled a) : s.Settled a' := by
  induction members generalizing vs n a with
  | nil =>
    rw [readItems] at h
    exact (Prod.mk.inj (Except.ok.inj h)).1 ▸ ha
  | cons m members ih =>
    obtain ⟨hm, hrest⟩ := List.cons_subset.1 hmembers
    cases vs with
    | nil =>
      -- members that the list is too short for stay as they are
      simp only [Value.draftItems, readItems] at h
      split at h
      · exact nomatch h
      · exact ih hrest [] hvs h ha
    | cons v vs =>
      rw [List.forall_mem_cons] at hvs
      rw [Value.draftItems, readItems] at h
      -- the item is read into the member that has its place
      cases hread : m.read .value v.draft a with
      | error e => rw [hread] at h; exact nomatch h
      | ok a₁ =>
        rw [hread] at h
        exact ih hrest vs hvs.2 h (hs.settled_of_read hm hvs.1 hread ha)

/-- The record with every member absent is settled. -/
theorem settled_blank (hs : s.Faithful) : s.Settled s.blank :=
  fun m hm => (hs.members m hm).returns_blank

/-- Keeping other members leaves a record settled. -/
theorem settled_keepOthers (hs : s.Faithful) {a : α} (ha : s.Settled a) (others : Members) :
    s.Settled (s.keepOthers others a) := fun m hm =>
  (hs.members m hm).returns _ _ (m.isSorted_written a)
    ((ha m hm).of_commutesWith (hs.separate.keepOthers m hm others))

/-- A record that was read from an object or a list is settled. -/
theorem settled_of_read_value (hs : s.Faithful) {v : Value} (hv : v.IsSorted) {a : α}
    (h : s.read .value v.draft = .ok a) : s.Settled a := by
  cases v with
  | object ms =>
    rw [Value.draft, read] at h
    obtain ⟨-, o', p, ho, hp, -, rfl⟩ := readObject_eq_ok_iff.1 h
    obtain rfl := Except.ok.inj ho
    have hms := (Value.isSorted_object_iff.1 hv).2
    exact hs.settled_keepOthers (hs.settled_of_readMembers ms hms hp hs.settled_blank) _
  -- only a record without other members can be written as a list
  | array vs =>
    cases hrem : s.remainder with
    | kept get set =>
      simp only [Value.draft, read, hrem] at h
      cases h
    | dropped =>
      simp only [Value.draft, read, hrem] at h
      obtain ⟨-, o', ho, hitems⟩ := readList_eq_ok_iff.1 h
      obtain rfl := Except.ok.inj ho
      exact hs.settled_of_readItems (List.Subset.refl _) vs (Value.isSorted_array_iff.1 hv) hitems
        hs.settled_blank
  | null | bool _ | number _ | string _ =>
    simp only [Value.draft, read] at h
    cases h

/-- The other members of a record that was read are its own. -/
theorem hasOwnOthers_of_read (hs : s.Faithful) {v : Value} (hv : v.IsSorted) {a : α}
    (h : s.read .value v.draft = .ok a) : s.HasOwnOthers a := by
  by_cases hkeeps : s.remainder = .dropped
  · exact hasOwnOthers_of_dropped hkeeps a
  · have hlawful := hs.lawful hkeeps
    obtain ⟨ms, _, rfl, _, _⟩ := hlawful.read_eq_ok h
    refine ⟨?_, (hlawful.own_keys_of_read hv h).2⟩
    obtain ⟨hms, hvs⟩ := Value.isSorted_object_iff.1 hv
    -- the other members are those of the object that the table does not know
    rw [hlawful.others_of_read hv h]
    exact Value.isSorted_object_iff.2 ⟨hms.filter _, fun m hm => hvs m (List.mem_filter.1 hm).1⟩

/-! ### What is read back -/

/-- A member of the table is read: afterwards it agrees with the record, and so do the members that
were read before. -/
theorem restores_of_read (hs : s.Faithful) {a : α} {m : Member α} (hm : m ∈ s.members) {v : Value}
    {ms : Members} {p : Progress α} (hp : s.Restores a ((m.key, v) :: ms) p)
    (hkey : m.key ∉ ms.keys) {b : α} (hb : m.read .value v.draft p.record = .ok b) :
    s.Restores a ms { p with record := b, met := m.key :: p.met } where
  fresh k hk hmem := by
    rcases List.mem_cons.1 hmem with rfl | hmem
    · exact hkey hk
    · exact hp.fresh k (List.mem_cons_of_mem _ hk) hmem
  given m' hm' u hu := hp.given m' hm' u (List.mem_cons_of_mem _ hu)
  agrees m' hm' hnot := by
    -- the member holds what it has just read, and what the others hold is not disturbed
    by_cases hne : m'.key = m.key
    · obtain rfl := List.inj_on_of_nodup_map hs.separate.nodup hm' hm hne
      exact ⟨v, hp.given m' hm v List.mem_cons_self, (hs.members m' hm).again _ _ _ hb⟩
    · have hcommutes := hs.separate.commutes_of_key_ne hm' hm hne
      obtain ⟨u, hu, hholds⟩ := hp.agrees m' hm' fun h => (List.mem_cons.1 h).elim hne hnot
      exact ⟨u, hu, hholds.of_commutes hcommutes hb⟩
  met m' hm' hrequired hnot := by
    by_cases hne : m'.key = m.key
    · exact hne ▸ List.mem_cons_self
    · have hmet := hp.met m' hm' hrequired fun h => (List.mem_cons.1 h).elim hne hnot
      exact List.mem_cons_of_mem _ hmet

/-- Another member is read, which makes no difference to those of the table. -/
theorem restores_of_other {a : α} {key : String} (hkey : key ∉ s.keys) {v : Value} {ms : Members}
    {p : Progress α} (hp : s.Restores a ((key, v) :: ms) p) (others : Members) :
    s.Restores a ms { p with others } := by
  have hne : ∀ m ∈ s.members, m.key ∉ ms.keys → m.key ∉ Members.keys ((key, v) :: ms) :=
    fun m hm hnot h =>
      (List.mem_cons.1 h).elim (fun (he : m.key = key) => hkey (he ▸ List.mem_map_of_mem hm)) hnot
  exact ⟨fun k hk => hp.fresh k (List.mem_cons_of_mem _ hk),
    fun m hm u hu => hp.given m hm u (List.mem_cons_of_mem _ hu),
    fun m hm h => hp.agrees m hm (hne m hm h),
    fun m hm hrequired h => hp.met m hm hrequired (hne m hm h)⟩

/-- One member is read. -/
theorem exists_readMember (hs : s.Faithful) {a : α} {key : String} {v : Value} {ms : Members}
    {p : Progress α} (hp : s.Restores a ((key, v) :: ms) p) (hkey : key ∉ ms.keys) :
    ∃ p', s.readMember .value key v.draft p = .ok p' ∧ s.Restores a ms p' := by
  cases hfound : s.member? key with
  | some m =>
    obtain ⟨hm, rfl⟩ := member?_eq_some hfound
    -- what the record holds can be read over anything else in its place
    have hholds : m.read .value v.draft a = .ok a := hp.given m hm v List.mem_cons_self
    obtain ⟨b, hb⟩ := (hs.members m hm).anywhere _ _ _ hholds p.record
    have hmet : ¬ p.met.contains m.key := fun h =>
      hp.fresh m.key List.mem_cons_self (List.contains_iff_mem.1 h)
    refine ⟨_, ?_, hs.restores_of_read hm hp hkey hb⟩
    simp only [readMember, hfound, if_neg hmet, hb]
  | none =>
    have hunknown := member?_eq_none_iff.1 hfound
    cases hrem : s.remainder with
    | dropped =>
      refine ⟨p, ?_, restores_of_other hunknown hp p.others⟩
      simp only [readMember, hfound, hrem, Draft.skip_of_read v.read_draft]
    | kept get set =>
      refine ⟨_, ?_, restores_of_other hunknown hp (p.others ++ [(key, v.sorted)])⟩
      simp only [readMember, hfound, hrem, Value.read_draft]

/-- All members are read. -/
theorem exists_readMembers (hs : s.Faithful) {a : α} (ms : Members) {p : Progress α}
    (hp : s.Restores a ms p) (hnodup : ms.keys.Nodup) :
    ∃ p', s.readMembers .value (Value.draftMembers ms) p = .ok p' ∧ s.Restores a [] p' := by
  induction ms generalizing p with
  | nil => exact ⟨p, rfl, hp⟩
  | cons m ms ih =>
    obtain ⟨key, v⟩ := m
    obtain ⟨hkey, hnodup⟩ := List.nodup_cons.1 hnodup
    obtain ⟨p₁, h₁, hp₁⟩ := hs.exists_readMember hp hkey
    obtain ⟨p', h', hp'⟩ := ih hp₁ hnodup
    refine ⟨p', ?_, hp'⟩
    rw [Value.draftMembers, readMembers, h₁]
    exact h'

/-- An object is read as a record if the members of the table hold their values in the record, those
that do not come may be absent and are in the record as they are at first, and the other members are
those of the record. -/
theorem read_object_of_holds (hs : s.Faithful) {a : α} {ms : Members}
    (hsorted : (Value.object ms).IsSorted)
    (hgiven : ∀ m ∈ s.members, ∀ v, (m.key, v) ∈ ms → m.Holds v a)
    (habsent : ∀ m ∈ s.members, m.key ∉ ms.keys → m.isRequired = false ∧ m.Agrees a s.blank)
    (hothers : s.remainder ≠ .dropped →
      s.others a = ms.filter fun m => (s.member? m.1).isNone) :
    s.codec.read .value (Value.object ms).draft = .ok a := by
  have hnodup := (Value.isSorted_object_iff.1 hsorted).1.nodup_keys
  have hstart : s.Restores a ms ⟨s.blank, [], []⟩ :=
    { fresh := fun _ _ => List.not_mem_nil
      given := hgiven
      agrees := fun m hm hnot => (habsent m hm hnot).2
      met := fun m hm hrequired hnot => by
        rw [(habsent m hm hnot).1] at hrequired
        exact nomatch hrequired }
  obtain ⟨p, hp, hdone⟩ := hs.exists_readMembers ms hstart hnodup
  have hmissing : s.missing? p.met = none :=
    missing?_eq_none_iff.2 fun m hm hrequired => hdone.met m hm hrequired List.not_mem_nil
  have hread : s.readObject .value (Value.draftMembers ms) none =
      .ok (s.keepOthers p.others p.record) :=
    readObject_eq_ok_iff.2 ⟨rfl, .value, p, rfl, hp, hmissing, rfl⟩
  -- what was read agrees with `a` in every member, and there is only one such record
  have hsame : s.keepOthers p.others p.record = a := by
    refine hs.determined _ _ ?_ fun m hm => ?_
    · by_cases hdropped : s.remainder = .dropped
      · simp only [others, hdropped]
      · rw [(hs.lawful hdropped).others_of_read hsorted hread, hothers hdropped]
    · obtain ⟨v, hv, hholds⟩ := hdone.agrees m hm List.not_mem_nil
      exact ⟨v, hholds.of_commutesWith (hs.separate.keepOthers m hm p.others), hv⟩
  exact hread.trans (congrArg Except.ok hsame)

/-- What the value of a record has besides the members of the table are its other members. -/
theorem filter_eq_others {a : α} (hown : s.HasOwnOthers a) {ms : Members} (hms : ms.Ascending)
    (hunknown : ∀ key, key ∉ s.keys → ms.get? key = ((s.others a).get? key).map Value.sorted) :
    (ms.filter fun m => (s.member? m.1).isNone) = s.others a := by
  have hothers := (Value.isSorted_object_iff.1 hown.1).1
  refine Members.Ascending.ext (hms.filter _) hothers fun key => ?_
  rw [Members.get?_filter fun key => (s.member? key).isNone]
  -- a key outside of the table leads to another member, and a key of the table to none
  split
  next hnone =>
    rw [hunknown key (member?_eq_none_iff.1 (Option.isNone_iff_eq_none.1 hnone))]
    cases hu : Members.get? (s.others a) key with
    | none => rfl
    | some u => exact congrArg some (hown.1.get? hu)
  next hsome =>
    have hnot : key ∉ (s.others a).keys := fun hmem =>
      hsome (Option.isNone_iff_eq_none.2 (member?_eq_none_iff.2 (hown.2 key hmem)))
    exact (Members.get?_eq_none hnot).symm

/-- A record with its own other members is read back if it is settled. -/
theorem returns_of_settled (hs : s.Faithful) {a : α} (hown : s.HasOwnOthers a)
    (ha : s.Settled a) : s.codec.Returns a := by
  have hothers := (Value.isSorted_object_iff.1 hown.1).1
  obtain ⟨ms, hvalue, hknown, hunknown⟩ := hs.separate.get?_toValue hothers.nodup_keys hown.2
  have hsorted : (Value.object ms).IsSorted := hvalue ▸ Value.isSorted_sorted _
  have hms := (Value.isSorted_object_iff.1 hsorted).1
  rw [Codec.Returns, hvalue]
  refine hs.read_object_of_holds hsorted (fun m hm v hv => ?_) (fun m hm hnot => ?_)
    fun _ => (filter_eq_others hown hms hunknown).symm
  · -- what comes is what is written
    have hfound := (Members.get?_eq_some_iff hms.nodup_keys).2 hv
    rw [hknown m hm] at hfound
    obtain ⟨u, hu, rfl⟩ := Option.map_eq_some_iff.1 hfound
    have hwritten := ha m hm
    rwa [Member.Returns, Member.written, hu, Option.getD_some] at hwritten
  · -- what does not come is not written, so that `null` stands for it
    have hnone : m.write a = none :=
      Option.map_eq_none_iff.1 ((hknown m hm).symm.trans (Members.get?_eq_none hnot))
    obtain ⟨hoptional, hblank⟩ := (hs.members m hm).absent a hnone
    have hwritten := ha m hm
    rw [Member.Returns, Member.written, hnone] at hwritten
    exact ⟨hoptional, _, hwritten, hblank⟩

/-- A record is read back iff its other members are its own and every member of the table holds what
is written of it. -/
theorem returns_iff (hs : s.Faithful) {a : α} :
    s.codec.Returns a ↔ s.HasOwnOthers a ∧ s.Settled a := by
  constructor
  · intro h
    have hsorted : (s.codec.toValue a).IsSorted := Value.isSorted_sorted _
    exact ⟨hs.hasOwnOthers_of_read hsorted h, hs.settled_of_read_value hsorted h⟩
  · exact fun h => hs.returns_of_settled h.1 h.2

/-- Without other members, a record is read back iff the table is. -/
theorem returns_iff_settled (hs : s.Faithful) (hdropped : s.remainder = .dropped) {a : α} :
    s.codec.Returns a ↔ s.Settled a := by
  rw [hs.returns_iff, and_iff_right (hasOwnOthers_of_dropped hdropped a)]

/-- Whatever was read as a record is read back. -/
theorem codec (hs : s.Faithful) : s.codec.Faithful := fun _ _ hv h =>
  hs.returns_of_settled (hs.hasOwnOthers_of_read hv h) (hs.settled_of_read_value hv h)

/-- The laws for a record that keeps other members. -/
theorem of_lawful (hs : s.Lawful) (hmembers : ∀ m ∈ s.members, m.Faithful s.blank)
    (hdetermined : ∀ a a', s.others a = s.others a' → (∀ m ∈ s.members, m.Agrees a a') → a = a') :
    s.Faithful :=
  ⟨hs.separate, fun _ => hs, hmembers, hdetermined⟩

/-- The laws for a record that drops other members. -/
theorem of_dropped (hdropped : s.remainder = .dropped) (hs : s.Separate)
    (hmembers : ∀ m ∈ s.members, m.Faithful s.blank)
    (hdetermined : ∀ a a', (∀ m ∈ s.members, m.Agrees a a') → a = a') : s.Faithful :=
  ⟨hs, fun hkeeps => absurd hdropped hkeeps, hmembers, fun a a' _ => hdetermined a a'⟩

end Faithful

/-- No record is read from `null`. -/
@[simp] theorem codec_refusesNull (s : Shape α) : s.codec.RefusesNull := by
  intro a h
  simp only [codec, read] at h
  cases h

end Shape

end Dashboards
