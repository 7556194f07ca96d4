import Dashboards.Proofs.Json.Depth
import Dashboards.Proofs.Record.Agreement
import Dashboards.Proofs.Record.RoundTrip

/-!
# Saving what was read

What was read from a text can be written and read again.  Three things are needed for that: the
value that is written is read back (`Codec.Returns`), no object in it has two members of one name
(`Codec.WritesDistinct`), and it is nested no deeper than a text may be.  Texts say more than values
do: contents that are skipped may be at fault, so that a text that is read need not have a value.

The depth of what is written is not that of what was read.  A record that is written as a list, or
lacks members with defaults, becomes an object with all its members.  So a codec needs some room for
what it writes in any case, and beyond that what is written needs no more room than what was read
(`Codec.Saves`).

## Key results

- `Shape.Faithful.saves`: records that were read from a text
- `Shape.Faithful.writesDistinct`: names of what is written
- `Codec.ofText_toText`: what is saved is loaded again
-/

namespace Dashboards

open Json (Draft DraftMembers Fault Members Origin Value)

variable {α β : Type}

/-! ## Codecs -/

namespace Codec

/-- No object has two members of one name in what is written of something that is read back. -/
def WritesDistinct (c : Codec β) : Prop :=
  ∀ b, c.Returns b → (c.write b).draft.hasDistinctNames

/-- Whatever is read from a text where there is room for `k` levels or more is read back, and what
is written of it fits into the same room and has distinct names. -/
structure Saves (c : Codec β) (k : Nat) : Prop where
  fits : ∀ room, k ≤ room → ∀ d b, c.read (.text room) d = .ok b →
    c.Returns b ∧ (c.write b).depth ≤ room
  writesDistinct : c.WritesDistinct

/-- What is written of `b` can be printed and read back where there is so much room. -/
def Prints (c : Codec β) (room : Nat) (b : β) : Prop := (c.write b).Printable room

/-- More room does no harm. -/
theorem Saves.mono {c : Codec β} {k k' : Nat} (h : c.Saves k) (hle : k ≤ k') : c.Saves k' :=
  ⟨fun room hroom => h.fits room (Nat.le_trans hle hroom), h.writesDistinct⟩

/-- Everything is written as a scalar. -/
def WritesScalars (c : Codec β) : Prop := ∀ b, (c.write b).isScalar

/-- Scalars need no room and have no names. -/
theorem WritesScalars.saves {c : Codec β} (h : c.WritesScalars)
    (hreturns : ∀ o d b, c.read o d = .ok b → c.Returns b) (k : Nat) : c.Saves k := by
  have hscalar : ∀ v : Value, v.isScalar → v.depth = 0 ∧ v.draft.hasDistinctNames := by
    intro v hv
    cases v with
    | null | bool _ | number _ | string _ => exact ⟨rfl, rfl⟩
    | array _ | object _ => exact nomatch hv
  refine ⟨fun room _ d b hread => ⟨hreturns _ d b hread, ?_⟩, fun b _ => (hscalar _ (h b)).2⟩
  rw [(hscalar _ (h b)).1]
  exact Nat.zero_le room

/-! ### Scalars -/

/-- A string is written as a string. -/
theorem string_writesScalars : string.WritesScalars := fun _ => rfl

/-- A truth value is written as such. -/
theorem bool_writesScalars : bool.WritesScalars := fun _ => rfl

/-- A number of 64 bits is a whole number of a document. -/
theorem exists_ofNat_eq {k : Nat} (hk : k < 2 ^ 64) :
    ∃ n fits, Value.ofNat k = .number (.integer n fits) := by
  have fits : Json.FitsInteger k := ⟨by omega, by omega⟩
  exact ⟨k, fits, ofNat_eq_number fits⟩

/-- A number of 32 bits is written as a whole number. -/
theorem uint32_writesScalars : uint32.WritesScalars := fun n => by
  obtain ⟨m, fits, h⟩ := exists_ofNat_eq (Nat.lt_trans n.toNat_lt (by decide))
  have hwrite : uint32.write n = .number (.integer m fits) := by simp only [uint32, h]
  rw [hwrite]
  rfl

/-- A number of 64 bits is written as a whole number. -/
theorem uint64_writesScalars : uint64.WritesScalars := fun n => by
  obtain ⟨m, fits, h⟩ := exists_ofNat_eq n.toNat_lt
  have hwrite : uint64.write n = .number (.integer m fits) := by simp only [uint64, h]
  rw [hwrite]
  rfl

/-- Strings save at every depth. -/
@[simp] theorem string_saves (k : Nat) : string.Saves k :=
  string_writesScalars.saves (fun _ _ s _ => string_returns s) k

/-- Truth values save at every depth. -/
@[simp] theorem bool_saves (k : Nat) : bool.Saves k :=
  bool_writesScalars.saves (fun _ _ b _ => bool_returns b) k

/-- Numbers of 32 bits save at every depth. -/
@[simp] theorem uint32_saves (k : Nat) : uint32.Saves k :=
  uint32_writesScalars.saves (fun _ _ n _ => uint32_returns n) k

/-- Numbers of 64 bits save at every depth. -/
@[simp] theorem uint64_saves (k : Nat) : uint64.Saves k :=
  uint64_writesScalars.saves (fun _ _ n _ => uint64_returns n) k

/-- Every string can be printed. -/
@[simp] theorem string_prints (room : Nat) (s : String) : string.Prints room s :=
  Value.printable_string room s

/-- Both truth values can be printed. -/
@[simp] theorem bool_prints (room : Nat) (b : Bool) : bool.Prints room b :=
  Value.printable_bool room b

/-- Every number of 32 bits can be printed. -/
@[simp] theorem uint32_prints (room : Nat) (n : UInt32) : uint32.Prints room n := by
  obtain ⟨m, fits, h⟩ := exists_ofNat_eq (Nat.lt_trans n.toNat_lt (by decide))
  have hwrite : uint32.write n = .number (.integer m fits) := by simp only [uint32, h]
  rw [Prints, hwrite]
  exact Value.printable_integer room m fits

/-! ### Contents kept as they are -/

/-- An object that is read back is sorted. -/
theorem rawObject_writesDistinct : rawObject.WritesDistinct := by
  intro ms h
  have hsorted : (Value.object ms).IsSorted := by
    -- what was read back came from a sorted value, and must be that value
    have hread : rawObject.read .value (Value.object ms).sorted.draft = .ok ms := h
    have hvalue := Value.IsSorted.read_draft (Value.isSorted_sorted (.object ms))
    rw [Value.sorted, Value.draft] at hread hvalue
    simp only [rawObject, hvalue, orBroken] at hread
    rw [Value.IsSorted, Value.sorted, Except.ok.inj hread]
  exact Value.hasDistinctNames_of_isSorted _ hsorted

/-- Any object is kept as deep as it is. -/
@[simp] theorem rawObject_saves (k : Nat) : rawObject.Saves k := by
  refine ⟨fun room _ d ms h => ?_, rawObject_writesDistinct⟩
  cases d with
  | object ds stop =>
    cases hd : Draft.read (.text room) (.object ds stop) with
    | error f =>
      simp only [rawObject, hd, orBroken] at h
      cases h
    | ok v =>
      obtain ⟨_, _, vs, _, _, rfl⟩ := Draft.read_object_eq_ok_iff.1 hd
      simp only [rawObject, hd, orBroken] at h
      obtain rfl := Except.ok.inj h
      -- the object is kept in the order of its keys, which changes no depth
      have hsorted := Draft.isSorted_of_read hd
      refine ⟨(rawObject_passes _).returns hsorted ?_, Draft.depth_le_of_read hd⟩
      have hread := hsorted.read_draft
      rw [Value.draft] at hread ⊢
      simp only [rawObject, hread, orBroken]
  | null | bool _ | number _ | string _ | array _ _ | broken _ _ _ => cases h

/-! ### Lists -/

/-- Names in a list are distinct if they are in its items. -/
theorem list_writesDistinct {c : Codec β} (hc : c.WritesDistinct) : (list c).WritesDistinct := by
  intro bs h
  rw [list_returns_iff] at h
  show (Value.array (bs.map c.write)).draft.hasDistinctNames
  rw [Value.hasDistinctNames_draft_array_iff]
  exact List.forall_mem_map.2 fun b hb => hc b (h b hb)

/-- A list needs one level more than its items. -/
@[simp] theorem list_saves {c : Codec β} {k : Nat} (hc : c.Saves k) : (list c).Saves (k + 1) := by
  refine ⟨fun room hroom d bs h => ?_, list_writesDistinct hc.writesDistinct⟩
  obtain ⟨ds, o', rfl, ho, hds⟩ := list_read_draft_eq_ok_iff.1 h
  -- the list was read, so one of the levels is the list itself
  obtain ⟨room, rfl⟩ := Nat.exists_eq_add_of_le' (Nat.le_trans (Nat.le_add_left 1 k) hroom)
  obtain rfl := Except.ok.inj ho
  have hitems : ∀ b ∈ bs, c.Returns b ∧ (c.write b).depth ≤ room :=
    Draft.forall_mem_right hds fun d b hb => hc.fits room (Nat.le_of_succ_le_succ hroom) d b hb
  refine ⟨list_returns_iff.2 fun b hb => (hitems b hb).1, ?_⟩
  show (Value.array (bs.map c.write)).depth ≤ room + 1
  rw [Value.depth_array_le_succ_iff]
  exact List.forall_mem_map.2 fun b hb => (hitems b hb).2

/-- A list can be printed if its items can, one level further in. -/
@[simp] theorem list_prints_iff {c : Codec β} {room : Nat} {bs : List β} :
    (list c).Prints (room + 1) bs ↔ ∀ b ∈ bs, c.Prints room b := by
  show (Value.array (bs.map c.write)).Printable (room + 1) ↔ _
  rw [Value.printable_array_iff, List.forall_mem_map]
  rfl

/-! ### Values that may be absent -/

/-- Where something is read there was no `null`. -/
theorem readOptional_eq_some {c : Codec β} {o : Origin} {d : Draft} {b : β}
    (h : readOptional c o d = .ok (some b)) : d ≠ .null ∧ c.read o d = .ok b := by
  cases d with
  | null => exact nomatch h
  | bool _ | number _ | string _ | array _ _ | object _ _ | broken _ _ _ =>
    obtain ⟨b', hb', he⟩ := exists_of_map_eq_ok h
    exact ⟨nofun, Option.some.inj he ▸ hb'⟩

/-- What may be absent saves with the room of its codec: `null` needs none. -/
@[simp] theorem optional_saves {c : Codec β} {k : Nat} (hnull : c.RefusesNull) (hc : c.Saves k) :
    (optional c).Saves k := by
  refine ⟨fun room hroom d x h => ?_, fun x h => ?_⟩
  · cases x with
    | none => exact ⟨optional_returns_none c, Nat.zero_le _⟩
    | some b =>
      obtain ⟨hreturns, hdepth⟩ := hc.fits room hroom d b (readOptional_eq_some h).2
      exact ⟨(optional_returns_some_iff hnull).2 hreturns, hdepth⟩
  · cases x with
    | none => rfl
    | some b => exact hc.writesDistinct b ((optional_returns_some_iff hnull).1 h)

/-- Any value but `null` is kept as deep as it is. -/
@[simp] theorem optional_raw_saves (k : Nat) : (optional raw).Saves k := by
  refine ⟨fun room _ d x h => ?_, fun x h => ?_⟩
  · cases x with
    | none => exact ⟨optional_returns_none raw, Nat.zero_le _⟩
    | some v =>
      obtain ⟨hne, hraw⟩ := readOptional_eq_some h
      have hd : d.read (.text room) = .ok v := by
        cases hd : d.read (.text room) with
        | error f => simp only [raw, hd, orBroken] at hraw; cases hraw
        | ok u =>
          simp only [raw, hd, orBroken] at hraw
          exact congrArg Except.ok (Except.ok.inj hraw)
      refine ⟨optional_raw_returns_some_iff.2 ⟨Draft.isSorted_of_read hd, ?_⟩,
        Draft.depth_le_of_read hd⟩
      -- a value that is there is not `null`, since `null` is read as nothing
      rintro rfl
      exact hne (Draft.eq_null_of_read hd)
  · cases x with
    | none => rfl
    | some v => exact Value.hasDistinctNames_of_isSorted v (optional_raw_returns_some_iff.1 h).1

/-- A value that may be absent can be printed if it can where it is there. -/
theorem optional_prints_iff {c : Codec β} {room : Nat} {x : Option β} :
    (optional c).Prints room x ↔ ∀ b, x = some b → c.Prints room b := by
  cases x with
  | none => exact ⟨fun _ _ h => (nomatch h), fun _ => Value.printable_null room⟩
  | some b => exact ⟨fun h _ hb => Option.some.inj hb ▸ h, fun h => h b rfl⟩

/-- A part that is changed, or put in if it is absent. -/
theorem optional_prints_update {c : Codec β} {room : Nat} {x : Option β}
    (hx : (optional c).Prints room x) {blank : β} (hblank : c.Prints room blank) {f : β → β}
    (hf : ∀ b, c.Prints room b → c.Prints room (f b)) :
    (optional c).Prints room (some (f (x.getD blank))) := by
  rw [optional_prints_iff] at hx ⊢
  intro b hb
  obtain rfl := Option.some.inj hb
  cases x with
  | none => exact hf blank hblank
  | some b => exact hf b (hx b rfl)

/-- A part that is put in if it is absent. -/
theorem optional_prints_fill {c : Codec β} {room : Nat} {x : Option β}
    (hx : (optional c).Prints room x) {blank : β} (hblank : c.Prints room blank) :
    (optional c).Prints room (some (x.getD blank)) :=
  optional_prints_update hx hblank fun _ h => h

end Codec

/-! ## Members -/

namespace Member

/-- What reading a member from a text does, where there is room for `k` levels or more: a value
could have been read instead, and what is then written of the member fits and has distinct names. -/
structure Saves (m : Member α) (k : Nat) : Prop where
  exists_value : ∀ room, k ≤ room → ∀ d a a', m.read (.text room) d a = .ok a' →
    ∃ v : Value, v.IsSorted ∧ m.read .value v.draft a = .ok a'
  depth_le : ∀ room, k ≤ room → ∀ d a a' v, m.read (.text room) d a = .ok a' →
    m.write a' = some v → v.depth ≤ room
  write_congr : ∀ a a', m.Agrees a a' → m.write a = m.write a'
  hasDistinctNames : ∀ a, m.Returns a → ∀ v, m.write a = some v → v.draft.hasDistinctNames

/-- What is written of a member can be printed and read back. -/
def Prints (m : Member α) (room : Nat) (a : α) : Prop :=
  ∀ v, m.write a = some v → v.Printable room

/-- A member writes the part of a record that it covers, if it writes anything. -/
structure Writes (m : Member α) (c : Codec β) (get : α → β) (set : β → α → α) : Prop where
  covers : m.Covers c get set
  read_eq : ∀ o d a, m.read o d a = (c.read o d).map (set · a)
  write_eq : ∀ a v, m.write a = some v → v = c.write (get a)
  write_congr : ∀ a a', get a = get a' → m.write a = m.write a'

namespace Writes

variable {m : Member α} {c : Codec β} {get : α → β} {set : β → α → α}

/-- A member saves with the room that its part needs. -/
theorem saves (h : m.Writes c get set) {k : Nat} (hc : c.Saves k) : m.Saves k where
  exists_value room hroom d a a' hread := by
    rw [h.read_eq] at hread
    obtain ⟨b, hb, rfl⟩ := exists_of_map_eq_ok hread
    -- what was read is read from its own value
    have hreturns : c.read .value (c.toValue b).draft = .ok b := (hc.fits room hroom d b hb).1
    refine ⟨c.toValue b, Value.isSorted_sorted _, ?_⟩
    rw [h.read_eq, hreturns]
    rfl
  depth_le room hroom d a a' v hread hwrite := by
    rw [h.read_eq] at hread
    obtain ⟨b, hb, rfl⟩ := exists_of_map_eq_ok hread
    rw [h.write_eq _ v hwrite, h.covers.get_set]
    exact (hc.fits room hroom d b hb).2
  write_congr a a' hagrees := h.write_congr a a' (h.covers.agrees_iff.1 hagrees).1
  hasDistinctNames a ha v hv := by
    rw [h.write_eq a v hv]
    exact hc.writesDistinct _ (h.covers.returns_iff.1 ha)

end Writes

/-! ### The kinds of members -/

section

variable {key : String} {c : Codec β}

section

variable {get : α → β} {set : β → α → α} (hget : ∀ x a, get (set x a) = x)
  (hset : ∀ x y a, set x (set y a) = set x a) (hsame : ∀ a, set (get a) a = a)
include hget hset hsame

/-- A required member writes its part always. -/
theorem required_writes : (required key c get set).Writes c get set :=
  ⟨required_covers hget hset hsame, fun _ _ _ => rfl, fun _ _ h => (Option.some.inj h).symm,
    fun _ _ h => congrArg (some ∘ c.write) h⟩

/-- A member with a default writes its part always, also where it is the default. -/
theorem defaulted_writes : (defaulted key c get set).Writes c get set :=
  ⟨defaulted_covers hget hset hsame, fun _ _ _ => rfl, fun _ _ h => (Option.some.inj h).symm,
    fun _ _ h => congrArg (some ∘ c.write) h⟩

/-- A required member saves with the room of its codec. -/
@[simp] theorem required_saves {k : Nat} (hc : c.Saves k) : (required key c get set).Saves k :=
  (required_writes hget hset hsame).saves hc

/-- A member with a default saves with the room of its codec. -/
@[simp] theorem defaulted_saves {k : Nat} (hc : c.Saves k) : (defaulted key c get set).Saves k :=
  (defaulted_writes hget hset hsame).saves hc

end

section

variable {get : α → Option β} {set : Option β → α → α} (hget : ∀ x a, get (set x a) = x)
  (hset : ∀ x y a, set x (set y a) = set x a) (hsame : ∀ a, set (get a) a = a)
include hget hset hsame

/-- An optional member writes its part if it is there, and nothing otherwise. -/
theorem optional_writes : (optional key c get set).Writes (.optional c) get set where
  covers := optional_covers hget hset hsame
  read_eq _ _ _ := rfl
  write_eq a v h := by
    have hv : (get a).map c.write = some v := h
    exact (congrArg (Option.getD · .null) hv).symm
  write_congr _ _ h := congrArg (Option.map c.write) h

/-- An optional member saves with the room of its codec. -/
@[simp] theorem optional_saves {k : Nat} (hc : (Codec.optional c).Saves k) :
    (optional key c get set).Saves k :=
  (optional_writes hget hset hsame).saves hc

end

/-- An optional member can be printed if its part can or is absent. -/
@[simp] theorem optional_prints_iff {get : α → Option β} {set : Option β → α → α} {room : Nat}
    {a : α} :
    (optional key c get set).Prints room a ↔ (Codec.optional c).Prints room (get a) := by
  rw [Codec.optional_prints_iff]
  simp [Prints, optional, Codec.Prints]

end

end Member

/-! ## Records -/

namespace Shape

variable {s : Shape α}

/-- What is written of a record is what is written of its members, and the other members. -/
theorem mem_write_iff {a : α} {u : String × Value} :
    u ∈ s.entries a ++ s.others a ↔
      (∃ m ∈ s.members, m.key = u.1 ∧ m.write a = some u.2) ∨ u ∈ s.others a := by
  obtain ⟨key, v⟩ := u
  simp only [List.mem_append, entries, List.mem_filterMap, Option.map_eq_some_iff, Prod.mk.injEq]
  constructor
  · rintro (⟨m, hm, v', hv, rfl, rfl⟩ | h)
    · exact .inl ⟨m, hm, rfl, hv⟩
    · exact .inr h
  · rintro (⟨m, hm, rfl, hv⟩ | h)
    · exact .inl ⟨m, hm, v, hv, rfl, rfl⟩
    · exact .inr h

/-- What holds of the values that are written of a record. -/
theorem forall_mem_write_iff {a : α} {P : Value → Prop} :
    (∀ u ∈ s.entries a ++ s.others a, P u.2) ↔
      (∀ m ∈ s.members, ∀ v, m.write a = some v → P v) ∧ ∀ u ∈ s.others a, P u.2 := by
  simp only [mem_write_iff]
  constructor
  · exact fun h => ⟨fun m hm v hv => h (m.key, v) (.inl ⟨m, hm, rfl, hv⟩),
      fun u hu => h u (.inr hu)⟩
  · rintro ⟨hknown, hothers⟩ u (⟨m, hm, _, hv⟩ | hu)
    · exact hknown m hm u.2 hv
    · exact hothers u hu

/-- A record can be printed and read back if its members can. -/
theorem codec_prints_iff {a : α} {room : Nat} :
    s.codec.Prints (room + 1) a ↔
      (∀ m ∈ s.members, m.Prints room a) ∧ ∀ u ∈ s.others a, u.2.Printable room := by
  show (Value.object (s.entries a ++ s.others a)).Printable (room + 1) ↔ _
  rw [Value.printable_object_iff]
  exact forall_mem_write_iff (P := Value.Printable room)

/-- A record without other members can be printed if its members can. -/
theorem prints_of_others_eq_nil {a : α} {room : Nat} (hothers : s.others a = [])
    (hmembers : ∀ m ∈ s.members, m.Prints room a) : s.codec.Prints (room + 1) a := by
  rw [codec_prints_iff, hothers]
  exact ⟨hmembers, List.forall_mem_nil _⟩

/-- A record whose other members stay the same can be printed if its members still can. -/
theorem prints_of_others_eq {a a' : α} {room : Nat} (h : s.codec.Prints (room + 1) a)
    (hothers : s.others a' = s.others a)
    (hmembers : (∀ m ∈ s.members, m.Prints room a) → ∀ m ∈ s.members, m.Prints room a') :
    s.codec.Prints (room + 1) a' := by
  rw [codec_prints_iff] at h ⊢
  rw [hothers]
  exact ⟨hmembers h.1, h.2⟩

/-- Every member of the table holds what is written of it, and that fits. -/
structure Fits (s : Shape α) (room : Nat) (a : α) : Prop where
  settled : s.Settled a
  depth_le : ∀ m ∈ s.members, ∀ v, m.write a = some v → v.depth ≤ room

namespace Faithful

/-- Records have distinct names if their members do, since the other members are sorted and have
keys of their own. -/
theorem writesDistinct (hs : s.Faithful) {k : Nat} (hmembers : ∀ m ∈ s.members, m.Saves k) :
    s.codec.WritesDistinct := by
  intro a ha
  obtain ⟨⟨hsorted, hown⟩, hsettled⟩ := hs.returns_iff.1 ha
  obtain ⟨hothers, hvalues⟩ := Value.isSorted_object_iff.1 hsorted
  show (Value.object (s.entries a ++ s.others a)).draft.hasDistinctNames
  rw [Value.hasDistinctNames_draft_object_iff]
  refine ⟨?_, (forall_mem_write_iff (P := fun v => v.draft.hasDistinctNames)).2 ⟨?_, ?_⟩⟩
  -- each member is written once at most, and no other member has a key of the table
  · have hentries := s.keys_entries_sublist a
    rw [Members.keys, List.map_append]
    refine List.nodup_append.2 ⟨hs.separate.nodup.sublist hentries, hothers.nodup_keys, ?_⟩
    rintro key hkey _ hkey' rfl
    exact hown key hkey' (hentries.subset hkey)
  · exact fun m hm v hv => (hmembers m hm).hasDistinctNames a (hsettled m hm) v hv
  · exact fun u hu => Value.hasDistinctNames_of_isSorted u.2 (hvalues u hu)

section

variable {k room : Nat} (hs : s.Faithful) (hmembers : ∀ m ∈ s.members, m.Saves k)
  (hroom : k ≤ room)
include hs hmembers hroom

/-- Reading a member of the table leaves a record that fits. -/
theorem fits_of_read {m : Member α} (hm : m ∈ s.members) {d : Draft} {a a' : α}
    (hread : m.read (.text room) d a = .ok a') (ha : s.Fits room a) : s.Fits room a' := by
  obtain ⟨v, hsorted, hvalue⟩ := (hmembers m hm).exists_value room hroom d a a' hread
  refine ⟨hs.settled_of_read hm hsorted hvalue ha.settled, fun m' hm' u hu => ?_⟩
  by_cases hkey : m'.key = m.key
  · obtain rfl := List.inj_on_of_nodup_map hs.separate.nodup hm' hm hkey
    exact (hmembers m' hm').depth_le room hroom d a a' u hread hu
  · -- the other member still writes what it wrote before
    have hcommutes := hs.separate.commutes_of_key_ne hm' hm hkey
    have hholds := ha.settled m' hm'
    have hagrees : m'.Agrees a a' := ⟨_, hholds, hholds.of_commutes hcommutes hvalue⟩
    exact ha.depth_le m' hm' u ((hmembers m' hm').write_congr a a' hagrees ▸ hu)

/-- Reading the members of an object leaves a record that fits, and other members that fit. -/
theorem fits_of_readMembers (ms : DraftMembers) {p p' : Progress α}
    (h : s.readMembers (.text room) ms p = .ok p') (hp : s.Fits room p.record)
    (hothers : ∀ u ∈ p.others, u.2.IsSorted ∧ u.2.depth ≤ room ∧ u.1 ∉ s.keys) :
    s.Fits room p'.record ∧
      ∀ u ∈ p'.others, u.2.IsSorted ∧ u.2.depth ≤ room ∧ u.1 ∉ s.keys := by
  induction ms generalizing p with
  | nil => exact Except.ok.inj h ▸ ⟨hp, hothers⟩
  | cons m ms ih =>
    obtain ⟨key, d⟩ := m
    cases key with
    | error f => exact nomatch h
    | ok key =>
      obtain ⟨p₁, h₁, hrest⟩ := readMembers_cons_eq_ok_iff.1 h
      -- a member of the table, one that is passed over, or one that is kept
      rcases h₁ with ⟨hm, _, hread⟩ | ⟨_, _, _⟩ | ⟨hunknown, _, hread⟩
      · exact ih hrest (hs.fits_of_read hmembers hroom (member?_eq_some hm).1 hread hp) hothers
      · exact ih hrest hp hothers
      · refine ih hrest hp fun u hu => ?_
        rcases List.mem_append.1 hu with hu | hu
        · exact hothers u hu
        · obtain rfl := List.mem_singleton.1 hu
          exact ⟨Draft.isSorted_of_read hread, Draft.depth_le_of_read hread,
            member?_eq_none_iff.1 hunknown⟩

/-- Reading the members from a list leaves a record that fits. -/
theorem fits_of_readItems (members : List (Member α)) (hsub : members ⊆ s.members)
    (ds : List Draft) {stop : Option Fault} {n : Nat} {a a' : α} {left : List Draft}
    (h : s.readItems (.text room) stop members ds n a = .ok (a', left)) (ha : s.Fits room a) :
    s.Fits room a' := by
  induction members generalizing ds n a with
  | nil =>
    rw [readItems] at h
    exact (Prod.mk.inj (Except.ok.inj h)).1 ▸ ha
  | cons m members ih =>
    obtain ⟨hm, hsub⟩ := List.cons_subset.1 hsub
    cases ds with
    | nil =>
      -- after the last item the members that are left are only asked whether they may be absent
      simp only [readItems] at h
      split at h
      · cases h
      · split at h
        · cases h
        · exact ih hsub [] h ha
    | cons d ds =>
      simp only [readItems] at h
      split at h
      · cases h
      next a₁ hread => exact ih hsub ds h (hs.fits_of_read hmembers hroom hm hread ha)

end

/-- Keeping other members leaves a record that fits. -/
theorem fits_keepOthers (hs : s.Faithful) {k room : Nat} (hmembers : ∀ m ∈ s.members, m.Saves k)
    {a : α} (ha : s.Fits room a) (others : Members) : s.Fits room (s.keepOthers others a) := by
  refine ⟨hs.settled_keepOthers ha.settled others, fun m hm v hv => ?_⟩
  have hholds := ha.settled m hm
  -- the members of the table write what they wrote before
  have hagrees : m.Agrees a (s.keepOthers others a) :=
    ⟨_, hholds, hholds.of_commutesWith (hs.separate.keepOthers m hm others)⟩
  exact ha.depth_le m hm v ((hmembers m hm).write_congr _ _ hagrees ▸ hv)

/-- The other members that were kept are the record's own, and fit. -/
theorem hasOwnOthers_keepOthers (hs : s.Faithful) {room : Nat} {others : Members}
    (h : ∀ u ∈ others, u.2.IsSorted ∧ u.2.depth ≤ room ∧ u.1 ∉ s.keys) (a : α) :
    s.HasOwnOthers (s.keepOthers others a) ∧
      ∀ u ∈ s.others (s.keepOthers others a), u.2.depth ≤ room := by
  by_cases hdropped : s.remainder = .dropped
  · have hnone : s.others (s.keepOthers others a) = [] := by simp only [Shape.others, hdropped]
    rw [HasOwnOthers, hnone]
    exact ⟨⟨rfl, fun _ hkey => absurd hkey List.not_mem_nil⟩,
      fun _ hu => absurd hu List.not_mem_nil⟩
  · rw [HasOwnOthers, (hs.lawful hdropped).others_keepOthers]
    have hsort : ∀ u ∈ others.sort, u.2.IsSorted ∧ u.2.depth ≤ room ∧ u.1 ∉ s.keys :=
      fun u hu => h u (Members.mem_of_mem_sort hu)
    refine ⟨⟨?_, fun key hkey => ?_⟩, fun u hu => (hsort u hu).2.1⟩
    · exact Value.isSorted_object_iff.2 ⟨Members.ascending_sort _, fun u hu => (hsort u hu).1⟩
    · obtain ⟨u, hu, rfl⟩ := List.mem_map.1 hkey
      exact (hsort u hu).2.2

/-- A record that was read from a text is saved: it needs one level more than its members. -/
theorem saves (hs : s.Faithful) {k : Nat} (hmembers : ∀ m ∈ s.members, m.Saves k)
    (hblank : ∀ m ∈ s.members, ∀ v, m.write s.blank = some v → v.depth ≤ k) :
    s.codec.Saves (k + 1) := by
  refine ⟨fun room hroom d a h => ?_, hs.writesDistinct hmembers⟩
  obtain ⟨room, rfl⟩ := Nat.exists_eq_add_of_le' (Nat.le_trans (Nat.le_add_left 1 k) hroom)
  have hroom : k ≤ room := Nat.le_of_succ_le_succ hroom
  -- at first only members with defaults write anything
  have hstart : s.Fits room s.blank :=
    ⟨hs.settled_blank, fun m hm v hv => Nat.le_trans (hblank m hm v hv) hroom⟩
  -- whichever way the record was written, it fits, and so do the members that it keeps
  obtain ⟨hfits, hown, hothers⟩ : s.Fits room a ∧ s.HasOwnOthers a ∧
      ∀ u ∈ s.others a, u.2.depth ≤ room := by
    cases d with
    | object ms stop =>
      obtain ⟨-, o', p, ho, hp, -, rfl⟩ := readObject_eq_ok_iff.1 h
      obtain rfl := Except.ok.inj ho
      obtain ⟨hfits, hothers⟩ :=
        hs.fits_of_readMembers hmembers hroom ms hp hstart fun _ hu =>
          absurd hu List.not_mem_nil
      exact ⟨hs.fits_keepOthers hmembers hfits p.others,
        hs.hasOwnOthers_keepOthers hothers p.record⟩
    | array ds stop =>
      cases hrem : s.remainder with
      | kept get set =>
        simp only [Shape.codec, Shape.read, hrem] at h
        cases h
      | dropped =>
        have hnone : s.others a = [] := by simp only [Shape.others, hrem]
        simp only [Shape.codec, Shape.read, hrem] at h
        obtain ⟨-, o', ho, hitems⟩ := readList_eq_ok_iff.1 h
        obtain rfl := Except.ok.inj ho
        rw [HasOwnOthers, hnone]
        exact ⟨hs.fits_of_readItems hmembers hroom s.members (List.Subset.refl _) ds hitems hstart,
          ⟨rfl, fun _ hkey => absurd hkey List.not_mem_nil⟩,
          fun _ hu => absurd hu List.not_mem_nil⟩
    | null | bool _ | number _ | string _ | broken _ _ _ =>
      simp only [Shape.codec, Shape.read] at h
      cases h
  refine ⟨hs.returns_of_settled hown hfits.settled, ?_⟩
  show (Value.object (s.entries a ++ s.others a)).depth ≤ room + 1
  rw [Value.depth_object_le_succ_iff]
  exact (forall_mem_write_iff (P := fun v => v.depth ≤ room)).2 ⟨hfits.depth_le, hothers⟩

end Faithful

end Shape

/-! ## Texts -/

namespace Codec

variable {c : Codec β}

/-- What was loaded is read back and fits into a text, if a text has room for what the codec needs
in any case. -/
theorem Saves.of_ofText {k : Nat} (hc : c.Saves k) (hk : k ≤ 127) {text : String} {b : β}
    (h : c.ofText text = .ok b) : c.Returns b ∧ (c.write b).depth ≤ 127 :=
  hc.fits 127 hk _ b (ofText_eq_ok_iff.1 h).1

/-- What is saved is loaded again. -/
theorem ofText_toText (hc : ReadsAlike c.read) (hdistinct : c.WritesDistinct) {b : β}
    (hreturns : c.Returns b) (hprints : c.Prints 127 b) : c.ofText (c.toText b) = .ok b := by
  -- the text that is printed has the draft of what was written
  have htext : Draft.ofText (c.toText b) = ((c.write b).draft, none) :=
    Json.Draft.ofText_pretty hprints.2
  have hread : (c.write b).draft.read .wholeText = .ok (c.write b).sorted :=
    Value.read_draft_of_depth_le _ 127 hprints.1
  -- the text has the members as they were written, and its value has them sorted
  have hmatch : Draft.Matches .value .wholeText (c.write b).sorted.draft (c.write b).draft :=
    .of_depth_le (hdistinct b hreturns) (Draft.read_value_of_read hread)
      (Draft.depth_le_of_read hread)
  rw [ofText_eq_ok_iff, htext]
  exact ⟨hc .value .wholeText _ _ hmatch b hreturns, rfl⟩

end Codec

end Dashboards
