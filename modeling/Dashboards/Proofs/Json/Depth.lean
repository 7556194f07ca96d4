import Dashboards.Proofs.Json.Printing

/-!
# Depth of values

A text may be nested only so deep.  What was read from a text is nested no deeper than the text, and
a value that is nested no deeper than there is room for can be read from its draft.

## Key results

- `Draft.depth_le_of_read`, `Value.read_draft_of_depth_le`: depth and room
- `Value.Printable`: values whose text can be read back
-/

namespace Dashboards.Json

namespace Value

/-! ## Depth -/

mutual

/-- How many lists and objects a value has one in the other. -/
def depth : Value → Nat
  | .array items => itemsDepth items + 1
  | .object ms => membersDepth ms + 1
  | _ => 0

/-- The greatest depth of items. -/
def itemsDepth : List Value → Nat
  | [] => 0
  | v :: vs => max v.depth (itemsDepth vs)

/-- The greatest depth of the values of members. -/
def membersDepth : List (String × Value) → Nat
  | [] => 0
  | (_, v) :: ms => max v.depth (membersDepth ms)

end

/-- A list fits where each of its items fits one level further in. -/
@[simp] theorem depth_array_le_succ_iff {vs : List Value} {n : Nat} :
    (array vs).depth ≤ n + 1 ↔ ∀ v ∈ vs, v.depth ≤ n := by
  rw [depth, Nat.add_le_add_iff_right]
  induction vs with
  | nil => simp [itemsDepth]
  | cons v vs ih => rw [itemsDepth, Nat.max_le, ih, List.forall_mem_cons]

/-- An object fits where the value of each of its members fits one level further in. -/
@[simp] theorem depth_object_le_succ_iff {ms : Members} {n : Nat} :
    (object ms).depth ≤ n + 1 ↔ ∀ m ∈ ms, m.2.depth ≤ n := by
  rw [depth, Nat.add_le_add_iff_right]
  induction ms with
  | nil => simp [membersDepth]
  | cons m ms ih => rw [membersDepth, Nat.max_le, ih, List.forall_mem_cons]

/-- Nothing with parts fits where there is no room. -/
theorem depth_array_pos (vs : List Value) : 0 < (array vs).depth := Nat.succ_pos _

/-- An object needs room as well, even an empty one. -/
theorem depth_object_pos (ms : Members) : 0 < (object ms).depth := Nat.succ_pos _

/-! ## Doubles -/

/-- The doubles of a list are those of its items. -/
theorem mem_doubles_array {x : Decimal.Binary64} {vs : List Value} :
    x ∈ (array vs).doubles ↔ ∃ v ∈ vs, x ∈ v.doubles := by
  rw [doubles]
  induction vs with
  | nil => simp [itemDoubles]
  | cons v vs ih => simp [itemDoubles, ih]

/-- The doubles of an object are those of the values of its members. -/
theorem mem_doubles_object {x : Decimal.Binary64} {ms : Members} :
    x ∈ (object ms).doubles ↔ ∃ m ∈ ms, x ∈ m.2.doubles := by
  rw [doubles]
  induction ms with
  | nil => simp [memberDoubles]
  | cons m ms ih => simp [memberDoubles, ih]

/-! ## Values whose text can be read back -/

/-- The text of a value can be read back where there is so much room: the value is nested no deeper,
and its doubles are read back. -/
def Printable (room : Nat) (v : Value) : Prop :=
  v.depth ≤ room ∧ ∀ x ∈ v.doubles, Rereads x

/-- The word `null` needs no room. -/
@[simp] theorem printable_null (room : Nat) : null.Printable room :=
  ⟨Nat.zero_le _, fun _ hx => nomatch hx⟩

/-- Truth values need no room. -/
@[simp] theorem printable_bool (room : Nat) (b : Bool) : (bool b).Printable room :=
  ⟨Nat.zero_le _, fun _ hx => nomatch hx⟩

/-- Integers need no room, and they are no doubles. -/
@[simp] theorem printable_integer (room : Nat) (n : Int) (fits : FitsInteger n) :
    (number (.integer n fits)).Printable room :=
  ⟨Nat.zero_le _, fun _ hx => nomatch hx⟩

/-- Strings need no room. -/
@[simp] theorem printable_string (room : Nat) (s : String) : (string s).Printable room :=
  ⟨Nat.zero_le _, fun _ hx => nomatch hx⟩

/-- A list can be printed if each of its items can, with one level less. -/
@[simp] theorem printable_array_iff {room : Nat} {vs : List Value} :
    (array vs).Printable (room + 1) ↔ ∀ v ∈ vs, v.Printable room := by
  unfold Printable
  rw [depth_array_le_succ_iff]
  simp only [mem_doubles_array]
  exact ⟨fun h v hv => ⟨h.1 v hv, fun x hx => h.2 x ⟨v, hv, hx⟩⟩,
    fun h => ⟨fun v hv => (h v hv).1, fun x ⟨v, hv, hx⟩ => (h v hv).2 x hx⟩⟩

/-- An object can be printed if the value of each member can, with one level less. -/
@[simp] theorem printable_object_iff {room : Nat} {ms : Members} :
    (object ms).Printable (room + 1) ↔ ∀ m ∈ ms, m.2.Printable room := by
  unfold Printable
  rw [depth_object_le_succ_iff]
  simp only [mem_doubles_object]
  exact ⟨fun h m hm => ⟨h.1 m hm, fun x hx => h.2 x ⟨m, hm, hx⟩⟩,
    fun h => ⟨fun m hm => (h m hm).1, fun x ⟨m, hm, hx⟩ => (h m hm).2 x hx⟩⟩

/-! ## Reading where there is room -/

mutual

/-- A value that fits is read from its draft. -/
theorem read_draft_of_depth_le : (v : Value) → (room : Nat) → v.depth ≤ room →
    v.draft.read (.text room) = .ok v.sorted
  | .null, _, _ | .bool _, _, _ | .number _, _, _ | .string _, _, _ => rfl
  | .array vs, 0, h => absurd (depth_array_pos vs) (Nat.not_lt_of_le h)
  -- every list and every object uses up one level of the room
  | .array vs, room + 1, h => by
    have hitems := readItems_of_depth_le vs room (depth_array_le_succ_iff.1 h)
    rw [draft, Draft.read, Origin.inside, sorted]
    simp only [hitems]
  | .object ms, 0, h => absurd (depth_object_pos ms) (Nat.not_lt_of_le h)
  | .object ms, room + 1, h => by
    have hmembers := readMembers_of_depth_le ms room (depth_object_le_succ_iff.1 h)
    rw [draft, Draft.read, Origin.inside, sorted]
    simp only [hmembers]

/-- Items that fit are read from their drafts, in order. -/
theorem readItems_of_depth_le : (vs : List Value) → (room : Nat) → (∀ v ∈ vs, v.depth ≤ room) →
    Draft.readItems (.text room) (draftItems vs) = .ok (sortedItems vs)
  | [], _, _ => rfl
  | v :: vs, room, h => by
    obtain ⟨hv, hvs⟩ := List.forall_mem_cons.1 h
    rw [draftItems, Draft.readItems, read_draft_of_depth_le v room hv]
    simp only [readItems_of_depth_le vs room hvs]
    rfl

/-- Members whose values fit are read from their drafts, in order. -/
theorem readMembers_of_depth_le : (ms : List (String × Value)) → (room : Nat) →
    (∀ m ∈ ms, m.2.depth ≤ room) →
    Draft.readMembers (.text room) (draftMembers ms) = .ok (sortedMembers ms)
  | [], _, _ => rfl
  | (_, v) :: ms, room, h => by
    obtain ⟨hv, hms⟩ := List.forall_mem_cons.1 h
    rw [draftMembers, Draft.readMembers, read_draft_of_depth_le v room hv]
    simp only [readMembers_of_depth_le ms room hms]
    rfl

end

end Value

namespace Draft

/-- What was read from a text is nested no deeper than there was room for. -/
theorem depth_le_of_read {room : Nat} {d : Draft} {v : Value} (h : d.read (.text room) = .ok v) :
    v.depth ≤ room := by
  -- the room belongs to the origin, and there is less of it inside of lists and objects
  refine Hereditary.of_read (P := fun o _ v => ∀ room, o = .text room → v.depth ≤ room) ⟨?_, ?_, ?_⟩
    d h room rfl
  -- scalars have no depth, whatever room there is
  · intro o v hv room _
    cases v with
    | null | bool _ | number _ | string _ => exact Nat.zero_le _
    | array _ | object _ => exact nomatch hv
  · rintro o o' ds vs ho hds room rfl
    -- without room nothing with parts is read, so there is a level to go into
    cases room with
    | zero => exact nomatch ho
    | succ room =>
      rw [Value.depth_array_le_succ_iff]
      exact forall_mem_right hds fun _ _ h => h.2 room (Except.ok.inj ho).symm
  · rintro o o' ms vs ho hms room rfl
    cases room with
    | zero => exact nomatch ho
    | succ room =>
      -- sorting the members does not change which values there are
      have hvs : ∀ m ∈ vs, m.2.depth ≤ room :=
        forall_mem_right hms fun _ _ h => h.2.2 room (Except.ok.inj ho).symm
      rw [Value.depth_object_le_succ_iff]
      exact fun m hm => hvs m (Members.mem_of_mem_sort hm)

end Draft

/-! ## Distinct names -/

namespace Value

/-- The names of the draft of an object are the keys of the object. -/
theorem names_draftMembers (ms : Members) : Draft.names (draftMembers ms) = ms.keys := by
  induction ms with
  | nil => rfl
  | cons m ms ih =>
    simp only [Draft.names, Members.keys, List.map_cons] at ih ⊢
    rw [draftMembers, List.filterMap_cons, ih]
    rfl

/-- Names in a list are distinct if they are in each item. -/
@[simp] theorem hasDistinctNames_draft_array_iff {vs : List Value} :
    (array vs).draft.hasDistinctNames ↔ ∀ v ∈ vs, v.draft.hasDistinctNames := by
  rw [draft, Draft.hasDistinctNames_array_iff]
  induction vs with
  | nil => simp [draftItems]
  | cons v vs ih => rw [draftItems, List.forall_mem_cons, ih, List.forall_mem_cons]

/-- Names in an object are distinct if its keys are, and the names in each of its values. -/
@[simp] theorem hasDistinctNames_draft_object_iff {ms : Members} :
    (object ms).draft.hasDistinctNames ↔
      ms.keys.Nodup ∧ ∀ m ∈ ms, m.2.draft.hasDistinctNames := by
  rw [draft, Draft.hasDistinctNames_object_iff, names_draftMembers]
  have hmembers : (∀ m ∈ draftMembers ms, m.2.hasDistinctNames) ↔
      ∀ m ∈ ms, m.2.draft.hasDistinctNames := by
    induction ms with
    | nil => simp [draftMembers]
    | cons m ms ih => rw [draftMembers, List.forall_mem_cons, ih, List.forall_mem_cons]
  rw [hmembers]

mutual

/-- A sorted value has distinct names. -/
theorem hasDistinctNames_of_isSorted : (v : Value) → v.IsSorted → v.draft.hasDistinctNames
  | .null, _ | .bool _, _ | .number _, _ | .string _, _ => rfl
  | .array vs, h =>
    hasDistinctNames_draft_array_iff.2 (itemsHaveDistinctNames vs (isSorted_array_iff.1 h))
  | .object ms, h => by
    -- keys in strictly ascending order are distinct
    obtain ⟨hms, hvs⟩ := isSorted_object_iff.1 h
    exact hasDistinctNames_draft_object_iff.2 ⟨hms.nodup_keys, membersHaveDistinctNames ms hvs⟩

/-- Sorted items have distinct names. -/
theorem itemsHaveDistinctNames : (vs : List Value) → (∀ v ∈ vs, v.IsSorted) →
    ∀ v ∈ vs, v.draft.hasDistinctNames
  | [], _ => fun _ hv => nomatch hv
  | v :: vs, h => by
    obtain ⟨hv, hvs⟩ := List.forall_mem_cons.1 h
    exact List.forall_mem_cons.2
      ⟨hasDistinctNames_of_isSorted v hv, itemsHaveDistinctNames vs hvs⟩

/-- Sorted values of members have distinct names. -/
theorem membersHaveDistinctNames : (ms : List (String × Value)) → (∀ m ∈ ms, m.2.IsSorted) →
    ∀ m ∈ ms, m.2.draft.hasDistinctNames
  | [], _ => fun _ hm => nomatch hm
  | (_, v) :: ms, h => by
    obtain ⟨hv, hms⟩ := List.forall_mem_cons.1 h
    exact List.forall_mem_cons.2
      ⟨hasDistinctNames_of_isSorted v hv, membersHaveDistinctNames ms hms⟩

end

end Value

end Dashboards.Json
