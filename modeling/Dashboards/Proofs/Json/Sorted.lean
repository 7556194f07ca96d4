import Dashboards.Json.Draft
import Mathlib.Data.List.Nodup
import Mathlib.Data.String.Basic

/-!
# Sorted values

Sorting the members of an object gives each key its place in ascending order and keeps the last
member of each key.  So sorted members are a finite map, and looking up a key in them tells all
about them.  A value that is sorted at every level is what reading its own draft gives back.

## Key results

- `Members.ascending_sort`, `Members.sort_eq_self`: sorting gives ascending keys and leaves these
  alone
- `Members.get?_sort`: sorting keeps what is found under a key
- `Value.isSorted_sorted`: sorting once is enough
- `Value.read_draft`: reading the draft of a value sorts the value
-/

namespace Dashboards.Json

namespace Members

/-! ## Looking up keys -/

/-- A key is looked up in the first member, and only then in the others. -/
theorem get?_cons (k : String) (v : Value) (ms : Members) (key : String) :
    get? ((k, v) :: ms) key = if key = k then some v else get? ms key := by
  rw [get?, List.lookup_cons]
  by_cases h : key = k
  · rw [if_pos h, beq_iff_eq.2 h]
  · rw [if_neg h, beq_eq_false_iff_ne.2 h]
    rfl

/-- A key is looked up in the second half if the first has none of it. -/
theorem get?_append (ms ms' : Members) (key : String) :
    get? (ms ++ ms') key = (get? ms key).or (get? ms' key) :=
  List.lookup_append

/-- A key is found if it occurs. -/
theorem get?_eq_none_iff {ms : Members} {key : String} : get? ms key = none ↔ key ∉ ms.keys := by
  rw [get?, List.lookup_eq_none_iff, keys, List.mem_map]
  constructor
  · rintro h ⟨m, hm, he⟩
    exact bne_iff_ne.1 (h m hm) he.symm
  · exact fun h m hm => bne_iff_ne.2 fun he => h ⟨m, hm, he.symm⟩

/-- A key that does not occur is not found. -/
theorem get?_eq_none {ms : Members} {key : String} (h : key ∉ ms.keys) : get? ms key = none :=
  get?_eq_none_iff.2 h

/-- If no key occurs twice, a member is found under its key. -/
theorem get?_eq_some_iff {ms : Members} (h : ms.keys.Nodup) {key : String} {v : Value} :
    get? ms key = some v ↔ (key, v) ∈ ms := by
  induction ms with
  | nil => exact ⟨fun h => (nomatch h), fun h => (nomatch h)⟩
  | cons m ms ih =>
    obtain ⟨k, u⟩ := m
    obtain ⟨hk, hms⟩ := List.nodup_cons.1 h
    rw [get?_cons, List.mem_cons, Prod.mk.injEq]
    by_cases he : key = k
    · subst he
      -- the key is taken, so no member after the first one has it
      have hnot : (key, v) ∉ ms := fun hm => hk (List.mem_map.2 ⟨(key, v), hm, rfl⟩)
      rw [if_pos rfl, Option.some_inj]
      exact ⟨fun h => .inl ⟨rfl, h.symm⟩, fun h => (h.resolve_right hnot).2.symm⟩
    · rw [if_neg he, ih hms]
      exact ⟨.inr, fun h => h.resolve_left fun h => he h.1⟩

/-- If no key occurs twice, the order of the members makes no difference. -/
theorem get?_reverse {ms : Members} (h : ms.keys.Nodup) (key : String) :
    get? ms.reverse key = get? ms key := by
  have hrev : keys ms.reverse = ms.keys.reverse := List.map_reverse
  have hnodup : (keys ms.reverse).Nodup := hrev ▸ List.nodup_reverse.2 h
  refine Option.ext fun v => ?_
  rw [get?_eq_some_iff hnodup, get?_eq_some_iff h, List.mem_reverse]

/-- Members chosen by their keys. -/
theorem get?_filter (p : String → Bool) (ms : Members) (key : String) :
    get? (ms.filter fun m => p m.1) key = if p key then get? ms key else none := by
  induction ms with
  | nil => exact (ite_self none).symm
  | cons m ms ih =>
    obtain ⟨k, v⟩ := m
    by_cases hk : p k
    · rw [List.filter_cons_of_pos (by exact hk), get?_cons, get?_cons, ih]
      by_cases he : key = k
      · rw [if_pos he, if_pos he, he, if_pos hk]
      · rw [if_neg he, if_neg he]
    · rw [List.filter_cons_of_neg (by exact hk), ih, get?_cons]
      by_cases he : key = k
      · rw [he, if_neg hk, if_neg hk]
      · rw [if_neg he]

/-- Members with their values changed. -/
theorem get?_map (f : Value → Value) (ms : Members) (key : String) :
    get? (ms.map fun m => (m.1, f m.2)) key = (get? ms key).map f := by
  induction ms with
  | nil => rfl
  | cons m ms ih =>
    rw [List.map_cons, get?_cons, get?_cons, ih]
    split <;> rfl

/-! ## Sorting -/

/-- Members with their keys in ascending order, each only once. -/
def Ascending (ms : Members) : Prop := ms.Pairwise fun a b => a.1 < b.1

/-- Ascending keys are distinct. -/
theorem Ascending.nodup_keys {ms : Members} (h : ms.Ascending) : ms.keys.Nodup :=
  List.pairwise_map.2 (h.imp fun hab => hab.ne)

/-- Sorted members with the same values under all keys are the same. -/
theorem Ascending.ext {ms ms' : Members} (h : ms.Ascending) (h' : ms'.Ascending)
    (hget : ∀ key, get? ms key = get? ms' key) : ms = ms' := by
  have hmem : ∀ m, m ∈ ms ↔ m ∈ ms' := fun m => by
    rw [← get?_eq_some_iff h.nodup_keys, ← get?_eq_some_iff h'.nodup_keys, hget]
  -- they have the same members, and there is only one order for them
  have hperm : ms.Perm ms' :=
    (List.perm_ext_iff_of_nodup h.nodup_keys.of_map h'.nodup_keys.of_map).2 hmem
  refine hperm.eq_of_pairwise (fun m m' _ _ hlt hgt => ?_) h h'
  exact absurd hgt hlt.asymm

/-- A member that was put in is found, and nothing else has changed. -/
theorem get?_insert (key : String) (value : Value) (ms : Members) (k : String) :
    get? (insert key value ms) k = if k = key then some value else get? ms k := by
  induction ms with
  | nil => exact get?_cons key value [] k
  | cons m ms ih =>
    obtain ⟨k', v⟩ := m
    rw [insert]
    -- it goes before a greater key, in the place of an equal one, or further back
    split
    · exact get?_cons key value _ k
    · split
      next h => rw [get?_cons, get?_cons, ← h]; split <;> rfl
      next h =>
        rw [get?_cons, get?_cons, ih]
        by_cases hk : k = k'
        · rw [if_pos hk, if_pos hk, if_neg fun he => h (he.symm.trans hk)]
        · rw [if_neg hk, if_neg hk]

/-- Putting in a member adds no other one. -/
theorem mem_insert {key : String} {value : Value} {ms : Members} {m : String × Value}
    (h : m ∈ insert key value ms) : m = (key, value) ∨ m ∈ ms := by
  induction ms with
  | nil => exact .inl (List.mem_singleton.1 h)
  | cons m' ms ih =>
    rw [insert] at h
    split at h
    · exact List.mem_cons.1 h
    · split at h
      · exact (List.mem_cons.1 h).imp_right (List.mem_cons_of_mem _)
      · rcases List.mem_cons.1 h with rfl | h
        · exact .inr List.mem_cons_self
        · exact (ih h).imp_right (List.mem_cons_of_mem _)

/-- Putting in a member keeps the keys in order. -/
theorem ascending_insert (key : String) (value : Value) {ms : Members} (h : ms.Ascending) :
    (insert key value ms).Ascending := by
  induction ms with
  | nil => exact List.pairwise_singleton _ _
  | cons m ms ih =>
    obtain ⟨k, v⟩ := m
    obtain ⟨hm, hms⟩ := List.pairwise_cons.1 h
    rw [insert]
    split
    next hlt =>
      -- it comes before all others
      refine List.pairwise_cons.2 ⟨fun m' hm' => ?_, h⟩
      rcases List.mem_cons.1 hm' with rfl | hm'
      · exact hlt
      · exact hlt.trans (hm m' hm')
    next hnlt =>
      split
      next heq => exact List.pairwise_cons.2 ⟨fun m' hm' => heq ▸ hm m' hm', hms⟩
      next hne =>
        -- it comes somewhere after the first one
        refine List.pairwise_cons.2 ⟨fun m' hm' => ?_, ih hms⟩
        rcases mem_insert hm' with rfl | hm'
        · exact lt_of_le_of_ne (not_lt.1 hnlt) (Ne.symm hne)
        · exact hm m' hm'

/-- Putting in members one after the other keeps the keys in order. -/
theorem ascending_foldl_insert (ms : Members) {sorted : Members} (h : sorted.Ascending) :
    (ms.foldl (fun sorted m => sorted.insert m.1 m.2) sorted).Ascending := by
  induction ms generalizing sorted with
  | nil => exact h
  | cons m ms ih => exact ih (ascending_insert m.1 m.2 h)

/-- Sorted members have their keys in ascending order. -/
theorem ascending_sort (ms : Members) : ms.sort.Ascending :=
  ascending_foldl_insert ms .nil

/-- Putting in members one after the other, the last one of a key counts. -/
theorem get?_foldl_insert (ms sorted : Members) (key : String) :
    get? (ms.foldl (fun sorted m => sorted.insert m.1 m.2) sorted) key =
      (get? ms.reverse key).or (get? sorted key) := by
  induction ms generalizing sorted with
  | nil => rfl
  | cons m ms ih =>
    obtain ⟨k, v⟩ := m
    -- the first member is put in first, so all that come after it prevail
    rw [List.foldl_cons, ih, get?_insert, List.reverse_cons, get?_append, get?_cons,
      Option.or_assoc]
    split <;> rfl

/-- Sorting keeps what is found under a key, if no key occurs twice. -/
theorem get?_sort {ms : Members} (h : ms.keys.Nodup) (key : String) :
    get? ms.sort key = get? ms key := by
  rw [sort, get?_foldl_insert, get?_reverse h]
  exact Option.or_none

/-- Members put in are new or were there before. -/
theorem mem_foldl_insert {ms sorted : Members} {m : String × Value}
    (h : m ∈ ms.foldl (fun sorted m => sorted.insert m.1 m.2) sorted) : m ∈ ms ∨ m ∈ sorted := by
  induction ms generalizing sorted with
  | nil => exact .inr h
  | cons m' ms ih =>
    rcases ih h with h | h
    · exact .inl (List.mem_cons_of_mem _ h)
    · exact (mem_insert h).imp_left (fun he => List.mem_cons.2 (.inl he))

/-- Sorting makes up no members. -/
theorem mem_of_mem_sort {ms : Members} {m : String × Value} (h : m ∈ ms.sort) : m ∈ ms :=
  (mem_foldl_insert h).resolve_right (fun h => (nomatch h))

/-- A member whose key comes after all others is put in at the end. -/
theorem insert_eq_append {key : String} {value : Value} {ms : Members}
    (h : ∀ m ∈ ms, m.1 < key) : insert key value ms = ms ++ [(key, value)] := by
  induction ms with
  | nil => rfl
  | cons m ms ih =>
    obtain ⟨k, v⟩ := m
    rw [List.forall_mem_cons] at h
    rw [insert, if_neg h.1.not_gt, if_neg h.1.ne', ih h.2, List.cons_append]

/-- Members in ascending order are put in at the end, one after the other. -/
theorem foldl_insert_eq_append {ms sorted : Members} (h : Ascending (sorted ++ ms)) :
    ms.foldl (fun sorted m => sorted.insert m.1 m.2) sorted = sorted ++ ms := by
  induction ms generalizing sorted with
  | nil => exact (List.append_nil sorted).symm
  | cons m ms ih =>
    -- whatever is sorted already comes before the rest
    have hlt : ∀ m' ∈ sorted, m'.1 < m.1 := fun m' hm' =>
      (List.pairwise_append.1 h).2.2 m' hm' m List.mem_cons_self
    have happ : sorted ++ m :: ms = sorted ++ [m] ++ ms := by rw [List.append_assoc]; rfl
    rw [List.foldl_cons, insert_eq_append hlt, happ]
    exact ih (happ ▸ h)

/-- Sorting leaves sorted members as they are. -/
theorem sort_eq_self {ms : Members} (h : ms.Ascending) : ms.sort = ms :=
  foldl_insert_eq_append h

end Members

/-! ## Values -/

/-- Items are sorted one by one. -/
theorem Value.sortedItems_eq_map (items : List Value) :
    Value.sortedItems items = items.map Value.sorted := by
  induction items with
  | nil => rfl
  | cons v items ih => rw [Value.sortedItems, ih, List.map_cons]

/-- Only `null` has the draft of `null`. -/
theorem Value.draft_ne_null {v : Value} (h : v ≠ .null) : v.draft ≠ .null := by
  cases v with
  | null => exact absurd rfl h
  | bool _ | number _ | string _ | array _ | object _ => exact Draft.noConfusion

/-- The drafts of items are made one by one. -/
theorem Value.draftItems_eq_map (items : List Value) :
    Value.draftItems items = items.map Value.draft := by
  induction items with
  | nil => rfl
  | cons v items ih => rw [Value.draftItems, ih, List.map_cons]

/-- The drafts of members are made one by one. -/
theorem Value.draftMembers_eq_map (ms : Members) :
    Value.draftMembers ms = ms.map fun m => (.ok m.1, m.2.draft) := by
  induction ms with
  | nil => rfl
  | cons m ms ih => rw [Value.draftMembers, ih, List.map_cons]

/-- The values of members are sorted one by one, under the same keys. -/
theorem Value.sortedMembers_eq_map (ms : Members) :
    Value.sortedMembers ms = ms.map fun m => (m.1, m.2.sorted) := by
  induction ms with
  | nil => rfl
  | cons m ms ih => rw [Value.sortedMembers, ih, List.map_cons]

/-- The members of every object in a value are sorted: there is nothing left to sort. -/
def Value.IsSorted (v : Value) : Prop := v.sorted = v

namespace Value

/-- A list is sorted if its items are. -/
theorem isSorted_array_iff {items : List Value} :
    (array items).IsSorted ↔ ∀ v ∈ items, v.IsSorted := by
  have hmap : items.map sorted = items ↔ ∀ v ∈ items, v.IsSorted := by
    constructor
    · exact fun h => List.map_inj_left.1 (h.trans (List.map_id items).symm)
    · exact fun h => (List.map_inj_left.2 h).trans (List.map_id items)
  rw [IsSorted, sorted, sortedItems_eq_map, array.injEq, hmap]

/-- An object is sorted if its keys ascend and the values of its members are sorted. -/
theorem isSorted_object_iff {ms : Members} :
    (object ms).IsSorted ↔ ms.Ascending ∧ ∀ m ∈ ms, m.2.IsSorted := by
  rw [IsSorted, sorted, sortedMembers_eq_map, object.injEq]
  constructor
  · intro h
    have hms : ms.Ascending := h ▸ Members.ascending_sort _
    -- sorting the values left the keys alone, so it was all that happened
    have hmap : Members.Ascending (ms.map fun m => (m.1, m.2.sorted)) := List.pairwise_map.2 hms
    rw [Members.sort_eq_self hmap] at h
    refine ⟨hms, fun m hm => ?_⟩
    exact (Prod.mk.inj (List.map_inj_left.1 (h.trans (List.map_id ms).symm) m hm)).2
  · rintro ⟨hms, hvs⟩
    have hmap : ms.map (fun m => (m.1, m.2.sorted)) = ms := by
      refine (List.map_inj_left.2 fun m hm => ?_).trans (List.map_id ms)
      rw [hvs m hm]
      rfl
    rw [hmap, Members.sort_eq_self hms]

/-- What is found in a sorted object is sorted. -/
theorem IsSorted.get? {ms : Members} (h : (object ms).IsSorted) {key : String} {v : Value}
    (hv : ms.get? key = some v) : v.IsSorted := by
  obtain ⟨hms, hvs⟩ := isSorted_object_iff.1 h
  exact hvs _ ((Members.get?_eq_some_iff hms.nodup_keys).1 hv)

mutual

/-- Sorting once is enough. -/
theorem isSorted_sorted : (v : Value) → v.sorted.IsSorted
  | .null | .bool _ | .number _ | .string _ => rfl
  | .array items => isSorted_array_iff.2 (isSorted_of_mem_sortedItems items)
  | .object ms => isSorted_object_iff.2 ⟨Members.ascending_sort _, fun m hm =>
      isSorted_of_mem_sortedMembers ms m (Members.mem_of_mem_sort hm)⟩

/-- Items that were sorted are sorted. -/
theorem isSorted_of_mem_sortedItems :
    (items : List Value) → ∀ v ∈ sortedItems items, v.IsSorted
  | [] => fun _ hv => (nomatch hv)
  | v :: items => List.forall_mem_cons.2 ⟨isSorted_sorted v, isSorted_of_mem_sortedItems items⟩

/-- Values of members that were sorted are sorted. -/
theorem isSorted_of_mem_sortedMembers :
    (ms : List (String × Value)) → ∀ m ∈ sortedMembers ms, m.2.IsSorted
  | [] => fun _ hm => (nomatch hm)
  | (_, v) :: ms => List.forall_mem_cons.2 ⟨isSorted_sorted v, isSorted_of_mem_sortedMembers ms⟩

end

/-! ## Drafts -/

mutual

/-- Reading the draft of a value sorts the value. -/
theorem read_draft : (v : Value) → v.draft.read .value = .ok v.sorted
  | .null | .bool _ | .number _ | .string _ => rfl
  | .array items => by
    simp only [draft, Draft.read, Origin.inside, readItems_draftItems items]
    rfl
  | .object ms => by
    simp only [draft, Draft.read, Origin.inside, readMembers_draftMembers ms]
    rfl

/-- Reading the drafts of items sorts the items. -/
theorem readItems_draftItems :
    (items : List Value) → Draft.readItems .value (draftItems items) = .ok (sortedItems items)
  | [] => rfl
  | v :: items => by
    simp only [draftItems, Draft.readItems, read_draft v, readItems_draftItems items]
    rfl

/-- Reading the drafts of members sorts their values; the keys are put in order afterwards. -/
theorem readMembers_draftMembers :
    (ms : List (String × Value)) →
      Draft.readMembers .value (draftMembers ms) = .ok (sortedMembers ms)
  | [] => rfl
  | (_, v) :: ms => by
    simp only [draftMembers, Draft.readMembers, read_draft v, readMembers_draftMembers ms]
    rfl

end

/-- Reading the draft of a sorted value gives the value back. -/
theorem IsSorted.read_draft {v : Value} (h : v.IsSorted) : v.draft.read .value = .ok v :=
  (Value.read_draft v).trans (congrArg Except.ok h)

end Value

end Dashboards.Json
