import Dashboards.Json.Reader
import Dashboards.Proofs.Json.Sorted
import Mathlib.Data.List.Perm.Basic

/-!
# Drafts that have a value

A draft has a value if nothing in it is at fault and it is not nested too deep.  If no object in it
has two members of one name, its value is the same however the members of its objects are ordered.

## Key results

- `Draft.Hereditary.of_read`: what is handed up from the parts of a draft that has a value
- `Draft.isSorted_of_read`, `Draft.skip_of_read`: the value is sorted, and the draft can be skipped
- `Draft.Reorders.read_eq_ok`: members in another order have the same value
-/

namespace Dashboards.Json

/-! ## Sorting -/

namespace Members

/-- Members with different keys can be put in in either order. -/
theorem insert_comm {ms : Members} (h : ms.Ascending) {key key' : String} (hne : key ≠ key')
    (v v' : Value) :
    insert key v (insert key' v' ms) = insert key' v' (insert key v ms) := by
  refine Ascending.ext (ascending_insert _ _ (ascending_insert _ _ h))
    (ascending_insert _ _ (ascending_insert _ _ h)) fun k => ?_
  simp only [get?_insert]
  by_cases hk : k = key
  · subst hk
    rw [if_pos rfl, if_neg hne, if_pos rfl]
  · rw [if_neg hk, if_neg hk]

/-- A member that comes last is put in last. -/
theorem sort_append_singleton (ms : Members) (key : String) (v : Value) :
    sort (ms ++ [(key, v)]) = insert key v ms.sort := by
  unfold sort
  rw [List.foldl_append]
  rfl

/-- If no key occurs twice, the order of the members makes no difference to the sorted ones. -/
theorem sort_eq_of_perm {ms ms' : Members} (h : ms.Perm ms') (hnodup : ms.keys.Nodup) :
    ms.sort = ms'.sort := by
  have hnodup' : ms'.keys.Nodup := (h.map Prod.fst).nodup_iff.1 hnodup
  -- both are in ascending order, so it is enough to look up each key
  refine Ascending.ext (ascending_sort ms) (ascending_sort ms') fun key => ?_
  rw [get?_sort hnodup, get?_sort hnodup']
  refine Option.ext fun v => ?_
  rw [get?_eq_some_iff hnodup, get?_eq_some_iff hnodup', h.mem_iff]

/-- If no key occurs twice, sorting only changes the order. -/
theorem sort_perm {ms : Members} (h : ms.keys.Nodup) : ms.sort.Perm ms := by
  have hsort := (ascending_sort ms).nodup_keys
  refine (List.perm_ext_iff_of_nodup hsort.of_map h.of_map).2 fun m => ?_
  rw [← get?_eq_some_iff hsort, ← get?_eq_some_iff h, get?_sort h]

end Members

/-! ## Values of drafts -/

/-- A mapped outcome is good if there was a good one to map. -/
theorem map_eq_ok_iff {ε α β : Type} {f : α → β} {x : Except ε α} {b : β} :
    x.map f = .ok b ↔ ∃ a, x = .ok a ∧ f a = b := by
  cases x <;> simp [Except.map]

/-- A value without parts. -/
def Value.isScalar : Value → Bool
  | .array _ | .object _ => false
  | _ => true

namespace Draft

/-- Items are read one by one. -/
theorem readItems_eq_ok_iff {o : Origin} {ds : List Draft} {vs : List Value} :
    readItems o ds = .ok vs ↔ List.Forall₂ (fun d v => d.read o = .ok v) ds vs := by
  induction ds generalizing vs with
  | nil =>
    rw [readItems, List.forall₂_nil_left_iff]
    exact ⟨fun h => (Except.ok.inj h).symm, fun h => h ▸ rfl⟩
  | cons d ds ih =>
    rw [readItems, List.forall₂_cons_left_iff]
    cases hd : d.read o with
    | error f => simp
    | ok v =>
      simp only [map_eq_ok_iff, ih, Except.ok.injEq, exists_and_left, exists_eq_left']
      exact exists_congr fun us => and_congr_right fun _ => eq_comm

/-- Members are read one by one, each with its key. -/
theorem readMembers_eq_ok_iff {o : Origin} {ms : DraftMembers} {vs : Members} :
    readMembers o ms = .ok vs ↔
      List.Forall₂ (fun m u => m.1 = .ok u.1 ∧ m.2.read o = .ok u.2) ms vs := by
  induction ms generalizing vs with
  | nil =>
    rw [readMembers, List.forall₂_nil_left_iff]
    exact ⟨fun h => (Except.ok.inj h).symm, fun h => h ▸ rfl⟩
  | cons m ms ih =>
    obtain ⟨key, d⟩ := m
    rw [List.forall₂_cons_left_iff]
    -- a key at fault is found before the value that it belongs to is looked at
    cases key with
    | error f => simp [readMembers]
    | ok key =>
      rw [readMembers]
      cases hd : d.read o with
      | error f => simp
      | ok v =>
        simp only [map_eq_ok_iff, ih, Except.ok.injEq]
        constructor
        · rintro ⟨us, hus, rfl⟩
          exact ⟨(key, v), us, ⟨rfl, rfl⟩, hus, rfl⟩
        · rintro ⟨⟨key', v'⟩, us, ⟨hkey, hv⟩, hus, rfl⟩
          cases hkey
          cases hv
          exact ⟨us, hus, rfl⟩

/-- A list has a value if it was closed, there is room for it and each item has a value further
in. -/
theorem read_array_eq_ok_iff {o : Origin} {ds : List Draft} {stop : Option Fault} {v : Value} :
    read o (.array ds stop) = .ok v ↔ stop = none ∧ ∃ o' vs, o.inside = .ok o' ∧
      List.Forall₂ (fun d v => d.read o' = .ok v) ds vs ∧ v = .array vs := by
  rw [read]
  -- first the room, then the items, and the missing bracket last
  cases ho : o.inside with
  | error f => simp
  | ok o' =>
    simp only [← readItems_eq_ok_iff]
    cases hds : readItems o' ds with
    | error f => simp [hds]
    | ok vs => cases stop <;> simp [hds, eq_comm]

/-- An object has a value if it was closed, there is room for it and each member has a name and a
value further in; its value has the members in order. -/
theorem read_object_eq_ok_iff {o : Origin} {ms : DraftMembers} {stop : Option Fault} {v : Value} :
    read o (.object ms stop) = .ok v ↔ stop = none ∧ ∃ o' vs, o.inside = .ok o' ∧
      List.Forall₂ (fun m u => m.1 = .ok u.1 ∧ m.2.read o' = .ok u.2) ms vs ∧
      v = .object (Members.sort vs) := by
  rw [read]
  cases ho : o.inside with
  | error f => simp
  | ok o' =>
    simp only [← readMembers_eq_ok_iff]
    cases hms : readMembers o' ms with
    | error f => simp [hms]
    | ok vs => cases stop <;> simp [hms, eq_comm]

/-- Whether the draft has no parts. -/
def isScalar : Draft → Bool
  | array _ _ | object _ _ => false
  | _ => true

/-- A draft without parts that has a value is the draft of the value. -/
theorem eq_draft_of_read {o : Origin} {d : Draft} {v : Value} (h : d.read o = .ok v)
    (hd : d.isScalar) : d = v.draft ∧ v.isScalar := by
  cases d with
  | null | bool b =>
    cases h
    exact ⟨rfl, rfl⟩
  | number n | string n =>
    rw [read, map_eq_ok_iff] at h
    obtain ⟨n, rfl, rfl⟩ := h
    exact ⟨rfl, rfl⟩
  | array ds stop | object ms stop => exact absurd hd Bool.false_ne_true
  | broken _ f _ => cases h

/-- Only `null` is read as `null`. -/
theorem eq_null_of_read {o : Origin} {d : Draft} (h : d.read o = .ok .null) : d = .null := by
  cases d with
  | array _ _ =>
    obtain ⟨_, _, _, _, _, he⟩ := read_array_eq_ok_iff.1 h
    cases he
  | object _ _ =>
    obtain ⟨_, _, _, _, _, he⟩ := read_object_eq_ok_iff.1 h
    cases he
  | null | bool _ | number _ | string _ | broken _ _ _ => exact (eq_draft_of_read h rfl).1

/-- A property of the drafts that have a value and of their values: scalars have it, arrays have it
if their items do, and objects if their members do. -/
structure Hereditary (P : Origin → Draft → Value → Prop) : Prop where
  scalar : ∀ o v, v.isScalar → P o v.draft v
  array : ∀ o o' ds vs, o.inside = .ok o' →
    List.Forall₂ (fun d v => d.read o' = .ok v ∧ P o' d v) ds vs →
    P o (.array ds none) (.array vs)
  object : ∀ o o' ms vs, o.inside = .ok o' →
    List.Forall₂ (fun m u => m.1 = .ok u.1 ∧ m.2.read o' = .ok u.2 ∧ P o' m.2 u.2) ms vs →
    P o (.object ms none) (.object (Members.sort vs))

namespace Hereditary

variable {P : Origin → Draft → Value → Prop}

mutual

/-- Every draft that has a value has a hereditary property. -/
theorem of_read (hP : Hereditary P) {o : Origin} :
    (d : Draft) → {v : Value} → d.read o = .ok v → P o d v
  | .array ds stop, v, h => by
    obtain ⟨rfl, o', vs, ho, hds, rfl⟩ := read_array_eq_ok_iff.1 h
    exact hP.array o o' ds vs ho (of_readItems hP ds hds)
  | .object ms stop, v, h => by
    obtain ⟨rfl, o', vs, ho, hms, rfl⟩ := read_object_eq_ok_iff.1 h
    exact hP.object o o' ms vs ho (of_readMembers hP ms hms)
  | .null, v, h | .bool _, v, h | .number _, v, h | .string _, v, h | .broken _ _ _, v, h => by
    obtain ⟨hd, hv⟩ := eq_draft_of_read h rfl
    exact hd ▸ hP.scalar o v hv

/-- Items that have values have the property, each with its own. -/
theorem of_readItems (hP : Hereditary P) {o : Origin} : (ds : List Draft) → {vs : List Value} →
    List.Forall₂ (fun d v => d.read o = .ok v) ds vs →
    List.Forall₂ (fun d v => d.read o = .ok v ∧ P o d v) ds vs
  | [], _, .nil => .nil
  | d :: ds, _, .cons hd hds => .cons ⟨hd, of_read hP d hd⟩ (of_readItems hP ds hds)

/-- Members that have values have the property, each with its own. -/
theorem of_readMembers (hP : Hereditary P) {o : Origin} :
    (ms : List (Except Fault String × Draft)) → {vs : Members} →
    List.Forall₂ (fun m u => m.1 = .ok u.1 ∧ m.2.read o = .ok u.2) ms vs →
    List.Forall₂ (fun m u => m.1 = .ok u.1 ∧ m.2.read o = .ok u.2 ∧ P o m.2 u.2) ms vs
  | [], _, .nil => .nil
  | (_, d) :: ms, _, .cons hm hms =>
    .cons ⟨hm.1, hm.2, of_read hP d hm.2⟩ (of_readMembers hP ms hms)

end

end Hereditary

/-- What the items on the right of two lists have, if each of them has it because of its partner. -/
theorem forall_mem_right {α β : Type} {R : α → β → Prop} {as : List α} {bs : List β}
    (h : List.Forall₂ R as bs) {P : β → Prop} (hP : ∀ a b, R a b → P b) : ∀ b ∈ bs, P b := by
  induction h with
  | nil => exact fun _ hb => nomatch hb
  | cons hab _ ih => exact List.forall_mem_cons.2 ⟨hP _ _ hab, ih⟩

/-- The value of a draft is sorted. -/
theorem isSorted_of_read {o : Origin} {d : Draft} {v : Value} (h : d.read o = .ok v) :
    v.IsSorted := by
  refine Hereditary.of_read (P := fun _ _ v => v.IsSorted) ⟨?_, ?_, ?_⟩ d h
  · intro o v hv
    cases v with
    | null | bool _ | number _ | string _ => rfl
    | array _ | object _ => exact nomatch hv
  · intro o o' ds vs _ hds
    exact Value.isSorted_array_iff.2 (forall_mem_right hds fun _ _ h => h.2)
  · intro o o' ms vs _ hms
    -- sorting the members brings no others, so their values are still sorted
    have hvs : ∀ m ∈ vs, m.2.IsSorted := forall_mem_right hms fun _ _ h => h.2.2
    refine Value.isSorted_object_iff.2 ⟨Members.ascending_sort vs, fun m hm => ?_⟩
    exact hvs m (Members.mem_of_mem_sort hm)

/-- A draft that has a value can also be skipped. -/
theorem skip_of_read {o : Origin} {d : Draft} {v : Value} (h : d.read o = .ok v) :
    d.skip = .ok () := by
  refine Hereditary.of_read (P := fun _ d _ => d.skip = .ok ()) ⟨?_, ?_, ?_⟩ d h
  · intro o v hv
    cases v with
    | null | bool _ | number _ | string _ => rfl
    | array _ | object _ => exact nomatch hv
  · intro o o' ds vs _ hds
    -- skipping needs no room, so only the items themselves matter
    have hskip : skipItems ds = .ok () := by
      induction hds with
      | nil => rfl
      | cons hd _ ih => rw [skipItems, hd.2, ih]
    rw [skip, hskip]
  · intro o o' ms vs _ hms
    have hskip : skipMembers ms = .ok () := by
      induction hms with
      | nil => rfl
      | cons hm _ ih => rw [skipMembers, hm.2.2, ih]
    rw [skip, hskip]

/-! ## Distinct names -/

/-- The names of the members of an object. -/
def names (ms : DraftMembers) : List String := ms.filterMap (·.1.toOption)

mutual

/-- No object in the draft has two members of one name. -/
def hasDistinctNames : Draft → Bool
  | .array items _ => haveDistinctNames items
  | .object ms _ => decide (names ms).Nodup && membersHaveDistinctNames ms
  | _ => true

/-- No object in the items has two members of one name. -/
def haveDistinctNames : List Draft → Bool
  | [] => true
  | d :: ds => d.hasDistinctNames && haveDistinctNames ds

/-- No object in the values of the members has two members of one name. -/
def membersHaveDistinctNames : List (Except Fault String × Draft) → Bool
  | [] => true
  | (_, d) :: ms => d.hasDistinctNames && membersHaveDistinctNames ms

end

/-- Names in a list are distinct if they are in each of its items. -/
theorem hasDistinctNames_array_iff {ds : List Draft} {stop : Option Fault} :
    (array ds stop).hasDistinctNames ↔ ∀ d ∈ ds, d.hasDistinctNames := by
  rw [hasDistinctNames]
  induction ds with
  | nil => simp [haveDistinctNames]
  | cons d ds ih => simp [haveDistinctNames, ih]

/-- Names in an object are distinct if its own are, and the names in each of its values. -/
theorem hasDistinctNames_object_iff {ms : DraftMembers} {stop : Option Fault} :
    (object ms stop).hasDistinctNames ↔
      (names ms).Nodup ∧ ∀ m ∈ ms, m.2.hasDistinctNames := by
  have hmembers : membersHaveDistinctNames ms ↔ ∀ m ∈ ms, m.2.hasDistinctNames := by
    induction ms with
    | nil => simp [membersHaveDistinctNames]
    | cons m ms ih => simp [membersHaveDistinctNames, ih]
  rw [hasDistinctNames, Bool.and_eq_true, decide_eq_true_iff, hmembers]

/-- The names of members that can be read are the keys of their values. -/
theorem names_eq_keys {o : Origin} {ms : DraftMembers} {vs : Members}
    (h : List.Forall₂ (fun m u => m.1 = .ok u.1 ∧ m.2.read o = .ok u.2) ms vs) :
    names ms = vs.keys := by
  induction h with
  | nil => rfl
  | cons hm _ ih =>
    simp only [names, Members.keys, List.map_cons] at ih ⊢
    rw [List.filterMap_cons_some (by rw [hm.1]; rfl), ih]

/-! ## Members in another order -/

/-- The same draft with the members of its objects in another order. -/
inductive Reorders : Draft → Draft → Prop
  | refl (d : Draft) : Reorders d d
  | trans {d₁ d₂ d₃ : Draft} : Reorders d₁ d₂ → Reorders d₂ d₃ → Reorders d₁ d₃
  | members {ms ms' : List (Except Fault String × Draft)} (stop : Option Fault) :
    ms.Perm ms' → Reorders (.object ms stop) (.object ms' stop)
  | item (before after : List Draft) (stop : Option Fault) {d d' : Draft} : Reorders d d' →
    Reorders (.array (before ++ d :: after) stop) (.array (before ++ d' :: after) stop)
  | member (before after : List (Except Fault String × Draft)) (stop : Option Fault)
    (key : Except Fault String) {d d' : Draft} : Reorders d d' →
    Reorders (.object (before ++ (key, d) :: after) stop)
      (.object (before ++ (key, d') :: after) stop)

/-- One item of a list gives way to another one with the same partners. -/
theorem forall₂_replace {α β : Type} {R : α → β → Prop} {a a' : α} (h : ∀ b, R a b → R a' b)
    (before after : List α) {bs : List β} (hbs : List.Forall₂ R (before ++ a :: after) bs) :
    List.Forall₂ R (before ++ a' :: after) bs := by
  induction before generalizing bs with
  | nil =>
    cases hbs with
    | cons hab hrest => exact .cons (h _ hab) hrest
  | cons _ before ih =>
    cases hbs with
    | cons hab hrest => exact .cons hab (ih hrest)

namespace Reorders

/-- A change of order leaves the names distinct. -/
theorem hasDistinctNames {d d' : Draft} (h : d.Reorders d') (hd : d.hasDistinctNames) :
    d'.hasDistinctNames := by
  induction h with
  | refl d => exact hd
  | trans _ _ ih ih' => exact ih' (ih hd)
  | members stop hperm =>
    -- the names are a permutation of those before
    rw [hasDistinctNames_object_iff] at hd ⊢
    refine ⟨(hperm.filterMap _).nodup_iff.1 hd.1, fun m hm => hd.2 m (hperm.mem_iff.2 hm)⟩
  | item before after stop _ ih =>
    rw [hasDistinctNames_array_iff] at hd ⊢
    simp only [List.forall_mem_append, List.forall_mem_cons] at hd ⊢
    exact ⟨hd.1, ih hd.2.1, hd.2.2⟩
  | member before after stop key _ ih =>
    rw [hasDistinctNames_object_iff] at hd ⊢
    simp only [List.forall_mem_append, List.forall_mem_cons, names, List.filterMap_append,
      List.filterMap_cons] at hd ⊢
    exact ⟨hd.1, hd.2.1, ih hd.2.2.1, hd.2.2.2⟩

/-- A change of order does not change the value. -/
theorem read_eq_ok {d d' : Draft} (h : d.Reorders d') (hd : d.hasDistinctNames) {o : Origin}
    {v : Value} (hv : d.read o = .ok v) : d'.read o = .ok v := by
  induction h generalizing o v with
  | refl d => exact hv
  | trans h _ ih ih' => exact ih' (h.hasDistinctNames hd) (ih hd hv)
  | members stop hperm =>
    rw [hasDistinctNames_object_iff] at hd
    rw [read_object_eq_ok_iff] at hv ⊢
    obtain ⟨hstop, o', vs, ho, hms, rfl⟩ := hv
    -- the values come in the new order too, which the sorting takes back
    obtain ⟨vs', hms', hvs'⟩ := List.perm_comp_forall₂ hperm.symm hms
    refine ⟨hstop, o', vs', ho, hms', ?_⟩
    rw [Members.sort_eq_of_perm hvs'.symm (names_eq_keys hms ▸ hd.1)]
  | item before after stop _ ih =>
    rw [hasDistinctNames_array_iff] at hd
    -- only one item is another one; the items around it are read as before
    have hd := hd _ (List.mem_append_right _ List.mem_cons_self)
    rw [read_array_eq_ok_iff] at hv ⊢
    obtain ⟨hstop, o', vs, ho, hds, rfl⟩ := hv
    exact ⟨hstop, o', vs, ho, forall₂_replace (fun v hv => ih hd hv) before after hds, rfl⟩
  | member before after stop key _ ih =>
    rw [hasDistinctNames_object_iff] at hd
    have hd := hd.2 _ (List.mem_append_right _ List.mem_cons_self)
    rw [read_object_eq_ok_iff] at hv ⊢
    obtain ⟨hstop, o', vs, ho, hms, rfl⟩ := hv
    -- the key stays in its place, so the values need not be sorted anew
    refine ⟨hstop, o', vs, ho, forall₂_replace (fun u hu => ?_) before after hms, rfl⟩
    exact ⟨hu.1, ih hd hu.2⟩

end Reorders

end Draft

/-! ## Texts -/

/-- The value of a text is that of its draft, after which nothing may come. -/
theorem Value.ofText_eq_ok_iff {text : String} {v : Value} :
    Value.ofText text = .ok v ↔
      (Draft.ofText text).1.read .wholeText = .ok v ∧ (Draft.ofText text).2 = none := by
  rw [Value.ofText]
  cases hd : (Draft.ofText text).1.read .wholeText with
  | error f => simp [hd, bind, Except.bind]
  | ok u =>
    cases hstop : (Draft.ofText text).2 with
    | none => simp [hd, hstop, bind, Except.bind, pure, Except.pure]
    | some f => simp [hd, hstop, bind, Except.bind, throw, throwThe, MonadExceptOf.throw]

/-- The value of a text, which may be nested to any depth. -/
def Value.IsValueOf (v : Value) (text : String) : Prop :=
  (Draft.ofText text).1.read .value = .ok v ∧ (Draft.ofText text).2 = none

/-- The draft of a text whose value is followed by nothing but space. -/
theorem Draft.ofText_eq_none_iff {text : String} {d : Draft} :
    Draft.ofText text = (d, none) ↔
      ∃ rest, readValue (2 * text.toList.length + 2) text.toList = (d, some rest) ∧
        skipSpace rest = [] := by
  simp only [Draft.ofText]
  split
  next d' h => simp [h]
  next d' rest h =>
    rw [h]
    constructor
    · intro he
      obtain ⟨rfl, hstop⟩ := Prod.mk.inj he
      refine ⟨rest, rfl, ?_⟩
      by_cases hrest : skipSpace rest = []
      · exact hrest
      · rw [if_neg hrest] at hstop
        exact nomatch hstop
    · rintro ⟨rest', he, hrest⟩
      obtain ⟨rfl, hleft⟩ := Prod.mk.inj he
      obtain rfl := Option.some.inj hleft
      rw [if_pos hrest]

end Dashboards.Json
