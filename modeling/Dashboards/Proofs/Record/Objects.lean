import Dashboards.Proofs.Record.Agreement
import Dashboards.Proofs.Record.RoundTrip

/-!
# What objects and lists are read as

Which record an object is read as can be said without the order in which its members are visited:
every member of the table holds what the object has under its key, or what is written of it when the
record is blank.  A list of values is the object that has the first keys of the table.

## Key results

- `Shape.Faithful.read_object_eq_ok_iff`: the records that an object describes
- `Shape.Separate.ofValue_array_eq_ok_iff`: lists are objects with the keys of the table
- `Shape.Faithful.readsFields`: defaults, fields that must be there, and fields by their places
-/

namespace Dashboards

open Json (Members Origin Value)

variable {α : Type}

/-! ## Keys -/

namespace Json.Members

/-- A key that does not occur among members does not occur when they are sorted. -/
theorem notMem_keys_sort {ms : Members} {key : String} (h : key ∉ ms.keys) :
    key ∉ Members.keys (sort (Value.sortedMembers ms)) := by
  intro hmem
  obtain ⟨m, hm, rfl⟩ := List.mem_map.1 hmem
  have hm := mem_of_mem_sort hm
  rw [Value.sortedMembers_eq_map] at hm
  obtain ⟨m', hm', rfl⟩ := List.mem_map.1 hm
  exact h (List.mem_map.2 ⟨m', hm', rfl⟩)

/-- The keys of a list of values are those that it is long enough for. -/
theorem keys_zip (keys : List String) (vs : List Value) :
    Members.keys (keys.zip vs) = keys.take vs.length := by
  induction keys generalizing vs with
  | nil => simp [Members.keys]
  | cons key keys ih =>
    cases vs with
    | nil => rfl
    | cons v vs => exact congrArg (key :: ·) (ih vs)

/-- One more value has the next of the keys. -/
theorem zip_concat {keys : List String} {vs : List Value} {key : String}
    (h : keys[vs.length]? = some key) (v : Value) :
    keys.zip (vs ++ [v]) = keys.zip vs ++ [(key, v)] := by
  induction keys generalizing vs with
  | nil => exact nomatch h
  | cons k keys ih =>
    cases vs with
    | nil =>
      obtain rfl := Option.some.inj h
      simp
    | cons u vs => exact congrArg ((k, u) :: ·) (ih h)

end Json.Members

/-! ## Members -/

namespace Member

/-- What stands for a member that is absent, if it may be. -/
def default? (m : Member α) (blank : α) : Option Value :=
  if m.isRequired then none else some (m.written blank)

/-- A record holds in a member what is found in its place, or what stands for it. -/
def Describes (m : Member α) (blank : α) (found : Option Value) (a : α) : Prop :=
  ∃ v, found.or (m.default? blank) = some v ∧ m.Holds v a

/-- What stands for an absent member is sorted. -/
theorem isSorted_of_default? {m : Member α} {blank : α} {v : Value}
    (h : m.default? blank = some v) : v.IsSorted := by
  unfold default? at h
  split at h
  · exact nomatch h
  · exact Option.some.inj h ▸ m.isSorted_written blank

section

variable {β : Type} {key : String} {c : Codec β} {blank a : α} {found : Option Value}

/-- A member with a default has the key that it was given. -/
@[simp] theorem key_defaulted (get : α → β) (set : β → α → α) :
    (defaulted key c get set).key = key := rfl

/-- An optional member has the key that it was given. -/
@[simp] theorem key_optional (get : α → Option β) (set : Option β → α → α) :
    (optional key c get set).key = key := rfl

/-- The part of a member that may be absent is read from what is found, or from what is written of
a blank record. -/
theorem Covers.describes_iff {m : Member α} {get : α → β} {set : β → α → α}
    (h : m.Covers c get set) (hoptional : m.isRequired = false) :
    m.Describes blank found a ↔
      c.read .value (found.getD (c.toValue (get blank))).draft = .ok (get a) := by
  have hdefault : m.default? blank = some (c.toValue (get blank)) := by
    rw [default?, hoptional, h.written_eq]
    rfl
  rw [Describes, hdefault, Option.or_some]
  simp [h.holds_iff]

/-- The part of a member with a default is read from what is found, or else from the default. -/
@[simp] theorem defaulted_describes_iff {get : α → β} {set : β → α → α}
    (hget : ∀ x a, get (set x a) = x) (hset : ∀ x y a, set x (set y a) = set x a)
    (hsame : ∀ a, set (get a) a = a) :
    (defaulted key c get set).Describes blank found a ↔
      c.read .value (found.getD (c.toValue (get blank))).draft = .ok (get a) :=
  (defaulted_covers hget hset hsame).describes_iff rfl

/-- The part of an optional member is read from what is found, or else from `null`. -/
@[simp] theorem optional_describes_iff {get : α → Option β} {set : Option β → α → α}
    (hget : ∀ x a, get (set x a) = x) (hset : ∀ x y a, set x (set y a) = set x a)
    (hsame : ∀ a, set (get a) a = a) :
    (optional key c get set).Describes blank found a ↔ (Codec.optional c).read .value
      (found.getD ((Codec.optional c).toValue (get blank))).draft = .ok (get a) :=
  (optional_covers hget hset hsame).describes_iff rfl

end

end Member

namespace Shape

variable {s : Shape α}

/-! ## What reading leaves -/

/-- A member is met when it is read, and only then. -/
theorem Reads.mem_met_iff {o : Origin} {key : String} {d : Json.Draft} {p p' : Progress α}
    (h : s.Reads o key d p p') {k : String} (hk : k ∈ s.keys) :
    k ∈ p'.met ↔ k = key ∨ k ∈ p.met := by
  rcases h with ⟨_, _, _⟩ | ⟨hnone, _, _⟩ | ⟨hnone, _, _⟩
  · exact List.mem_cons
  all_goals
    have hne : k ≠ key := fun he => member?_eq_none_iff.1 hnone (he ▸ hk)
    exact (or_iff_right hne).symm

/-- The members of the table that were met are those of the object. -/
theorem mem_met_iff_of_readMembers {o : Origin} (ms : Members) {p p' : Progress α}
    (h : s.readMembers o (Value.draftMembers ms) p = .ok p') {k : String} (hk : k ∈ s.keys) :
    k ∈ p'.met ↔ k ∈ ms.keys ∨ k ∈ p.met := by
  induction ms generalizing p with
  | nil =>
    obtain rfl := Except.ok.inj h
    exact (or_iff_right List.not_mem_nil).symm
  | cons m ms ih =>
    obtain ⟨p₁, h₁, hrest⟩ := readMembers_cons_eq_ok_iff.1 h
    have hkeys : k ∈ Members.keys (m :: ms) ↔ k = m.1 ∨ k ∈ Members.keys ms := List.mem_cons
    rw [ih hrest, h₁.mem_met_iff hk, hkeys, or_assoc]
    exact or_left_comm

/-- What a member holds is not disturbed by members with other keys. -/
theorem Separate.holds_of_readMembers (hs : s.Separate) {m : Member α} (hm : m ∈ s.members)
    {v : Value} (ms : Members) (hkey : m.key ∉ ms.keys) {p p' : Progress α}
    (h : s.readMembers .value (Value.draftMembers ms) p = .ok p') (hp : m.Holds v p.record) :
    m.Holds v p'.record := by
  induction ms generalizing p with
  | nil => exact Except.ok.inj h ▸ hp
  | cons m' ms ih =>
    obtain ⟨p₁, h₁, hrest⟩ := readMembers_cons_eq_ok_iff.1 h
    have hne : m.key ≠ m'.1 := fun he => hkey (he ▸ List.mem_cons_self)
    refine ih (fun hmem => hkey (List.mem_cons_of_mem _ hmem)) hrest ?_
    -- only another member of the table could disturb it, and the two commute
    rcases h₁ with ⟨hm', _, hread⟩ | ⟨_, _, _⟩ | ⟨_, _, _⟩
    · obtain ⟨hmem', hkey'⟩ := member?_eq_some hm'
      exact hp.of_commutes (hs.commutes_of_key_ne hm hmem' (hkey' ▸ hne)) hread
    · exact hp
    · exact hp

/-! ## Objects -/

/-- An object is the description of a record: it says what every member of the table holds, and what
else is in the object is kept, if anything is. -/
@[mk_iff]
structure Describes (s : Shape α) (ms : Members) (a : α) : Prop where
  members : ∀ m ∈ s.members, m.Describes s.blank (ms.get? m.key) a
  others : s.remainder ≠ .dropped → s.others a = ms.filter fun m => (s.member? m.1).isNone

namespace Faithful

/-- An object is read as the record that it describes. -/
theorem read_object_eq_ok_iff (hs : s.Faithful) {ms : Members}
    (hsorted : (Value.object ms).IsSorted) {a : α} :
    s.codec.read .value (Value.object ms).draft = .ok a ↔ s.Describes ms a := by
  have hnodup := (Value.isSorted_object_iff.1 hsorted).1.nodup_keys
  constructor
  case mp =>
    intro h
    obtain ⟨-, o, p, ho, hp, hmissing, ha⟩ := readObject_eq_ok_iff.1 h
    obtain rfl := Except.ok.inj ho
    refine ⟨fun m hm => ?_, fun hkeeps => (hs.lawful hkeeps).others_of_read hsorted h⟩
    -- what a member holds before the others are kept, it holds afterwards
    have hkeep : ∀ v, m.Holds v p.record → m.Holds v a := fun v hv =>
      ha ▸ hv.of_commutesWith (hs.separate.keepOthers m hm p.others)
    cases hv : ms.get? m.key with
    | some v =>
      obtain ⟨a₀, ha₀⟩ := hs.separate.exists_read_of_readMembers hm ms hp hv
      exact ⟨v, rfl, hkeep v ((hs.members m hm).again _ _ _ ha₀)⟩
    | none =>
      have hkey : m.key ∉ ms.keys := Members.get?_eq_none_iff.1 hv
      -- an absent member was not met, so it need not be there, and its part is as at first
      have hoptional : ¬ m.isRequired := fun hrequired => by
        have hmet := missing?_eq_none_iff.1 hmissing m hm hrequired
        rw [mem_met_iff_of_readMembers ms hp (List.mem_map_of_mem hm)] at hmet
        exact hmet.elim hkey List.not_mem_nil
      have hblank := hs.separate.holds_of_readMembers hm ms hkey hp (hs.members m hm).returns_blank
      exact ⟨m.written s.blank, if_neg hoptional, hkeep _ hblank⟩
  case mpr =>
    intro h
    refine hs.read_object_of_holds hsorted (fun m hm v hv => ?_) (fun m hm hnot => ?_) h.others
    -- a member that comes, and one that is absent
    · obtain ⟨u, hu, hholds⟩ := h.members m hm
      rw [(Members.get?_eq_some_iff hnodup).2 hv, Option.some_or] at hu
      exact Option.some.inj hu ▸ hholds
    · obtain ⟨u, hu, hholds⟩ := h.members m hm
      rw [Members.get?_eq_none hnot, Option.none_or, Member.default?] at hu
      split at hu
      · exact nomatch hu
      next hoptional =>
        obtain rfl := Option.some.inj hu
        exact ⟨Bool.eq_false_iff.2 hoptional, _, hholds, (hs.members m hm).returns_blank⟩

/-- An object is read as the record that its sorted members describe. -/
theorem ofValue_object_eq_ok_iff (hs : s.Faithful) {ms : Members} {a : α} :
    s.codec.ofValue (.object ms) = .ok a ↔ s.Describes (Members.sort (Value.sortedMembers ms)) a :=
  hs.read_object_eq_ok_iff (Value.isSorted_sorted (.object ms))

end Faithful

/-! ## Lists -/

/-- Values in the order of the table are read as they are under its keys. -/
theorem Separate.readItems_eq_ok_iff (hs : s.Separate) {o : Origin} (members : List (Member α))
    (hsub : members ⊆ s.members) (hnodup : (members.map (·.key)).Nodup) (vs : List Value)
    {n : Nat} {p : Progress α} (hfresh : ∀ m ∈ members, m.key ∉ p.met) {a : α} :
    s.readItems o none members (Value.draftItems vs) n p.record = .ok (a, []) ↔
      vs.length ≤ members.length ∧ ∃ p',
        s.readMembers o (Value.draftMembers ((members.map (·.key)).zip vs)) p = .ok p' ∧
        p'.record = a ∧ ∀ m ∈ members, m.isRequired → m.key ∈ p'.met := by
  induction members generalizing vs n p with
  | nil =>
    cases vs with
    | nil => simp [readItems, readMembers, Value.draftItems, Value.draftMembers]
    | cons v vs => simp [readItems, Value.draftItems]
  | cons m members ih =>
    obtain ⟨hm, hsub⟩ := List.cons_subset.1 hsub
    obtain ⟨hkey, hnodup⟩ := List.nodup_cons.1 hnodup
    obtain ⟨hnew, hfresh⟩ := List.forall_mem_cons.1 hfresh
    cases vs with
    | nil =>
      -- the members that are left are absent, which is allowed or not
      have hrest := ih hsub hnodup [] (n := n + 1) hfresh
      simp only [Value.draftItems, List.zip_nil_right, Value.draftMembers, readMembers,
        List.length_nil, Nat.zero_le, true_and, Except.ok.injEq, exists_eq_left'] at hrest ⊢
      rw [readItems, List.forall_mem_cons]
      cases hrequired : m.isRequired with
      | true => simp [hnew]
      | false => simpa using hrest
    | cons v vs =>
      -- the members after `m` are not met yet when it has been read
      have hstep : ∀ b, ∀ m' ∈ members,
          m'.key ∉ ({ p with record := b, met := m.key :: p.met } : Progress α).met := by
        intro b m' hm' hmem
        rcases List.mem_cons.1 hmem with he | hmem
        · exact hkey (List.mem_map.2 ⟨m', hm', he⟩)
        · exact hfresh m' hm' hmem
      simp only [Value.draftItems, List.map_cons, List.zip_cons_cons, Value.draftMembers,
        readMembers_cons_eq_ok_iff, hs.reads_key_iff hm, hnew, not_false_eq_true, true_and,
        readItems, List.length_cons, Nat.add_le_add_iff_right]
      cases hread : m.read o v.draft p.record with
      | error e => simp
      | ok b =>
        simp only [Except.ok.injEq, exists_eq_left', exists_eq_left]
        refine (ih hsub hnodup vs (hstep b)).trans ?_
        refine and_congr_right fun _ => exists_congr fun p' => ?_
        refine and_congr_right fun hp' => and_congr_right fun _ => ?_
        -- the member is met now, and stays so
        have hmet : m.key ∈ p'.met :=
          (mem_met_iff_of_readMembers _ hp' (List.mem_map_of_mem hm)).2 (.inr List.mem_cons_self)
        rw [List.forall_mem_cons]
        exact (and_iff_right fun _ => hmet).symm

/-- The keys of the table with values, as members of an object that is not sorted yet. -/
theorem Separate.ofValue_zip_eq_ok_iff (hs : s.Separate) {vs : List Value} {a : α} :
    s.codec.ofValue (.object (s.keys.zip vs)) = .ok a ↔ s.readObject .value
      (Value.draftMembers (s.keys.zip (vs.map Value.sorted))) none = .ok a := by
  let ms : Members := s.keys.zip (vs.map Value.sorted)
  have hsorted : (Value.object (s.keys.zip vs)).sorted = .object ms.sort := by
    rw [Value.sorted, Value.sortedMembers_eq_map]
    exact congrArg (fun ms => Value.object (Members.sort ms)) List.zip_map_right.symm
  -- a part of distinct keys is distinct, so sorting only changes the order
  have hkeys : ms.keys.Nodup := Members.keys_zip s.keys _ ▸ hs.nodup.sublist (List.take_sublist _ _)
  have hperm := Members.sort_perm hkeys
  have hdrafts : (Value.draftMembers ms.sort).Perm (Value.draftMembers ms) := by
    rw [Value.draftMembers_eq_map, Value.draftMembers_eq_map]
    exact hperm.map _
  rw [Codec.ofValue, hsorted]
  constructor
  · refine hs.readObject_of_perm hdrafts ?_
    rw [Value.names_draftMembers]
    exact (Members.ascending_sort ms).nodup_keys
  · refine hs.readObject_of_perm hdrafts.symm ?_
    rwa [Value.names_draftMembers]

/-- A list is read as a record that drops other members like the object that has the first keys of
the table. -/
theorem Separate.ofValue_array_eq_ok_iff (hs : s.Separate) (hdropped : s.remainder = .dropped)
    {vs : List Value} {a : α} : s.codec.ofValue (.array vs) = .ok a ↔
      vs.length ≤ s.members.length ∧ s.codec.ofValue (.object (s.keys.zip vs)) = .ok a := by
  have hlist : s.codec.ofValue (.array vs) =
      s.readList .value (Value.draftItems (vs.map Value.sorted)) none := by
    simp only [Codec.ofValue, Value.sorted, Value.sortedItems_eq_map, codec, Value.draft, read,
      hdropped]
  have hinside : Origin.value.inside = .ok .value := rfl
  -- nothing was met before the list, so every member of the table is new
  have hitems := hs.readItems_eq_ok_iff (o := .value) s.members (List.Subset.refl _) hs.nodup
    (vs.map Value.sorted) (n := 0) (p := ⟨s.blank, [], []⟩) (fun _ _ => List.not_mem_nil) (a := a)
  rw [hlist, hs.ofValue_zip_eq_ok_iff, readList_eq_ok_iff, readObject_eq_ok_iff]
  simp only [hinside, Except.ok.injEq, exists_and_left, exists_eq_left', true_and, hitems,
    List.length_map, missing?_eq_none_iff, keepOthers_of_dropped hdropped, id]
  refine and_congr_right fun _ => exists_congr fun p => and_congr_right fun _ => ?_
  rw [and_comm, eq_comm]

/-! ## Fields -/

/-- The keys of the table in its order, each with what stands for it when it is absent. -/
def fields (s : Shape α) : List (String × Option Value) :=
  s.members.map fun m => (m.key, m.default? s.blank)

/-- The fields of a record have the keys of its table, in the same order. -/
theorem map_fst_fields (s : Shape α) : s.fields.map (·.1) = s.keys := by
  rw [fields, List.map_map]
  rfl

/-- A member whose key is absent may be put in with what stands for it. -/
theorem Separate.describes_insert_iff (hs : s.Separate) (hdropped : s.remainder = .dropped)
    {m : Member α} (hm : m ∈ s.members) {v : Value} (hv : m.default? s.blank = some v)
    {ms : Members} (hnot : m.key ∉ ms.keys) {a : α} :
    s.Describes (ms.insert m.key v) a ↔ s.Describes ms a := by
  have hsame : ∀ m' ∈ s.members, m'.Describes s.blank ((ms.insert m.key v).get? m'.key) a ↔
      m'.Describes s.blank (ms.get? m'.key) a := by
    intro m' hm'
    rw [Members.get?_insert]
    -- under its own key the default is found now, which stood for the member before
    by_cases hkey : m'.key = m.key
    · obtain rfl := List.inj_on_of_nodup_map hs.nodup hm' hm hkey
      rw [if_pos rfl, Members.get?_eq_none hnot]
      simp [Member.Describes, hv]
    · rw [if_neg hkey]
  simp only [describes_iff, hdropped, ne_eq, not_true, false_implies, and_true]
  exact forall₂_congr hsame

end Shape

/-- The fields of a record are read by their keys or by their places: an object must have those
without a default, and the default of another one may be written or left out; a list is the object
that has the first fields. -/
structure Codec.ReadsFields (c : Codec α) (fields : List (String × Option Value)) : Prop where
  required : ∀ key (ms : Members) a, (key, none) ∈ fields →
    c.ofValue (.object ms) = .ok a → key ∈ ms.keys
  defaulted : ∀ key v (ms : Members) a, (key, some v) ∈ fields → key ∉ ms.keys →
    (c.ofValue (.object ms) = .ok a ↔ c.ofValue (.object (ms ++ [(key, v)])) = .ok a)
  places : ∀ vs a, c.ofValue (.array vs) = .ok a ↔
    vs.length ≤ fields.length ∧ c.ofValue (.object ((fields.map (·.1)).zip vs)) = .ok a
  trailing : ∀ key v vs a, fields[vs.length]? = some (key, some v) →
    (c.ofValue (.array vs) = .ok a ↔ c.ofValue (.array (vs ++ [v])) = .ok a)

namespace Shape.Faithful

variable {s : Shape α}

/-- An object has every member for which nothing stands when it is absent. -/
theorem mem_keys_of_ofValue (hs : s.Faithful) {ms : Members} {a : α}
    (h : s.codec.ofValue (.object ms) = .ok a) {m : Member α} (hm : m ∈ s.members)
    (hnone : m.default? s.blank = none) : m.key ∈ ms.keys := by
  by_contra hnot
  obtain ⟨v, hv, -⟩ := (hs.ofValue_object_eq_ok_iff.1 h).members m hm
  rw [Members.get?_eq_none (Members.notMem_keys_sort hnot), hnone] at hv
  exact nomatch hv

/-- What stands for a member that is absent may be put in the object. -/
theorem ofValue_append_eq_ok_iff (hs : s.Faithful) (hdropped : s.remainder = .dropped)
    {m : Member α} (hm : m ∈ s.members) {v : Value} (hv : m.default? s.blank = some v)
    {ms : Members} (hnot : m.key ∉ ms.keys) {a : α} :
    s.codec.ofValue (.object (ms ++ [(m.key, v)])) = .ok a ↔
      s.codec.ofValue (.object ms) = .ok a := by
  have hsorted : v.sorted = v := Member.isSorted_of_default? hv
  have hinsert : Members.sort (Value.sortedMembers (ms ++ [(m.key, v)])) =
      (Members.sort (Value.sortedMembers ms)).insert m.key v := by
    simp only [Value.sortedMembers_eq_map, List.map_append, List.map_cons, List.map_nil,
      Members.sort_append_singleton, hsorted]
  rw [hs.ofValue_object_eq_ok_iff, hs.ofValue_object_eq_ok_iff, hinsert]
  exact hs.separate.describes_insert_iff hdropped hm hv (Members.notMem_keys_sort hnot)

/-- One more value that stands for the next member of the table may be put at the end of a list. -/
theorem ofValue_concat_eq_ok_iff (hs : s.Faithful) (hdropped : s.remainder = .dropped)
    {vs : List Value} {m : Member α} (hm : s.members[vs.length]? = some m) {v : Value}
    (hv : m.default? s.blank = some v) {a : α} :
    s.codec.ofValue (.array (vs ++ [v])) = .ok a ↔ s.codec.ofValue (.array vs) = .ok a := by
  have hmem : m ∈ s.members := List.mem_of_getElem? hm
  have hlength : vs.length < s.members.length := (List.getElem?_eq_some_iff.1 hm).1
  have hkey : s.keys[vs.length]? = some m.key := by
    rw [keys, List.getElem?_map, hm]
    rfl
  -- no key occurs twice in the table, so the next one is none of those before
  have hnot : m.key ∉ Members.keys (s.keys.zip vs) := by
    have hkeys := hs.separate.nodup.sublist (List.take_sublist (vs ++ [v]).length s.keys)
    rw [← Members.keys_zip, Members.zip_concat hkey, Members.keys, List.map_append] at hkeys
    exact fun h => (List.nodup_append.1 hkeys).2.2 m.key h m.key List.mem_cons_self rfl
  rw [hs.separate.ofValue_array_eq_ok_iff hdropped, hs.separate.ofValue_array_eq_ok_iff hdropped,
    Members.zip_concat hkey, hs.ofValue_append_eq_ok_iff hdropped hmem hv hnot, List.length_append]
  exact and_congr_left fun _ => iff_of_true hlength hlength.le

/-- A record that drops other members is read from its fields. -/
theorem readsFields (hs : s.Faithful) (hdropped : s.remainder = .dropped) :
    s.codec.ReadsFields s.fields where
  required key ms a hfield h := by
    obtain ⟨m, hm, he⟩ := List.mem_map.1 hfield
    obtain ⟨rfl, hnone⟩ := Prod.mk.inj he
    exact hs.mem_keys_of_ofValue h hm hnone
  defaulted key v ms a hfield hnot := by
    obtain ⟨m, hm, he⟩ := List.mem_map.1 hfield
    obtain ⟨rfl, hv⟩ := Prod.mk.inj he
    exact (hs.ofValue_append_eq_ok_iff hdropped hm hv hnot).symm
  places vs a := by
    rw [map_fst_fields, fields, List.length_map]
    exact hs.separate.ofValue_array_eq_ok_iff hdropped
  trailing key v vs a hfield := by
    rw [fields, List.getElem?_map] at hfield
    obtain ⟨m, hm, he⟩ := Option.map_eq_some_iff.1 hfield
    obtain ⟨rfl, hv⟩ := Prod.mk.inj he
    exact (hs.ofValue_concat_eq_ok_iff hdropped hm hv).symm

end Shape.Faithful

end Dashboards
