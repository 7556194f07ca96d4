import Dashboards.Proofs.Record.Tables
import Mathlib.Data.List.Forall2

/-!
# Passing through

A document is read, its record is changed, and the record is written again.  What was at a place of
the document before and what is there after is said by relations of values (`Passage`), which are
put together as the document is: a relation for a list from one for its items, and a relation for an
object from one for each known member.

A codec *passes* a value along when it reads the value as one thing and writes another one so that
the relation holds.  For a record it is enough to look at the members one by one, since each of them
can be taken to be read last.

## Key results

- `Codec.list_passes`: lists, item by item
- `Shape.Lawful.passes`: records, member by member
-/

namespace Dashboards

open Json (Members Number Value)

/-! ## Relations of values -/

/-- How the value after compares with the value before at a place of a document. -/
abbrev Passage := Value → Value → Prop

namespace Passage

/-- The value is the same. -/
def same : Passage := fun v v' => v' = v

/-- A list keeps its length and order. -/
def list (R : Passage) : Passage := fun v v' =>
  ∃ vs vs', v = .array vs ∧ v' = .array vs' ∧ List.Forall₂ R vs vs'

/-- An object keeps exactly the members with other keys than the known ones, and has every known
member that was not `null`, as the relation for its key says. -/
def record (known : List (String × Passage)) : Passage := fun v v' =>
  ∃ ms ms' : Members, v = .object ms ∧ v' = .object ms' ∧
    (∀ key, key ∉ known.map (·.1) → ms'.get? key = ms.get? key) ∧
    ∀ r ∈ known, ∀ u, ms.get? r.1 = some u → u ≠ .null →
      ∃ u', ms'.get? r.1 = some u' ∧ r.2 u u'

end Passage

/-! ## Scalars -/

namespace Codec

variable {α β : Type}

/-- Whatever sorted value is read as `b`, writing `b'` relates to it. -/
def Passes (c : Codec β) (b b' : β) (R : Passage) : Prop :=
  ∀ v, v.IsSorted → c.read .value v.draft = .ok b → R v (c.toValue b')

/-- Text that is kept is written as it was read. -/
theorem string_passes (s : String) : string.Passes s s .same := by
  intro v _ h
  cases v with
  | string s' => exact congrArg Value.string (Except.ok.inj h).symm
  | null | bool _ | number _ | array _ | object _ => exact nomatch h

/-- A truth value that is kept is written as it was read. -/
theorem bool_passes (b : Bool) : bool.Passes b b .same := by
  intro v _ h
  cases v with
  | bool b' => exact congrArg Value.bool (Except.ok.inj h).symm
  | null | string _ | number _ | array _ | object _ => exact nomatch h

/-- A whole number that fits is written as itself. -/
theorem ofNat_eq_number {k : Nat} (fits : Json.FitsInteger k) :
    Value.ofNat k = .number (.integer k fits) := by
  have hofInt : Number.ofInt? k = some (.integer k fits) := dif_pos fits
  -- unfolded as a function: at `k` the bounds of whole numbers would be computed with in unary
  have hofNat : Value.ofNat = Value.ofNat := rfl
  conv at hofNat => rhs; delta Value.ofNat
  rw [hofNat]
  beta_reduce
  rw [hofInt]

/-- An unsigned number is read only from the value that it is written as. -/
theorem readBelow_eq_ok {limit k : Nat} {expected : String} {v : Value}
    (h : readBelow limit expected v.draft = .ok k) : k < limit ∧ (Value.ofNat k).sorted = v := by
  cases v with
  | number n =>
    cases n with
    | integer n fits =>
      simp only [Value.draft, readBelow] at h
      -- a whole number that is not negative and below the limit is its own natural number
      split at h
      next hn =>
        have hk : n.toNat = k := Except.ok.inj h
        obtain rfl : n = k := by omega
        have hlt : k < limit := by omega
        exact ⟨hlt, by rw [ofNat_eq_number fits]; rfl⟩
      next => exact nomatch h
    | double x => exact nomatch h
  | null | bool _ | string _ | array _ | object _ => exact nomatch h

/-- A number of 32 bits that is kept is written as it was read. -/
theorem uint32_passes (n : UInt32) : uint32.Passes n n .same := by
  intro v _ h
  obtain ⟨k, hk, rfl⟩ := exists_of_map_eq_ok h
  obtain ⟨hlt, hv⟩ := readBelow_eq_ok hk
  have hn : (UInt32.ofNat k).toNat = k := UInt32.toNat_ofNat_of_lt' hlt
  simp only [Passage.same, toValue, uint32, hn, hv]

/-- A number of 64 bits that is kept is written as it was read. -/
theorem uint64_passes (n : UInt64) : uint64.Passes n n .same := by
  intro v _ h
  obtain ⟨k, hk, rfl⟩ := exists_of_map_eq_ok h
  obtain ⟨hlt, hv⟩ := readBelow_eq_ok hk
  have hn : (UInt64.ofNat k).toNat = k := UInt64.toNat_ofNat_of_lt' hlt
  simp only [Passage.same, toValue, uint64, hn, hv]

/-- A value that is changed by a function is changed by the same function in the document. -/
theorem raw_passes {f : Value → Value} (hf : ∀ v, v.IsSorted → (f v).IsSorted) (b : Value) :
    raw.Passes b (f b) fun v v' => v' = f v := by
  intro v hv h
  simp only [raw, hv.read_draft, orBroken] at h
  obtain rfl := Except.ok.inj h
  exact hf v hv

/-- An object of any members that is kept is written as it was read. -/
theorem rawObject_passes (ms : Members) : rawObject.Passes ms ms .same := by
  intro v hv h
  cases v with
  | object ms' =>
    have hread : Json.Draft.read .value (.object (Value.draftMembers ms') none) =
        .ok (.object ms') := hv.read_draft
    simp only [rawObject, Value.draft, hread, orBroken] at h
    obtain rfl := Except.ok.inj h
    exact hv
  | null | bool _ | string _ | number _ | array _ => cases h

/-! ## Lists -/

/-- The items of a list are read one by one. -/
theorem readAll_eq_ok_iff {read : Json.Draft → Except Problem β} {ds : List Json.Draft}
    {bs : List β} : readAll read ds = .ok bs ↔ List.Forall₂ (fun d b => read d = .ok b) ds bs := by
  induction ds generalizing bs with
  | nil =>
    rw [readAll, List.forall₂_nil_left_iff]
    exact ⟨fun h => (Except.ok.inj h).symm, fun h => h ▸ rfl⟩
  | cons d ds ih =>
    rw [readAll, List.forall₂_cons_left_iff]
    constructor
    -- the first item that cannot be read ends the reading
    · intro h
      cases hd : read d with
      | error e => rw [hd] at h; cases h
      | ok b =>
        rw [hd] at h
        obtain ⟨bs', hbs', rfl⟩ := exists_of_map_eq_ok h
        exact ⟨b, bs', rfl, ih.1 hbs', rfl⟩
    · rintro ⟨b, bs', hb, hbs', rfl⟩
      rw [hb]
      exact congrArg (Except.map (b :: ·)) (ih.2 hbs')

/-- Only `null` is read as absent. -/
theorem readOptional_of_ne_null {c : Codec β} {o : Json.Origin} {d : Json.Draft}
    (h : d ≠ .null) : readOptional c o d = (c.read o d).map some := by
  cases d with
  | null => exact absurd rfl h
  | bool _ | number _ | string _ | array _ _ | object _ _ | broken _ _ _ => rfl

/-- A list is read from an array, item by item. -/
theorem list_read_draft_eq_ok_iff {c : Codec β} {o : Json.Origin} {d : Json.Draft} {bs : List β} :
    (list c).read o d = .ok bs ↔ ∃ ds o', d = .array ds none ∧ o.inside = .ok o' ∧
      List.Forall₂ (fun d b => c.read o' d = .ok b) ds bs := by
  simp only [← readAll_eq_ok_iff]
  cases d with
  | array ds stop =>
    cases ho : o.inside with
    | error f => simp [list, ho, orBroken, bind, Except.bind]
    | ok o' =>
      cases hds : readAll (c.read o') ds with
      | error p => simp [list, ho, hds, orBroken, bind, Except.bind]
      | ok as =>
        cases stop <;>
          simp [list, ho, hds, orBroken, checkStop, bind, Except.bind, pure, Except.pure]
  | null | bool _ | number _ | string _ | object _ _ | broken _ _ _ => simp [list]

/-- A list is read from the items of an array value. -/
theorem list_read_eq_ok_iff {c : Codec β} {v : Value} {bs : List β} :
    (list c).read .value v.draft = .ok bs ↔
      ∃ vs, v = .array vs ∧ List.Forall₂ (fun v b => c.read .value v.draft = .ok b) vs bs := by
  rw [list_read_draft_eq_ok_iff]
  cases v with
  | array vs =>
    simp [Value.draft, Value.draftItems_eq_map, Json.Origin.inside, List.forall₂_map_left_iff]
  | null | bool _ | string _ | number _ | object _ => simp [Value.draft]

/-- The value of a list has the values of the items, in order. -/
theorem toValue_list (c : Codec β) (bs : List β) :
    (list c).toValue bs = .array (bs.map c.toValue) := by
  show Value.array (Value.sortedItems (bs.map c.write)) = _
  rw [Value.sortedItems_eq_map, List.map_map]
  rfl

/-- The items that were read relate to those that are written. -/
theorem items_pass {c : Codec β} {R : Passage} {vs : List Value} {bs bs' : List β}
    (hvs : ∀ v ∈ vs, v.IsSorted)
    (hread : List.Forall₂ (fun v b => c.read .value v.draft = .ok b) vs bs)
    (h : List.Forall₂ (fun b b' => c.Passes b b' R) bs bs') :
    List.Forall₂ R vs (bs'.map c.toValue) := by
  -- along the items as they were read; those that are written have the same length
  induction hread generalizing bs' with
  | nil =>
    cases h
    exact .nil
  | cons hv _ ih =>
    rw [List.forall_mem_cons] at hvs
    cases h with
    | cons hb hbs => exact .cons (hb _ hvs.1 hv) (ih hvs.2 hbs)

/-- A list is passed along if its items are. -/
theorem list_passes {c : Codec β} {R : Passage} {bs bs' : List β}
    (h : List.Forall₂ (fun b b' => c.Passes b b' R) bs bs') :
    (list c).Passes bs bs' (.list R) := by
  intro v hv hread
  obtain ⟨vs, rfl, hvs⟩ := list_read_eq_ok_iff.1 hread
  have hitems := items_pass (Value.isSorted_array_iff.1 hv) hvs h
  exact ⟨vs, bs'.map c.toValue, rfl, toValue_list c bs', hitems⟩

end Codec

/-! ## Members -/

namespace Member

variable {α β : Type}

/-- Whatever sorted value other than `null` sets a part of `a`, writing `a'` relates to it. -/
def Passes (m : Member α) (a a' : α) (R : Passage) : Prop :=
  ∀ v a₀, v.IsSorted → v ≠ .null → m.read .value v.draft a₀ = .ok a →
    ∃ v', m.write a' = some v' ∧ R v v'.sorted

section

variable {key : String} {c : Codec β} {R : Passage} {a a' : α}

/-- A member passes if its part does. -/
theorem required_passes {get : α → β} {set : β → α → α} (hset : ∀ x a, get (set x a) = x)
    (h : c.Passes (get a) (get a') R) : (required key c get set).Passes a a' R := by
  intro v a₀ hv _ hread
  obtain ⟨b, hb, rfl⟩ := exists_of_map_eq_ok hread
  rw [hset] at h
  exact ⟨c.write (get a'), rfl, h v hv hb⟩

/-- A member with a default passes if its part does. -/
theorem defaulted_passes {get : α → β} {set : β → α → α} (hset : ∀ x a, get (set x a) = x)
    (h : c.Passes (get a) (get a') R) : (defaulted key c get set).Passes a a' R := by
  have hrequired : (required key c get set).Passes a a' R := required_passes hset h
  exact hrequired

/-- An optional member passes if its part is there after it was there before, and passes. -/
theorem optional_passes {get : α → Option β} {set : Option β → α → α}
    (hset : ∀ x a, get (set x a) = x)
    (h : ∀ b, get a = some b → ∃ b', get a' = some b' ∧ c.Passes b b' R) :
    (optional key c get set).Passes a a' R := by
  intro v a₀ hv hnull hread
  obtain ⟨x, hx, rfl⟩ := exists_of_map_eq_ok hread
  -- only `null` is read as absent
  rw [Codec.readOptional_of_ne_null (Json.Value.draft_ne_null hnull)] at hx
  obtain ⟨b, hb, rfl⟩ := exists_of_map_eq_ok hx
  obtain ⟨b', hget, hpasses⟩ := h b (hset (some b) a₀)
  exact ⟨c.write b', congrArg (Option.map c.write) hget, hpasses v hv hb⟩

/-- An optional member passes if its part is filled in where it is absent, and then completed in a
way that passes. -/
theorem optional_fills {get : α → Option β} {set : Option β → α → α} {f : β → β} {blank : β}
    (hset : ∀ x a, get (set x a) = x) (hc : ∀ b, c.Passes b (f b) R)
    (h : get a' = some (f ((get a).getD blank))) : (optional key c get set).Passes a a' R := by
  refine optional_passes hset fun b hb => ⟨f b, ?_, hc b⟩
  rw [h, hb, Option.getD_some]

/-- An optional member passes if its part stays. -/
theorem optional_keeps {get : α → Option β} {set : Option β → α → α}
    (hset : ∀ x a, get (set x a) = x) (hc : ∀ b, c.Passes b b R) (h : get a' = get a) :
    (optional key c get set).Passes a a' R :=
  optional_passes hset fun b hb => ⟨b, h.trans hb, hc b⟩

end

end Member

/-! ## Records -/

namespace Shape

variable {α : Type} {s : Shape α}

/-- A table that matches a list of known keys has these keys. -/
theorem map_key_of_forall₂ {P : Member α → String × Passage → Prop} {ms : List (Member α)}
    {known : List (String × Passage)}
    (h : List.Forall₂ (fun m r => m.key = r.1 ∧ P m r) ms known) :
    known.map (·.1) = ms.map (·.key) := by
  induction h with
  | nil => rfl
  | cons hm _ ih => rw [List.map_cons, List.map_cons, ih, hm.1]

/-- What is on the right of two lists that match has a partner on the left. -/
theorem exists_mem_left_of_forall₂ {β : Type} {R : α → β → Prop} {as : List α} {bs : List β}
    (h : List.Forall₂ R as bs) {b : β} (hb : b ∈ bs) : ∃ a ∈ as, R a b := by
  induction h with
  | nil => exact nomatch hb
  | cons h _ ih =>
    rcases List.mem_cons.1 hb with rfl | hb
    · exact ⟨_, List.mem_cons_self, h⟩
    · obtain ⟨a, ha, h⟩ := ih hb
      exact ⟨a, List.mem_cons_of_mem _ ha, h⟩

/-- A record is passed along if its other members are kept and each member of its table passes. -/
theorem Lawful.passes (hs : s.Lawful) {a a' : α} {known : List (String × Passage)}
    (hothers : s.others a' = s.others a)
    (hknown : List.Forall₂ (fun m r => m.key = r.1 ∧ m.Passes a a' r.2) s.members known) :
    s.codec.Passes a a' (.record known) := by
  have hkeys : known.map (·.1) = s.keys := map_key_of_forall₂ hknown
  intro v hv hread
  obtain ⟨hnodup, hown⟩ := hs.own_keys_of_read hv hread
  rw [← hothers] at hnodup hown
  obtain ⟨ms, _, rfl, _, _⟩ := hs.read_eq_ok hread
  have hunknown := hs.others_of_read hv hread
  obtain ⟨ms', hwrite, hwritten, hrest⟩ := hs.separate.get?_toValue hnodup hown
  refine ⟨ms, ms', rfl, hwrite, fun key hkey => ?_, fun r hr u hu hnull => ?_⟩
  · -- an unknown member comes back from the record with its value, which was sorted already
    rw [hkeys] at hkey
    have hnone : (s.member? key).isNone :=
      Option.isNone_iff_eq_none.2 (member?_eq_none_iff.2 hkey)
    rw [hrest key hkey, hothers, hunknown, Members.get?_filter fun key => (s.member? key).isNone,
      if_pos hnone]
    cases hu : Members.get? ms key with
    | none => rfl
    | some u => exact congrArg some (hv.get? hu)
  · -- a known member can be taken to be the one that was read last
    obtain ⟨m, hm, hmr⟩ := exists_mem_left_of_forall₂ hknown hr
    rw [← hmr.1] at hu ⊢
    obtain ⟨a₀, ha₀⟩ := hs.exists_read hread hm hu
    obtain ⟨u', hu', hR⟩ := hmr.2 u a₀ (hv.get? hu) hnull ha₀
    exact ⟨u'.sorted, by rw [hwritten m hm, hu']; rfl, hR⟩

end Shape

end Dashboards
