import Dashboards.Proofs.Json.Matching
import Dashboards.Proofs.Record.Passthrough

/-!
# Drafts of one value read alike

A document is read as it is found, in the order in which it is written, or after its value was made,
whose members are sorted.  If no object in it has two members of one name, both ways give the same:
on the way a place is read from the same contents, and the members of a separate table can be read
in any order.  So this is said of any two matching drafts, and what is read of the first is read of
the second.

What goes wrong is not the same: of several problems, the first one met is reported.

## Key results

- `Shape.Separate.readMembers_of_perm`: the order of the members makes no difference
- `Shape.Separate.codec_readsAlike`: records read alike if their members do
-/

namespace Dashboards

open Json (Draft DraftMembers Fault Members Origin Value)

variable {α β : Type}

/-- What a reader finds in a draft it also finds in every draft that matches. -/
def ReadsAlike (read : Origin → Draft → Except Problem β) : Prop :=
  ∀ o o' d d', Draft.Matches o o' d d' → ∀ b, read o d = .ok b → read o' d' = .ok b

namespace ReadsAlike

variable {read : Origin → Draft → Except Problem β}

/-- Matching drafts are those of one scalar, or matching arrays, or matching objects. -/
theorem of_cases
    (hscalar : ∀ o o' (v : Value), v.isScalar → ∀ b, read o v.draft = .ok b →
      read o' v.draft = .ok b)
    (harray : ∀ o o' ds ds', Draft.Matches o o' (.array ds none) (.array ds' none) → ∀ b,
      read o (.array ds none) = .ok b → read o' (.array ds' none) = .ok b)
    (hobject : ∀ o o' ms ms', Draft.Matches o o' (.object ms none) (.object ms' none) → ∀ b,
      read o (.object ms none) = .ok b → read o' (.object ms' none) = .ok b) :
    ReadsAlike read := by
  intro o o' d d' h b
  rcases h.cases with ⟨v, hv, rfl, rfl⟩ | ⟨ds, ds', rfl, rfl⟩ | ⟨ms, ms', rfl, rfl⟩
  · exact hscalar o o' v hv b
  · exact harray o o' ds ds' h b
  · exact hobject o o' ms ms' h b

/-- A reader of scalars. -/
theorem of_scalar (hscalar : ∀ o o' (v : Value), v.isScalar → read o v.draft = read o' v.draft)
    (harray : ∀ o ds b, read o (.array ds none) ≠ .ok b)
    (hobject : ∀ o ms b, read o (.object ms none) ≠ .ok b) : ReadsAlike read :=
  of_cases (fun o o' v hv _ h => hscalar o o' v hv ▸ h)
    (fun o _ ds _ _ b h => absurd h (harray o ds b))
    (fun o _ ms _ _ b h => absurd h (hobject o ms b))

/-- What is made of a part that reads alike. -/
theorem map {read : Origin → Draft → Except Problem α} (h : ReadsAlike read) (f : α → β) :
    ReadsAlike fun o d => (read o d).map f := by
  intro o o' d d' hmatch b
  simp only [Json.map_eq_ok_iff]
  rintro ⟨a, ha, rfl⟩
  exact ⟨a, h o o' d d' hmatch a ha, rfl⟩

end ReadsAlike

namespace Codec

/-! ## Scalars -/

/-- Strings are scalars. -/
@[simp] theorem string_readsAlike : ReadsAlike string.read :=
  .of_scalar (fun _ _ v _ => by cases v <;> rfl) nofun nofun

/-- Truth values are scalars. -/
@[simp] theorem bool_readsAlike : ReadsAlike bool.read :=
  .of_scalar (fun _ _ v _ => by cases v <;> rfl) nofun nofun

/-- Numbers of 32 bits are scalars. -/
@[simp] theorem uint32_readsAlike : ReadsAlike uint32.read :=
  .of_scalar (fun _ _ _ _ => rfl) nofun nofun

/-- Numbers of 64 bits are scalars. -/
@[simp] theorem uint64_readsAlike : ReadsAlike uint64.read :=
  .of_scalar (fun _ _ _ _ => rfl) nofun nofun

/-- A fault as a problem is good only if there is no fault. -/
theorem orBroken_eq_ok_iff {x : Except Fault β} {b : β} : orBroken x = .ok b ↔ x = .ok b := by
  cases x <;> simp [orBroken]

/-- Any value. -/
@[simp] theorem raw_readsAlike : ReadsAlike raw.read := by
  intro o o' d d' hmatch b h
  have hd : d.read o = .ok b := orBroken_eq_ok_iff.1 h
  exact orBroken_eq_ok_iff.2 (hmatch.read_eq_ok hd)

/-- Any object. -/
@[simp] theorem rawObject_readsAlike : ReadsAlike rawObject.read := by
  refine .of_cases (fun o o' v hv b h => ?_) nofun fun o o' ms ms' hmatch b h => ?_
  · cases v with
    | null | bool _ | number _ | string _ => exact nomatch h
    | array _ | object _ => exact nomatch hv
  · -- the whole object is read, and its members are taken out of it
    cases hd : Draft.read o (.object ms none) with
    | error f => simp only [rawObject, hd, orBroken] at h; cases h
    | ok v =>
      simp only [rawObject, hd, hmatch.read_eq_ok hd] at h ⊢
      exact h

/-! ## Lists and values that may be absent -/

/-- What the items of a list are side by side with, when another list takes its place. -/
theorem forall₂_of_forall₂ {γ : Type} {R : α → β → Prop} {P : α → γ → Prop} {Q : β → γ → Prop}
    (hPQ : ∀ a b, R a b → ∀ c, P a c → Q b c) {as : List α} {bs : List β}
    (h : List.Forall₂ R as bs) {cs : List γ} (hcs : List.Forall₂ P as cs) :
    List.Forall₂ Q bs cs := by
  have hbs : List.Forall₂ (flip R) bs as := h.flip
  have hcs : List.Forall₂ (flip P) cs as := hcs.flip
  exact Json.forall₂_of_common (fun b c a hab hac => hPQ a b hab c hac) hbs hcs

/-- A list reads alike if its items do, each with its partner in the other draft. -/
@[simp] theorem list_readsAlike {c : Codec β} (hc : ReadsAlike c.read) :
    ReadsAlike (list c).read := by
  refine .of_cases (fun o o' v hv b h => ?_) (fun o o' ds ds' hmatch bs h => ?_) nofun
  · cases v with
    | null | bool _ | number _ | string _ => exact nomatch h
    | array _ | object _ => exact nomatch hv
  · obtain ⟨_, o₁, ⟨⟩, ho, hds⟩ := list_read_draft_eq_ok_iff.1 h
    obtain ⟨o₁', ho', hitems⟩ := hmatch.array ho
    refine list_read_draft_eq_ok_iff.2 ⟨ds', o₁', rfl, ho', ?_⟩
    exact forall₂_of_forall₂ (fun d d' hd b hb => hc o₁ o₁' d d' hd b hb) hitems hds

/-- What may be absent reads alike, since `null` matches only `null`. -/
@[simp] theorem readOptional_readsAlike {c : Codec β} (hc : ReadsAlike c.read) :
    ReadsAlike (readOptional c) := by
  intro o o' d d' hmatch b h
  by_cases hnull : d = .null
  · obtain rfl := hmatch.eq_null_iff.1 hnull
    subst hnull
    exact h
  · rw [readOptional_of_ne_null hnull] at h
    rw [readOptional_of_ne_null (mt hmatch.eq_null_iff.2 hnull)]
    exact hc.map some o o' d d' hmatch b h

/-! ## Texts -/

/-- What is read from a text is read from its draft, after which nothing may come. -/
theorem ofText_eq_ok_iff {c : Codec β} {text : String} {b : β} :
    c.ofText text = .ok b ↔
      c.read .wholeText (Draft.ofText text).1 = .ok b ∧ (Draft.ofText text).2 = none := by
  rw [ofText]
  cases hd : c.read .wholeText (Draft.ofText text).1 with
  | error f => simp [hd, bind, Except.bind]
  | ok u =>
    cases hstop : (Draft.ofText text).2 <;>
      simp [hd, hstop, checkStop, bind, Except.bind, pure, Except.pure]

end Codec

/-! ## Members -/

namespace Member

/-- A member finds in every matching draft what it finds in a draft. -/
def ReadsAlike (m : Member α) : Prop := ∀ a, Dashboards.ReadsAlike fun o d => m.read o d a

section

variable {key : String} {c : Codec β}

/-- A required member reads alike if its codec does. -/
@[simp] theorem required_readsAlike {get : α → β} {set : β → α → α}
    (hc : Dashboards.ReadsAlike c.read) : (required key c get set).ReadsAlike :=
  fun a => hc.map (set · a)

/-- A member with a default reads alike if its codec does. -/
@[simp] theorem defaulted_readsAlike {get : α → β} {set : β → α → α}
    (hc : Dashboards.ReadsAlike c.read) : (defaulted key c get set).ReadsAlike :=
  fun a => hc.map (set · a)

/-- An optional member reads alike if its codec does. -/
@[simp] theorem optional_readsAlike {get : α → Option β} {set : Option β → α → α}
    (hc : Dashboards.ReadsAlike c.read) : (optional key c get set).ReadsAlike :=
  fun a => (Codec.readOptional_readsAlike hc).map (set · a)

end

end Member

/-! ## Records -/

namespace Shape

variable {s : Shape α}

/-! ### From a draft to one that matches -/

section

variable (hmembers : ∀ m ∈ s.members, m.ReadsAlike)
include hmembers

/-- A member that is read from a draft is read from every matching one. -/
theorem reads_of_matches {o o' : Origin} {key : String} {d d' : Draft}
    (hmatch : Draft.Matches o o' d d') {p p' : Progress α} (h : s.Reads o key d p p') :
    s.Reads o' key d' p p' := by
  rcases h with ⟨hm, hnot, hr⟩ | ⟨hm, hrem, -⟩ | ⟨hm, hrem, hr⟩
  · have halike := hmembers _ (member?_eq_some hm).1 p.record
    exact .known hm hnot (halike o o' d d' hmatch _ hr)
  · -- what is passed over has to be well formed, and a draft with a value is
    exact .skipped hm hrem hmatch.skip_right
  · exact .kept hm hrem (hmatch.read_eq_ok hr)

/-- Members that are read are read as well from matching drafts in the same order. -/
theorem readMembers_of_matches {o o' : Origin} {ms ms' : DraftMembers}
    (h : List.Forall₂ (fun m m' => m.1 = m'.1 ∧ Draft.Matches o o' m.2 m'.2) ms ms')
    {p p' : Progress α} (hp : s.readMembers o ms p = .ok p') :
    s.readMembers o' ms' p = .ok p' := by
  induction h generalizing p with
  | nil => exact hp
  | @cons m m' ms ms' hm _ ih =>
    obtain ⟨key, d⟩ := m
    obtain ⟨key', d'⟩ := m'
    obtain ⟨rfl, hmatch⟩ := hm
    cases key with
    | error f => cases hp
    | ok key =>
      obtain ⟨p₁, h₁, hrest⟩ := readMembers_cons_eq_ok_iff.1 hp
      exact readMembers_cons_eq_ok_iff.2 ⟨p₁, reads_of_matches hmembers hmatch h₁, ih hrest⟩

/-- Members that are read from a list are read as well from a list of matching items. -/
theorem readItems_of_matches {o o' : Origin} (members : List (Member α))
    (hsub : members ⊆ s.members) {ds ds' : List Draft}
    (h : List.Forall₂ (Draft.Matches o o') ds ds') {n : Nat} {a a' : α}
    (ha : s.readItems o none members ds n a = .ok (a', [])) :
    s.readItems o' none members ds' n a = .ok (a', []) := by
  induction members generalizing ds ds' n a with
  | nil =>
    cases h with
    | nil => exact ha
    | cons _ _ => cases ha
  | cons m members ih =>
    obtain ⟨hm, hsub⟩ := List.cons_subset.1 hsub
    cases h with
    | nil =>
      simp only [readItems] at ha ⊢
      split at ha
      next => cases ha
      next hrequired =>
        rw [if_neg hrequired]
        exact ih hsub .nil ha
    | @cons d d' ds ds' hd hds =>
      rw [readItems] at ha ⊢
      -- the items have partners in the same places, so the members of the table go along
      cases hr : m.read o d a with
      | error e => rw [hr] at ha; cases ha
      | ok a₁ =>
        rw [hr] at ha
        have hr' : m.read o' d' a = .ok a₁ := hmembers m hm a o o' d d' hd a₁ hr
        rw [hr']
        exact ih hsub hds ha

end

/-! ### The order of the members -/

/-- The same members were read, whatever the order. -/
structure Progress.Alike (p q : Progress α) : Prop where
  record : p.record = q.record
  met : ∀ key, key ∈ p.met ↔ key ∈ q.met
  others : p.others.sort = q.others.sort

/-- What was read is alike to itself. -/
theorem Progress.Alike.refl (p : Progress α) : p.Alike p := ⟨rfl, fun _ => Iff.rfl, rfl⟩

/-- Orders of reading can be changed one after the other. -/
theorem Progress.Alike.trans {p q r : Progress α} (h : p.Alike q) (h' : q.Alike r) : p.Alike r :=
  ⟨h.record.trans h'.record, fun key => (h.met key).trans (h'.met key), h.others.trans h'.others⟩

/-- What can be read after some members can be read after the same members in another order. -/
theorem Reads.of_alike {o : Origin} {key : String} {d : Draft} {p q p' : Progress α}
    (h : s.Reads o key d p p') (hpq : p.Alike q) :
    ∃ q', s.Reads o key d q q' ∧ p'.Alike q' := by
  -- a member of the table, one that is passed over, or one that is kept
  rcases h with ⟨hm, hnot, hr⟩ | ⟨hm, hrem, hr⟩ | ⟨hm, hrem, hr⟩
  · refine ⟨_, .known hm (fun h => hnot ((hpq.met key).2 h)) (hpq.record ▸ hr), rfl, ?_, hpq.others⟩
    exact fun k => by simp only [List.mem_cons, hpq.met k]
  · exact ⟨q, .skipped hm hrem hr, hpq⟩
  · refine ⟨_, .kept hm hrem hr, hpq.record, hpq.met, ?_⟩
    rw [Members.sort_append_singleton, Members.sort_append_singleton, hpq.others]

/-- Two members with different keys can be read in either order. -/
theorem Separate.reads_comm (hs : s.Separate) {o : Origin} {key key' : String} (hne : key ≠ key')
    {d d' : Draft} {p p₁ p₂ : Progress α} (h : s.Reads o key d p p₁)
    (h' : s.Reads o key' d' p₁ p₂) :
    ∃ q₁ q₂, s.Reads o key' d' p q₁ ∧ s.Reads o key d q₁ q₂ ∧ p₂.Alike q₂ := by
  rcases h with ⟨hm, hnot, hr⟩ | ⟨hm, hrem, hr⟩ | ⟨hm, hrem, hr⟩
  · rcases h' with ⟨hm', hnot', hr'⟩ | ⟨hm', hrem', hr'⟩ | ⟨hm', hrem', hr'⟩
    · -- two members of the table set parts of their own
      obtain ⟨hmem, hkey⟩ := member?_eq_some hm
      obtain ⟨hmem', hkey'⟩ := member?_eq_some hm'
      have hcommutes := hs.commutes_of_key_ne hmem hmem' (hkey ▸ hkey' ▸ hne)
      obtain ⟨a₁, ha₁, ha₂⟩ := (hcommutes o d d' p.record _).1 ⟨_, hr, hr'⟩
      have hfresh' : key' ∉ p.met := fun h => hnot' (List.mem_cons_of_mem _ h)
      have hfresh : key ∉ key' :: p.met := fun h => (List.mem_cons.1 h).elim hne hnot
      refine ⟨_, _, .known hm' hfresh' ha₁, .known hm hfresh ha₂, rfl, fun k => ?_, rfl⟩
      simp only [List.mem_cons]
      exact or_left_comm
    · exact ⟨_, _, .skipped hm' hrem' hr', .known hm hnot hr, .refl _⟩
    · exact ⟨_, _, .kept hm' hrem' hr', .known hm hnot hr, .refl _⟩
  -- what is passed over leaves no trace, so it can be passed over later
  · exact ⟨_, _, h', .skipped hm hrem hr, .refl _⟩
  · rcases h' with ⟨hm', hnot', hr'⟩ | ⟨hm', hrem', hr'⟩ | ⟨hm', hrem', hr'⟩
    · exact ⟨_, _, .known hm' hnot' hr', .kept hm hrem hr, .refl _⟩
    · exact ⟨_, _, .skipped hm' hrem' hr', .kept hm hrem hr, .refl _⟩
    · -- two other members are sorted by their keys
      refine ⟨_, _, .kept hm' hrem' hr', .kept hm hrem hr, rfl, fun _ => Iff.rfl, ?_⟩
      simp only [Members.sort_append_singleton]
      exact Members.insert_comm (Members.ascending_sort _) hne.symm _ _

/-- Members can be read after the same members in another order. -/
theorem readMembers_of_alike (o : Origin) (ms : DraftMembers) {p q p' : Progress α}
    (h : s.readMembers o ms p = .ok p') (hpq : p.Alike q) :
    ∃ q', s.readMembers o ms q = .ok q' ∧ p'.Alike q' := by
  induction ms generalizing p q with
  | nil =>
    cases h
    exact ⟨q, rfl, hpq⟩
  | cons m ms ih =>
    obtain ⟨key, d⟩ := m
    cases key with
    | error f => cases h
    | ok key =>
      simp only [readMembers_cons_eq_ok_iff] at h ⊢
      obtain ⟨p₁, h₁, hrest⟩ := h
      obtain ⟨q₁, hq₁, halike⟩ := h₁.of_alike hpq
      obtain ⟨q', hq', halike'⟩ := ih hrest halike
      exact ⟨q', ⟨q₁, hq₁, hq'⟩, halike'⟩

/-- The order of the members makes no difference if no name occurs twice. -/
theorem Separate.readMembers_of_perm (hs : s.Separate) {o : Origin} {ms ms' : DraftMembers}
    (hperm : ms.Perm ms') (hnodup : (Draft.names ms).Nodup) {p p' : Progress α}
    (h : s.readMembers o ms p = .ok p') :
    ∃ q', s.readMembers o ms' p = .ok q' ∧ p'.Alike q' := by
  induction hperm generalizing p p' with
  | nil => exact ⟨p', h, .refl p'⟩
  | cons m _ ih =>
    obtain ⟨key, d⟩ := m
    cases key with
    | error f => cases h
    | ok key =>
      simp only [readMembers_cons_eq_ok_iff] at h ⊢
      obtain ⟨p₁, h₁, hrest⟩ := h
      obtain ⟨q', hq', halike⟩ := ih (List.nodup_cons.1 hnodup).2 hrest
      exact ⟨q', ⟨p₁, h₁, hq'⟩, halike⟩
  -- two neighbours change places; a permutation is made of such steps
  | swap m m' ms =>
    obtain ⟨key, d⟩ := m
    obtain ⟨key', d'⟩ := m'
    cases key' with
    | error f => cases h
    | ok key' =>
      cases key with
      | error f =>
        obtain ⟨_, _, hrest⟩ := readMembers_cons_eq_ok_iff.1 h
        cases hrest
      | ok key =>
        have hne : key' ≠ key := fun he =>
          (List.nodup_cons.1 hnodup).1 (List.mem_cons.2 (.inl he))
        simp only [readMembers_cons_eq_ok_iff] at h ⊢
        obtain ⟨p₁, h₁, p₂, h₂, hrest⟩ := h
        -- members with different keys can be read in either order
        obtain ⟨q₁, q₂, hq₁, hq₂, halike⟩ := hs.reads_comm hne h₁ h₂
        obtain ⟨q', hq', halike'⟩ := readMembers_of_alike o ms hrest halike
        exact ⟨q', ⟨q₁, hq₁, q₂, hq₂, hq'⟩, halike'⟩
  | trans hperm _ ih ih' =>
    obtain ⟨q, hq, halike⟩ := ih hnodup h
    obtain ⟨q', hq', halike'⟩ := ih' ((hperm.filterMap _).nodup_iff.1 hnodup) hq
    exact ⟨q', hq', halike.trans halike'⟩

/-- The order of the members makes no difference to the record of an object. -/
theorem Separate.readObject_of_perm (hs : s.Separate) {o : Origin} {ms ms' : DraftMembers}
    (hperm : ms.Perm ms') (hnodup : (Draft.names ms).Nodup) {a : α}
    (h : s.readObject o ms none = .ok a) : s.readObject o ms' none = .ok a := by
  rw [readObject_eq_ok_iff] at h ⊢
  obtain ⟨-, o', p, ho, hp, hmissing, rfl⟩ := h
  obtain ⟨q, hq, halike⟩ := hs.readMembers_of_perm hperm hnodup hp
  -- whether a member is missing depends on which keys were met, not on their order
  have hmet : p.met.contains = q.met.contains := by
    funext key
    rw [Bool.eq_iff_iff, List.contains_iff_mem, List.contains_iff_mem, halike.met key]
  refine ⟨rfl, o', q, ho, hq, ?_, ?_⟩
  · simp only [missing?] at hmissing ⊢
    rwa [← hmet]
  · unfold Shape.keepOthers
    rw [halike.record, halike.others]

/-- A record reads alike if its members do. -/
theorem Separate.codec_readsAlike (hs : s.Separate) (hmembers : ∀ m ∈ s.members, m.ReadsAlike) :
    ReadsAlike s.codec.read := by
  refine .of_cases (fun o o' v hv a h => ?_) (fun o o' ds ds' hmatch a h => ?_)
    fun o o' ms ms' hmatch a h => ?_
  · -- no record is a scalar
    cases v with
    | null | bool _ | number _ | string _ =>
      simp only [codec, Value.draft, read] at h
      cases h
    | array _ | object _ => cases hv
  · -- only a record that drops other members is read from a list
    simp only [codec, read] at h ⊢
    cases hrem : s.remainder with
    | kept get set => simp only [hrem] at h; cases h
    | dropped =>
      simp only [hrem, readList_eq_ok_iff] at h ⊢
      obtain ⟨-, o₁, ho, hitems⟩ := h
      obtain ⟨o₁', ho', hds⟩ := hmatch.array ho
      exact ⟨trivial, o₁', ho',
        readItems_of_matches hmembers s.members (List.Subset.refl _) hds hitems⟩
  · -- first the members are put in the order of the other draft, and then they are those of it
    have h : s.readObject o ms none = .ok a := h
    obtain ⟨-, o₁, _, ho, -⟩ := readObject_eq_ok_iff.1 h
    obtain ⟨o₁', ho', sameOrder, hperm, hms⟩ := hmatch.object ho
    have hnodup := (Draft.hasDistinctNames_object_iff.1 hmatch.left_names).1
    have hordered := hs.readObject_of_perm hperm hnodup h
    obtain ⟨-, o₂, p, ho₂, hp, hmissing, rfl⟩ := readObject_eq_ok_iff.1 hordered
    obtain rfl := Except.ok.inj (ho.symm.trans ho₂)
    exact readObject_eq_ok_iff.2
      ⟨rfl, o₁', p, ho', readMembers_of_matches hmembers hms hp, hmissing, rfl⟩

end Shape

end Dashboards
