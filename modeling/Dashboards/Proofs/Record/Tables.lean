import Dashboards.Proofs.Json.Sorted
import Dashboards.Record.Codec
import Mathlib.Data.List.Pairwise

/-!
# Records by their tables

A table is lawful if every member of it sets a part of the record of its own and the members that it
does not know are kept in another one.  Then the order in which a document has its members makes no
difference: any of them can be taken to be read last, so that what it sets is found in the record.

## Key results

- `Shape.readObject_eq_ok_iff`, `Shape.readList_eq_ok_iff`: how a record is read
- `Shape.Lawful.exists_read`: every member of the table that a document has can be read last
- `Shape.Lawful.others_of_read`: the other members are kept as they are
- `Shape.Separate.get?_toValue`: what is found in the value that is written
-/

namespace Dashboards

open Json (Draft DraftMembers Fault Members Origin Value)

variable {α β : Type}

/-- A mapped outcome is good only if there was a good one to map. -/
theorem exists_of_map_eq_ok {ε : Type} {f : α → β} {x : Except ε α} {b : β}
    (h : x.map f = .ok b) : ∃ a, x = .ok a ∧ f a = b := by
  cases x with
  | error e => exact nomatch h
  | ok a => exact ⟨a, rfl, Except.ok.inj h⟩

/-! ## Members -/

namespace Member

/-- A change of the record can be made before a member is read or after it. -/
def CommutesWith (m : Member α) (f : α → α) : Prop :=
  ∀ o d a, m.read o d (f a) = (m.read o d a).map f

/-- Two members can be read in either order. -/
def Commutes (m m' : Member α) : Prop :=
  ∀ o d d' a a₂, (∃ a₁, m.read o d a = .ok a₁ ∧ m'.read o d' a₁ = .ok a₂) ↔
    ∃ a₁, m'.read o d' a = .ok a₁ ∧ m.read o d a₁ = .ok a₂

/-- If two members can be read in either order, so can they the other way round. -/
theorem Commutes.symm {m m' : Member α} (h : m.Commutes m') : m'.Commutes m :=
  fun o d d' a a₂ => (h o d' d a a₂).symm

/-- Setting the part of a member commutes with every change that leaves the part alone. -/
theorem commutesWith_of_read {m : Member α} (read : Origin → Draft → Except Problem β)
    {set : β → α → α} (hm : ∀ o d a, m.read o d a = (read o d).map (set · a)) {f : α → α}
    (h : ∀ x a, set x (f a) = f (set x a)) : m.CommutesWith f := by
  intro o d a
  rw [hm, hm]
  cases read o d with
  | error e => rfl
  | ok x => exact congrArg Except.ok (h x a)

/-- A member can be read before or after another one whose part it leaves alone. -/
theorem commutes_of_read {m m' : Member α} (read : Origin → Draft → Except Problem β)
    {set : β → α → α} (hm : ∀ o d a, m'.read o d a = (read o d).map (set · a))
    (h : ∀ x, m.CommutesWith (set x)) : m.Commutes m' := by
  intro o d d' a a₂
  simp only [hm]
  cases read o d' with
  | error e => exact ⟨fun ⟨_, _, he⟩ => (nomatch he), fun ⟨_, he, _⟩ => (nomatch he)⟩
  | ok x =>
    -- the draft is the same either way, so only the two changes are exchanged
    constructor
    · rintro ⟨a₁, h₁, h₂⟩
      refine ⟨set x a, rfl, ?_⟩
      rw [h x o d a, h₁]
      exact h₂
    · rintro ⟨a₁, h₁, h₂⟩
      rw [← Except.ok.inj h₁, h x o d a] at h₂
      obtain ⟨a', hr, rfl⟩ := exists_of_map_eq_ok h₂
      exact ⟨a', hr, rfl⟩

/-- A change that leaves the part of a required member alone commutes with it. -/
@[simp] theorem required_commutesWith (key : String) (c : Codec β) (get : α → β)
    {set : β → α → α} {f : α → α} (h : ∀ x a, set x (f a) = f (set x a)) :
    (required key c get set).CommutesWith f :=
  commutesWith_of_read c.read (fun _ _ _ => rfl) h

/-- A change that leaves the part of a member with a default alone commutes with it. -/
@[simp] theorem defaulted_commutesWith (key : String) (c : Codec β) (get : α → β)
    {set : β → α → α} {f : α → α} (h : ∀ x a, set x (f a) = f (set x a)) :
    (defaulted key c get set).CommutesWith f :=
  commutesWith_of_read c.read (fun _ _ _ => rfl) h

/-- A change that leaves the part of an optional member alone commutes with it. -/
@[simp] theorem optional_commutesWith (key : String) (c : Codec β) (get : α → Option β)
    {set : Option β → α → α} {f : α → α} (h : ∀ x a, set x (f a) = f (set x a)) :
    (optional key c get set).CommutesWith f :=
  commutesWith_of_read (Codec.readOptional c) (fun _ _ _ => rfl) h

/-- A required member commutes with every member that leaves its part alone. -/
@[simp] theorem commutes_required (key : String) (c : Codec β) (get : α → β)
    {set : β → α → α} {m : Member α} (h : ∀ x, m.CommutesWith (set x)) :
    m.Commutes (required key c get set) :=
  commutes_of_read c.read (fun _ _ _ => rfl) h

/-- A member with a default commutes with every member that leaves its part alone. -/
@[simp] theorem commutes_defaulted (key : String) (c : Codec β) (get : α → β)
    {set : β → α → α} {m : Member α} (h : ∀ x, m.CommutesWith (set x)) :
    m.Commutes (defaulted key c get set) :=
  commutes_of_read c.read (fun _ _ _ => rfl) h

/-- An optional member commutes with every member that leaves its part alone. -/
@[simp] theorem commutes_optional (key : String) (c : Codec β) (get : α → Option β)
    {set : Option β → α → α} {m : Member α} (h : ∀ x, m.CommutesWith (set x)) :
    m.Commutes (optional key c get set) :=
  commutes_of_read (Codec.readOptional c) (fun _ _ _ => rfl) h

end Member

/-! ## Tables -/

namespace Shape

variable {s : Shape α}

/-- The keys of the table. -/
def keys (s : Shape α) : List String := s.members.map (·.key)

/-- A table whose members set parts of their own.  The record may keep the other members in a part
that is not one of these, or drop them. -/
structure Separate (s : Shape α) : Prop where
  nodup : s.keys.Nodup
  commutes : s.members.Pairwise Member.Commutes
  keepOthers : ∀ m ∈ s.members, ∀ others, m.CommutesWith (s.keepOthers others)

/-- A table whose members set parts of their own, in a record that keeps all other members. -/
structure Lawful (s : Shape α) : Prop where
  nodup : s.keys.Nodup
  commutes : s.members.Pairwise Member.Commutes
  keeps : s.remainder ≠ .dropped
  keepOthers : ∀ m ∈ s.members, ∀ others, m.CommutesWith (s.keepOthers others)
  others_keepOthers : ∀ others a, s.others (s.keepOthers others a) = others.sort

/-- A lawful table has members that set parts of their own. -/
theorem Lawful.separate (hs : s.Lawful) : s.Separate where
  nodup := hs.nodup
  commutes := hs.commutes
  keepOthers := hs.keepOthers

/-- Nothing happens to a record that drops the other members. -/
theorem keepOthers_of_dropped (hdropped : s.remainder = .dropped) (others : Members) :
    s.keepOthers others = id := by
  funext a
  simp only [keepOthers, hdropped, id]

/-- The laws of a table, for a record that drops the other members. -/
theorem Separate.of_dropped (hdropped : s.remainder = .dropped) (hnodup : s.keys.Nodup)
    (hcommutes : s.members.Pairwise Member.Commutes) : s.Separate where
  nodup := hnodup
  commutes := hcommutes
  keepOthers m _ others o d a := by
    rw [keepOthers_of_dropped hdropped]
    show m.read o d a = (m.read o d a).map id
    cases m.read o d a <;> rfl

/-- The laws of a table, from those of the part that keeps the other members. -/
theorem Lawful.of_kept {get : α → Members} {set : Members → α → α}
    (hkept : s.remainder = .kept get set) (hget : ∀ x a, get (set x a) = x)
    (hnodup : s.keys.Nodup) (hcommutes : s.members.Pairwise Member.Commutes)
    (hset : ∀ m ∈ s.members, ∀ x, m.CommutesWith (set x)) : s.Lawful where
  nodup := hnodup
  commutes := hcommutes
  keeps h := nomatch hkept.symm.trans h
  keepOthers m hm others := by
    have hkeep : s.keepOthers others = set others.sort := by
      funext a
      simp only [Shape.keepOthers, hkept]
    exact hkeep ▸ hset m hm others.sort
  others_keepOthers others a := by simp only [Shape.others, Shape.keepOthers, hkept, hget]

/-- What is found under a key is a member of the table that has this key. -/
theorem member?_eq_some {key : String} {m : Member α} (h : s.member? key = some m) :
    m ∈ s.members ∧ m.key = key := by
  have hkey := List.find?_some h
  exact ⟨List.mem_of_find?_eq_some h, beq_iff_eq.1 hkey⟩

/-- Nothing is found under the keys that are not in the table, and only under those. -/
theorem member?_eq_none_iff {key : String} : s.member? key = none ↔ key ∉ s.keys := by
  simp [member?, keys]

/-- If no key occurs twice in the table, each member is found under its key. -/
theorem Separate.member?_key (hs : s.Separate) {m : Member α} (hm : m ∈ s.members) :
    s.member? m.key = some m := by
  cases hf : s.member? m.key with
  | none => exact absurd (List.mem_map_of_mem hm) (member?_eq_none_iff.1 hf)
  | some m' =>
    obtain ⟨hm', hkey⟩ := member?_eq_some hf
    rw [List.inj_on_of_nodup_map hs.nodup hm' hm hkey]

/-- Members with different keys can be read in either order. -/
theorem Separate.commutes_of_key_ne (hs : s.Separate) {m m' : Member α} (hm : m ∈ s.members)
    (hm' : m' ∈ s.members) (h : m.key ≠ m'.key) : m.Commutes m' := by
  have hne : m ≠ m' := fun he => h (congrArg Member.key he)
  have : Std.Symm (Member.Commutes (α := α)) := ⟨fun _ _ h => h.symm⟩
  exact hs.commutes.forall hm hm' hne

/-! ## Reading -/

/-- How one member of a document is read: it sets the part of a member of the table that was not
read before, or it is skipped, or it is kept with the other members. -/
inductive Reads (s : Shape α) (o : Origin) (key : String) (d : Draft) :
    Progress α → Progress α → Prop
  | known {m : Member α} {p : Progress α} {a : α} : s.member? key = some m → key ∉ p.met →
    m.read o d p.record = .ok a → Reads s o key d p { p with record := a, met := key :: p.met }
  | skipped {p : Progress α} : s.member? key = none → s.remainder = .dropped →
    d.skip = .ok () → Reads s o key d p p
  | kept {p : Progress α} {v : Value} : s.member? key = none → s.remainder ≠ .dropped →
    d.read o = .ok v → Reads s o key d p { p with others := p.others ++ [(key, v)] }

/-- Reading a member does one of three things. -/
theorem readMember_eq_ok_iff {o : Origin} {key : String} {d : Draft} {p p' : Progress α} :
    s.readMember o key d p = .ok p' ↔ s.Reads o key d p p' := by
  constructor
  · intro h
    rw [readMember] at h
    cases hm : s.member? key with
    | some m =>
      simp only [hm] at h
      -- a key that was met before is refused
      split at h
      · cases h
      next hmet =>
        have hnot : key ∉ p.met := fun hmem => hmet (List.contains_iff_mem.2 hmem)
        cases hr : m.read o d p.record with
        | error e => rw [hr] at h; cases h
        | ok a =>
          rw [hr] at h
          exact Except.ok.inj h ▸ .known hm hnot hr
    | none =>
      simp only [hm] at h
      -- a member that is not in the table is passed over, or kept with its value
      cases hrem : s.remainder with
      | dropped =>
        cases hr : d.skip with
        | error f => simp only [hrem, hr] at h; cases h
        | ok u =>
          simp only [hrem, hr] at h
          exact Except.ok.inj h ▸ .skipped hm hrem hr
      | kept get set =>
        cases hr : d.read o with
        | error f => simp only [hrem, hr] at h; cases h
        | ok v =>
          simp only [hrem, hr] at h
          have hkeeps : s.remainder ≠ .dropped := fun he => by
            rw [he] at hrem
            cases hrem
          exact Except.ok.inj h ▸ .kept hm hkeeps hr
  · rintro (⟨hm, hnot, hr⟩ | ⟨hm, hrem, hr⟩ | ⟨hm, hrem, hr⟩)
    · simp [readMember, hm, hnot, hr]
    · simp [readMember, hm, hrem, hr]
    · cases hrem' : s.remainder with
      | dropped => exact absurd hrem' hrem
      | kept get set => simp [readMember, hm, hrem', hr]

/-- The first member is read, then the rest. -/
theorem readMembers_cons_eq_ok_iff {o : Origin} {key : String} {d : Draft} {ms : DraftMembers}
    {p p' : Progress α} : s.readMembers o ((.ok key, d) :: ms) p = .ok p' ↔
      ∃ p₁, s.Reads o key d p p₁ ∧ s.readMembers o ms p₁ = .ok p' := by
  simp only [← readMember_eq_ok_iff]
  rw [readMembers]
  cases s.readMember o key d p <;> simp

/-- A member of the table is read if it was not met before. -/
theorem Separate.reads_key_iff (hs : s.Separate) {m : Member α} (hm : m ∈ s.members) {o : Origin}
    {d : Draft} {p p' : Progress α} : s.Reads o m.key d p p' ↔ m.key ∉ p.met ∧
      ∃ a, m.read o d p.record = .ok a ∧ p' = { p with record := a, met := m.key :: p.met } := by
  have hfound := hs.member?_key hm
  constructor
  · rintro (⟨hm', hnot, hr⟩ | ⟨hnone, _, _⟩ | ⟨hnone, _, _⟩)
    · obtain rfl := Option.some.inj (hfound.symm.trans hm')
      exact ⟨hnot, _, hr, rfl⟩
    · exact nomatch hfound.symm.trans hnone
    · exact nomatch hfound.symm.trans hnone
  · rintro ⟨hnot, a, hr, rfl⟩
    exact .known hfound hnot hr

/-- A member that was read can be taken to be read after others that follow it: these have other
keys, or are not in the table. -/
theorem Separate.exists_read_after (hs : s.Separate) {m : Member α} (hm : m ∈ s.members) {d : Draft}
    (ms : Members) {p p' : Progress α}
    (h : s.readMembers .value (Value.draftMembers ms) p = .ok p') (hmet : m.key ∈ p.met)
    (hlast : ∃ a, m.read .value d a = .ok p.record) : ∃ a, m.read .value d a = .ok p'.record := by
  induction ms generalizing p with
  | nil => exact Except.ok.inj h ▸ hlast
  | cons m' ms ih =>
    obtain ⟨key, v⟩ := m'
    obtain ⟨p₁, h₁, hrest⟩ := readMembers_cons_eq_ok_iff.1 h
    rcases h₁ with @⟨m', _, _, hm', hnot, hread⟩ | ⟨_, _, _⟩ | ⟨_, _, _⟩
    · -- a member of the table comes next: the two change places
      obtain ⟨hmem', hkey'⟩ := member?_eq_some hm'
      have hne : m.key ≠ m'.key := fun he => hnot (hkey' ▸ he ▸ hmet)
      obtain ⟨a, ha⟩ := hlast
      obtain ⟨a₁, _, ha₁⟩ :=
        (hs.commutes_of_key_ne hm hmem' hne .value d v.draft a _).1 ⟨p.record, ha, hread⟩
      exact ih hrest (List.mem_cons_of_mem _ hmet) ⟨a₁, ha₁⟩
    · exact ih hrest hmet hlast
    · exact ih hrest hmet hlast

/-- Every member of the table that is found among those of a document can be taken to be read
last. -/
theorem Separate.exists_read_of_readMembers (hs : s.Separate) {m : Member α} (hm : m ∈ s.members)
    {v : Value} (ms : Members) {p p' : Progress α}
    (h : s.readMembers .value (Value.draftMembers ms) p = .ok p')
    (hv : ms.get? m.key = some v) : ∃ a, m.read .value v.draft a = .ok p'.record := by
  induction ms generalizing p with
  | nil => exact nomatch hv
  | cons m' ms ih =>
    obtain ⟨key, u⟩ := m'
    obtain ⟨p₁, h₁, hrest⟩ := readMembers_cons_eq_ok_iff.1 h
    rw [Members.get?_cons] at hv
    split at hv
    next hkey =>
      -- the member is met here; a key is met only once, so its part stays as it is read now
      obtain rfl := Option.some.inj hv
      obtain ⟨-, a, hread, rfl⟩ := (hs.reads_key_iff hm).1 (hkey ▸ h₁)
      exact hs.exists_read_after hm ms hrest List.mem_cons_self ⟨p.record, hread⟩
    next => exact ih hrest hv

/-- Members that the table does not know are collected in the order of the document. -/
theorem Lawful.others_of_readMembers (hs : s.Lawful) (ms : Members)
    (hms : ∀ m ∈ ms, m.2.IsSorted) {p p' : Progress α}
    (h : s.readMembers .value (Value.draftMembers ms) p = .ok p') :
    p'.others = p.others ++ ms.filter fun m => (s.member? m.1).isNone := by
  induction ms generalizing p with
  | nil => rw [← Except.ok.inj h]; exact (List.append_nil _).symm
  | cons m ms ih =>
    obtain ⟨key, v⟩ := m
    obtain ⟨p₁, h₁, hrest⟩ := readMembers_cons_eq_ok_iff.1 h
    rw [List.forall_mem_cons] at hms
    rw [ih hms.2 hrest, List.filter_cons]
    -- a member of the table, which is not collected, or one that is; none is dropped
    rcases h₁ with ⟨hm', _, _⟩ | ⟨_, hdrop, _⟩ | ⟨hm', _, hread⟩
    · rw [hm']
      rfl
    · exact absurd hdrop hs.keeps
    · rw [hm', Except.ok.inj (hread.symm.trans hms.1.read_draft)]
      exact List.append_assoc _ _ _

/-- Nothing is missing if all members were met that must be there. -/
theorem missing?_eq_none_iff {met : List String} :
    s.missing? met = none ↔ ∀ m ∈ s.members, m.isRequired → m.key ∈ met := by
  simp [missing?]

/-- An object is read as a record if all its members are read, up to the brace, and none is
missing. -/
theorem readObject_eq_ok_iff {o : Origin} {ms : DraftMembers} {stop : Option Fault} {a : α} :
    s.readObject o ms stop = .ok a ↔ stop = none ∧ ∃ o' p, o.inside = .ok o' ∧
      s.readMembers o' ms ⟨s.blank, [], []⟩ = .ok p ∧ s.missing? p.met = none ∧
      a = s.keepOthers p.others p.record := by
  rw [readObject]
  -- what can go wrong, in the order in which it is asked for
  cases ho : o.inside with
  | error f => simp [Codec.orBroken, bind, Except.bind]
  | ok o' =>
    cases hp : s.readMembers o' ms ⟨s.blank, [], []⟩ with
    | error e => simp [Codec.orBroken, bind, Except.bind, hp]
    | ok p =>
      cases stop with
      | some f => simp [Codec.orBroken, Codec.checkStop, bind, Except.bind, hp]
      | none =>
        cases hmissing : s.missing? p.met with
        | some key =>
          simp [Codec.orBroken, Codec.checkStop, bind, Except.bind, hp, hmissing, throw,
            throwThe, MonadExceptOf.throw]
        | none =>
          simp [Codec.orBroken, Codec.checkStop, bind, Except.bind, hp, hmissing, pure, Except.pure,
            eq_comm]

/-- A list is read as a record if it has nothing but the members of the table, up to the bracket. -/
theorem readList_eq_ok_iff {o : Origin} {ds : List Draft} {stop : Option Fault} {a : α} :
    s.readList o ds stop = .ok a ↔ stop = none ∧ ∃ o', o.inside = .ok o' ∧
      s.readItems o' none s.members ds 0 s.blank = .ok (a, []) := by
  unfold readList
  cases ho : o.inside with
  | error f => simp [Codec.orBroken, bind, Except.bind]
  | ok o' =>
    cases hr : s.readItems o' stop s.members ds 0 s.blank with
    | error e =>
      cases stop with
      | none => simp [Codec.orBroken, bind, Except.bind, hr]
      | some f => simp [Codec.orBroken, bind, Except.bind, hr]
    | ok r =>
      obtain ⟨a', left⟩ := r
      cases left with
      | nil =>
        cases stop with
        | none => simp [Codec.orBroken, Codec.checkStop, bind, Except.bind, hr, pure, Except.pure]
        | some f => simp [Codec.orBroken, Codec.checkStop, bind, Except.bind, hr]
      | cons d left =>
        -- items are left over, which is a problem in a text and in a value
        cases stop <;> cases o <;> simp [Codec.orBroken, bind, Except.bind, hr, throw, throwThe,
          MonadExceptOf.throw]

/-- A record that keeps other members is read from an object. -/
theorem Lawful.read_eq_ok (hs : s.Lawful) {v : Value} {a : α}
    (h : s.read .value v.draft = .ok a) :
    ∃ ms p, v = .object ms ∧
      s.readMembers .value (Value.draftMembers ms) ⟨s.blank, [], []⟩ = .ok p ∧
      a = s.keepOthers p.others p.record := by
  have hkeeps := hs.keeps
  cases hrem : s.remainder with
  | dropped => exact absurd hrem hkeeps
  | kept get set =>
    cases v with
    | object ms =>
      rw [Value.draft, read] at h
      obtain ⟨-, o', p, ho, hp, -, ha⟩ := readObject_eq_ok_iff.1 h
      obtain rfl := Except.ok.inj ho
      exact ⟨ms, p, rfl, hp, ha⟩
    | null | bool _ | number _ | string _ | array _ =>
      simp only [Value.draft, read, hrem] at h
      cases h

/-- Every member of the table that a document has can be taken to be read last. -/
theorem Lawful.exists_read (hs : s.Lawful) {ms : Members} {a : α}
    (h : s.read .value (Value.object ms).draft = .ok a) {m : Member α} (hm : m ∈ s.members)
    {v : Value} (hv : ms.get? m.key = some v) : ∃ a₀, m.read .value v.draft a₀ = .ok a := by
  obtain ⟨ms', p, heq, hp, rfl⟩ := hs.read_eq_ok h
  obtain rfl := Value.object.inj heq
  obtain ⟨a₀, ha₀⟩ := hs.separate.exists_read_of_readMembers hm ms hp hv
  -- the others are kept after all members were read, which commutes with reading the member
  refine ⟨s.keepOthers p.others a₀, ?_⟩
  rw [hs.keepOthers m hm, ha₀]
  rfl

/-- The members that the table does not know are kept as they are. -/
theorem Lawful.others_of_read (hs : s.Lawful) {ms : Members} (hsorted : (Value.object ms).IsSorted)
    {a : α} (h : s.read .value (Value.object ms).draft = .ok a) :
    s.others a = ms.filter fun m => (s.member? m.1).isNone := by
  obtain ⟨ms', p, heq, hp, rfl⟩ := hs.read_eq_ok h
  obtain rfl := Value.object.inj heq
  obtain ⟨hms, hvs⟩ := Value.isSorted_object_iff.1 hsorted
  have hothers := hs.others_of_readMembers ms hvs hp
  rw [hs.others_keepOthers, hothers]
  exact Members.sort_eq_self (hms.filter _)

/-- Members that were read and are kept have keys of their own. -/
theorem Lawful.own_keys_of_read (hs : s.Lawful) {v : Value} (hv : v.IsSorted) {a : α}
    (h : s.read .value v.draft = .ok a) :
    (s.others a).keys.Nodup ∧ ∀ key ∈ (s.others a).keys, key ∉ s.keys := by
  obtain ⟨ms, _, rfl, _, _⟩ := hs.read_eq_ok h
  rw [hs.others_of_read hv h]
  constructor
  · exact Members.Ascending.nodup_keys ((Value.isSorted_object_iff.1 hv).1.filter _)
  · intro key hkey
    obtain ⟨m, hm, rfl⟩ := List.mem_map.1 hkey
    exact member?_eq_none_iff.1 (Option.isNone_iff_eq_none.1 (List.mem_filter.1 hm).2)

/-! ## Writing -/

/-- What the table writes of a record. -/
def entries (s : Shape α) (a : α) : Members :=
  s.members.filterMap fun m => (m.write a).map fun v => (m.key, v)

/-- Members are written in the order of the table, and some are left out. -/
theorem keys_entries_sublist (s : Shape α) (a : α) : (s.entries a).keys.Sublist s.keys := by
  have hmembers : ∀ ms : List (Member α),
      (Members.keys (ms.filterMap fun m => (m.write a).map fun v => (m.key, v))).Sublist
        (ms.map (·.key)) := by
    intro ms
    induction ms with
    | nil => exact .slnil
    | cons m ms ih =>
      cases hw : m.write a with
      | none =>
        rw [List.filterMap_cons_none (by rw [hw]; rfl)]
        exact ih.cons _
      | some v =>
        rw [List.filterMap_cons_some (b := (m.key, v)) (by rw [hw]; rfl)]
        exact ih.cons_cons _
  exact hmembers s.members

/-- What is written of a member is found under its key. -/
theorem Separate.get?_entries (hs : s.Separate) (a : α) {m : Member α} (hm : m ∈ s.members) :
    (s.entries a).get? m.key = m.write a := by
  have hnodup : (s.entries a).keys.Nodup := hs.nodup.sublist (s.keys_entries_sublist a)
  refine Option.ext fun v => ?_
  rw [Members.get?_eq_some_iff hnodup, entries, List.mem_filterMap]
  -- no two members of the table write under one key
  constructor
  · rintro ⟨m', hm', he⟩
    obtain ⟨v', hv', he⟩ := Option.map_eq_some_iff.1 he
    obtain ⟨hkey, rfl⟩ := Prod.mk.inj he
    rw [← hv', List.inj_on_of_nodup_map hs.nodup hm' hm hkey]
  · exact fun hv => ⟨m, hm, by rw [hv]; rfl⟩

/-- What is found in the value of a record: what the table writes, and the other members, which must
have keys of their own. -/
theorem Separate.get?_toValue (hs : s.Separate) {a : α} (hnodup : (s.others a).keys.Nodup)
    (hothers : ∀ key ∈ (s.others a).keys, key ∉ s.keys) :
    ∃ ms : Members, s.codec.toValue a = .object ms ∧
      (∀ m ∈ s.members, ms.get? m.key = (m.write a).map Value.sorted) ∧
      ∀ key, key ∉ s.keys → ms.get? key = ((s.others a).get? key).map Value.sorted := by
  have hentries := s.keys_entries_sublist a
  have hkeys : Members.keys ((s.entries a ++ s.others a).map fun m => (m.1, m.2.sorted)) =
      (s.entries a).keys ++ (s.others a).keys := by
    simp [Members.keys, Function.comp_def]
  -- no key is written twice, so that every member is found again
  have hall : (Members.keys ((s.entries a ++ s.others a).map fun m =>
      (m.1, m.2.sorted))).Nodup := by
    rw [hkeys]
    refine List.nodup_append.2 ⟨hs.nodup.sublist hentries, hnodup, fun k hk k' hk' he => ?_⟩
    exact hothers k' hk' (he ▸ hentries.subset hk)
  have hget : ∀ key, Members.get? (Members.sort (Value.sortedMembers
      (s.entries a ++ s.others a))) key =
        (((s.entries a).get? key).or ((s.others a).get? key)).map Value.sorted := by
    intro key
    rw [Value.sortedMembers_eq_map, Members.get?_sort hall, Members.get?_map, Members.get?_append]
  refine ⟨Members.sort (Value.sortedMembers (s.entries a ++ s.others a)), rfl,
    fun m hm => ?_, fun key hkey => ?_⟩
  · have hnone : (s.others a).get? m.key = none :=
      Members.get?_eq_none fun hmem => hothers _ hmem (List.mem_map_of_mem hm)
    rw [hget, hs.get?_entries a hm, hnone, Option.or_none]
  · have hnone : (s.entries a).get? key = none :=
      Members.get?_eq_none fun hmem => hkey (hentries.subset hmem)
    rw [hget, hnone, Option.none_or]

end Shape

end Dashboards
