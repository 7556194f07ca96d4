import Dashboards.Proofs.Json.Depth

/-!
# Drafts of one value

A text and its value are drafts of one value, and so are two texts that differ only in the order of
the members of their objects.  Two such drafts match if each name in them is unique within its
object.  They are looked at together: the items of matching arrays match, and so do the members of
matching objects, once they are put in one order.

Drafts may come from places with different room for depth.  What is read of one of them can be read
of the other where there is as much room, or where there is enough of it for the whole value.

## Key results

- `Draft.read_of_depth_le`: a draft has its value wherever there is room for it
- `Draft.Matches.array`, `Draft.Matches.object`: the parts of matching drafts match
- `Draft.Matches.read_eq_ok`: matching drafts have one value
-/

namespace Dashboards.Json

/-! ## Lists side by side -/

/-- What stands side by side in two lists is in them. -/
theorem forall₂_and_mem {α β : Type} {R : α → β → Prop} {as : List α} {bs : List β}
    (h : List.Forall₂ R as bs) : List.Forall₂ (fun a b => a ∈ as ∧ b ∈ bs ∧ R a b) as bs := by
  rw [List.forall₂_iff_zip] at h ⊢
  exact ⟨h.1, fun hab => ⟨(List.of_mem_zip hab).1, (List.of_mem_zip hab).2, h.2 hab⟩⟩

/-- Two lists that stand side by side with a third one stand side by side. -/
theorem forall₂_of_common {α β γ : Type} {R : α → γ → Prop} {S : β → γ → Prop} {T : α → β → Prop}
    (hT : ∀ a b c, R a c → S b c → T a b) {as : List α} {bs : List β} {cs : List γ}
    (has : List.Forall₂ R as cs) (hbs : List.Forall₂ S bs cs) : List.Forall₂ T as bs := by
  induction has generalizing bs with
  | nil =>
    cases hbs
    exact .nil
  | cons hac _ ih =>
    -- the third list leads: its first item fixes the partners on both sides
    obtain ⟨b, bs', hbc, hbs', rfl⟩ := List.forall₂_cons_right_iff.1 hbs
    exact .cons (hT _ _ _ hac hbc) (ih hbs')

/-- A list that stands side by side with another one can be put in the order that the other one is
put in. -/
theorem exists_perm_of_forall₂ {α β : Type} {R : α → β → Prop} {as : List α} {bs bs' : List β}
    (h : List.Forall₂ R as bs) (hperm : bs.Perm bs') :
    ∃ as', as.Perm as' ∧ List.Forall₂ R as' bs' := by
  obtain ⟨as', has', hperm'⟩ := List.perm_comp_forall₂ hperm.symm h.flip
  exact ⟨as', hperm'.symm, has'.flip⟩

/-! ## Room -/

namespace Draft

/-- What has a value where there is only so much room has the same value without any limit. -/
theorem read_value_of_read {o : Origin} {d : Draft} {v : Value} (h : d.read o = .ok v) :
    d.read .value = .ok v := by
  refine Hereditary.of_read (P := fun _ d v => d.read .value = .ok v) ⟨?_, ?_, ?_⟩ d h
  · intro o v hv
    cases v with
    | null | bool _ | number _ | string _ => rfl
    | array _ | object _ => exact nomatch hv
  · intro o o' ds vs _ hds
    exact read_array_eq_ok_iff.2 ⟨rfl, .value, vs, rfl, hds.imp fun _ _ h => h.2, rfl⟩
  · intro o o' ms vs _ hms
    exact read_object_eq_ok_iff.2 ⟨rfl, .value, vs, rfl, hms.imp fun _ _ h => ⟨h.1, h.2.2⟩, rfl⟩

/-- A draft in which names are distinct has its value wherever there is room for the value. -/
theorem read_of_depth_le {d : Draft} {v : Value} (hnames : d.hasDistinctNames)
    (h : d.read .value = .ok v) {room : Nat} (hroom : v.depth ≤ room) :
    d.read (.text room) = .ok v := by
  -- there is less room inside of arrays and objects, but less is needed there
  refine Hereditary.of_read
    (P := fun _ d v => d.hasDistinctNames → ∀ room, v.depth ≤ room → d.read (.text room) = .ok v)
    ⟨?_, ?_, ?_⟩ d h hnames room hroom
  · intro o v hv _ room _
    cases v with
    | null | bool _ | number _ | string _ => rfl
    | array _ | object _ => exact nomatch hv
  · intro o o' ds vs _ hds hnames room hroom
    rw [hasDistinctNames_array_iff] at hnames
    cases room with
    | zero => exact absurd (Value.depth_array_pos vs) (Nat.not_lt_of_le hroom)
    | succ room =>
      rw [Value.depth_array_le_succ_iff] at hroom
      refine read_array_eq_ok_iff.2 ⟨rfl, .text room, vs, rfl, ?_, rfl⟩
      exact (forall₂_and_mem hds).imp fun d v h => h.2.2.2 (hnames d h.1) room (hroom v h.2.1)
  · intro o o' ms vs _ hms hnames room hroom
    obtain ⟨hnodup, hnames⟩ := hasDistinctNames_object_iff.1 hnames
    -- no value has given way to a later one of the same name
    have hkeys : (Members.keys vs).Nodup :=
      names_eq_keys (hms.imp fun _ _ h => ⟨h.1, h.2.1⟩) ▸ hnodup
    cases room with
    | zero => exact absurd (Value.depth_object_pos _) (Nat.not_lt_of_le hroom)
    | succ room =>
      rw [Value.depth_object_le_succ_iff] at hroom
      refine read_object_eq_ok_iff.2 ⟨rfl, .text room, vs, rfl, ?_, rfl⟩
      refine (forall₂_and_mem hms).imp fun m u h => ⟨h.2.2.1, ?_⟩
      exact h.2.2.2.2 (hnames m h.1) room (hroom u ((Members.sort_perm hkeys).mem_iff.2 h.2.1))

/-! ## Kinds of values -/

/-- Only its own draft has the value of a scalar. -/
theorem eq_draft_of_isScalar {o : Origin} {d : Draft} {v : Value} (h : d.read o = .ok v)
    (hv : v.isScalar) : d = v.draft := by
  cases d with
  | array ds stop =>
    obtain ⟨-, -, vs, -, -, rfl⟩ := read_array_eq_ok_iff.1 h
    exact nomatch hv
  | object ms stop =>
    obtain ⟨-, -, vs, -, -, rfl⟩ := read_object_eq_ok_iff.1 h
    exact nomatch hv
  | null | bool _ | number _ | string _ | broken _ _ _ => exact (eq_draft_of_read h rfl).1

/-- Only an array has an array as its value. -/
theorem exists_array_of_read {o : Origin} {d : Draft} {vs : List Value}
    (h : d.read o = .ok (.array vs)) : ∃ ds, d = .array ds none := by
  cases d with
  | array ds stop =>
    obtain ⟨rfl, -⟩ := read_array_eq_ok_iff.1 h
    exact ⟨ds, rfl⟩
  | object ms stop =>
    obtain ⟨-, -, _, -, -, he⟩ := read_object_eq_ok_iff.1 h
    exact nomatch he
  | null | bool _ | number _ | string _ | broken _ _ _ => exact nomatch (eq_draft_of_read h rfl).2

/-- Only an object has an object as its value. -/
theorem exists_object_of_read {o : Origin} {d : Draft} {us : Members}
    (h : d.read o = .ok (.object us)) : ∃ ms, d = .object ms none := by
  cases d with
  | array ds stop =>
    obtain ⟨-, -, _, -, -, he⟩ := read_array_eq_ok_iff.1 h
    exact nomatch he
  | object ms stop =>
    obtain ⟨rfl, -⟩ := read_object_eq_ok_iff.1 h
    exact ⟨ms, rfl⟩
  | null | bool _ | number _ | string _ | broken _ _ _ => exact nomatch (eq_draft_of_read h rfl).2

/-! ## Matching drafts -/

/-- Two drafts of one value, in which names are distinct.  The second of them comes from where there
is as much room as for the first, or enough for the whole value. -/
structure Matches (o o' : Origin) (d d' : Draft) : Prop where
  left_names : d.hasDistinctNames
  right_names : d'.hasDistinctNames
  sameValue : ∃ v, d.read .value = .ok v ∧ d'.read .value = .ok v ∧ (o' = o ∨ d'.read o' = .ok v)

namespace Matches

variable {o o' : Origin} {d d' : Draft}

/-- Matching drafts have one value, wherever the first of them has it. -/
theorem read_eq_ok (h : Matches o o' d d') {v : Value} (hd : d.read o = .ok v) :
    d'.read o' = .ok v := by
  obtain ⟨u, hu, hu', hroom⟩ := h.sameValue
  obtain rfl := Except.ok.inj (hu.symm.trans (read_value_of_read hd))
  -- with equal room the value fits since it was read; otherwise it is known to be read
  rcases hroom with rfl | hroom
  · cases o' with
    | value => exact hu'
    | text room => exact read_of_depth_le h.right_names hu' (depth_le_of_read hd)
  · exact hroom

/-- The second of two matching drafts can be skipped. -/
theorem skip_right (h : Matches o o' d d') : d'.skip = .ok () := by
  obtain ⟨v, -, hv, -⟩ := h.sameValue
  exact skip_of_read hv

/-- Only `null` matches `null`. -/
theorem eq_null_iff (h : Matches o o' d d') : d = .null ↔ d' = .null := by
  obtain ⟨v, hv, hv', -⟩ := h.sameValue
  constructor
  · rintro rfl
    obtain rfl := Except.ok.inj hv
    exact eq_null_of_read hv'
  · rintro rfl
    obtain rfl := Except.ok.inj hv'
    exact eq_null_of_read hv

/-- Matching drafts match in the other order where there is as much room for both. -/
theorem symm (h : Matches o o d d') : Matches o o d' d := by
  obtain ⟨v, hv, hv', -⟩ := h.sameValue
  exact ⟨h.right_names, h.left_names, v, hv', hv, .inl rfl⟩

/-- A draft matches that of its value. -/
theorem of_value {v : Value} (hnames : d.hasDistinctNames) (h : d.read .value = .ok v) :
    Matches o .value d v.draft := by
  have hsorted := isSorted_of_read h
  exact ⟨hnames, v.hasDistinctNames_of_isSorted hsorted, v, h, hsorted.read_draft,
    .inr hsorted.read_draft⟩

/-- The draft of a value matches every draft of it that comes from where there is enough room. -/
theorem of_depth_le {v : Value} (hnames : d.hasDistinctNames) (h : d.read .value = .ok v)
    {room : Nat} (hroom : v.depth ≤ room) : Matches o (.text room) v.draft d := by
  have hsorted := isSorted_of_read h
  exact ⟨v.hasDistinctNames_of_isSorted hsorted, hnames, v, hsorted.read_draft, h,
    .inr (read_of_depth_le hnames h hroom)⟩

/-- A draft matches itself with the members of its objects in another order. -/
theorem of_reorders {v : Value} (horder : d.Reorders d') (hnames : d.hasDistinctNames)
    (h : d.read .value = .ok v) : Matches o o d d' :=
  ⟨hnames, horder.hasDistinctNames hnames, v, h, horder.read_eq_ok hnames h, .inl rfl⟩

/-- Drafts match if they are of one scalar, and otherwise only arrays match arrays and objects match
objects. -/
theorem cases (h : Matches o o' d d') :
    (∃ v : Value, v.isScalar ∧ d = v.draft ∧ d' = v.draft) ∨
    (∃ ds ds', d = .array ds none ∧ d' = .array ds' none) ∨
    ∃ ms ms', d = .object ms none ∧ d' = .object ms' none := by
  obtain ⟨v, hv, hv', -⟩ := h.sameValue
  cases d with
  | array ds stop =>
    obtain ⟨rfl, _, vs, _, _, rfl⟩ := read_array_eq_ok_iff.1 hv
    obtain ⟨ds', rfl⟩ := exists_array_of_read hv'
    exact .inr (.inl ⟨ds, ds', rfl, rfl⟩)
  | object ms stop =>
    obtain ⟨rfl, _, vs, _, _, rfl⟩ := read_object_eq_ok_iff.1 hv
    obtain ⟨ms', rfl⟩ := exists_object_of_read hv'
    exact .inr (.inr ⟨ms, ms', rfl, rfl⟩)
  | null | bool _ | number _ | string _ | broken _ _ _ =>
    obtain ⟨he, hscalar⟩ := eq_draft_of_read hv rfl
    exact .inl ⟨v, hscalar, he, eq_draft_of_isScalar hv' hscalar⟩

/-- The items of matching arrays match. -/
theorem array {ds ds' : List Draft} {stop stop' : Option Fault}
    (h : Matches o o' (.array ds stop) (.array ds' stop')) {o₁ : Origin} (ho : o.inside = .ok o₁) :
    ∃ o₁', o'.inside = .ok o₁' ∧ List.Forall₂ (Matches o₁ o₁') ds ds' := by
  obtain ⟨v, hv, hv', hroom⟩ := h.sameValue
  obtain ⟨-, -, vs, ⟨⟩, hds, rfl⟩ := read_array_eq_ok_iff.1 hv
  obtain ⟨-, -, vs', ⟨⟩, hds', hvs⟩ := read_array_eq_ok_iff.1 hv'
  obtain rfl := Value.array.inj hvs
  have hleft := (List.forall₂_and_left ds vs).2 ⟨hasDistinctNames_array_iff.1 h.left_names, hds⟩
  have hright := (List.forall₂_and_left ds' vs).2 ⟨hasDistinctNames_array_iff.1 h.right_names, hds'⟩
  -- where the whole array has room, so have its items inside of it
  have hinside : ∃ o₁', o'.inside = .ok o₁' ∧ List.Forall₂ (fun d' v =>
      (d'.hasDistinctNames ∧ d'.read .value = .ok v) ∧
        (o₁' = o₁ ∨ d'.read o₁' = .ok v)) ds' vs := by
    rcases hroom with rfl | hroom
    · exact ⟨o₁, ho, hright.imp fun _ _ h => ⟨h, .inl rfl⟩⟩
    · obtain ⟨-, o₁', us, ho', hitems, hus⟩ := read_array_eq_ok_iff.1 hroom
      obtain rfl := Value.array.inj hus
      exact ⟨o₁', ho', hright.mp (fun _ _ h h' => ⟨h, .inr h'⟩) hitems⟩
  obtain ⟨o₁', ho', hright⟩ := hinside
  refine ⟨o₁', ho', forall₂_of_common (fun d d' v hd hd' => ?_) hleft hright⟩
  exact ⟨hd.1, hd'.1.1, v, hd.2, hd'.1.2, hd'.2⟩

/-- The members of matching objects match, once they are put in one order. -/
theorem object {ms ms' : DraftMembers} {stop stop' : Option Fault}
    (h : Matches o o' (.object ms stop) (.object ms' stop')) {o₁ : Origin}
    (ho : o.inside = .ok o₁) :
    ∃ o₁', o'.inside = .ok o₁' ∧ ∃ sameOrder, ms.Perm sameOrder ∧
      List.Forall₂ (fun m m' => m.1 = m'.1 ∧ Matches o₁ o₁' m.2 m'.2) sameOrder ms' := by
  obtain ⟨v, hv, hv', hroom⟩ := h.sameValue
  obtain ⟨-, -, us, ⟨⟩, hms, rfl⟩ := read_object_eq_ok_iff.1 hv
  obtain ⟨-, -, us', ⟨⟩, hms', hsort⟩ := read_object_eq_ok_iff.1 hv'
  obtain ⟨hnodup, hnames⟩ := hasDistinctNames_object_iff.1 h.left_names
  obtain ⟨hnodup', hnames'⟩ := hasDistinctNames_object_iff.1 h.right_names
  have hkeys : (Members.keys us).Nodup := names_eq_keys hms ▸ hnodup
  have hkeys' : (Members.keys us').Nodup := names_eq_keys hms' ▸ hnodup'
  -- the values are the same but for their order
  have hperm : us.Perm us' := by
    refine (Members.sort_perm hkeys).symm.trans ?_
    rw [Value.object.inj hsort]
    exact Members.sort_perm hkeys'
  have hleft := (List.forall₂_and_left ms us).2 ⟨hnames, hms⟩
  have hright := (List.forall₂_and_left ms' us').2 ⟨hnames', hms'⟩
  obtain ⟨sameOrder, horder, hsame⟩ := exists_perm_of_forall₂ hleft hperm
  have hinside : ∃ o₁', o'.inside = .ok o₁' ∧ List.Forall₂ (fun m' u =>
      (m'.2.hasDistinctNames ∧ m'.1 = .ok u.1 ∧ m'.2.read .value = .ok u.2) ∧
        (o₁' = o₁ ∨ m'.2.read o₁' = .ok u.2)) ms' us' := by
    rcases hroom with rfl | hroom
    · exact ⟨o₁, ho, hright.imp fun _ _ h => ⟨h, .inl rfl⟩⟩
    · obtain ⟨-, o₁', ws, ho', hmembers, -⟩ := read_object_eq_ok_iff.1 hroom
      -- the values that were read inside are those without a limit
      have hlimitless := readMembers_eq_ok_iff.2
        (hmembers.imp fun _ _ h => And.intro h.1 (read_value_of_read h.2))
      obtain rfl := Except.ok.inj (hlimitless.symm.trans (readMembers_eq_ok_iff.2 hms'))
      exact ⟨o₁', ho', hright.mp (fun _ _ h h' => ⟨h, .inr h'.2⟩) hmembers⟩
  obtain ⟨o₁', ho', hright⟩ := hinside
  refine ⟨o₁', ho', sameOrder, horder, forall₂_of_common (fun m m' u hm hm' => ?_) hsame hright⟩
  exact ⟨hm.2.1.trans hm'.1.2.1.symm, hm.1, hm'.1.1, u.2, hm.2.2, hm'.1.2.2, hm'.2⟩

end Matches

end Draft

end Dashboards.Json
