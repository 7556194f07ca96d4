import Dashboards.Proofs.Schema.Updates

/-!
# Detection and verification

Two walks over the steps of a catalogue ask the same checks: one for the latest version up to which
a document has come, the other for the first thing that it lacks.  They describe the same prefix of
the catalogue, whatever the checks are.  The one tells it by the version at its end, and since the
versions ascend there is only one place where that can be.

## Key results

- `firstDescent?_eq_none_iff`, `firstDescent?_eq_some_iff`: neighbours tell whether all steps ascend
- `Catalogue.finds`: what the two walks find, side by side
- `ofSteps_detect_verify`: which lists make catalogues, and what these tell of a document
-/

namespace Dashboards

/-! ## Ascending steps -/

/-- The versions of the first two neighbours that do not ascend: the steps up to the former do. -/
inductive FirstDescent (steps : List Step) : Version → Version → Prop
  | intro {before after : List Step} {a b : Step} (h : steps = before ++ a :: b :: after)
      (hasc : (before ++ [a]).Pairwise fun s t => s.version < t.version)
      (hdesc : b.version ≤ a.version) : FirstDescent steps a.version b.version

/-- A version that comes after another one does not come before it as well. -/
theorem Version.not_le_of_lt {v w : Version} (h : v < w) : ¬ w ≤ v :=
  UInt32.not_le.2 h

/-- A step in front is passed over if the next one comes after it. -/
theorem firstDescent?_cons {s : Step} {steps : List Step}
    (h : ∀ t ∈ steps.head?, ¬ t.version ≤ s.version) :
    firstDescent? (s :: steps) = firstDescent? steps := by
  cases steps with
  | nil => rfl
  | cons t steps => rw [firstDescent?, if_neg (h t rfl)]

/-- If all steps ascend, then all neighbours do. -/
theorem firstDescent?_eq_none {steps : List Step}
    (h : steps.Pairwise fun s t => s.version < t.version) : firstDescent? steps = none := by
  induction steps with
  | nil => rfl
  | cons s steps ih =>
    rw [firstDescent?_cons fun t ht =>
      Version.not_le_of_lt (List.rel_of_pairwise_cons h (List.mem_of_mem_head? ht))]
    exact ih h.of_cons

/-- Neighbours that ascend are passed over until the first that do not. -/
theorem firstDescent?_append {before after : List Step} {a b : Step}
    (hasc : (before ++ [a]).Pairwise fun s t => s.version < t.version)
    (hdesc : b.version ≤ a.version) :
    firstDescent? (before ++ a :: b :: after) = some (a.version, b.version) := by
  -- induction on the steps before, each of which comes before the next
  induction before with
  | nil => rw [List.nil_append, firstDescent?, if_pos hdesc]
  | cons s before ih =>
    have hhead : (before ++ a :: b :: after).head? = (before ++ [a]).head? := by
      simp [List.head?_append]
    rw [List.cons_append, firstDescent?_cons fun t ht =>
      Version.not_le_of_lt (List.rel_of_pairwise_cons hasc (List.mem_of_mem_head? (hhead ▸ ht)))]
    exact ih hasc.of_cons

/-- Neighbours that do not ascend are found if they are the first ones. -/
theorem firstDescent_of_firstDescent?_eq_some {steps : List Step} {v w : Version}
    (h : firstDescent? steps = some (v, w)) : FirstDescent steps v w := by
  induction steps with
  | nil => exact nomatch h
  | cons a steps ih =>
    cases steps with
    | nil => exact nomatch h
    | cons b steps =>
      rw [firstDescent?] at h
      split at h
      next hdesc =>
        obtain ⟨rfl, rfl⟩ := Prod.mk.inj (Option.some.inj h)
        exact .intro (List.nil_append _).symm (List.pairwise_singleton _ _) hdesc
      next hab =>
        obtain @⟨before, after, c, e, hsteps, hasc, hdesc⟩ := ih h
        refine .intro (b := e) (by rw [hsteps, List.cons_append]) ?_ hdesc
        -- the steps up to the descent have none themselves, and this one comes before the first
        have hhead : (before ++ [c]).head? = some b := by
          have heq := congrArg List.head? hsteps
          simpa [List.head?_append, eq_comm] using heq
        refine pairwise_of_firstDescent?_eq_none ?_
        rw [List.cons_append, firstDescent?_cons fun t ht => ?_]
        · exact firstDescent?_eq_none hasc
        · exact Option.some.inj (hhead.symm.trans ht) ▸ hab

/-- The neighbours that the check of a list finds are the first ones that do not ascend. -/
theorem firstDescent?_eq_some_iff (steps : List Step) (v w : Version) :
    firstDescent? steps = some (v, w) ↔ FirstDescent steps v w := by
  refine ⟨firstDescent_of_firstDescent?_eq_some, ?_⟩
  rintro ⟨rfl, hasc, hdesc⟩
  exact firstDescent?_append hasc hdesc

/-- Steps that all ascend have no descent. -/
theorem FirstDescent.not_pairwise {steps : List Step} {v w : Version} (h : FirstDescent steps v w) :
    ¬ steps.Pairwise fun s t => s.version < t.version := by
  intro hasc
  have hsome := (firstDescent?_eq_some_iff steps v w).2 h
  rw [firstDescent?_eq_none hasc] at hsome
  exact nomatch hsome

namespace Catalogue

/-- What comes of a list of steps. -/
theorem ofSteps_cases (steps : List Step) :
    (steps = [] ∧ ofSteps steps = .error .emptyCatalogue) ∨
      (∃ v w, FirstDescent steps v w ∧ ofSteps steps = .error (.outOfOrder v w)) ∨
      ∃ c : Catalogue, c.steps = steps ∧ ofSteps steps = .ok c := by
  by_cases hnil : steps = []
  · exact .inl ⟨hnil, dif_pos hnil⟩
  · rw [ofSteps, dif_neg hnil]
    split
    next v w h => exact .inr (.inl ⟨v, w, (firstDescent?_eq_some_iff steps v w).1 h, rfl⟩)
    next => exact .inr (.inr ⟨_, rfl, rfl⟩)

/-- The steps of a catalogue are those that it is made of. -/
theorem steps_of_ofSteps {steps : List Step} {c : Catalogue} (h : ofSteps steps = .ok c) :
    c.steps = steps := by
  rcases ofSteps_cases steps with ⟨-, he⟩ | ⟨v, w, -, he⟩ | ⟨c', hc', he⟩
  · exact nomatch he.symm.trans h
  · exact nomatch he.symm.trans h
  · exact Except.ok.inj (he.symm.trans h) ▸ hc'

/-- A list of steps makes a catalogue iff it has steps and they ascend. -/
theorem exists_ofSteps_eq_ok_iff (steps : List Step) :
    (∃ c, ofSteps steps = .ok c) ↔
      steps ≠ [] ∧ steps.Pairwise fun s t => s.version < t.version := by
  constructor
  · rintro ⟨c, h⟩
    rw [← steps_of_ofSteps h]
    exact ⟨c.nonempty, c.ascending⟩
  · rintro ⟨hne, hasc⟩
    rcases ofSteps_cases steps with ⟨hnil, -⟩ | ⟨v, w, hdesc, -⟩ | ⟨c, -, hc⟩
    · exact absurd hnil hne
    · exact absurd hasc hdesc.not_pairwise
    · exact ⟨c, hc⟩

/-- A list that makes no catalogue is empty, or has a first descent. -/
theorem ofSteps_eq_error_iff (steps : List Step) (e : MigrationError) :
    ofSteps steps = .error e ↔ (steps = [] ∧ e = .emptyCatalogue) ∨
      ∃ v w, FirstDescent steps v w ∧ e = .outOfOrder v w := by
  constructor
  -- a list with this error is neither a catalogue nor one with another error
  · intro h
    rcases ofSteps_cases steps with ⟨hnil, he⟩ | ⟨v, w, hdesc, he⟩ | ⟨c, -, hc⟩
    · exact .inl ⟨hnil, (Except.error.inj (he.symm.trans h)).symm⟩
    · exact .inr ⟨v, w, hdesc, (Except.error.inj (he.symm.trans h)).symm⟩
    · exact nomatch hc.symm.trans h
  · rintro (⟨rfl, rfl⟩ | ⟨v, w, hdesc, rfl⟩)
    · rfl
    · have hsome := (firstDescent?_eq_some_iff steps v w).2 hdesc
      rcases ofSteps_cases steps with ⟨rfl, -⟩ | ⟨v', w', hdesc', he⟩ | ⟨c, hc, -⟩
      · exact nomatch hsome
      · -- there is only one first descent
        have hsome' := (firstDescent?_eq_some_iff steps v' w').2 hdesc'
        obtain ⟨rfl, rfl⟩ := Prod.mk.inj (Option.some.inj (hsome'.symm.trans hsome))
        exact he
      · exact absurd (hc ▸ c.ascending) hdesc.not_pairwise

/-! ## Both walks -/

/-- What the two walks over a catalogue find: the checks are all satisfied, or there is a first that
is not. -/
inductive Finds (c : Catalogue) (d : Dashboard) :
    Except MigrationError Verification → Except MigrationError (Option Version) → Prop
  | current (h : ∀ s ∈ c.steps, s.verify d = .ok .satisfied) :
      Finds c d (.ok .satisfied) (.ok (some c.latest))
  | behind {passed rest : List Step} {s : Step} {field : String}
      (h : c.steps = passed ++ s :: rest) (hpassed : ∀ t ∈ passed, t.verify d = .ok .satisfied)
      (hs : s.verify d = .ok (.missing field)) :
      Finds c d (.ok (.missing field)) (.ok (passed.getLast?.map (·.version)))
  | failed {passed rest : List Step} {s : Step} {e : MigrationError}
      (h : c.steps = passed ++ s :: rest) (hpassed : ∀ t ∈ passed, t.verify d = .ok .satisfied)
      (hs : s.verify d = .error e) : Finds c d (.error e) (.error e)

end Catalogue

/-- The last of the steps that are satisfied is kept in mind. -/
theorem detectIn_append_of_satisfied {d : Dashboard} {passed : List Step}
    (h : ∀ s ∈ passed, s.verify d = .ok .satisfied) (before : Option Version) (rest : List Step) :
    detectIn d before (passed ++ rest) =
      detectIn d ((passed.getLast?.map (·.version)).or before) rest := by
  induction passed generalizing before with
  | nil => rfl
  | cons s passed ih =>
    rw [List.forall_mem_cons] at h
    -- the last of the steps is the same, whether the first is counted or kept in mind
    have hlast : ((s :: passed).getLast?.map (·.version)).or before =
        (passed.getLast?.map (·.version)).or (some s.version) := by
      rw [List.getLast?_cons]
      cases passed.getLast? <;> rfl
    rw [List.cons_append, detectIn, h.1, hlast]
    exact ih h.2 _

namespace Catalogue

/-- The two walks over a catalogue find the same. -/
theorem finds (c : Catalogue) (d : Dashboard) : c.Finds d (c.verify d) (c.detect d) := by
  -- both walks stop at the first step whose check is not satisfied
  cases hverify : c.verify d with
  | error e =>
    obtain ⟨passed, s, rest, hsteps, hpassed, hs⟩ :=
      exists_split_of_verifySteps hverify fun h => by cases h
    have hdetect : c.detect d = .error e := by
      rw [detect, hsteps, detectIn_append_of_satisfied hpassed, detectIn, hs]
    rw [hdetect]
    exact .failed hsteps hpassed hs
  | ok outcome =>
    cases outcome with
    | satisfied =>
      have hall := satisfied_of_verifySteps hverify
      have hdetect : c.detect d = .ok (some c.latest) := detectIn_of_satisfied c.nonempty hall none
      rw [hdetect]
      exact .current hall
    | missing field =>
      obtain ⟨passed, s, rest, hsteps, hpassed, hs⟩ :=
        exists_split_of_verifySteps hverify fun h => by cases h
      have hdetect : c.detect d = .ok (passed.getLast?.map (·.version)) := by
        rw [detect, hsteps, detectIn_append_of_satisfied hpassed, detectIn, hs, Option.or_none]
      rw [hdetect]
      exact .behind hsteps hpassed hs

/-- The step that comes immediately after a version, or the first one if there is no version. -/
inductive Next (c : Catalogue) : Option Version → Step → Prop
  | first {s : Step} {after : List Step} (h : c.steps = s :: after) : Next c none s
  | after {before after : List Step} {t s : Step} (h : c.steps = before ++ t :: s :: after) :
      Next c (some t.version) s

/-- The step behind some others comes immediately after the version of the last of them. -/
theorem next_of_steps_eq {c : Catalogue} {passed rest : List Step} {s : Step}
    (h : c.steps = passed ++ s :: rest) : c.Next (passed.getLast?.map (·.version)) s := by
  rcases List.eq_nil_or_concat passed with rfl | ⟨before, t, rfl⟩
  · exact .first h
  · rw [List.concat_eq_append, List.append_assoc] at h
    rw [List.concat_eq_append, List.getLast?_concat]
    exact .after h

/-- The steps up to the version of one of them are the steps before it and the step itself. -/
theorem mem_of_version_le {c : Catalogue} {passed rest : List Step} (h : c.steps = passed ++ rest)
    {t u : Step} (ht : t ∈ c.steps) (hu : u ∈ passed) (hle : t.version ≤ u.version) :
    t ∈ passed := by
  -- a step that is left would come after all that are passed
  have hasc := c.ascending
  rw [h, List.pairwise_append] at hasc
  rw [h] at ht
  exact (List.mem_append.1 ht).resolve_right fun hrest =>
    Version.not_le_of_lt (hasc.2.2 u hu t hrest) hle

end Catalogue

/-- Which lists of steps make catalogues, and what the two walks over a catalogue tell of a
document, whatever its checks are.

A list makes a catalogue iff it has steps and they ascend; else the error names its first two
neighbours that do not.  The detection of a version fails iff the verification does, with the same
error.  The document is satisfied iff it is current, and iff the latest version is detected.  A
field that is missing is what the step immediately after the detected version tells, and all steps
up to that version are satisfied. -/
theorem ofSteps_detect_verify (steps : List Step) :
    ((∃ c, Catalogue.ofSteps steps = .ok c) ↔ steps ≠ [] ∧
      ∀ (i j : Nat) (hi : i < steps.length) (hj : j < steps.length), i < j →
        steps[i].version < steps[j].version) ∧
    (∀ e, Catalogue.ofSteps steps = .error e ↔ (steps = [] ∧ e = .emptyCatalogue) ∨
      ∃ v w, FirstDescent steps v w ∧ e = .outOfOrder v w) ∧
    ∀ c, Catalogue.ofSteps steps = .ok c → c.steps = steps ∧ ∀ d,
      (∀ e, c.detect d = .error e ↔ c.verify d = .error e) ∧
      (c.verify d = .ok .satisfied ↔ c.isCurrent d = .ok true) ∧
      (c.verify d = .ok .satisfied ↔ c.detect d = .ok (some c.latest)) ∧
      ∀ field, c.verify d = .ok (.missing field) → ∃ detected s,
        c.detect d = .ok detected ∧ c.Next detected s ∧ s.verify d = .ok (.missing field) ∧
        ∀ t ∈ c.steps, ∀ v ∈ detected, t.version ≤ v → t.verify d = .ok .satisfied := by
  refine ⟨?_, Catalogue.ofSteps_eq_error_iff steps, fun c hc =>
    ⟨Catalogue.steps_of_ofSteps hc, fun d => ?_⟩⟩
  · rw [Catalogue.exists_ofSteps_eq_ok_iff, List.pairwise_iff_getElem]
  · have hfinds := c.finds d
    rw [Catalogue.isCurrent]
    generalize c.verify d = verified at hfinds ⊢
    generalize c.detect d = detected at hfinds ⊢
    cases hfinds with
    | current => exact ⟨fun e => iff_of_false nofun nofun, iff_of_true rfl rfl,
        iff_of_true rfl rfl, nofun⟩
    | @behind passed rest s missing h hpassed hs =>
      have hdetected : passed.getLast?.map (·.version) ≠ some c.latest := fun hlatest =>
        nomatch (c.eq_nil_iff_of_steps_eq h).2 hlatest
      refine ⟨fun e => iff_of_false nofun nofun, iff_of_false nofun nofun,
        iff_of_false nofun fun he => hdetected (Except.ok.inj he), fun field hfield => ?_⟩
      obtain rfl := Verification.missing.inj (Except.ok.inj hfield)
      refine ⟨_, s, rfl, Catalogue.next_of_steps_eq h, hs, fun t ht v hv hle => ?_⟩
      obtain ⟨u, hu, rfl⟩ := Option.map_eq_some_iff.1 hv
      exact hpassed t (Catalogue.mem_of_version_le h ht (List.mem_of_getLast? hu) hle)
    | @failed _ _ _ e =>
      refine ⟨fun e' => ?_, iff_of_false nofun nofun, iff_of_false nofun nofun, nofun⟩
      -- the two outcomes differ in what they would be if the checks had not failed
      rw [Except.error.injEq, Except.error.injEq]

/-- A document with a title lacks what the second step asks for; the same steps in the other order
make no catalogue. -/
theorem ofSteps_detect_verify_forgetful :
    ∃ detected s, forgetful.detect { title := some "t" } = .ok detected ∧
      detected = some ⟨1⟩ ∧ forgetful.Next detected s ∧
      s.verify { title := some "t" } = .ok (.missing "params") ∧
      Catalogue.ofSteps forgetful.steps.reverse = .error (.outOfOrder ⟨2⟩ ⟨1⟩) := by
  have hok : Catalogue.ofSteps forgetful.steps = .ok forgetful := rfl
  obtain ⟨-, -, hcatalogue⟩ := ofSteps_detect_verify forgetful.steps
  obtain ⟨-, -, -, hmissing⟩ := (hcatalogue forgetful hok).2 { title := some "t" }
  obtain ⟨detected, s, hdetect, hnext, hs, -⟩ := hmissing "params" rfl
  have hversion : detected = some ⟨1⟩ := (Except.ok.inj hdetect).symm
  refine ⟨detected, s, hdetect, hversion, hnext, hs, ?_⟩
  refine ((ofSteps_detect_verify forgetful.steps.reverse).2.1 _).2 (.inr ⟨_, _, ?_, rfl⟩)
  exact @FirstDescent.intro _ [] [] _ _ rfl (List.pairwise_singleton _ _) (by decide)

end Dashboards
