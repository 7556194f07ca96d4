import Dashboards.Proofs.Query.Percentile
import Dashboards.Statement.Build

/-!
# Which queries have checked statements

A checked statement needs names that can stand in a statement as they are, aggregations that are
known, something to read from and something to select.  The first of these that is not so is the
error, in the order in which they are looked at: field filters, metadata filters, aggregations,
sources, columns.

## Key results

- `checkFilters_of_isSound`, `FirstFilterProblem.checkFilters_eq`: what is found of filters
- `checkedStatementText_eq_ok_iff`: the queries that have a checked statement
- `Query.FirstProblem.checkedStatementText_eq`: the error of the others
-/

namespace Dashboards

/-! ## Names -/

/-- A letter of ASCII. -/
def IsAsciiLetter (c : Char) : Prop := ('A' ≤ c ∧ c ≤ 'Z') ∨ ('a' ≤ c ∧ c ≤ 'z')

/-- A name: letters and digits of ASCII, `_`, `.` and `-`, the first of them a letter or `_`. -/
def IsName (s : String) : Prop :=
  ∃ c cs, s.toList = c :: cs ∧ (IsAsciiLetter c ∨ c = '_') ∧
    ∀ x ∈ cs, IsAsciiLetter x ∨ IsAsciiDigit x ∨ x = '_' ∨ x = '.' ∨ x = '-'

/-- The letters that the check knows are those of ASCII. -/
theorem isAlpha_iff (c : Char) : c.isAlpha = true ↔ IsAsciiLetter c := by
  have hupper : c.isUpper = true ↔ 'A' ≤ c ∧ c ≤ 'Z' := decide_eq_true_iff
  have hlower : c.isLower = true ↔ 'a' ≤ c ∧ c ≤ 'z' :=
    Bool.and_eq_true_iff.trans (and_congr decide_eq_true_iff decide_eq_true_iff)
  exact Bool.or_eq_true_iff.trans (or_congr hupper hlower)

/-- What a name may begin with. -/
theorem isIdentifierStart_iff (c : Char) :
    isIdentifierStart c = true ↔ IsAsciiLetter c ∨ c = '_' := by
  rw [isIdentifierStart, Bool.or_eq_true, isAlpha_iff, beq_iff_eq]

/-- What a name may go on with. -/
theorem isIdentifierPart_iff (c : Char) : isIdentifierPart c = true ↔
    IsAsciiLetter c ∨ IsAsciiDigit c ∨ c = '_' ∨ c = '.' ∨ c = '-' := by
  have halphanum : c.isAlphanum = true ↔ IsAsciiLetter c ∨ IsAsciiDigit c :=
    Bool.or_eq_true_iff.trans (or_congr (isAlpha_iff c) (isDigit_iff c))
  simp only [isIdentifierPart, Bool.or_eq_true, halphanum, beq_iff_eq, or_assoc]

/-- The identifiers are the names. -/
theorem isIdentifier_iff (s : String) : isIdentifier s = true ↔ IsName s := by
  simp only [isIdentifier, IsName]
  cases s.toList with
  | nil => simp
  | cons c cs =>
    simp only [Bool.and_eq_true, List.all_eq_true, isIdentifierStart_iff, isIdentifierPart_iff,
      List.cons.injEq]
    constructor
    · exact fun h => ⟨c, cs, ⟨rfl, rfl⟩, h⟩
    · rintro ⟨_, _, ⟨rfl, rfl⟩, h⟩
      exact h

/-- A name is not empty. -/
theorem IsName.ne_empty {s : String} (h : IsName s) : s ≠ "" := by
  rintro rfl
  obtain ⟨c, cs, hs, -⟩ := h
  exact nomatch hs

/-- A name passes the check. -/
theorem checkIdentifier_of_isName {s : String} (h : IsName s) : checkIdentifier s = .ok () :=
  if_pos ((isIdentifier_iff s).2 h)

/-- A text that is no name is the error. -/
theorem checkIdentifier_of_not_isName {s : String} (h : ¬ IsName s) :
    checkIdentifier s = .error (.invalidIdentifier s) :=
  if_neg fun hs => h ((isIdentifier_iff s).1 hs)

/-! ## Filters -/

/-- The name of a filter is a name, and so is its alias if it has one. -/
structure Filter.IsSound (f : Filter) : Prop where
  name : IsName f.name
  label : ∀ label, f.label = some label → IsName label

/-- What is wrong with a filter in some place: first its name, then its alias. -/
inductive Filter.Problem (kind : FilterKind) (index : Nat) (f : Filter) :
    StatementError → Prop where
  | emptyName (h : f.name = "") : Problem kind index f (.emptyName kind index)
  | name (h : f.name ≠ "") (hn : ¬ IsName f.name) :
      Problem kind index f (.invalidIdentifier f.name)
  | label {label : String} (hn : IsName f.name) (h : f.label = some label) (hl : ¬ IsName label) :
      Problem kind index f (.invalidIdentifier label)

/-- What is wrong with the first filter that is not sound. -/
inductive FirstFilterProblem (kind : FilterKind) (fs : List Filter) : StatementError → Prop where
  | ofFilter {before after : List Filter} {f : Filter} {e : StatementError}
      (h : fs = before ++ f :: after) (hb : ∀ b ∈ before, b.IsSound)
      (hf : f.Problem kind before.length e) : FirstFilterProblem kind fs e

/-- A sound filter passes the check, whatever its kind and its place are. -/
theorem Filter.IsSound.check_eq {f : Filter} (h : f.IsSound) (kind : FilterKind) (index : Nat) :
    f.check kind index = .ok () := by
  rw [Filter.check, if_neg h.name.ne_empty, checkIdentifier_of_isName h.name]
  cases hl : f.label with
  | none => rfl
  | some label => exact checkIdentifier_of_isName (h.label label hl)

/-- What is wrong with a filter is what the check finds. -/
theorem Filter.Problem.check_eq {kind : FilterKind} {index : Nat} {f : Filter} {e : StatementError}
    (h : f.Problem kind index e) : f.check kind index = .error e := by
  cases h with
  | emptyName h => rw [Filter.check, if_pos h]
  | name h hn =>
    rw [Filter.check, if_neg h, checkIdentifier_of_not_isName hn]
    rfl
  | label hn h hl =>
    rw [Filter.check, if_neg hn.ne_empty, checkIdentifier_of_isName hn, h]
    exact checkIdentifier_of_not_isName hl

/-- A filter is sound, or something is wrong with it. -/
theorem Filter.isSound_or_problem (kind : FilterKind) (index : Nat) (f : Filter) :
    f.IsSound ∨ ∃ e, f.Problem kind index e := by
  -- in the order in which the check looks: whether there is a name, the name, the alias
  by_cases hempty : f.name = ""
  · exact .inr ⟨_, .emptyName hempty⟩
  · by_cases hn : IsName f.name
    · by_cases hl : ∀ label, f.label = some label → IsName label
      · exact .inl ⟨hn, hl⟩
      · obtain ⟨label, h, hl⟩ : ∃ label, f.label = some label ∧ ¬ IsName label := by
          simpa using hl
        exact .inr ⟨_, .label hn h hl⟩
    · exact .inr ⟨_, .name hempty hn⟩

/-- Filters pass the check if all of them are sound. -/
theorem checkFilters_of_isSound (kind : FilterKind) (index : Nat) {fs : List Filter}
    (h : ∀ f ∈ fs, f.IsSound) : checkFilters kind index fs = .ok () := by
  induction fs generalizing index with
  | nil => rfl
  | cons f fs ih =>
    obtain ⟨hf, hfs⟩ := List.forall_mem_cons.1 h
    rw [checkFilters, hf.check_eq]
    exact ih (index + 1) hfs

/-- Sound filters are passed over until the first that is not sound. -/
theorem checkFilters_of_problem {kind : FilterKind} (index : Nat) {before after : List Filter}
    {f : Filter} {e : StatementError} (hb : ∀ b ∈ before, b.IsSound)
    (hf : f.Problem kind (index + before.length) e) :
    checkFilters kind index (before ++ f :: after) = .error e := by
  -- induction on the sound filters, while the index counts them
  induction before generalizing index with
  | nil =>
    have hcheck : f.check kind index = .error e := hf.check_eq
    rw [List.nil_append, checkFilters, hcheck]
    rfl
  | cons b before ih =>
    obtain ⟨hb₁, hbs⟩ := List.forall_mem_cons.1 hb
    rw [List.cons_append, checkFilters, hb₁.check_eq]
    -- the number of the filter counts from the start of the whole list
    have hindex : index + (b :: before).length = index + 1 + before.length := by
      rw [List.length_cons]
      omega
    exact ih (index + 1) hbs (hindex ▸ hf)

/-- What is wrong with the first filter that is not sound is what the check finds of all. -/
theorem FirstFilterProblem.checkFilters_eq {kind : FilterKind} {fs : List Filter}
    {e : StatementError} (h : FirstFilterProblem kind fs e) :
    checkFilters kind 0 fs = .error e := by
  obtain ⟨rfl, hb, hf⟩ := h
  exact checkFilters_of_problem 0 hb (by rwa [Nat.zero_add])

/-- If something does not hold of all items, there is a first item of which it does not hold. -/
theorem exists_first_of_not_forall {α : Type} {P : α → Prop} {l : List α} (h : ¬ ∀ a ∈ l, P a) :
    ∃ before a after, l = before ++ a :: after ∧ (∀ b ∈ before, P b) ∧ ¬ P a := by
  induction l with
  | nil => exact absurd (List.forall_mem_nil P) h
  | cons a l ih =>
    by_cases ha : P a
    · have hl : ¬ ∀ b ∈ l, P b := fun hl => h (List.forall_mem_cons.2 ⟨ha, hl⟩)
      obtain ⟨before, b, after, rfl, hb, hnot⟩ := ih hl
      exact ⟨a :: before, b, after, rfl, List.forall_mem_cons.2 ⟨ha, hb⟩, hnot⟩
    · exact ⟨[], a, l, rfl, List.forall_mem_nil P, ha⟩

/-- If not all filters are sound, something is wrong with a first one. -/
theorem exists_firstFilterProblem (kind : FilterKind) {fs : List Filter}
    (h : ¬ ∀ f ∈ fs, f.IsSound) : ∃ e, FirstFilterProblem kind fs e := by
  obtain ⟨before, f, after, hfs, hb, hf⟩ := exists_first_of_not_forall h
  obtain ⟨e, he⟩ := (f.isSound_or_problem kind before.length).resolve_left hf
  exact ⟨e, hfs, hb, he⟩

/-- Filters that pass the check are sound. -/
theorem isSound_of_checkFilters {kind : FilterKind} {fs : List Filter}
    (h : checkFilters kind 0 fs = .ok ()) : ∀ f ∈ fs, f.IsSound := by
  -- filters that are not all sound have a first problem, which would be the error
  by_contra hnot
  obtain ⟨e, he⟩ := exists_firstFilterProblem kind hnot
  rw [he.checkFilters_eq] at h
  exact nomatch h

/-! ## Aggregations -/

/-- A function known by name, or a percentile. -/
def Aggregation.IsSound : Aggregation → Prop
  | .named _ => True
  | .percentile number => IsPercentile number
  | .other _ => False

/-- The aggregations that are known are the sound ones. -/
theorem Aggregation.isKnown_iff (a : Aggregation) : a.isKnown = true ↔ a.IsSound := by
  cases a with
  | named f => exact iff_of_true rfl trivial
  | percentile number => exact percentileOf?_isSome_iff number
  | other token => exact iff_of_false Bool.false_ne_true id

/-- Aggregations pass the check if all of them are sound. -/
theorem checkAggregations_of_isSound {as : List Aggregation} (h : ∀ a ∈ as, a.IsSound) :
    checkAggregations as = .ok () := by
  have hnone : as.find? (!·.isKnown) = none := by
    rw [List.find?_eq_none]
    intro a ha
    simp [a.isKnown_iff.2 (h a ha)]
  rw [checkAggregations, hnone]

/-- The first aggregation that is not sound is the error. -/
theorem checkAggregations_of_not_isSound {before after : List Aggregation} {a : Aggregation}
    (hb : ∀ b ∈ before, b.IsSound) (ha : ¬ a.IsSound) :
    checkAggregations (before ++ a :: after) = .error (.unknownAggregation a.text) := by
  have hsome : (before ++ a :: after).find? (!·.isKnown) = some a := by
    rw [List.find?_eq_some_iff_append]
    have hunknown : a.isKnown = false := Bool.eq_false_iff.2 fun h => ha (a.isKnown_iff.1 h)
    refine ⟨by simp [hunknown], before, after, rfl, fun b hb' => ?_⟩
    simp [b.isKnown_iff.2 (hb b hb')]
  rw [checkAggregations, hsome]

/-- Aggregations that pass the check are sound. -/
theorem isSound_of_checkAggregations {as : List Aggregation}
    (h : checkAggregations as = .ok ()) : ∀ a ∈ as, a.IsSound := by
  -- as with filters, by the first aggregation that would be the error
  by_contra hnot
  obtain ⟨before, a, after, rfl, hb, ha⟩ := exists_first_of_not_forall hnot
  rw [checkAggregations_of_not_isSound hb ha] at h
  exact nomatch h

/-! ## Queries -/

/-- A query selects something: a column of a filter, or an aggregation. -/
def Query.Selects (q : Query) : Prop :=
  (∃ f ∈ q.fieldFilters ++ q.metadataFilters, f.display = .column) ∨ q.aggregations ≠ []

/-- A query and a target that make a checked statement. -/
structure Query.IsSound (q : Query) (t : Target) : Prop where
  fieldFilters : ∀ f ∈ q.fieldFilters, f.IsSound
  metadataFilters : ∀ f ∈ q.metadataFilters, f.IsSound
  aggregations : ∀ a ∈ q.aggregations, a.IsSound
  sources : t.sources ≠ []
  selects : q.Selects

/-- The first thing that is wrong with a query and a target. -/
inductive Query.FirstProblem (q : Query) (t : Target) : StatementError → Prop where
  | fieldFilter {e : StatementError} (h : FirstFilterProblem .field q.fieldFilters e) :
      FirstProblem q t e
  | metadataFilter {e : StatementError} (hf : ∀ f ∈ q.fieldFilters, f.IsSound)
      (h : FirstFilterProblem .metadata q.metadataFilters e) : FirstProblem q t e
  | aggregation {before after : List Aggregation} {a : Aggregation}
      (hf : ∀ f ∈ q.fieldFilters, f.IsSound) (hm : ∀ f ∈ q.metadataFilters, f.IsSound)
      (h : q.aggregations = before ++ a :: after) (hb : ∀ b ∈ before, b.IsSound)
      (ha : ¬ a.IsSound) : FirstProblem q t (.unknownAggregation a.text)
  | noSource (hf : ∀ f ∈ q.fieldFilters, f.IsSound) (hm : ∀ f ∈ q.metadataFilters, f.IsSound)
      (ha : ∀ a ∈ q.aggregations, a.IsSound) (h : t.sources = []) : FirstProblem q t .noSource
  | noColumns (hf : ∀ f ∈ q.fieldFilters, f.IsSound) (hm : ∀ f ∈ q.metadataFilters, f.IsSound)
      (ha : ∀ a ∈ q.aggregations, a.IsSound) (hs : t.sources ≠ []) (h : ¬ q.Selects) :
      FirstProblem q t .noColumns

/-- A query has columns iff it selects something. -/
theorem Query.columns_eq_nil_iff (q : Query) : q.columns = [] ↔ ¬ q.Selects := by
  have hcolumn (fs : List Filter) :
      fs.filter (·.isColumn) = [] ↔ ¬ ∃ f ∈ fs, f.display = .column := by
    simp [List.filter_eq_nil_iff, Filter.isColumn]
  simp only [Query.columns, List.append_eq_nil_iff, List.map_eq_nil_iff, hcolumn, Query.Selects,
    List.mem_append, or_and_right, exists_or, not_or, not_not, ne_eq]

/-- The names and aggregations of a query pass the check if all of them are sound. -/
theorem Query.check_eq_ok {q : Query} (hf : ∀ f ∈ q.fieldFilters, f.IsSound)
    (hm : ∀ f ∈ q.metadataFilters, f.IsSound) (ha : ∀ a ∈ q.aggregations, a.IsSound) :
    q.check = .ok () := by
  rw [Query.check, checkFilters_of_isSound _ 0 hf, checkFilters_of_isSound _ 0 hm,
    checkAggregations_of_isSound ha]
  rfl

/-- All names and aggregations of a query that passes the check are sound. -/
theorem Query.isSound_of_check {q : Query} (h : q.check = .ok ()) :
    (∀ f ∈ q.fieldFilters, f.IsSound) ∧ (∀ f ∈ q.metadataFilters, f.IsSound) ∧
      ∀ a ∈ q.aggregations, a.IsSound := by
  rw [Query.check] at h
  -- the check has come to its end, so that none of its three parts has failed
  cases hfields : checkFilters .field 0 q.fieldFilters with
  | error e =>
    rw [hfields] at h
    exact nomatch h
  | ok =>
    rw [hfields] at h
    cases hmetadata : checkFilters .metadata 0 q.metadataFilters with
    | error e =>
      rw [hmetadata] at h
      exact nomatch h
    | ok =>
      rw [hmetadata] at h
      exact ⟨isSound_of_checkFilters hfields, isSound_of_checkFilters hmetadata,
        isSound_of_checkAggregations h⟩

section

variable {q : Query} {t : Target}

/-- What follows the check of the names and aggregations. -/
theorem Query.checkedStatementText_of_check (h : q.check = .ok ()) :
    q.checkedStatementText t =
      if t.sources = [] then .error .noSource
      else if q.columns = [] then .error .noColumns
      else .ok (q.statementText t) := by
  rw [Query.checkedStatementText, h]
  simp only [List.isEmpty_iff]
  split
  · rfl
  · split <;> rfl

/-- A sound query has the statement that it would have unchecked. -/
theorem Query.IsSound.checkedStatementText_eq (h : q.IsSound t) :
    q.checkedStatementText t = .ok (q.statementText t) := by
  have hcheck := Query.check_eq_ok h.fieldFilters h.metadataFilters h.aggregations
  have hcolumns : q.columns ≠ [] := fun hnil => q.columns_eq_nil_iff.1 hnil h.selects
  rw [Query.checkedStatementText_of_check hcheck, if_neg h.sources, if_neg hcolumns]

/-- The first thing that is wrong is the error. -/
theorem Query.FirstProblem.checkedStatementText_eq {e : StatementError} (h : q.FirstProblem t e) :
    q.checkedStatementText t = .error e := by
  -- each problem says that all that is looked at before is sound
  cases h with
  | fieldFilter h =>
    rw [Query.checkedStatementText, Query.check, h.checkFilters_eq]
    rfl
  | metadataFilter hf h =>
    rw [Query.checkedStatementText, Query.check, checkFilters_of_isSound _ 0 hf, h.checkFilters_eq]
    rfl
  | aggregation hf hm h hb ha =>
    rw [Query.checkedStatementText, Query.check, checkFilters_of_isSound _ 0 hf,
      checkFilters_of_isSound _ 0 hm, h, checkAggregations_of_not_isSound hb ha]
    rfl
  | noSource hf hm ha h =>
    rw [Query.checkedStatementText_of_check (Query.check_eq_ok hf hm ha), if_pos h]
  | noColumns hf hm ha hs h =>
    rw [Query.checkedStatementText_of_check (Query.check_eq_ok hf hm ha), if_neg hs,
      if_pos (q.columns_eq_nil_iff.2 h)]

/-- Something is wrong first if not all is sound. -/
theorem Query.exists_firstProblem (h : ¬ q.IsSound t) : ∃ e, q.FirstProblem t e := by
  -- the parts in the order of the check; each of them is asked for only if those before are sound
  by_cases hf : ∀ f ∈ q.fieldFilters, f.IsSound
  · by_cases hm : ∀ f ∈ q.metadataFilters, f.IsSound
    · by_cases ha : ∀ a ∈ q.aggregations, a.IsSound
      · by_cases hs : t.sources = []
        · exact ⟨_, .noSource hf hm ha hs⟩
        · exact ⟨_, .noColumns hf hm ha hs fun hsel => h ⟨hf, hm, ha, hs, hsel⟩⟩
      · obtain ⟨before, a, after, has, hb, ha⟩ := exists_first_of_not_forall ha
        exact ⟨_, .aggregation hf hm has hb ha⟩
    · obtain ⟨e, he⟩ := exists_firstFilterProblem .metadata hm
      exact ⟨e, .metadataFilter hf he⟩
  · obtain ⟨e, he⟩ := exists_firstFilterProblem .field hf
    exact ⟨e, .fieldFilter he⟩

end

/-- A query has a checked statement iff it is sound, and it is the statement without checks. -/
theorem Query.checkedStatementText_eq_ok_iff (q : Query) (t : Target) (s : String) :
    q.checkedStatementText t = .ok s ↔ q.IsSound t ∧ s = q.statementText t := by
  constructor
  · intro hok
    by_cases h : q.IsSound t
    · rw [h.checkedStatementText_eq] at hok
      exact ⟨h, (Except.ok.inj hok).symm⟩
    · obtain ⟨e, he⟩ := Query.exists_firstProblem h
      rw [he.checkedStatementText_eq] at hok
      exact nomatch hok
  · rintro ⟨h, rfl⟩
    exact h.checkedStatementText_eq

/-- The checked statement is the one without checks for the sound queries, and for the others there
is none, but an error that says what is wrong first. -/
theorem checkedStatementText_outcome (q : Query) (t : Target) :
    (∀ s, q.checkedStatementText t = .ok s ↔ q.IsSound t ∧ s = q.statementText t) ∧
      (∀ e, q.checkedStatementText t = .error e ↔ q.FirstProblem t e) := by
  refine ⟨q.checkedStatementText_eq_ok_iff t, fun e => ⟨fun herror => ?_, fun h => ?_⟩⟩
  · have h : ¬ q.IsSound t := fun h => by
      rw [h.checkedStatementText_eq] at herror
      exact nomatch herror
    -- the error is the only one there can be
    obtain ⟨e', he'⟩ := Query.exists_firstProblem h
    rw [he'.checkedStatementText_eq] at herror
    exact Except.error.inj herror ▸ he'
  · exact h.checkedStatementText_eq

end Dashboards
