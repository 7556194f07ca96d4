import Dashboards.Proofs.Statement.Unambiguous

/-!
# Columns and groups

The rows of a query with aggregations are grouped by what its filters show, and by nothing else.
The columns come from the two lists of filters one after the other, each with its own way to name a
column, and the groups from both lists at once.  They agree nevertheless: a filter that is shown has
its column and its group in the same place, and the group is what the column is called in the
result.

If the query passes the check, then whatever a column or an aggregation is called is a name, and
every column and group stands on one line.

## Key results

- `Query.columns_eq_shown`, `Query.groups_eq_shown`: columns and groups in terms of the filters that
  are shown
- `Aggregation.isName_outputName`, `Column.IsSound.onOneLine`: what checked columns are like
- `Query.columns_groups_agree`: the two lists agree
-/

namespace Dashboards

/-! ## Shown filters -/

/-- What the values of a filter's column are taken from. -/
def FilterKind.expression (kind : FilterKind) (name : String) : String :=
  match kind with
  | field => name
  | metadata => metadataExpression name

/-- The filters that are shown, with their kinds: those of fields, then those of metadata keys. -/
def Query.shown (q : Query) : List (FilterKind × Filter) :=
  (q.fieldFilters.filter (·.isColumn)).map (.field, ·) ++
    (q.metadataFilters.filter (·.isColumn)).map (.metadata, ·)

/-- The column of a filter that is shown. -/
def shownColumn : FilterKind × Filter → String
  | (.field, f) => f.fieldColumn
  | (.metadata, f) => f.metadataColumn

/-- What a column is called in the result: a field without an alias stands for itself, and any other
expression is given its name. -/
inductive ShowsAs (name : String) : FilterKind × Filter → String → Prop where
  | bare {f : Filter} (h : f.label = none) : ShowsAs name (.field, f) name
  | named {kind : FilterKind} {f : Filter} (h : kind = .field → f.label ≠ none) :
      ShowsAs name (kind, f) (kind.expression f.name ++ " AS " ++ name)

/-- A column is called by the output name of its filter. -/
theorem showsAs_shownColumn (x : FilterKind × Filter) :
    ShowsAs x.2.outputName x (shownColumn x) := by
  obtain ⟨kind, f⟩ := x
  cases kind with
  | metadata => exact .named fun h => by cases h
  | field =>
    -- a field without an alias is its own output name
    cases hlabel : f.label with
    | none =>
      have hname : f.outputName = f.fieldColumn := by
        rw [Filter.outputName, Filter.fieldColumn, hlabel, Option.getD_none]
      rw [hname]
      exact .bare hlabel
    | some label =>
      have hcolumn : shownColumn (.field, f) =
          FilterKind.field.expression f.name ++ " AS " ++ f.outputName := by
        rw [shownColumn, Filter.fieldColumn, Filter.outputName, hlabel, Option.getD_some]
        rfl
      rw [hcolumn]
      exact .named fun _ hnone => by
        rw [hlabel] at hnone
        cases hnone

/-- The columns are those of the filters that are shown, and then those of the aggregations. -/
theorem Query.columns_eq_shown (q : Query) :
    q.columns = q.shown.map shownColumn ++ q.aggregations.map (·.column) := by
  simp only [Query.columns, Query.shown, List.map_append, List.map_map]
  rfl

/-- The groups are the output names of the filters that are shown. -/
theorem Query.groups_eq_shown {q : Query} (h : q.aggregations ≠ []) :
    q.groups = q.shown.map fun x => x.2.outputName := by
  have haggregated : q.isAggregated = true := by simpa [Query.isAggregated] using h
  rw [Query.groups, if_pos haggregated, List.filter_append]
  simp only [Query.shown, List.map_append, List.map_map]
  rfl

/-- Without aggregations nothing is grouped. -/
theorem Query.groups_of_aggregations_eq_nil {q : Query} (h : q.aggregations = []) :
    q.groups = [] := by
  rw [Query.groups, Query.isAggregated, h]
  rfl

/-- In each place there are the column and the group of one filter. -/
theorem Query.getElem?_columns_groups {q : Query} (h : q.aggregations ≠ []) {i : Nat}
    {x : FilterKind × Filter} (hx : q.shown[i]? = some x) :
    q.columns[i]? = some (shownColumn x) ∧ q.groups[i]? = some x.2.outputName := by
  -- the place is one of those of the filters, before the columns of aggregations
  have hi : i < (q.shown.map shownColumn).length := by
    rw [List.length_map]
    exact (List.getElem?_eq_some_iff.1 hx).1
  constructor
  · rw [q.columns_eq_shown, List.getElem?_append_left hi, List.getElem?_map, hx, Option.map_some]
  · rw [Query.groups_eq_shown h, List.getElem?_map, hx, Option.map_some]

/-! ## Output names of aggregations -/

/-- What the column of an aggregation is called in the result. -/
def Aggregation.outputName (a : Aggregation) : String :=
  match a with
  | .percentile number => if a.percentile?.isSome then percentileLabel number else a.text
  | _ => a.text

/-- The column of an aggregation is an expression that is given a name. -/
theorem Aggregation.exists_column_eq (a : Aggregation) :
    ∃ expression, a.column = expression ++ " AS " ++ a.outputName := by
  -- all aggregations are calls but percentiles whose number is one
  have hcall (name : String) : ∃ expression, callColumn name = expression ++ " AS " ++ name := by
    have hbreak : "(value) AS " = "(value)" ++ " AS " := rfl
    exact ⟨Text.upper name ++ "(value)", by rw [callColumn, hbreak, ← String.append_assoc]⟩
  cases a with
  | named f => exact hcall f.name
  | other token => exact hcall token
  | percentile number =>
    simp only [Aggregation.column, Aggregation.outputName]
    cases (Aggregation.percentile number).percentile? with
    | none => exact hcall _
    | some p =>
      have hbreak : ", QUANTILES(value, 1001)) AS " = ", QUANTILES(value, 1001))" ++ " AS " := rfl
      refine ⟨"NTH(" ++ Decimal.natText (quantileRank p) ++ ", QUANTILES(value, 1001))", ?_⟩
      simp only [hbreak, Option.isSome_some, if_true, String.append_assoc]

/-- The names of the functions that are known are names. -/
theorem AggregateFunction.isName_name (f : AggregateFunction) : IsName f.name := by
  refine (isIdentifier_iff f.name).1 ?_
  cases f <;> decide +kernel

/-- The label of a percentile is a name, since it begins with a letter. -/
theorem isName_percentileLabel {number : String} (h : IsPlainDecimal number) :
    IsName (percentileLabel number) := by
  have hchars := isNameText_percentileLabel h
  rw [IsNameText, percentileLabel, String.toList_ofList] at hchars
  refine ⟨'p', _, String.toList_ofList, .inl (.inr (by decide)), fun c hc => ?_⟩
  exact (isIdentifierPart_iff c).1 (hchars c (List.mem_cons_of_mem _ hc))

/-- The columns of sound aggregations are called by names. -/
theorem Aggregation.isName_outputName {a : Aggregation} (h : a.IsSound) : IsName a.outputName := by
  cases a with
  | named f => exact f.isName_name
  | other token => exact h.elim
  | percentile number =>
    have hpercentile : (Aggregation.percentile number).percentile?.isSome = true :=
      (percentileOf?_isSome_iff number).2 h
    rw [Aggregation.outputName, if_pos hpercentile]
    exact isName_percentileLabel h.1

/-! ## Lines -/

/-- Names are on one line. -/
theorem IsNameText.onOneLine {s : String} (h : IsNameText s) : '\n' ∉ s.toList := fun hmem =>
  absurd (h _ hmem) (by decide)

/-- A sound call is on one line. -/
theorem Call.IsSound.onOneLine {c : Call} (h : c.IsSound) : '\n' ∉ c.text.toList := by
  cases c with
  | key name =>
    have hname : '\n' ∉ name.toList := IsNameText.onOneLine h
    simp [Call.text, hname]
  | value => decide
  | rank n =>
    have hrank : '\n' ∉ (Decimal.natText n).toList := Decimal.newLine_notMem_natText n
    simp [Call.text, hrank]

/-- A sound column is on one line. -/
theorem Column.IsSound.onOneLine {c : Column} (h : c.IsSound) : '\n' ∉ c.text.toList := by
  -- a column has three parts, two of which it may lack
  have hcall : '\n' ∉ c.call.elim [] fun call => call.text.toList := by
    cases hc : c.call with
    | none => exact List.not_mem_nil
    | some call => exact (h.call call hc).onOneLine
  have hlabel : '\n' ∉ c.label.elim [] labelChars := by
    cases hl : c.label with
    | none => exact List.not_mem_nil
    | some label =>
      have hname := (h.label label hl).onOneLine
      simp [labelChars, hname]
  rw [Column.text_toList, headChars]
  simp only [List.mem_append, not_or]
  exact ⟨⟨h.head.onOneLine, hcall⟩, hlabel⟩

/-! ## Checked queries -/

section

variable {q : Query}

/-- The filters that are shown are filters of the query. -/
theorem Query.isSound_of_mem_shown (hf : ∀ f ∈ q.fieldFilters, f.IsSound)
    (hm : ∀ f ∈ q.metadataFilters, f.IsSound) {x : FilterKind × Filter} (hx : x ∈ q.shown) :
    x.2.IsSound := by
  rcases List.mem_append.1 hx with hx | hx
  · obtain ⟨f, hmem, rfl⟩ := List.mem_map.1 hx
    exact hf f (List.mem_of_mem_filter hmem)
  · obtain ⟨f, hmem, rfl⟩ := List.mem_map.1 hx
    exact hm f (List.mem_of_mem_filter hmem)

/-- Every group is the output name of a filter that is shown. -/
theorem Query.exists_shown_of_mem_groups {group : String} (h : group ∈ q.groups) :
    ∃ x ∈ q.shown, x.2.outputName = group := by
  by_cases hnil : q.aggregations = []
  · rw [Query.groups_of_aggregations_eq_nil hnil] at h
    exact nomatch h
  · rw [Query.groups_eq_shown hnil] at h
    exact List.mem_map.1 h

end

/-- Columns and groups agree.  First come the columns of the filters that are shown, as many as
there are, and then those of the aggregations.  With aggregations there are as many groups, and in
each place the column is called by the group there; without aggregations there is no group.  In a
query that passes the check all of these are names, and all columns and groups are on one line. -/
theorem Query.columns_groups_agree (q : Query) :
    (∃ front, q.columns = front ++ q.aggregations.map (·.column) ∧
        front.length = q.shown.length) ∧
      (∀ a ∈ q.aggregations, ∃ expression, a.column = expression ++ " AS " ++ a.outputName) ∧
      (q.aggregations = [] → q.groups = []) ∧
      (q.aggregations ≠ [] → q.groups.length = q.shown.length ∧
        ∀ (i : Nat) (x : FilterKind × Filter), q.shown[i]? = some x →
          ∃ column, q.columns[i]? = some column ∧ q.groups[i]? = some x.2.outputName ∧
            ShowsAs x.2.outputName x column) ∧
      (q.check = .ok () → (∀ x ∈ q.shown, IsName x.2.outputName) ∧
        (∀ group ∈ q.groups, IsName group) ∧ (∀ a ∈ q.aggregations, IsName a.outputName) ∧
          ∀ item ∈ q.columns ++ q.groups, '\n' ∉ item.toList) := by
  refine ⟨⟨q.shown.map shownColumn, q.columns_eq_shown, List.length_map _⟩,
    fun a _ => a.exists_column_eq, Query.groups_of_aggregations_eq_nil, fun hne => ⟨?_, ?_⟩,
    fun hcheck => ?_⟩
  · rw [Query.groups_eq_shown hne, List.length_map]
  · intro i x hx
    obtain ⟨hcolumn, hgroup⟩ := Query.getElem?_columns_groups hne hx
    exact ⟨_, hcolumn, hgroup, showsAs_shownColumn x⟩
  -- what is checked are names, and names have no line breaks
  · obtain ⟨hf, hm, ha⟩ := Query.isSound_of_check hcheck
    have hshown : ∀ x ∈ q.shown, IsName x.2.outputName := fun x hx =>
      (Query.isSound_of_mem_shown hf hm hx).outputName
    have hgroups : ∀ group ∈ q.groups, IsName group := by
      intro group hgroup
      obtain ⟨x, hx, rfl⟩ := Query.exists_shown_of_mem_groups hgroup
      exact hshown x hx
    refine ⟨hshown, hgroups, fun a hmem => Aggregation.isName_outputName (ha a hmem), ?_⟩
    intro item hitem
    rcases List.mem_append.1 hitem with hitem | hitem
    · rw [q.columns_eq] at hitem
      obtain ⟨c, hc, rfl⟩ := List.mem_map.1 hitem
      exact (Query.isSound_of_mem_columns hf hm ha c hc).onOneLine
    · exact (hgroups item hitem).isNameText.onOneLine

/-- A hidden filter between columns of all kinds has no place among the groups. -/
theorem Query.columns_groups_agree_of_hidden :
    let q : Query := ⟨[.named .mean, .percentile "99.5"],
      [.column "host", .hidden "site", ⟨"zone", [], .column, some "z"⟩], [.column "code"]⟩
    q.check = .ok () ∧
      q.columns = ["host", "zone AS z", "REGEXP_EXTRACT(labels, r\"|code:(.*?)|\") AS code",
        "MEAN(value) AS mean", "NTH(996, QUANTILES(value, 1001)) AS p99_5"] ∧
      q.groups = ["host", "z", "code"] ∧ q.groups.length = q.shown.length ∧
      (∀ a ∈ q.aggregations, IsName a.outputName) ∧
      ∀ item ∈ q.columns ++ q.groups, '\n' ∉ item.toList := by
  intro q
  obtain ⟨-, -, -, hgrouped, hchecked⟩ := Query.columns_groups_agree q
  have hcheck : q.check = .ok () := by decide +kernel
  obtain ⟨-, -, haggregations, hlines⟩ := hchecked hcheck
  exact ⟨hcheck, by decide +kernel, by decide +kernel, (hgrouped (List.cons_ne_nil _ _)).1,
    haggregations, hlines⟩

end Dashboards
