import Dashboards.Proofs.Document.RoundTrip
import Dashboards.Proofs.Record.Objects

/-!
# Descriptions of data and queries

The description of a widget's data has the lists of a query among its members.  They are optional
there, and have defaults in a query of its own; a description keeps the members that it does not
know, and a query drops them.  Nevertheless both are read alike from one object, if no list is
`null`, which only a description takes for an absent one.

## Key results

- `SourceConfig.describes_iff`, `Query.describes_iff`: what an object says, part by part
- `SourceConfig.reads_as_query`: descriptions and queries are read alike
-/

namespace Dashboards

open Json (Members Value)

/-! ## Parts -/

/-- A list that may be absent is read as one that has a default. -/
theorem Codec.list_read_getD {β : Type} {c : Codec β} {found : Option Value}
    (hnull : found ≠ some .null) {x : Option (List β)}
    (h : (optional (list c)).read .value (found.getD .null).draft = .ok x) :
    (list c).read .value (found.getD (.array [])).draft = .ok (x.getD []) := by
  cases found with
  | none =>
    obtain rfl := Except.ok.inj h
    rfl
  | some v =>
    have hne : v ≠ .null := fun he => hnull (congrArg some he)
    have hread : readOptional (list c) .value v.draft = .ok x := h
    rw [readOptional_of_ne_null (Value.draft_ne_null hne)] at hread
    obtain ⟨bs, hbs, rfl⟩ := exists_of_map_eq_ok hread
    exact hbs

/-- A list that has a default is read as one that may be absent. -/
theorem Codec.exists_optional_read {β : Type} {c : Codec β} {found : Option Value} {bs : List β}
    (h : (list c).read .value (found.getD (.array [])).draft = .ok bs) :
    ∃ x, (optional (list c)).read .value (found.getD .null).draft = .ok x ∧ x.getD [] = bs := by
  -- an absent list is the empty one; a list that is there is not null, since that is no list
  cases found with
  | none =>
    obtain rfl := Except.ok.inj h
    exact ⟨none, rfl, rfl⟩
  | some v =>
    have hne : v ≠ .null := by
      rintro rfl
      exact list_refusesNull c bs h
    have hread : readOptional (list c) .value v.draft = .ok (some bs) := by
      rw [readOptional_of_ne_null (Value.draft_ne_null hne)]
      exact congrArg (Except.map some) h
    exact ⟨some bs, hread, rfl⟩

/-! ## Objects -/

/-- What an object says about a query. -/
theorem Query.describes_iff {ms : Members} {q : Query} : Query.shape.Describes ms q ↔
    (Codec.list Aggregation.codec).read .value
      ((ms.get? "aggregations").getD (.array [])).draft = .ok q.aggregations ∧
    (Codec.list Filter.shape.codec).read .value
      ((ms.get? "fieldFilters").getD (.array [])).draft = .ok q.fieldFilters ∧
    (Codec.list Filter.shape.codec).read .value
      ((ms.get? "metadataFilters").getD (.array [])).draft = .ok q.metadataFilters := by
  have hblank : ∀ {β : Type} (c : Codec β), (Codec.list c).toValue [] = .array [] := fun _ => rfl
  rw [Shape.describes_iff]
  simp [Query.shape, Query.empty, hblank]

/-- What an object says about a description of data. -/
theorem SourceConfig.describes_iff {ms : Members} {c : SourceConfig} :
    SourceConfig.shape.Describes ms c ↔
    (Codec.optional (.list Aggregation.codec)).read .value
      ((ms.get? "aggregations").getD .null).draft = .ok c.aggregations ∧
    (Codec.optional (.list Filter.shape.codec)).read .value
      ((ms.get? "fieldFilters").getD .null).draft = .ok c.fieldFilters ∧
    (Codec.optional (.list Filter.shape.codec)).read .value
      ((ms.get? "metadataFilters").getD .null).draft = .ok c.metadataFilters ∧
    (Codec.optional ResultOptions.shape.codec).read .value
      ((ms.get? "results").getD .null).draft = .ok c.results ∧
    (Codec.optional .rawObject).read .value ((ms.get? "filters").getD .null).draft = .ok c.filters ∧
    c.extra = ms.filter fun m => (SourceConfig.shape.member? m.1).isNone := by
  have hblank : ∀ {β : Type} (c : Codec β), (Codec.optional c).toValue none = .null := fun _ => rfl
  have hothers : (SourceConfig.shape.remainder ≠ .dropped → SourceConfig.shape.others c =
      ms.filter fun m => (SourceConfig.shape.member? m.1).isNone) ↔
        c.extra = ms.filter fun m => (SourceConfig.shape.member? m.1).isNone :=
    ⟨fun h => h nofun, fun h _ => h⟩
  rw [Shape.describes_iff, hothers]
  simp [SourceConfig.shape, hblank, and_assoc]

/-- A description that was read says the same as a query, if no list is `null`. -/
theorem SourceConfig.describes_query {ms : Members} {c : SourceConfig}
    (h : SourceConfig.shape.Describes ms c)
    (hnull : ∀ key ∈ ["aggregations", "fieldFilters", "metadataFilters"],
      ms.get? key ≠ some .null) : Query.shape.Describes ms c.query := by
  obtain ⟨haggregations, hfields, hmetadata, -⟩ := SourceConfig.describes_iff.1 h
  simp only [List.forall_mem_cons, List.not_mem_nil, false_implies, implies_true, and_true] at hnull
  exact Query.describes_iff.2 ⟨Codec.list_read_getD hnull.1 haggregations,
    Codec.list_read_getD hnull.2.1 hfields, Codec.list_read_getD hnull.2.2 hmetadata⟩

/-- A query that was read is the one of a description, if what else belongs to the description can
be read. -/
theorem Query.exists_describes {ms : Members} {q : Query} (h : Query.shape.Describes ms q)
    {results : Option ResultOptions} {filters : Option Members}
    (hresults : (Codec.optional ResultOptions.shape.codec).read .value
      ((ms.get? "results").getD .null).draft = .ok results)
    (hfilters : (Codec.optional .rawObject).read .value
      ((ms.get? "filters").getD .null).draft = .ok filters) :
    ∃ c, SourceConfig.shape.Describes ms c ∧ c.query = q := by
  obtain ⟨haggregations, hfields, hmetadata⟩ := Query.describes_iff.1 h
  obtain ⟨aggregations, haggregations, h₁⟩ := Codec.exists_optional_read haggregations
  obtain ⟨fieldFilters, hfields, h₂⟩ := Codec.exists_optional_read hfields
  obtain ⟨metadataFilters, hmetadata, h₃⟩ := Codec.exists_optional_read hmetadata
  -- the members that a description has no field for are its own
  let extra := ms.filter fun m => (SourceConfig.shape.member? m.1).isNone
  refine ⟨⟨aggregations, fieldFilters, metadataFilters, results, filters, extra⟩, ?_, ?_⟩
  · exact SourceConfig.describes_iff.2
      ⟨haggregations, hfields, hmetadata, hresults, hfilters, rfl⟩
  · rw [SourceConfig.query, h₁, h₂, h₃]

/-- What is read of a member that may be absent, from what the object has in its place. -/
theorem Codec.exists_optional_read_of_get? {β : Type} {c : Codec β} {ms : Members} {key : String}
    (hsorted : (Value.object ms).IsSorted)
    (h : ∀ v, ms.get? key = some v → ∃ x, (optional c).ofValue v = .ok x) :
    ∃ x, (optional c).read .value ((ms.get? key).getD .null).draft = .ok x := by
  cases hv : ms.get? key with
  | none => exact ⟨none, rfl⟩
  | some v =>
    obtain ⟨x, hx⟩ := h v hv
    rw [ofValue, hsorted.get? hv] at hx
    exact ⟨x, hx⟩

/-- Descriptions of data and queries are read alike.  An object without a `null` list that is read
as a description is read as its query; and one that is read as a query is read as a description of
this query, if its results and its filters are absent or can be read.  The description of a query
has this query, and is written as it is. -/
theorem SourceConfig.reads_as_query :
    (∀ (ms : Members) c, (∀ key ∈ ["aggregations", "fieldFilters", "metadataFilters"],
        (Value.object ms).sorted.get? key ≠ some .null) →
      SourceConfig.shape.codec.ofValue (.object ms) = .ok c →
        Query.codec.ofValue (.object ms) = .ok c.query) ∧
    (∀ (ms : Members) q, Query.codec.ofValue (.object ms) = .ok q →
      (∀ v, (Value.object ms).sorted.get? "results" = some v →
        ∃ r, (Codec.optional ResultOptions.shape.codec).ofValue v = .ok r) →
      (∀ v, (Value.object ms).sorted.get? "filters" = some v →
        ∃ fs, (Codec.optional .rawObject).ofValue v = .ok fs) →
      ∃ c, SourceConfig.shape.codec.ofValue (.object ms) = .ok c ∧ c.query = q) ∧
    (∀ q, SourceConfig.shape.codec.toValue (.ofQuery q) = Query.codec.toValue q ∧
      (SourceConfig.ofQuery q).query = q) := by
  have hconfig := SourceConfig.faithful_shape
  have hquery := Query.faithful_shape
  refine ⟨fun ms c hnull h => ?_, fun ms q h hresults hfilters => ?_, fun q => ⟨rfl, rfl⟩⟩
  -- only `null` for a list sets the two apart
  · have hdescribes := describes_query (hconfig.ofValue_object_eq_ok_iff.1 h) hnull
    exact hquery.ofValue_object_eq_ok_iff.2 hdescribes
  -- results and filters are passed over by a query, so they have to be read on their own
  · have hsorted := Value.isSorted_sorted (.object ms)
    obtain ⟨r, hr⟩ := Codec.exists_optional_read_of_get? hsorted hresults
    obtain ⟨fs, hfs⟩ := Codec.exists_optional_read_of_get? hsorted hfilters
    obtain ⟨c, hc, hcq⟩ :=
      Query.exists_describes (hquery.ofValue_object_eq_ok_iff.1 h) hr hfs
    exact ⟨c, hconfig.ofValue_object_eq_ok_iff.2 hc, hcq⟩

/-- The members of a description without one of the lists, with `null` filters, with the results and
with a member that nobody knows. -/
def describingMembers : Members := [
  ("aggregations", .array [.string "MaX", .string "50%"]),
  ("fieldFilters", .array [.object [("fieldName", .string "host")]]),
  ("filters", .null),
  ("results", .object [("pivot", .bool true)]),
  ("theme", .string "dark")]

/-- The description that the members are read as. -/
def describedConfig : SourceConfig where
  aggregations := some [.named .max, .percentile "50"]
  fieldFilters := some [.column "host"]
  results := some { pivot := some true }
  extra := [("theme", .string "dark")]

/-- The members are read alike as a description and as its query.  With `null` for a list they are
a description only. -/
theorem SourceConfig.reads_as_query_of_members :
    SourceConfig.shape.codec.ofValue (.object describingMembers) = .ok describedConfig ∧
    Query.codec.ofValue (.object describingMembers) = .ok describedConfig.query ∧
    (∃ c, SourceConfig.shape.codec.ofValue (.object describingMembers) = .ok c ∧
      c.query = describedConfig.query) ∧
    SourceConfig.shape.codec.ofValue (.object [("aggregations", .null)]) = .ok {} ∧
    ∀ q, Query.codec.ofValue (.object [("aggregations", .null)]) ≠ .ok q := by
  have hconfig : SourceConfig.shape.codec.ofValue (.object describingMembers) =
      .ok describedConfig := by decide +kernel
  have hnull : ∀ key ∈ ["aggregations", "fieldFilters", "metadataFilters"],
      (Value.object describingMembers).sorted.get? key ≠ some .null := by decide +kernel
  have hresults : ∀ v, (Value.object describingMembers).sorted.get? "results" = some v →
      ∃ r, (Codec.optional ResultOptions.shape.codec).ofValue v = .ok r := by
    rintro v ⟨⟩
    exact ⟨some { pivot := some true }, by rfl⟩
  have hfilters : ∀ v, (Value.object describingMembers).sorted.get? "filters" = some v →
      ∃ fs, (Codec.optional .rawObject).ofValue v = .ok fs := by
    rintro v ⟨⟩
    exact ⟨none, rfl⟩
  obtain ⟨hreads, hback, -⟩ := reads_as_query
  have hquery := hreads describingMembers describedConfig hnull hconfig
  exact ⟨hconfig, hquery, hback describingMembers _ hquery hresults hfilters, rfl, nofun⟩

end Dashboards
