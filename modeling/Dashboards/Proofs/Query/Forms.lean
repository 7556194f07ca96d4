import Dashboards.Proofs.Query.RoundTrip
import Dashboards.Proofs.Record.Objects

/-!
# The forms of a query in documents

One query can be written in many ways: an object or a list, members with defaults written out or
not, members that nobody knows, and names of functions in any case.  All of them are read as the
query, and what is written of it is a normal form: reading and writing it once more changes nothing.

## Key results

- `Codec.Faithful.normalizes`: what a faithful codec writes of what it has read is a normal form
- `Query.normalizes_and_readsFields`: the normal form of queries, and the fields of queries, filters
  and clauses with their defaults
-/

namespace Dashboards

open Json (Value)

/-! ## Normal forms -/

namespace Codec

variable {β : Type}

/-- What is written of what is read from a value. -/
def normalize (c : Codec β) (v : Value) : Except Problem Value := (c.ofValue v).map c.toValue

/-- What is written of what was read is read as the same again, and is its own normal form. -/
structure Normalizes (c : Codec β) : Prop where
  ofValue_toValue : ∀ v b, c.ofValue v = .ok b → c.ofValue (c.toValue b) = .ok b
  normalize_normalize : ∀ v w, c.normalize v = .ok w → c.normalize w = .ok w

/-- A codec whose values are written as they were read. -/
def Keeps (c : Codec β) : Prop := ∀ v b, c.ofValue v = .ok b → c.toValue b = v

/-- A faithful codec writes normal forms. -/
theorem Faithful.normalizes {c : Codec β} (hc : c.Faithful) : c.Normalizes := by
  have hback : ∀ v b, c.ofValue v = .ok b → c.ofValue (c.toValue b) = .ok b := fun v b h =>
    (hc v.sorted b (Value.isSorted_sorted v) h).ofValue_toValue
  refine ⟨hback, fun v w h => ?_⟩
  obtain ⟨b, hb, rfl⟩ := exists_of_map_eq_ok h
  rw [normalize, hback v b hb]
  rfl

end Codec

/-! ## Operands and rules -/

/-- What is made of a text is read from nothing but texts. -/
theorem exists_string_of_map_read {α : Type} {f : String → α} {v : Value} {a : α}
    (h : (Codec.string.read .value v.sorted.draft).map f = .ok a) :
    ∃ s, v = .string s ∧ f s = a := by
  obtain ⟨s, hs, rfl⟩ := exists_of_map_eq_ok h
  -- sorting does not touch strings, and nothing else is read as one
  cases v with
  | string s' => exact ⟨s', rfl, congrArg f (Except.ok.inj hs)⟩
  | null | bool _ | number _ | array _ | object _ => exact nomatch hs

/-- A number stays the number that it is, whole or not, and a text stays a text. -/
theorem Operand.keeps_codec : Operand.codec.Keeps := by
  intro v x h
  have hread : v.sorted.draft.read .value = .ok v.sorted := (Value.isSorted_sorted v).read_draft
  simp only [Codec.ofValue, Operand.codec, hread] at h
  -- numbers and strings are the only values with operands; sorting leaves both alone
  cases v with
  | number n => exact Except.ok.inj h ▸ rfl
  | string s => exact Except.ok.inj h ▸ rfl
  | null | bool _ | array _ | object _ => cases h

/-- A rule keeps its code, whether the code is known or not. -/
theorem MatchRule.keeps_codec : MatchRule.codec.Keeps := by
  intro v r h
  obtain ⟨s, rfl, hs⟩ := exists_string_of_map_read h
  obtain rfl := hs
  exact congrArg Value.string (MatchRule.code_ofCode s)

/-- An aggregation that is not known keeps its token. -/
theorem Aggregation.eq_string_of_ofValue_eq_other {v : Value} {token : String}
    (h : Aggregation.codec.ofValue v = .ok (.other token)) : v = .string token := by
  obtain ⟨s, rfl, hs⟩ := exists_string_of_map_read h
  rw [Aggregation.eq_of_ofText_eq_other hs]

/-! ## Fields -/

/-- A query that was read is written in a normal form, with the operands and the rules as they were
and aggregations that are not known by their tokens.  Every query is read back whose aggregations
and rules are what their texts are read as.  An object must have the name of a filter and the
operands and the rule of a clause; everything else has a default, which may be written or left out.
A list is the object that has the first fields. -/
theorem Query.normalizes_and_readsFields :
    (Query.codec.Normalizes ∧ Operand.codec.Keeps ∧ MatchRule.codec.Keeps ∧
      ∀ v token, Aggregation.codec.ofValue v = .ok (.other token) → v = .string token) ∧
    (∀ q, Query.codec.ofValue (Query.codec.toValue q) = .ok q ↔
      (∀ a ∈ q.aggregations, Aggregation.ofText a.text = a) ∧
        ∀ f ∈ q.fieldFilters ++ q.metadataFilters, ∀ c ∈ f.clauses,
          MatchRule.ofCode c.rule.code = c.rule) ∧
    Query.codec.ReadsFields [
      ("aggregations", some (.array [])),
      ("fieldFilters", some (.array [])),
      ("metadataFilters", some (.array []))] ∧
    Filter.shape.codec.ReadsFields [
      ("fieldName", none),
      ("filterClauses", some (.array [])),
      ("displayMode", some (.string "COLUMN")),
      ("fieldAlias", some .null)] ∧
    Clause.shape.codec.ReadsFields [
      ("matchOn", none),
      ("matchRule", none),
      ("isFunction", some (.bool false))] := by
  have hquery : Query.codec.Faithful := Shape.Faithful.codec Query.faithful_shape
  refine ⟨⟨hquery.normalizes, Operand.keeps_codec, MatchRule.keeps_codec,
    fun _ _ => Aggregation.eq_string_of_ofValue_eq_other⟩, fun q => ?_, ?_, ?_, ?_⟩
  -- filters and clauses are read back as far as the rules of the clauses are
  · rw [Codec.ofValue_toValue_iff, Query.returns_iff, List.forall_mem_append]
    simp only [Filter.returns_iff, Clause.returns_iff]
  · exact Shape.Faithful.readsFields Query.faithful_shape rfl
  · exact Shape.Faithful.readsFields Filter.faithful_shape rfl
  · exact Shape.Faithful.readsFields Clause.faithful_shape rfl

/-- A query as a list, with a filter and a clause as lists, operands of all kinds, a rule that is
not known, and aggregations of all kinds. -/
def mixedItems : List Value := [
  .array [.string "MaX", .string " 50 %", .string "p50"],
  .array [.array [.string "host", .array [.array [
    .array [.number (.integer 0 (by decide)), .number (.double (.zero false)), .string "0"],
    .string "XX"]]]]]

/-- The query of the list. -/
def mixedQuery : Query where
  aggregations := [.named .max, .percentile "50", .other "p50"]
  fieldFilters := [{
    name := "host"
    clauses := [⟨[.number (.integer 0 (by decide)), .number (.double (.zero false)), .text "0"],
      .custom "XX", false⟩]
    display := .column
    label := none }]
  metadataFilters := []

/-- The list, the object with its items, the list with the last default written out and the normal
form are read alike. -/
theorem Query.normalizes_and_readsFields_of_list :
    codec.ofValue (.array mixedItems) = .ok mixedQuery ∧
      codec.ofValue (.object (["aggregations", "fieldFilters", "metadataFilters"].zip mixedItems)) =
        .ok mixedQuery ∧
      codec.ofValue (.array (mixedItems ++ [.array []])) = .ok mixedQuery ∧
      codec.ofValue (codec.toValue mixedQuery) = .ok mixedQuery ∧
      codec.normalize (codec.toValue mixedQuery) = .ok (codec.toValue mixedQuery) := by
  have hread : codec.ofValue (.array mixedItems) = .ok mixedQuery := by decide +kernel
  obtain ⟨⟨hnormal, -⟩, -, hfields, -⟩ := normalizes_and_readsFields
  have hnormalize : codec.normalize (.array mixedItems) = .ok (codec.toValue mixedQuery) := by
    rw [Codec.normalize, hread]
    rfl
  exact ⟨hread, ((hfields.places _ _).1 hread).2, (hfields.trailing _ _ _ _ rfl).1 hread,
    hnormal.ofValue_toValue _ _ hread, hnormal.normalize_normalize _ _ hnormalize⟩

end Dashboards
