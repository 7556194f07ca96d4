import Dashboards.Proofs.Query.Percentile
import Dashboards.Proofs.Record.RoundTrip
import Dashboards.Query.Codec

/-!
# Queries read back

The parts of a query that were read from a document are read back as they are.  Not everything that
could be put into a query is: a rule whose code is `EQ` but which is not known as equality is read
back as equality, and so is the name of a function that is not known as such.

## Key results

- `Aggregation.ofText_text`, `MatchRule.ofCode_code`: what was made of a text is made of its own
  text again
- `Clause.faithful_shape`, `Filter.faithful_shape`, `Query.faithful_shape`: clauses, filters and
  queries from documents are read back
-/

namespace Dashboards

/-! ## Aggregations -/

/-- The characters of a percentile are not blank. -/
theorem IsPlainDecimal.isBlank_eq_false {text : String} (h : IsPlainDecimal text) :
    ∀ c ∈ text.toList, Text.isBlank c = false := by
  intro c hc
  rcases h.chars c hc with hdigit | rfl
  · exact Text.isBlank_of_isDigit ((isDigit_iff c).2 hdigit)
  · rfl

/-- No function has a percent sign in its name. -/
theorem AggregateFunction.ofName?_percent (number : String) : ofName? (number ++ "%") = none := by
  have hnames : ∀ f ∈ all, '%' ∉ f.name.toList := by decide
  refine List.find?_eq_none.2 fun f hf heq => hnames f hf ?_
  rw [beq_iff_eq.1 heq, Text.lower, String.toList_ofList, String.toList_append, List.flatMap_append]
  exact List.mem_append_right _ List.mem_cons_self

/-- A percentile is read from its number followed by a percent sign. -/
theorem Aggregation.ofText_percentile {number : String} (h : (percentileOf? number).isSome) :
    ofText (number ++ "%") = percentile number := by
  have hchars := ((percentileOf?_isSome_iff number).1 h).1.isBlank_eq_false
  have htext : (number ++ "%").toList = number.toList ++ ['%'] := String.toList_append
  -- there is nothing to trim: a percentile has digits and a point only
  have htrim : Text.trim (String.ofList number.toList) = number := by
    rw [Text.trim, String.toList_ofList, Text.trimChars_eq_self hchars, String.ofList_toList]
  simp only [ofText, AggregateFunction.ofName?_percent, htext, List.getLast?_concat,
    List.dropLast_concat, htrim, if_pos h]

/-- Only the number of a percentile is made one. -/
theorem Aggregation.isSome_of_ofText_eq_percentile {s number : String}
    (h : ofText s = percentile number) : (percentileOf? number).isSome := by
  simp only [ofText] at h
  split at h
  · cases h
  · split at h
    · split at h
      next hsome => exact Aggregation.percentile.inj h ▸ hsome
      next => cases h
    · cases h

/-- Any other token is the text itself. -/
theorem Aggregation.eq_of_ofText_eq_other {s token : String} (h : ofText s = other token) :
    token = s := by
  simp only [ofText] at h
  split at h
  · cases h
  · split at h
    · split at h
      · cases h
      · exact (Aggregation.other.inj h).symm
    · exact (Aggregation.other.inj h).symm

/-- What was made of a text is made of its own text again. -/
theorem Aggregation.ofText_text (s : String) : ofText (ofText s).text = ofText s := by
  -- a function keeps its name, a percentile its number, and any other token itself
  cases h : ofText s with
  | named f => simp only [text, ofText, AggregateFunction.ofName?_name]
  | percentile number => exact ofText_percentile (isSome_of_ofText_eq_percentile h)
  | other token => rw [text, eq_of_ofText_eq_other h, h, eq_of_ofText_eq_other h]

/-- Aggregations are read back, since their texts are made the same again. -/
@[simp] theorem Aggregation.faithful_codec : Aggregation.codec.Faithful := by
  intro v a _ h
  obtain ⟨s, _, rfl⟩ := exists_of_map_eq_ok h
  exact congrArg Except.ok (Aggregation.ofText_text s)

/-! ## Clauses -/

/-- The rule of a code has this code. -/
theorem MatchRule.code_ofCode (s : String) : (ofCode s).code = s := by
  unfold ofCode
  split <;> rfl

/-- What was made of a code is made of its own code again. -/
theorem MatchRule.ofCode_code (s : String) : ofCode (ofCode s).code = ofCode s := by
  rw [code_ofCode]

/-- Match rules are read back, known or not, since they keep their codes. -/
@[simp] theorem MatchRule.faithful_codec : MatchRule.codec.Faithful := by
  intro v r _ h
  obtain ⟨s, _, rfl⟩ := exists_of_map_eq_ok h
  exact congrArg Except.ok (MatchRule.ofCode_code s)

/-- Every operand is read back as it is: a number stays a number and a text a text. -/
@[simp] theorem Operand.returns_codec (x : Operand) : Operand.codec.Returns x := by
  cases x <;> rfl

/-- The members of a clause are set apart; a clause drops what it does not know. -/
theorem Clause.separate_shape : Clause.shape.Separate := by
  refine .of_dropped rfl (by decide) ?_
  simp [Clause.shape]

/-- Clauses from documents are read back. -/
theorem Clause.faithful_shape : Clause.shape.Faithful := by
  have hoperands : (Codec.list Operand.codec).Faithful :=
    Codec.list_faithful (Codec.faithful_of_returns Operand.returns_codec)
  -- the blank clause has no rule yet; the rule that stands in for it is read back too
  have hcustom : MatchRule.codec.Returns (.custom "") := rfl
  refine .of_dropped rfl separate_shape ?_ ?_
  · simp [Clause.shape, hoperands, hcustom]
  · rintro ⟨⟩ ⟨⟩
    simp +contextual [Clause.shape]

/-- A clause is read back when its rule is the one that its code stands for. -/
theorem Clause.returns_iff {c : Clause} :
    Clause.shape.codec.Returns c ↔ MatchRule.ofCode c.rule.code = c.rule := by
  -- the rule is the only member that need not be read back
  have hrule : MatchRule.codec.Returns c.rule ↔ MatchRule.ofCode c.rule.code = c.rule :=
    ⟨Except.ok.inj, congrArg Except.ok⟩
  rw [Shape.Faithful.returns_iff_settled faithful_shape rfl, ← hrule]
  simp [Shape.Settled, Clause.shape]

/-! ## Filters -/

/-- Every display is read back. -/
@[simp] theorem Display.returns_codec (display : Display) : Display.codec.Returns display := by
  cases display <;> rfl

/-- The members of a filter are set apart; a filter drops what it does not know. -/
theorem Filter.separate_shape : Filter.shape.Separate := by
  refine .of_dropped rfl (by decide) ?_
  simp [Filter.shape]

/-- Filters from documents are read back. -/
theorem Filter.faithful_shape : Filter.shape.Faithful := by
  have hclauses := Codec.list_faithful (Shape.Faithful.codec Clause.faithful_shape)
  have hdisplay := Codec.faithful_of_returns Display.returns_codec
  refine .of_dropped rfl separate_shape ?_ ?_
  · simp [Filter.shape, hclauses, hdisplay]
  · rintro ⟨⟩ ⟨⟩
    simp +contextual [Filter.shape]

/-- A filter is read back when its clauses are. -/
theorem Filter.returns_iff {f : Filter} :
    Filter.shape.codec.Returns f ↔ ∀ c ∈ f.clauses, Clause.shape.codec.Returns c := by
  rw [Shape.Faithful.returns_iff_settled faithful_shape rfl]
  simp [Shape.Settled, Filter.shape]

/-! ## Queries -/

/-- Queries from documents are read back. -/
theorem Query.faithful_shape : Query.shape.Faithful := by
  have haggregations := Codec.list_faithful Aggregation.faithful_codec
  have hfilters := Codec.list_faithful (Shape.Faithful.codec Filter.faithful_shape)
  refine .of_dropped rfl (.of_dropped rfl (by decide) ?_) ?_ ?_
  · simp [Query.shape]
  · simp [Query.shape, Query.empty, haggregations, hfilters]
  · rintro ⟨⟩ ⟨⟩
    simp +contextual [Query.shape]

/-- A query that was read from a value is read back. -/
theorem Query.returns_of_ofValue {v : Json.Value} {q : Query} (h : Query.codec.ofValue v = .ok q) :
    Query.codec.Returns q :=
  Shape.Faithful.codec faithful_shape v.sorted q (Json.Value.isSorted_sorted v) h

/-- A query is read back when its aggregations are what their texts stand for and its filters are
read back. -/
theorem Query.returns_iff {q : Query} :
    Query.codec.Returns q ↔ (∀ a ∈ q.aggregations, Aggregation.ofText a.text = a) ∧
      (∀ f ∈ q.fieldFilters, Filter.shape.codec.Returns f) ∧
      ∀ f ∈ q.metadataFilters, Filter.shape.codec.Returns f := by
  -- an aggregation is written as its text, so only that text matters
  have haggregation : ∀ a, Aggregation.codec.Returns a ↔ Aggregation.ofText a.text = a :=
    fun a => ⟨Except.ok.inj, congrArg Except.ok⟩
  rw [Query.codec, Shape.Faithful.returns_iff_settled faithful_shape rfl]
  simp [Shape.Settled, Query.shape, ← haggregation]

end Dashboards
