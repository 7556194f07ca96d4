import Dashboards.Load
import Dashboards.Proofs.Query.RoundTrip
import Dashboards.Proofs.Yaml.Nodes

/-!
# Queries in JSON text that is read as YAML

JSON text is nearly YAML text: the loader reads the compact text of a query as the query with every
text reread.  So a query is read back from its JSON text if and only if all its texts are, and it is
refused if one of them has a character that YAML does not allow.

## Key results

- `Query.ofYaml_compact`: what the loader makes of the compact text of any query
- `Query.reread?_eq_some_self_iff`: which queries from documents stay as they are
-/

namespace Dashboards

open Json (Value)

/-! ## Values of queries -/

/-- A clause is written with all three members, also where they are the defaults. -/
theorem Clause.write_eq (c : Clause) : Clause.shape.codec.write c = .object
    [("matchOn", .array (c.operands.map Operand.codec.write)), ("matchRule", .string c.rule.code),
      ("isFunction", .bool c.isExpression)] := rfl

/-- A filter is written with three members, and a fourth one if it has a label. -/
theorem Filter.write_eq (f : Filter) : Filter.shape.codec.write f = .object
    ([("fieldName", .string f.name),
      ("filterClauses", .array (f.clauses.map Clause.shape.codec.write)),
      ("displayMode", .string f.display.word)] ++
      f.label.toList.map fun label => ("fieldAlias", .string label)) := by
  obtain ⟨name, clauses, display, label⟩ := f
  cases label <;> rfl

/-- A query is written with its three lists, also where they are empty. -/
theorem Query.write_eq (q : Query) : Query.codec.write q = .object
    [("aggregations", .array (q.aggregations.map Aggregation.codec.write)),
      ("fieldFilters", .array (q.fieldFilters.map Filter.shape.codec.write)),
      ("metadataFilters", .array (q.metadataFilters.map Filter.shape.codec.write))] := rfl

/-! ## Queries reread -/

/-- The operand with its text reread. -/
def Operand.reread? : Operand → Option Operand
  | .number n => some (.number n)
  | .text s => (Yaml.rereadText? s).map .text

/-- The clause with its texts reread. -/
def Clause.reread? (c : Clause) : Option Clause := do
  let operands ← c.operands.mapM Operand.reread?
  let code ← Yaml.rereadText? c.rule.code
  return ⟨operands, .ofCode code, c.isExpression⟩

/-- The label reread, if there is one. -/
def rereadLabel? : Option String → Option (Option String)
  | none => some none
  | some label => (Yaml.rereadText? label).map some

/-- The filter with its texts reread. -/
def Filter.reread? (f : Filter) : Option Filter := do
  let name ← Yaml.rereadText? f.name
  let clauses ← f.clauses.mapM Clause.reread?
  let label ← rereadLabel? f.label
  return ⟨name, clauses, f.display, label⟩

/-- The aggregation of its text reread. -/
def Aggregation.reread? (a : Aggregation) : Option Aggregation :=
  (Yaml.rereadText? a.text).map .ofText

/-- The query with its texts reread. -/
def Query.reread? (q : Query) : Option Query := do
  let aggregations ← q.aggregations.mapM Aggregation.reread?
  let fieldFilters ← q.fieldFilters.mapM Filter.reread?
  let metadataFilters ← q.metadataFilters.mapM Filter.reread?
  return ⟨aggregations, fieldFilters, metadataFilters⟩

namespace Yaml

variable {α β : Type}

/-! ## Readings of values -/

/-- What a reading makes of the node of a value reread: nothing if the value cannot be reread, and
else something without following an alias. -/
def Loads (read : Node → Reading α) (v : Value) : Option α → Prop
  | none => rereadValue? v = none
  | some a => ∃ w, rereadValue? v = some w ∧ ∀ n, (read (valueNode w)).run n = some (a, n)

/-- The same for the items of a list, all of which have to be reread. -/
def ItemsLoad (read : Node → Reading α) (vs : List Value) : Option (List α) → Prop
  | none => rereadItems? vs = none
  | some as => ∃ ws, rereadItems? vs = some ws ∧
      ∀ n, ((itemNodes ws).mapM read).run n = some (as, n)

/-- If every item is read as what it is reread as, then the list is. -/
theorem itemsLoad_map {read : Node → Reading α} {write : β → Value} {reread : β → Option α}
    (h : ∀ x, Loads read (write x) (reread x)) (xs : List β) :
    ItemsLoad read (xs.map write) (xs.mapM reread) := by
  -- induction on the items: the first one is reread or not, and then the others are
  induction xs with
  | nil => exact ⟨[], rfl, fun _ => rfl⟩
  | cons x xs ih =>
    have hx := h x
    rw [List.mapM_cons, List.map_cons]
    cases hr : reread x with
    | none =>
      -- one item that cannot be reread is enough for the list to be lost
      rw [hr] at hx
      have hnone : rereadValue? (write x) = none := hx
      show rereadItems? (write x :: xs.map write) = none
      rw [rereadItems?, hnone, Option.bind_none]
    | some a =>
      rw [hr] at hx
      obtain ⟨w, hw, hread⟩ := hx
      cases hrs : xs.mapM reread with
      | none =>
        rw [hrs] at ih
        have hnone : rereadItems? (xs.map write) = none := ih
        show rereadItems? (write x :: xs.map write) = none
        rw [rereadItems?, hw, Option.bind_some, hnone, Option.map_none]
      | some as =>
        rw [hrs] at ih
        obtain ⟨ws, hws, hreads⟩ := ih
        refine ⟨w :: ws, ?_, fun n => ?_⟩
        · rw [rereadItems?, hw, Option.bind_some, hws, Option.map_some]
        · simp [itemNodes, hread, hreads]

/-- A list is read as its items reread. -/
theorem loads_list (d : Document) {read : Node → Reading α} {write : β → Value}
    {reread : β → Option α} (h : ∀ x, Loads read (write x) (reread x)) (xs : List β) :
    Loads (d.list? read) (.array (xs.map write)) (xs.mapM reread) := by
  have hitems := itemsLoad_map h xs
  cases hxs : xs.mapM reread with
  | none =>
    rw [hxs] at hitems
    have hnone : rereadItems? (xs.map write) = none := hitems
    rw [Loads, rereadValue?, hnone, Option.map_none]
  | some as =>
    rw [hxs] at hitems
    obtain ⟨ws, hws, hreads⟩ := hitems
    refine ⟨.array ws, by rw [rereadValue?, hws, Option.map_some], fun n => ?_⟩
    simp [Document.list?, Document.items?, valueNode, Document.resolve, hreads]

/-- Reading a scalar follows no alias. -/
theorem run_scalar? (d : Document) (s : Scalar) (n : Nat) :
    (d.scalar? (.scalar s)).run n = some (s, n) := rfl

/-- Reading the text of a scalar follows no alias. -/
theorem run_text?_scalar (d : Document) (s : Scalar) (n : Nat) :
    (d.text? (.scalar s)).run n = some (s.text, n) := rfl

/-- A text is read as the text reread. -/
theorem loads_text (d : Document) (s : String) : Loads d.text? (.string s) (rereadText? s) := by
  cases hs : rereadText? s with
  | none => rw [Loads, rereadValue?, hs, Option.map_none]
  | some t => exact ⟨.string t, by rw [rereadValue?, hs, Option.map_some], fun n => rfl⟩

/-- The text of a label is read as the label reread. -/
theorem loads_label (d : Document) (label : String) :
    Loads d.optionalText? (.string label) (rereadLabel? (some label)) := by
  rw [rereadLabel?]
  cases hs : rereadText? label with
  | none => exact congrArg (Option.map Value.string) hs
  | some t => exact ⟨.string t, congrArg (Option.map Value.string) hs, fun n => rfl⟩

/-- An aggregation is read as what its text reread spells. -/
theorem loads_aggregation (d : Document) (a : Aggregation) :
    Loads (fun n => Aggregation.ofText <$> d.text? n) (Aggregation.codec.write a) a.reread? := by
  -- the aggregation is made of the text, so that the text decides whether there is one
  have htext := loads_text d a.text
  rw [Aggregation.reread?]
  cases hs : rereadText? a.text with
  | none =>
    rw [hs] at htext
    exact htext
  | some t =>
    rw [hs] at htext
    obtain ⟨w, hw, hread⟩ := htext
    exact ⟨w, hw, fun n => by simp [hread]⟩

/-- An operand is read as the operand reread: the quotes keep a text from being taken for a number,
and a number has none. -/
theorem loads_operand (d : Document) (x : Operand) :
    Loads d.operand? (Operand.codec.write x) x.reread? := by
  cases x with
  | number m =>
    refine ⟨.number m, rfl, fun n => ?_⟩
    simp [Document.operand?, valueNode, run_scalar?, Scalar.ownName?, Scalar.meaning?,
      plainMeaning_text]
  | text s =>
    rw [Operand.reread?]
    cases hs : rereadText? s with
    | none => exact congrArg (Option.map Value.string) hs
    | some t =>
      refine ⟨.string t, congrArg (Option.map Value.string) hs, fun n => ?_⟩
      simp [Document.operand?, valueNode, run_scalar?, Scalar.ownName?, Scalar.meaning?]

/-- A truth value is read as it is. -/
theorem loads_bool (d : Document) (b : Bool) : Loads d.bool? (.bool b) (some b) := by
  refine ⟨.bool b, rfl, fun n => ?_⟩
  cases b <;> rfl

/-- The word of a display mode is read as the mode: all of them are plain words. -/
theorem loads_display (d : Document) (display : Display) :
    Loads d.display? (.string display.word) (some display) := by
  refine ⟨.string display.word, ?_, fun n => ?_⟩
  · cases display <;> decide +kernel
  · cases display <;> rfl

/-! ## Records -/

/-- All members of a record are met if they are among those asked for. -/
theorem run_members? (d : Document) {known : List String} : (ms : List (String × Value)) →
    (ms.map (·.1)).Nodup → (∀ key ∈ ms.map (·.1), key ∈ known) → (n : Nat) →
    (d.members? known (memberNodes ms)).run n = some (ms.map fun (key, v) => (key, valueNode v), n)
  | [], _, _, n => rfl
  | (key, v) :: ms, hnodup, hknown, n => by
    rw [List.map_cons, List.nodup_cons] at hnodup
    rw [List.map_cons, List.forall_mem_cons] at hknown
    have hrest := run_members? d ms hnodup.2 hknown.2
    -- the key does not come again, so that its value is not taken for a duplicate
    have hnew : (ms.map fun (x, v) => (x, valueNode v)).any (·.1 == key) = false := by
      rw [List.any_map, List.any_eq_false]
      intro m hm heq
      exact hnodup.1 (List.mem_map.2 ⟨m, hm, beq_iff_eq.1 heq⟩)
    simp only [memberNodes, Document.members?, StateT.run_bind, run_text?_scalar, hrest]
    simp [-List.any_map, hknown.1, hnew]

/-- The members of a record that has no others than those asked for. -/
theorem run_record? {d : Document} {known : List String} {ms : List (String × Value)}
    (hnodup : (ms.map (·.1)).Nodup) (hknown : ∀ key ∈ ms.map (·.1), key ∈ known) (n : Nat) :
    (d.record? known (valueNode (.object ms))).run n =
      some (ms.map fun (key, v) => (key, valueNode v), n) := by
  simp [Document.record?, Document.entries?, valueNode, Document.resolve,
    run_members? d ms hnodup hknown]

/-- What becomes of the members of a record: they cannot be reread, or what they are reread as
fits the result. -/
def MembersLoad (ms : List (String × Value)) (fits : List (String × Value) → α → Prop) :
    Option α → Prop
  | none => rereadMembers? ms = none
  | some a => ∃ ws, rereadMembers? ms = some ws ∧ fits ws a

/-- A record without members is reread as it is. -/
theorem MembersLoad.nil {fits : List (String × Value) → α → Prop} {a : α} (h : fits [] a) :
    MembersLoad [] fits (some a) := ⟨[], rfl, h⟩

/-- One more member, on whose value the result depends. -/
theorem Loads.cons {read : Node → Reading α} {v : Value} {o : Option α} {key : String}
    {ms : List (String × Value)} {fits : List (String × Value) → β → Prop} {f : α → Option β}
    (h : Loads read v o)
    (h' : ∀ w a, (∀ n, (read (valueNode w)).run n = some (a, n)) →
      MembersLoad ms (fun ws => fits ((key, w) :: ws)) (f a)) :
    MembersLoad ((key, v) :: ms) fits (o.bind f) := by
  cases o with
  | none =>
    have hnone : rereadValue? v = none := h
    show rereadMembers? ((key, v) :: ms) = none
    rw [rereadMembers?, hnone, Option.bind_none]
  | some a =>
    obtain ⟨w, hw, hread⟩ := h
    have hms := h' w a hread
    have hmembers : rereadMembers? ((key, v) :: ms) = (rereadMembers? ms).map ((key, w) :: ·) := by
      rw [rereadMembers?, hw, Option.bind_some]
    rw [Option.bind_some]
    cases hb : f a with
    | none =>
      rw [hb] at hms
      exact hmembers.trans (congrArg _ hms)
    | some b =>
      rw [hb] at hms
      obtain ⟨ws, hws, hfits⟩ := hms
      exact ⟨(key, w) :: ws, by rw [hmembers, hws, Option.map_some], hfits⟩

/-- The members of a record make the record. -/
theorem MembersLoad.record {read : Node → Reading α} {ms : List (String × Value)} {o : Option α}
    (h : MembersLoad ms (fun ws a => ∀ n, (read (valueNode (.object ws))).run n = some (a, n)) o) :
    Loads read (.object ms) o := by
  cases o with
  | none => exact congrArg (Option.map Value.object) h
  | some a =>
    obtain ⟨ws, hws, hread⟩ := h
    exact ⟨.object ws, by rw [rereadValue?, hws, Option.map_some], hread⟩

/-- A clause is read as the clause reread. -/
theorem loads_clause (d : Document) (c : Clause) :
    Loads d.clause? (Clause.shape.codec.write c) c.reread? := by
  -- the members are reread in the order in which they are written, one after the other
  have hreread : c.reread? = (c.operands.mapM Operand.reread?).bind fun operands =>
      (rereadText? c.rule.code).bind fun code => (some c.isExpression).bind fun isExpression =>
        some ⟨operands, .ofCode code, isExpression⟩ := rfl
  rw [Clause.write_eq, hreread]
  refine MembersLoad.record ((loads_list d (loads_operand d) _).cons fun w₁ operands h₁ =>
    (loads_text d _).cons fun w₂ code h₂ => (loads_bool d _).cons fun w₃ isExpression h₃ =>
      .nil fun n => ?_)
  simp only [Document.clause?, StateT.run_bind]
  rw [run_record? (by simp) (by simp)]
  simp [Document.required, Document.defaulted, List.lookup_cons, h₁, h₂, h₃]

/-- A filter is read as the filter reread. -/
theorem loads_filter (d : Document) (f : Filter) :
    Loads d.filter? (Filter.shape.codec.write f) f.reread? := by
  obtain ⟨name, clauses, display, label⟩ := f
  cases label with
  | none =>
    -- without a label the member is left out, so that nothing is read for it
    have hreread : Filter.reread? ⟨name, clauses, display, none⟩ =
        (rereadText? name).bind fun name => (clauses.mapM Clause.reread?).bind fun clauses =>
          (some display).bind fun display => some ⟨name, clauses, display, none⟩ := rfl
    rw [Filter.write_eq, hreread]
    refine MembersLoad.record ((loads_text d _).cons fun w₁ name h₁ =>
      (loads_list d (loads_clause d) _).cons fun w₂ clauses h₂ =>
        (loads_display d _).cons fun w₃ display h₃ => .nil fun n => ?_)
    simp only [Document.filter?, StateT.run_bind]
    rw [run_record? (by simp) (by simp)]
    simp [Document.required, Document.defaulted, List.lookup_cons, h₁, h₂, h₃]
  | some label =>
    have hreread : Filter.reread? ⟨name, clauses, display, some label⟩ =
        (rereadText? name).bind fun name => (clauses.mapM Clause.reread?).bind fun clauses =>
          (some display).bind fun display => (rereadLabel? (some label)).bind fun label =>
            some ⟨name, clauses, display, label⟩ := rfl
    rw [Filter.write_eq, hreread]
    refine MembersLoad.record ((loads_text d _).cons fun w₁ name h₁ =>
      (loads_list d (loads_clause d) _).cons fun w₂ clauses h₂ =>
        (loads_display d _).cons fun w₃ display h₃ => (loads_label d _).cons fun w₄ label h₄ =>
          .nil fun n => ?_)
    simp only [Document.filter?, StateT.run_bind]
    rw [run_record? (by simp) (by simp)]
    simp [Document.required, Document.defaulted, List.lookup_cons, h₁, h₂, h₃, h₄]

/-- A query is read as the query reread. -/
theorem loads_query (d : Document) (q : Query) :
    Loads d.query? (Query.codec.write q) q.reread? := by
  have hreread : q.reread? = (q.aggregations.mapM Aggregation.reread?).bind fun aggregations =>
      (q.fieldFilters.mapM Filter.reread?).bind fun fieldFilters =>
        (q.metadataFilters.mapM Filter.reread?).bind fun metadataFilters =>
          some ⟨aggregations, fieldFilters, metadataFilters⟩ := rfl
  rw [Query.write_eq, hreread]
  refine MembersLoad.record ((loads_list d (loads_aggregation d) _).cons fun w₁ aggregations h₁ =>
    (loads_list d (loads_filter d) _).cons fun w₂ fieldFilters h₂ =>
      (loads_list d (loads_filter d) _).cons fun w₃ metadataFilters h₃ => .nil fun n => ?_)
  simp only [Document.query?, StateT.run_bind]
  rw [run_record? (by simp) (by simp)]
  simp [Document.defaulted, List.lookup_cons, h₁, h₂, h₃]

/-! ## Keys -/

/-- The keys in a list are short names if those in the items are. -/
theorem itemsHaveNameKeys_map {write : β → Value} (h : ∀ x, hasNameKeys (write x) = true) :
    (xs : List β) → itemsHaveNameKeys (xs.map write) = true
  | [] => rfl
  | x :: xs => by simp [itemsHaveNameKeys, h x, itemsHaveNameKeys_map h xs]

/-- There are no keys in an aggregation. -/
theorem hasNameKeys_aggregation (a : Aggregation) :
    hasNameKeys (Aggregation.codec.write a) = true := rfl

/-- There are no keys in an operand. -/
theorem hasNameKeys_operand (x : Operand) : hasNameKeys (Operand.codec.write x) = true := by
  cases x <;> rfl

/-- The keys of a clause are short names. -/
theorem hasNameKeys_clause (c : Clause) : hasNameKeys (Clause.shape.codec.write c) = true := by
  have hkeys : ∀ key ∈ ["matchOn", "matchRule", "isFunction"], Scan.isNameKey key = true := by
    decide +kernel
  simp only [List.forall_mem_cons] at hkeys
  rw [Clause.write_eq]
  simp [hasNameKeys, membersHaveNameKeys, hkeys, itemsHaveNameKeys_map hasNameKeys_operand]

/-- The keys of a filter are short names, and so are those in its clauses. -/
theorem hasNameKeys_filter (f : Filter) : hasNameKeys (Filter.shape.codec.write f) = true := by
  have hkeys : ∀ key ∈ ["fieldName", "filterClauses", "displayMode", "fieldAlias"],
      Scan.isNameKey key = true := by decide +kernel
  simp only [List.forall_mem_cons] at hkeys
  rw [Filter.write_eq]
  cases f.label <;>
    simp [hasNameKeys, membersHaveNameKeys, hkeys, itemsHaveNameKeys_map hasNameKeys_clause]

/-- The keys of a query are short names, and so are those in its filters. -/
theorem hasNameKeys_query (q : Query) : hasNameKeys (Query.codec.write q) = true := by
  have hkeys : ∀ key ∈ ["aggregations", "fieldFilters", "metadataFilters"],
      Scan.isNameKey key = true := by decide +kernel
  simp only [List.forall_mem_cons] at hkeys
  rw [Query.write_eq]
  simp [hasNameKeys, membersHaveNameKeys, hkeys, itemsHaveNameKeys_map hasNameKeys_aggregation,
    itemsHaveNameKeys_map hasNameKeys_filter]

end Yaml

/-! ## Loading -/

/-- The compact text of a query is loaded as the query with every text reread, and refused if one of
them cannot be reread. -/
theorem Query.ofYaml_compact (q : Query) :
    Query.ofYaml (Query.codec.write q).compact =
      match q.reread? with
      | some q' => .ok q'
      | none => .error .invalidQuery := by
  have hkeys := Yaml.hasNameKeys_query q
  have hloads := fun d => Yaml.loads_query d q
  rw [Query.write_eq] at hkeys hloads ⊢
  rw [Query.ofYaml, Yaml.query?, Yaml.Document.ofText?_compact hkeys]
  cases hq : q.reread? with
  | none =>
    rw [hq] at hloads
    have hnone : Yaml.rereadValue? _ = none := hloads ⟨none, []⟩
    rw [hnone]
    rfl
  | some q' =>
    rw [hq] at hloads
    -- no alias is followed, so that it does not matter how many may be
    obtain ⟨w, hw, -⟩ := hloads ⟨none, []⟩
    obtain ⟨w', hw', hread⟩ := hloads ⟨some (Yaml.valueNode w), []⟩
    obtain rfl := Option.some.inj (hw.symm.trans hw')
    simp [hw, StateT.run'_eq, hread]

/-! ## Texts that are kept -/

namespace Yaml

/-- The text of a JSON string is read as it is: its characters may stand there, and none of it is
folded as lines are. -/
structure IsKept (text : String) : Prop where
  writable : ∀ c ∈ text.toList, isWritable c = true
  unfolded : IsUnfolded text.toList

/-- A text is reread as itself iff it is kept. -/
theorem rereadText?_eq_some_self_iff {text : String} :
    rereadText? text = some text ↔ IsKept text := by
  rw [rereadText?]
  constructor
  · intro h
    split at h
    next hall =>
      obtain ⟨cs, hcs, htext⟩ := Option.map_eq_some_iff.1 h
      refine ⟨List.all_eq_true.1 hall, reread?_eq_some_self_iff.1 (hcs.trans ?_)⟩
      rw [← htext, String.toList_ofList]
    next => exact nomatch h
  · rintro ⟨hall, hunfolded⟩
    rw [if_pos (List.all_eq_true.2 hall), reread?_eq_some_self_iff.2 hunfolded, Option.map_some,
      String.ofList_toList]

instance (text : String) : Decidable (IsKept text) :=
  decidable_of_iff _ rereadText?_eq_some_self_iff

/-- A text of one word whose characters are allowed is kept. -/
theorem isKept_of_word {text : String}
    (h : ∀ c ∈ text.toList, isAllowed c = true ∧ isGapChar c = false) : IsKept text := by
  -- nothing is folded in a word: it is reread up to its end
  have hword := reread?_word (fun c hc => (h c hc).2) []
  rw [List.append_nil] at hword
  refine ⟨fun c hc => by simp [isWritable, (h c hc).1], reread?_eq_some_self_iff.1 ?_⟩
  rw [hword]
  simp [reread?, gapText]

end Yaml

open Yaml (IsKept rereadText? rereadText?_eq_some_self_iff)

/-- The text of an operand, if it is one. -/
def Operand.texts : Operand → List String
  | .number _ => []
  | .text s => [s]

/-- The texts of a clause. -/
def Clause.texts (c : Clause) : List String := c.rule.code :: c.operands.flatMap Operand.texts

/-- The texts of a filter. -/
def Filter.texts (f : Filter) : List String :=
  f.name :: f.label.toList ++ f.clauses.flatMap Clause.texts

/-- The texts of a query. -/
def Query.texts (q : Query) : List String :=
  q.aggregations.map Aggregation.text ++ (q.fieldFilters ++ q.metadataFilters).flatMap Filter.texts

/-- A list comes back from a partial map iff each of its items does. -/
theorem mapM_eq_some_self_iff {α : Type} {f : α → Option α} {xs : List α} :
    xs.mapM f = some xs ↔ ∀ x ∈ xs, f x = some x := by
  induction xs with
  | nil => simp
  | cons x xs ih =>
    rw [List.mapM_cons, List.forall_mem_cons, ← ih]
    cases f x <;> cases xs.mapM f <;> simp

/-- An operand is reread as itself iff its text is kept. -/
theorem Operand.reread?_eq_some_self_iff {x : Operand} :
    x.reread? = some x ↔ ∀ s ∈ x.texts, IsKept s := by
  cases x with
  | number n => simp [reread?, texts]
  | text s => simp [reread?, texts, ← rereadText?_eq_some_self_iff]

/-- A clause whose code spells its rule is reread as itself iff its texts are kept. -/
theorem Clause.reread?_eq_some_self_iff {c : Clause} (h : MatchRule.ofCode c.rule.code = c.rule) :
    c.reread? = some c ↔ ∀ s ∈ c.texts, IsKept s := by
  -- the operands come back iff each of them does
  have hoperands : c.operands.mapM Operand.reread? = some c.operands ↔
      ∀ s ∈ c.operands.flatMap Operand.texts, IsKept s := by
    simp only [mapM_eq_some_self_iff, Operand.reread?_eq_some_self_iff, List.forall_mem_flatMap]
  rw [texts, List.forall_mem_cons, ← hoperands, ← rereadText?_eq_some_self_iff, reread?]
  obtain ⟨operands, rule, isExpression⟩ := c
  constructor
  · intro hreread
    simp only [Option.bind_eq_bind, Option.bind_eq_some_iff] at hreread
    obtain ⟨xs, hxs, code, hcode, heq⟩ := hreread
    obtain ⟨rfl, rfl, -⟩ := Clause.mk.inj (Option.some.inj heq)
    -- the code is the text that the rule was read from
    rw [MatchRule.code_ofCode] at hcode ⊢
    exact ⟨hcode, hxs⟩
  · rintro ⟨hcode, hxs⟩
    simp [hcode, hxs, h]

/-- A label is reread as itself iff it is kept. -/
theorem rereadLabel?_eq_some_self_iff {label : Option String} :
    rereadLabel? label = some label ↔ ∀ s ∈ label.toList, IsKept s := by
  cases label with
  | none => simp [rereadLabel?]
  | some label => simp [rereadLabel?, ← rereadText?_eq_some_self_iff]

/-- A filter from a document is reread as itself iff its texts are kept. -/
theorem Filter.reread?_eq_some_self_iff {f : Filter} (h : Filter.shape.codec.Returns f) :
    f.reread? = some f ↔ ∀ s ∈ f.texts, IsKept s := by
  -- the clauses of a filter from a document spell their rules
  have hclause : ∀ c ∈ f.clauses, c.reread? = some c ↔ ∀ s ∈ c.texts, IsKept s := fun c hc =>
    Clause.reread?_eq_some_self_iff (Clause.returns_iff.1 (Filter.returns_iff.1 h c hc))
  have hclauses : f.clauses.mapM Clause.reread? = some f.clauses ↔
      ∀ s ∈ f.clauses.flatMap Clause.texts, IsKept s := by
    rw [mapM_eq_some_self_iff, List.forall_mem_flatMap]
    exact forall₂_congr hclause
  rw [texts, List.cons_append, List.forall_mem_cons, List.forall_mem_append, ← hclauses,
    ← rereadText?_eq_some_self_iff, ← rereadLabel?_eq_some_self_iff, reread?]
  obtain ⟨name, clauses, display, label⟩ := f
  constructor
  · intro hreread
    simp only [Option.bind_eq_bind, Option.bind_eq_some_iff] at hreread
    obtain ⟨name', hname, cs, hcs, label', hlabel, heq⟩ := hreread
    obtain ⟨rfl, rfl, -, rfl⟩ := Filter.mk.inj (Option.some.inj heq)
    exact ⟨hname, hlabel, hcs⟩
  · rintro ⟨hname, hlabel, hcs⟩
    simp [hname, hlabel, hcs]

/-- An aggregation from a document is reread as itself iff its text is kept, although other texts
may spell it too. -/
theorem Aggregation.reread?_eq_some_self_iff {a : Aggregation} (h : ofText a.text = a) :
    a.reread? = some a ↔ IsKept a.text := by
  constructor
  · intro hreread
    obtain ⟨t, ht, hofText⟩ := Option.map_eq_some_iff.1 hreread
    cases a with
    -- a function or a percentile may come from another text, but its own is kept in any case
    | named f => cases f <;> decide +kernel
    | percentile number =>
      have hnumber := ((percentileOf?_isSome_iff number).1 (isSome_of_ofText_eq_percentile h)).1
      refine Yaml.isKept_of_word fun c hc => ?_
      -- the text has the characters of the number and the percent sign
      have hmem : c ∈ number.toList ∨ c = '%' := by
        rw [text, String.toList_append, List.mem_append] at hc
        exact hc.imp_right List.mem_singleton.1
      rcases hmem with hmem | rfl
      · rcases hnumber.chars c hmem with hdigit | rfl
        · have halpha : c.isAlphanum = true := by simp [Char.isAlphanum, (isDigit_iff c).2 hdigit]
          exact ⟨Yaml.isAllowed_of_isAlphanum halpha,
            Yaml.Scan.isGapChar_of_isNameChar (by simp [Yaml.isNameChar, halpha])⟩
        · decide
      · decide
    | other token =>
      rw [eq_of_ofText_eq_other hofText] at ht ⊢
      exact rereadText?_eq_some_self_iff.1 ht
  · intro hkept
    rw [reread?, rereadText?_eq_some_self_iff.2 hkept, Option.map_some, h]

/-- A query from a document is reread as itself iff its texts are kept. -/
theorem Query.reread?_eq_some_self_iff {q : Query} (h : Query.codec.Returns q) :
    q.reread? = some q ↔ ∀ s ∈ q.texts, IsKept s := by
  obtain ⟨haggregations, hfieldFilters, hmetadataFilters⟩ := Query.returns_iff.1 h
  have has : q.aggregations.mapM Aggregation.reread? = some q.aggregations ↔
      ∀ s ∈ q.aggregations.map Aggregation.text, IsKept s := by
    rw [mapM_eq_some_self_iff, List.forall_mem_map]
    exact forall₂_congr fun a ha => Aggregation.reread?_eq_some_self_iff (haggregations a ha)
  have hfilters : ∀ {fs : List Filter}, (∀ f ∈ fs, Filter.shape.codec.Returns f) →
      (fs.mapM Filter.reread? = some fs ↔ ∀ s ∈ fs.flatMap Filter.texts, IsKept s) := by
    intro fs hfs
    rw [mapM_eq_some_self_iff, List.forall_mem_flatMap]
    exact forall₂_congr fun f hf => Filter.reread?_eq_some_self_iff (hfs f hf)
  rw [texts, List.forall_mem_append, List.flatMap_append, List.forall_mem_append, ← has,
    ← hfilters hfieldFilters, ← hfilters hmetadataFilters, reread?]
  -- all three lists have to come back as they are
  obtain ⟨aggregations, fieldFilters, metadataFilters⟩ := q
  constructor
  · intro hreread
    simp only [Option.bind_eq_bind, Option.bind_eq_some_iff] at hreread
    obtain ⟨as, haggs, fs, hfs, ms, hms, heq⟩ := hreread
    obtain ⟨rfl, rfl, rfl⟩ := Query.mk.inj (Option.some.inj heq)
    exact ⟨haggs, hfs, hms⟩
  · rintro ⟨haggs, hfs, hms⟩
    simp [haggs, hfs, hms]

/-- A query from a document is loaded from its compact JSON text as it is iff its texts are kept. -/
theorem Query.ofYaml_compact_eq_ok_iff {v : Value} {q : Query} (h : Query.codec.ofValue v = .ok q) :
    Query.ofYaml (Query.codec.write q).compact = .ok q ↔ ∀ s ∈ q.texts, IsKept s := by
  rw [← Query.reread?_eq_some_self_iff (returns_of_ofValue h), ofYaml_compact]
  cases q.reread? <;> simp

/-- Spaces, a line separator and an escaped break are kept. -/
theorem Query.ofYaml_compact_kept :
    ∃ q : Query, q.texts = ["99.9%", "name", "label\n", "EQ", "a b\u2028c"] ∧
      Query.codec.ofValue (Query.codec.toValue q) = .ok q ∧
      Query.ofYaml (Query.codec.write q).compact = .ok q := by
  obtain ⟨q, hq⟩ : ∃ q : Query, q = ⟨[.percentile "99.9"],
      [⟨"name", [⟨[.number (.integer 5 (by decide)), .text "a b\u2028c"], .equal, false⟩], .column,
        some "label\n"⟩], []⟩ := ⟨_, rfl⟩
  have hreturns : Query.codec.Returns q := by
    rw [Query.returns_iff, hq]
    refine ⟨by decide +kernel, ?_, List.forall_mem_nil _⟩
    simp [Filter.returns_iff, Clause.returns_iff, MatchRule.ofCode, MatchRule.code]
  have hkept : ∀ s ∈ q.texts, IsKept s := by
    rw [hq]
    decide +kernel
  exact ⟨q, by rw [hq]; rfl, hreturns.ofValue_toValue,
    (Query.ofYaml_compact_eq_ok_iff hreturns.ofValue_toValue).2 hkept⟩

/-- JSON text does not escape the control U+007F, which YAML does not allow. -/
theorem Query.ofYaml_compact_delete :
    Query.codec.ofValue (Query.codec.toValue ⟨[], [.column "a\x7fb"], []⟩) =
        .ok ⟨[], [.column "a\x7fb"], []⟩ ∧
      Query.ofYaml (Query.codec.write ⟨[], [.column "a\x7fb"], []⟩).compact =
        .error .invalidQuery := by
  have hreturns : Query.codec.Returns ⟨[], [.column "a\x7fb"], []⟩ :=
    Query.returns_iff.2 ⟨by simp, by simp [Filter.returns_iff, Filter.column], by simp⟩
  have hreread : Query.reread? ⟨[], [.column "a\x7fb"], []⟩ = none := by decide +kernel
  exact ⟨hreturns.ofValue_toValue, by rw [Query.ofYaml_compact, hreread]⟩

end Dashboards
