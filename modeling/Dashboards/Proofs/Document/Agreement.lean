import Dashboards.Load
import Dashboards.Proofs.Document.Shapes
import Dashboards.Proofs.Query.RoundTrip
import Dashboards.Proofs.Record.Agreement

/-!
# A dashboard from a text and from its value

A dashboard can be read from a text or from a value.  From a text it is read as it is written, from
a value in the order of its keys.  Both ways give the same dashboard, or none, as long as no object
of the text has two members of one name.  Only where a text is nested deeper than 127 levels may it
be refused while its value is not.

## Key results

- `Dashboard.codec_readsAlike`: all parts of a dashboard read alike
- `Dashboard.ofText_agrees_with_ofValue`: the text, its value and the text in any other order
-/

namespace Dashboards

open Json (Draft Members Origin Value)

/-! ## Scalars -/

/-- A version is a scalar: nothing in it has a place or an order. -/
@[simp] theorem Version.codec_readsAlike : ReadsAlike Version.codec.read :=
  .of_scalar (fun _ _ _ _ => rfl) nofun nofun

/-- An aggregation reads alike since the string that spells it does. -/
@[simp] theorem Aggregation.codec_readsAlike : ReadsAlike Aggregation.codec.read :=
  Codec.string_readsAlike.map Aggregation.ofText

/-- A match rule reads alike since its code does. -/
@[simp] theorem MatchRule.codec_readsAlike : ReadsAlike MatchRule.codec.read :=
  Codec.string_readsAlike.map MatchRule.ofCode

/-- An operand is looked for in the whole value. -/
@[simp] theorem Operand.codec_readsAlike : ReadsAlike Operand.codec.read := by
  intro o o' d d' hmatch x h
  -- a value that matches is the same value, so whatever an operand is made of agrees
  cases hd : d.read o with
  | error f => simp only [codec, hd] at h; cases h
  | ok v =>
    simp only [codec, hd, hmatch.read_eq_ok hd] at h ⊢
    exact h

/-- A word is read from an object if the word is its only name and `null` is all that it says. -/
theorem Display.read_object_eq_ok_iff {o : Origin} {ms : Json.DraftMembers} {display : Display} :
    read o (.object ms none) = .ok display ↔
      ∃ name, ms = [(.ok name, .null)] ∧ ofWord name = .ok display := by
  -- a second member, or anything but `null` after the word, is a problem in either origin
  cases ms with
  | nil => cases o <;> simp [read]
  | cons m ms =>
    obtain ⟨key, d⟩ := m
    cases key with
    | error f => cases o <;> cases ms <;> simp [read, Codec.orBroken, bind, Except.bind]
    | ok name =>
      by_cases hnull : d = .null
      · subst hnull
        cases o <;> cases ms <;> cases hw : ofWord name <;>
          simp [read, readNothing, Codec.orBroken, Codec.checkStop, bind, Except.bind, pure,
            Except.pure, throw, throwThe, MonadExceptOf.throw, hw]
      · obtain ⟨e, he⟩ : ∃ e, readNothing d = .error e := by
          cases d <;> first | exact absurd rfl hnull | exact ⟨_, rfl⟩
        cases o <;> cases ms <;> cases hw : ofWord name <;>
          simp [read, Codec.orBroken, bind, Except.bind, hw, he, hnull]

/-- An object of a word with `null` matches no other object. -/
theorem Display.eq_singleton_null_of_matches {o o' : Origin} {ms : Json.DraftMembers}
    {name : String}
    (h : Draft.Matches o o' (.object [(.ok name, .null)] none) (.object ms none)) :
    ms = [(.ok name, .null)] := by
  -- whatever room there is, the two objects match where there is no limit
  obtain ⟨v, hv, hv', -⟩ := h.sameValue
  have hlimitless : Draft.Matches .value .value (.object [(.ok name, .null)] none)
      (.object ms none) := ⟨h.left_names, h.right_names, v, hv, hv', .inl rfl⟩
  have hinside : Origin.value.inside = .ok .value := rfl
  obtain ⟨_, -, sameOrder, hperm, hms⟩ := hlimitless.object hinside
  obtain rfl := List.singleton_perm.1 hperm
  obtain ⟨⟨key, d⟩, _, ⟨hkey, hd⟩, hnil, rfl⟩ := List.forall₂_cons_left_iff.1 hms
  obtain rfl := List.forall₂_nil_left_iff.1 hnil
  obtain rfl : Except.ok name = key := hkey
  obtain rfl := hd.eq_null_iff.1 rfl
  rfl

/-- A word with `null` is found whichever way the object that holds it comes. -/
@[simp] theorem Display.codec_readsAlike : ReadsAlike Display.codec.read := by
  refine .of_cases (fun o o' v hv b h => ?_) (fun o o' ds ds' _ b h => ?_)
    fun o o' ms ms' hmatch b h => ?_
  -- a word on its own is a string, and no other scalar is one
  · cases v with
    | string s => cases o <;> cases o' <;> exact h
    | null | bool _ | number _ => cases o <;> exact nomatch h
    | array _ | object _ => exact nomatch hv
  · cases o <;> exact nomatch h
  · obtain ⟨name, rfl, hname⟩ := read_object_eq_ok_iff.1 h
    obtain rfl := eq_singleton_null_of_matches hmatch
    exact read_object_eq_ok_iff.2 ⟨name, rfl, hname⟩

/-! ## Records -/

/-- A clause reads alike, as an object and as a list. -/
theorem Clause.codec_readsAlike : ReadsAlike Clause.shape.codec.read := by
  -- a table reads alike when each of its members does and no two of them set the same field
  refine separate_shape.codec_readsAlike ?_
  simp [shape]

/-- A filter reads alike, with all its clauses. -/
theorem Filter.codec_readsAlike : ReadsAlike Filter.shape.codec.read := by
  refine separate_shape.codec_readsAlike ?_
  simp [shape, Clause.codec_readsAlike]

/-- A layout reads alike. -/
theorem WidgetLayout.codec_readsAlike : ReadsAlike WidgetLayout.shape.codec.read := by
  refine lawful_shape.separate.codec_readsAlike ?_
  simp [shape]

/-- A tooltip reads alike. -/
theorem Tooltip.codec_readsAlike : ReadsAlike Tooltip.shape.codec.read := by
  refine lawful_shape.separate.codec_readsAlike ?_
  simp [shape]

/-- The options of a chart read alike; the legend is a raw value. -/
theorem ChartOptions.codec_readsAlike : ReadsAlike ChartOptions.shape.codec.read := by
  refine lawful_shape.separate.codec_readsAlike ?_
  simp [shape, Tooltip.codec_readsAlike]

/-- A chart reads alike. -/
theorem Chart.codec_readsAlike : ReadsAlike Chart.shape.codec.read := by
  refine lawful_shape.separate.codec_readsAlike ?_
  simp [shape, ChartOptions.codec_readsAlike]

/-- Options of results read alike. -/
theorem ResultOptions.codec_readsAlike : ReadsAlike ResultOptions.shape.codec.read := by
  refine lawful_shape.separate.codec_readsAlike ?_
  simp [shape]

/-- A description of data reads alike, with its filters in either form. -/
theorem SourceConfig.codec_readsAlike : ReadsAlike SourceConfig.shape.codec.read := by
  refine lawful_shape.separate.codec_readsAlike ?_
  simp [shape, Filter.codec_readsAlike, ResultOptions.codec_readsAlike]

/-- A source of data reads alike. -/
theorem Datasource.codec_readsAlike : ReadsAlike Datasource.shape.codec.read := by
  refine lawful_shape.separate.codec_readsAlike ?_
  simp [shape, SourceConfig.codec_readsAlike]

/-- A widget reads alike, since each of its parts does. -/
theorem Widget.codec_readsAlike : ReadsAlike Widget.shape.codec.read := by
  refine lawful_shape.separate.codec_readsAlike ?_
  simp [shape, WidgetLayout.codec_readsAlike, Chart.codec_readsAlike, Datasource.codec_readsAlike]

/-- A grid reads alike, with all its widgets. -/
theorem Grid.codec_readsAlike : ReadsAlike Grid.shape.codec.read := by
  refine lawful_shape.separate.codec_readsAlike ?_
  simp [shape, Widget.codec_readsAlike]

/-- A container reads alike. -/
theorem Container.codec_readsAlike : ReadsAlike Container.shape.codec.read := by
  refine lawful_shape.separate.codec_readsAlike ?_
  simp [shape, Grid.codec_readsAlike]

/-- A parameter reads alike. -/
theorem Parameter.codec_readsAlike : ReadsAlike Parameter.shape.codec.read := by
  refine lawful_shape.separate.codec_readsAlike ?_
  simp [shape]

/-- A dashboard is read in the same way from a draft and from its value. -/
theorem Dashboard.codec_readsAlike : ReadsAlike Dashboard.codec.read := by
  refine lawful_shape.separate.codec_readsAlike ?_
  simp [shape, Parameter.codec_readsAlike, Container.codec_readsAlike]

/-! ## Texts -/

/-- A dashboard is loaded from a text if its codec reads it: loading only rewords the problems. -/
theorem Dashboard.ofText_eq_ok_iff {text : String} {d : Dashboard} :
    ofText text = .ok d ↔ codec.ofText text = .ok d := by
  rw [ofText]
  cases codec.ofText text <;> simp

/-- A text whose names are distinct and its value, which may be nested deeper than a text that is
loaded.  Whatever is loaded from the text is decoded from the value, and the other way round where a
text has room for the value.  The text with the members of its objects in any other order is loaded
as the same dashboard, or not loaded either. -/
theorem Dashboard.ofText_agrees_with_ofValue {text : String} {v : Value} (hv : v.IsValueOf text)
    (hnames : (Draft.ofText text).1.hasDistinctNames) :
    (∀ d, ofText text = .ok d → codec.ofValue v = .ok d) ∧
    (v.depth ≤ 127 → ∀ d, codec.ofValue v = .ok d → ofText text = .ok d) ∧
    ∀ text', (Draft.ofText text).1.Reorders (Draft.ofText text').1 →
      (Draft.ofText text').2 = none → ∀ d, ofText text' = .ok d ↔ ofText text = .ok d := by
  obtain ⟨hread, hstop⟩ := hv
  -- a value that was read from a text has its members in order already
  have hsorted : v.sorted = v := Draft.isSorted_of_read hread
  have hvalue : codec.ofValue v = codec.read .value v.draft := by rw [Codec.ofValue, hsorted]
  simp only [ofText_eq_ok_iff, Codec.ofText_eq_ok_iff, hstop, and_true]
  -- the value matches the text, the text matches its value if there is room, and two texts match
  refine ⟨fun d hd => ?_, fun hroom d hd => ?_, fun text' horder hstop' d => ?_⟩
  · rw [hvalue]
    exact codec_readsAlike _ _ _ _ (.of_value hnames hread) d hd
  · rw [hvalue] at hd
    exact codec_readsAlike _ _ _ _ (.of_depth_le hnames hread hroom) d hd
  · have hmatch : Draft.Matches .wholeText .wholeText _ _ := .of_reorders horder hnames hread
    rw [and_iff_left hstop']
    exact ⟨codec_readsAlike _ _ _ _ hmatch.symm d, codec_readsAlike _ _ _ _ hmatch d⟩

/-- A dashboard whose objects have their members in no order. -/
def shuffledText : String := "\x7b
  \"x\": \x7b
    \"b\": null,
    \"a\": [
      true
    ]
  \x7d,
  \"version\": 3,
  \"children\": [
    \x7b
      \"title\": \"T\",
      \"id\": \"c\"
    \x7d
  ]
\x7d"

/-- The same dashboard with the members of its objects in ascending order. -/
def orderedText : String := "\x7b
  \"children\": [
    \x7b
      \"id\": \"c\",
      \"title\": \"T\"
    \x7d
  ],
  \"version\": 3,
  \"x\": \x7b
    \"a\": [
      true
    ],
    \"b\": null
  \x7d
\x7d"

/-- What the first text says, in the order in which it says it. -/
def shuffledValue : Value :=
  .object [
    ("x", .object [("b", .null), ("a", .array [.bool true])]),
    ("version", .number (.integer 3 (by decide))),
    ("children", .array [.object [("title", .string "T"), ("id", .string "c")]])]

/-- The value of both texts. -/
def orderedValue : Value :=
  .object [
    ("children", .array [.object [("id", .string "c"), ("title", .string "T")]]),
    ("version", .number (.integer 3 (by decide))),
    ("x", .object [("a", .array [.bool true]), ("b", .null)])]

/-- The dashboard of both texts. -/
def orderedDashboard : Dashboard where
  version := some ⟨3⟩
  children := some [{ id := some "c", title := some "T" }]
  extra := [("x", .object [("a", .array [.bool true]), ("b", .null)])]

/-- The first text is the indented text of what it says. -/
theorem ofText_shuffledText : Draft.ofText shuffledText = (shuffledValue.draft, none) := by
  have htext : shuffledText = shuffledValue.pretty := by decide +kernel
  rw [htext, Draft.ofText_pretty (List.forall_mem_nil _)]

/-- The second text is the indented text of the value. -/
theorem ofText_orderedText : Draft.ofText orderedText = (orderedValue.draft, none) := by
  have htext : orderedText = orderedValue.pretty := by decide +kernel
  rw [htext, Draft.ofText_pretty (List.forall_mem_nil _)]

/-- The members of the two texts are the same but for their order. -/
theorem reorders_shuffledText :
    (Draft.ofText shuffledText).1.Reorders (Draft.ofText orderedText).1 := by
  rw [ofText_shuffledText, ofText_orderedText]
  -- the members of the dashboard change places, then those of the container, then those of `x`
  refine .trans (.members none (List.reverse_perm _).symm) ?_
  refine .trans (.member [] _ none (.ok "children")
    (.item [] [] none (.members none (.swap _ _ _)))) ?_
  exact .member [_, _] [] none (.ok "x") (.members none (.swap _ _ _))

/-- A text and the same text with its members in order, of one value that a text has room for. -/
theorem Dashboard.ofText_agrees_with_ofValue_shuffled :
    orderedValue.IsValueOf shuffledText ∧
      (Draft.ofText shuffledText).1.hasDistinctNames ∧ orderedValue.depth ≤ 127 ∧
      Dashboard.ofText shuffledText = .ok orderedDashboard ∧
      Dashboard.ofText orderedText = .ok orderedDashboard := by
  have hread : shuffledValue.draft.read .value = .ok orderedValue := by decide +kernel
  have hvalue : orderedValue.IsValueOf shuffledText := by
    rw [Value.IsValueOf, ofText_shuffledText]
    exact ⟨hread, rfl⟩
  have hnames : (Draft.ofText shuffledText).1.hasDistinctNames := by
    rw [ofText_shuffledText]
    decide +kernel
  have hdepth : orderedValue.depth ≤ 127 := by decide
  have hdashboard : Dashboard.codec.ofValue orderedValue = .ok orderedDashboard := by
    decide +kernel
  have hstop : (Draft.ofText orderedText).2 = none := by rw [ofText_orderedText]
  obtain ⟨-, hload, horder⟩ := Dashboard.ofText_agrees_with_ofValue hvalue hnames
  have hshuffled := hload hdepth orderedDashboard hdashboard
  exact ⟨hvalue, hnames, hdepth, hshuffled,
    (horder orderedText reorders_shuffledText hstop orderedDashboard).2 hshuffled⟩

/-- Lists in each other, so many of them. -/
def nestedLists : Nat → Value
  | 0 => .array []
  | n + 1 => .array [nestedLists n]

/-- An object that is nested one level too deep for a text. -/
def nestedValue : Value := .object [("x", nestedLists 126)]

/-- The text of this object. -/
def nestedText : String :=
  String.ofList
    ("\x7b\"x\":".toList ++ List.replicate 127 '[' ++ List.replicate 127 ']' ++ ['\x7d'])

/-- What is nested too deep for a text is decoded as a value, but not loaded. -/
theorem Dashboard.ofText_nestedText :
    nestedValue.IsValueOf nestedText ∧ (Draft.ofText nestedText).1.hasDistinctNames ∧
      Dashboard.codec.ofValue nestedValue = .ok { extra := [("x", nestedLists 126)] } ∧
      ∀ d, Dashboard.ofText nestedText ≠ .ok d := by
  -- the text is read once for all four
  have hall : ((Draft.ofText nestedText).1.read .value = .ok nestedValue ∧
      (Draft.ofText nestedText).2 = none) ∧ (Draft.ofText nestedText).1.hasDistinctNames ∧
      Dashboard.codec.ofValue nestedValue = .ok { extra := [("x", nestedLists 126)] } ∧
      (Dashboard.ofText nestedText).isOk = false := by decide +kernel
  obtain ⟨hvalue, hnames, hdashboard, hload⟩ := hall
  refine ⟨hvalue, hnames, hdashboard, fun d hd => ?_⟩
  -- the reader gives up inside the innermost list, so that there is no dashboard
  rw [hd] at hload
  exact nomatch hload

end Dashboards
