import Dashboards.Proofs.Statement.Acceptance
import Dashboards.Proofs.Statement.Reading

/-!
# Statements are read in one way only

Whatever a checked statement is made of can be told from its text: every column, operand,
comparison and restriction is delimited, and so are the lists of them.  So no text that is compared
with anything can pass for something else, however many quotes, parentheses and keywords it has.

## Key results

- `delimited_column`, `delimited_restriction`: the items of the sections
- `Query.Reading.chars_injective`: the reading of a sound query can be read off its statement
- `checkedStatementText_eq_iff`: checked statements are the same iff the readings are
-/

namespace Dashboards

/-! ## Columns -/

/-- All characters of a text may stand in names. -/
def IsNameText (s : String) : Prop := ∀ c ∈ s.toList, isIdentifierPart c = true

/-- A name has no other characters than those of names. -/
theorem IsName.isNameText {s : String} (h : IsName s) : IsNameText s := by
  obtain ⟨c, cs, hs, hc, hcs⟩ := h
  intro x hx
  rw [hs] at hx
  rw [isIdentifierPart_iff]
  rcases List.mem_cons.1 hx with rfl | hx
  · exact hc.elim .inl fun h => .inr (.inr (.inl h))
  · exact hcs x hx

/-- A name ends where a character that is none of its kind follows. -/
theorem delimited_nameText :
    Delimited IsNameText String.toList (BeginsOutside isIdentifierPart) :=
  (delimited_row isIdentifierPart).comp String.toList (fun _ h => h)
    fun _ _ _ _ h => String.toList_inj.1 h

/-- What follows a column in its section. -/
def EndsItem (r : List Char) : Prop := ∃ c rest, r = c :: rest ∧ (c = ',' ∨ c = '\n')

/-- The end of an item ends every kind of characters that has neither the comma nor the break. -/
theorem EndsItem.beginsOutside {r : List Char} (h : EndsItem r) {p : Char → Bool}
    (hcomma : p ',' = false) (hline : p '\n' = false) : BeginsOutside p r := by
  obtain ⟨c, rest, rfl, rfl | rfl⟩ := h
  · exact beginsOutside_cons.2 hcomma
  · exact beginsOutside_cons.2 hline

/-- The name of a key can stand in a call. -/
def Call.IsSound : Call → Prop
  | key name => IsNameText name
  | _ => True

/-- The digits of a number do not begin with anything else. -/
theorem digits_append_ne {n : Nat} {c : Char} (hc : c.isDigit = false) (r s : List Char) :
    Decimal.digits n ++ r ≠ c :: s := by
  intro heq
  obtain ⟨d, ds, hds⟩ := List.exists_cons_of_ne_nil (Nat.toDigits_ne_nil (n := n) (b := 10))
  have hmem : d ∈ Decimal.digits n := by
    rw [Decimal.digits, hds]
    exact List.mem_cons_self
  rw [Decimal.digits, hds, List.cons_append, List.cons.injEq] at heq
  rw [heq.1] at hmem
  exact absurd (Decimal.isDigit_of_mem_digits hmem) (by simp [hc])

/-- The call that takes the value of a key begins with a parenthesis and the word for labels. -/
theorem Call.key_toList_append (name : String) (r : List Char) :
    (Call.key name).text.toList ++ r =
      '(' :: 'l' ::
        ("abels, r\"|".toList ++ (name.toList ++ (':' :: ("(.*?)|\")".toList ++ r)))) := by
  rw [Call.text, String.toList_append, String.toList_append, List.append_assoc, List.append_assoc]
  rfl

/-- The call on the value begins with a parenthesis and the word for the value. -/
theorem Call.value_toList_append (r : List Char) :
    Call.value.text.toList ++ r = '(' :: 'v' :: ("alue)".toList ++ r) := rfl

/-- The call that takes a quantile begins with a parenthesis and the digits of its place. -/
theorem Call.rank_toList_append (n : Nat) (r : List Char) :
    (Call.rank n).text.toList ++ r =
      '(' :: (Decimal.digits n ++ (',' :: (" QUANTILES(value, 1001))".toList ++ r))) := by
  rw [Call.text, String.toList_append, String.toList_append, Decimal.natText_toList,
    List.append_assoc, List.append_assoc]
  rfl

/-- What follows the opening parenthesis of a call tells its kind. -/
theorem delimited_call : Delimited Call.IsSound (fun c => c.text.toList) (fun _ => True) := by
  intro a b r s ha hb _ _ heq
  dsimp only at heq
  -- the parenthesis is followed by an `l`, a `v` or a digit, so calls of two kinds differ there
  cases a with
  | key name =>
    rw [Call.key_toList_append] at heq
    cases b with
    | key name' =>
      rw [Call.key_toList_append] at heq
      have hname := List.append_cancel_left (List.cons.inj (List.cons.inj heq).2).2
      obtain ⟨rfl, hrest⟩ := delimited_nameText ha hb (beginsOutside_cons.2 rfl)
        (beginsOutside_cons.2 rfl) hname
      exact ⟨rfl, List.append_cancel_left (List.cons.inj hrest).2⟩
    | value =>
      rw [Call.value_toList_append] at heq
      exact absurd (List.cons.inj (List.cons.inj heq).2).1 (by decide)
    | rank n =>
      rw [Call.rank_toList_append] at heq
      exact absurd (List.cons.inj heq).2.symm (digits_append_ne rfl _ _)
  | value =>
    rw [Call.value_toList_append] at heq
    cases b with
    | key name =>
      rw [Call.key_toList_append] at heq
      exact absurd (List.cons.inj (List.cons.inj heq).2).1 (by decide)
    | value =>
      rw [Call.value_toList_append] at heq
      exact ⟨rfl, List.append_cancel_left (List.cons.inj (List.cons.inj heq).2).2⟩
    | rank n =>
      rw [Call.rank_toList_append] at heq
      exact absurd (List.cons.inj heq).2.symm (digits_append_ne rfl _ _)
  | rank m =>
    rw [Call.rank_toList_append] at heq
    cases b with
    | key name =>
      rw [Call.key_toList_append] at heq
      exact absurd (List.cons.inj heq).2 (digits_append_ne rfl _ _)
    | value =>
      rw [Call.value_toList_append] at heq
      exact absurd (List.cons.inj heq).2 (digits_append_ne rfl _ _)
    | rank n =>
      rw [Call.rank_toList_append] at heq
      obtain ⟨rfl, hrest⟩ := delimited_digits trivial trivial (beginsOutside_cons.2 rfl)
        (beginsOutside_cons.2 rfl) (List.cons.inj heq).2
      exact ⟨rfl, List.append_cancel_left (List.cons.inj hrest).2⟩

/-- All calls begin with a parenthesis. -/
theorem Call.exists_toList_eq (c : Call) : ∃ rest, c.text.toList = '(' :: rest := by
  rw [← List.append_nil c.text.toList]
  cases c with
  | key name => exact ⟨_, Call.key_toList_append name []⟩
  | value => exact ⟨_, Call.value_toList_append []⟩
  | rank n => exact ⟨_, Call.rank_toList_append n []⟩

/-- A name, and perhaps a call behind it. -/
def headChars (x : String × Option Call) : List Char :=
  x.1.toList ++ x.2.elim [] fun call => call.text.toList

/-- A name ends where something stands that is no part of it, and a call with its parenthesis. -/
theorem delimited_head :
    Delimited (fun x => IsNameText x.1 ∧ ∀ call ∈ x.2, call.IsSound) headChars
      fun r => BeginsOutside isIdentifierPart r ∧ BeginsOutside (· == '(') r := by
  have hcall := (delimited_call.mono fun r (_ : BeginsOutside isIdentifierPart r ∧
    BeginsOutside (· == '(') r) => trivial).optional '(' Call.exists_toList_eq fun r hr => hr.2
  exact delimited_nameText.append hcall fun call r _ hr =>
    beginsOutside_optional rfl Call.exists_toList_eq call hr.1

/-- An alias with the keyword in front of it. -/
def labelChars (label : String) : List Char := (' ' :: "AS ".toList) ++ label.toList

/-- A label begins with a space. -/
theorem exists_labelChars_eq (label : String) : ∃ rest, labelChars label = ' ' :: rest := ⟨_, rfl⟩

/-- The text of a column, part by part. -/
theorem Column.text_toList (c : Column) :
    c.text.toList = headChars (c.head, c.call) ++ c.label.elim [] labelChars := by
  have hcall : (c.call.elim "" (·.text)).toList =
      c.call.elim [] fun call => call.text.toList := by
    cases c.call <;> rfl
  have hlabel : (c.label.elim "" fun label => " AS " ++ label).toList =
      c.label.elim [] labelChars := by
    cases c.label with
    | none => rfl
    | some label => exact String.toList_append
  rw [Column.text, String.toList_append, String.toList_append, hcall, hlabel, headChars,
    List.append_assoc]

/-- The names in a column can stand there. -/
structure Column.IsSound (c : Column) : Prop where
  head : IsNameText c.head
  call : ∀ call ∈ c.call, call.IsSound
  label : ∀ label ∈ c.label, IsNameText label

/-- A column ends where its section goes on or ends. -/
theorem delimited_column : Delimited Column.IsSound (fun c => c.text.toList) EndsItem := by
  have hname := delimited_nameText.mono fun r (hr : EndsItem r) => hr.beginsOutside rfl rfl
  have halias : Delimited IsNameText labelChars EndsItem := hname.prepend (' ' :: "AS ".toList)
  have hlabel := halias.optional ' ' exists_labelChars_eq fun r hr => hr.beginsOutside rfl rfl
  -- an alias is told by its blank
  have hcolumn := delimited_head.append hlabel fun label r _ hr =>
    ⟨beginsOutside_optional rfl exists_labelChars_eq label (hr.beginsOutside rfl rfl),
      beginsOutside_optional rfl exists_labelChars_eq label (hr.beginsOutside rfl rfl)⟩
  have hparts := hcolumn.comp (fun c : Column => ((c.head, c.call), c.label))
    (fun c (hc : c.IsSound) => ⟨⟨hc.head, hc.call⟩, hc.label⟩) fun c d _ _ h => by
      cases c
      cases d
      simpa [and_assoc] using h
  simpa only [Column.text_toList] using hparts

/-! ## Columns of readings -/

/-- The field that a column shows. -/
def Column.field? (c : Column) : Option (String × Option String) :=
  match c.call with
  | none => some (c.head, c.label)
  | some _ => none

/-- The metadata key that a column shows. -/
def Column.metadata? (c : Column) : Option (String × String) :=
  match c.call, c.label with
  | some (.key name), some output => some (name, output)
  | _, _ => none

/-- The number of a percentile, read off its label. -/
def numberOfLabel (label : String) : String :=
  String.ofList (label.toList.tail.map fun c => if c = '_' then '.' else c)

/-- The aggregation that a column shows, if it is known. -/
def Column.aggregation? (c : Column) : Option Aggregation :=
  match c.call, c.label with
  | some .value, some name => (AggregateFunction.ofName? name).map .named
  | some (.rank _), some label => some (.percentile (numberOfLabel label))
  | _, _ => none

/-- The number of a percentile has no underscore, so that its points can be read off its label. -/
theorem numberOfLabel_percentileLabel {number : String} (h : IsPlainDecimal number) :
    numberOfLabel (percentileLabel number) = number := by
  have hmap : number.toList.map ((fun c => if c = '_' then '.' else c) ∘
      fun c => if c = '.' then '_' else c) = number.toList := by
    refine (List.map_congr_left fun c hc => ?_).trans (List.map_id' _)
    rw [Function.comp_apply]
    rcases h.chars c hc with hdigit | rfl
    · have hne : c ≠ '.' := ne_point_of_isDigit ((isDigit_iff c).2 hdigit)
      have hne' : c ≠ '_' := by
        rintro rfl
        exact absurd ((isDigit_iff '_').2 hdigit) (by decide)
      rw [if_neg hne, if_neg hne']
    · rfl
  rw [numberOfLabel, percentileLabel, String.toList_ofList, List.tail_cons, List.map_map, hmap,
    String.ofList_toList]

/-- The column of an aggregation that is sound. -/
theorem aggregationColumn_percentile {number : String} (h : IsPercentile number) :
    ∃ n, aggregationColumn (.percentile number) =
      ⟨"NTH", some (.rank n), some (percentileLabel number)⟩ := by
  obtain ⟨p, hp⟩ := Option.isSome_iff_exists.1 ((percentileOf?_isSome_iff number).2 h)
  exact ⟨quantileRank p, by simp only [aggregationColumn, hp]⟩

/-- A sound aggregation can be read off its column. -/
theorem aggregation?_aggregationColumn {a : Aggregation} (h : a.IsSound) :
    (aggregationColumn a).aggregation? = some a := by
  -- a function is told by the name of the column, and a percentile by the label
  cases a with
  | named f =>
    simp only [aggregationColumn, callColumnOf, Column.aggregation?,
      AggregateFunction.ofName?_name, Option.map_some]
  | percentile number =>
    obtain ⟨n, hn⟩ := aggregationColumn_percentile h
    have hplain : IsPlainDecimal number := h.1
    simp only [hn, Column.aggregation?, numberOfLabel_percentileLabel hplain]
  | other token => exact h.elim

/-- Every aggregation is shown by a call that is not the call of a key. -/
theorem exists_aggregationColumn_call (a : Aggregation) :
    ∃ call, (aggregationColumn a).call = some call ∧ ∀ name, call ≠ .key name := by
  have hvalue : ∀ name, Call.value ≠ .key name := fun name h => by cases h
  cases a with
  | named f => exact ⟨.value, rfl, hvalue⟩
  | other token => exact ⟨.value, rfl, hvalue⟩
  | percentile number =>
    simp only [aggregationColumn]
    split
    · exact ⟨_, rfl, fun name h => by cases h⟩
    · exact ⟨.value, rfl, hvalue⟩

section

variable (r : Query.Reading)

/-- The columns of a reading tell its fields. -/
theorem Query.Reading.filterMap_field? : r.columns.filterMap Column.field? = r.fields := by
  have haggregation : ∀ a ∈ r.aggregations, (Column.field? ∘ aggregationColumn) a = none := by
    intro a _
    obtain ⟨call, hcall, -⟩ := exists_aggregationColumn_call a
    simp only [Function.comp_apply, Column.field?, hcall]
  simp only [Query.Reading.columns, List.filterMap_append, List.filterMap_map,
    List.filterMap_eq_nil_iff.2 haggregation]
  simp [Function.comp_def, Column.field?, fieldColumn, metadataColumn]

/-- The columns of a reading tell its metadata keys. -/
theorem Query.Reading.filterMap_metadata? : r.columns.filterMap Column.metadata? = r.metadata := by
  have haggregation : ∀ a ∈ r.aggregations, (Column.metadata? ∘ aggregationColumn) a = none := by
    intro a _
    obtain ⟨call, hcall, hne⟩ := exists_aggregationColumn_call a
    simp only [Function.comp_apply, Column.metadata?, hcall]
    split
    next name _ heq _ => exact absurd (Option.some.inj heq) (hne name)
    · rfl
  simp only [Query.Reading.columns, List.filterMap_append, List.filterMap_map,
    List.filterMap_eq_nil_iff.2 haggregation]
  simp [Function.comp_def, Column.metadata?, fieldColumn, metadataColumn]

variable {r}

/-- The columns of a reading tell its aggregations, if they are sound. -/
theorem Query.Reading.filterMap_aggregation? (h : ∀ a ∈ r.aggregations, a.IsSound) :
    r.columns.filterMap Column.aggregation? = r.aggregations := by
  have haggregation : r.aggregations.filterMap (Column.aggregation? ∘ aggregationColumn) =
      r.aggregations.filterMap some :=
    List.filterMap_congr fun a ha => aggregation?_aggregationColumn (h a ha)
  simp only [Query.Reading.columns, List.filterMap_append, List.filterMap_map, haggregation]
  simp [Function.comp_def, Column.aggregation?, fieldColumn, metadataColumn]

end

/-! ## Conditions -/

/-- The text of a number has only the characters of numbers, and there are some. -/
def OperandReading.IsProper : OperandReading → Prop
  | number digits => digits.toList ≠ [] ∧ ∀ c ∈ digits.toList, isNumberChar c = true
  | text _ => True

/-- What an operand is read as is proper: a number has characters, all of them of numbers. -/
theorem Operand.isProper_reading (x : Operand) : x.reading.IsProper := by
  cases x with
  | number n => exact ⟨n.text_toList_ne_nil, fun _ h => Json.Number.isNumberChar_of_mem_text h⟩
  | text s => exact trivial

/-- A number does not begin with a quote or a parenthesis. -/
theorem OperandReading.exists_number_chars_eq {digits : String}
    (h : (OperandReading.number digits).IsProper) :
    ∃ c rest, digits.toList = c :: rest ∧ isNumberChar c = true := by
  obtain ⟨c, rest, hc⟩ := List.exists_cons_of_ne_nil h.1
  exact ⟨c, rest, hc, h.2 c (hc ▸ List.mem_cons_self)⟩

/-- A number ends with its characters, and a text with its quote. -/
theorem delimited_operand :
    Delimited OperandReading.IsProper OperandReading.chars (BeginsOutside isNumberChar) := by
  have hne : ∀ {digits s : String} {r r' : List Char},
      (OperandReading.number digits).IsProper →
        digits.toList ++ r ≠ (quotedOperand s).toList ++ r' := by
    -- the quote is no character of a number
    intro digits s r r' h heq
    obtain ⟨c, rest, hdigits, hc⟩ := OperandReading.exists_number_chars_eq h
    rw [hdigits, quotedOperand, String.toList_ofList] at heq
    rw [(List.cons.inj heq).1] at hc
    exact absurd hc (by decide)
  intro a b r s ha hb hr hs heq
  -- two operands of one kind are told by their ends, and two of different kinds by their beginnings
  cases a with
  | number digits =>
    cases b with
    | number digits' =>
      obtain ⟨hdigits, rfl⟩ := delimited_row isNumberChar ha.2 hb.2 hr hs heq
      exact ⟨by rw [String.toList_inj.1 hdigits], rfl⟩
    | text s' => exact absurd heq (hne ha)
  | text s' =>
    cases b with
    | number digits => exact absurd heq.symm (hne hb)
    | text s'' =>
      obtain ⟨rfl, rfl⟩ := delimited_quotedOperand trivial trivial trivial trivial heq
      exact ⟨rfl, rfl⟩

/-- An operand does not begin with a parenthesis. -/
theorem OperandReading.beginsPlainly_chars {x : OperandReading} (h : x.IsProper) :
    BeginsPlainly x.chars := by
  cases x with
  | number digits =>
    obtain ⟨c, rest, hdigits, hc⟩ := OperandReading.exists_number_chars_eq h
    refine ⟨c, rest, hdigits, ?_, ?_⟩
    · rintro rfl
      exact absurd hc (by decide)
    · rintro rfl
      exact absurd hc (by decide)
  | text s =>
    have hquoted : (OperandReading.text s).chars =
        '"' :: (s.toList.flatMap quotedOperandChar ++ ['"']) := by
      rw [OperandReading.chars, quotedOperand, String.toList_ofList, List.cons_append]
    exact ⟨'"', _, hquoted, by decide, by decide⟩

/-- Texts that begin with different characters are not the front of each other. -/
theorem not_cons_prefix_cons {c d : Char} (h : c ≠ d) (cs r : List Char) : ¬ c :: cs <+: d :: r :=
  fun hp => h (List.cons_prefix_cons.1 hp).1

/-- The operands of a clause end as the last of them does. -/
theorem delimited_operands :
    Delimited (fun xs => ∀ x ∈ xs, x.IsProper) (grouped ", ".toList OperandReading.chars)
      (BeginsOutside isNumberChar) := by
  have hseparator : ", ".toList = [',', ' '] := rfl
  rw [hseparator]
  exact delimited_operand.grouped (fun r => beginsOutside_cons.2 rfl)
    (fun r => beginsOutside_cons.2 rfl) (not_cons_prefix_cons (by decide) _)
    fun _ => OperandReading.beginsPlainly_chars

/-- A rule that is known. -/
def MatchRule.IsKnown (r : MatchRule) : Prop := ∀ code, r ≠ .custom code

/-- The operator of a known rule tells the rule. -/
theorem MatchRule.operator_injective {r s : MatchRule} (hr : r.IsKnown) (hs : s.IsKnown)
    (h : r.operator = s.operator) : r = s := by
  -- the operators are compared pair by pair
  cases r <;> cases s <;> first
    | rfl
    | exact absurd h (by decide)
    | exact absurd rfl (hr _)
    | exact absurd rfl (hs _)

/-- The operator of a known rule has no blank. -/
theorem MatchRule.ne_blank_of_mem_operator {r : MatchRule} (hr : r.IsKnown) :
    ∀ c ∈ r.operator.toList, (c != ' ') = true := by
  refine List.all_eq_true.1 ?_
  cases r <;> first
    | decide
    | exact absurd rfl (hr _)

/-- An operator stands between blanks. -/
theorem delimited_rule : Delimited MatchRule.IsKnown MatchRule.chars (fun _ => True) := by
  have hoperator : Delimited MatchRule.IsKnown (fun r => r.operator.toList)
      (BeginsOutside (· != ' ')) :=
    (delimited_row (· != ' ')).comp (fun r : MatchRule => r.operator.toList)
      (fun _ => MatchRule.ne_blank_of_mem_operator)
      fun _ _ hr hs h => MatchRule.operator_injective hr hs (String.toList_inj.1 h)
  exact (hoperator.postpone [' '] fun r => beginsOutside_cons.2 rfl).prepend [' ']

/-- The name of what is compared is a name. -/
def Subject.IsSound : Subject → Prop
  | field name => IsName name
  | key name => IsName name

/-- What is compared, as a name and perhaps a call behind it. -/
def Subject.head : Subject → String × Option Call
  | field name => (name, none)
  | key name => ("REGEXP_EXTRACT", some (.key name))

/-- A subject is written like the head of a column. -/
theorem Subject.text_toList (x : Subject) : x.text.toList = headChars x.head := by
  cases x with
  | field name => exact (List.append_nil _).symm
  | key name =>
    have hcall : metadataExpression name = "REGEXP_EXTRACT" ++ (Call.key name).text := by
      rw [Call.text, ← String.append_assoc, ← String.append_assoc]
      rfl
    rw [Subject.text, hcall, String.toList_append]
    rfl

/-- The head of a sound subject is sound. -/
theorem Subject.isSound_head {x : Subject} (h : x.IsSound) :
    IsNameText x.head.1 ∧ ∀ call ∈ x.head.2, call.IsSound := by
  cases x with
  | field name => exact ⟨h.isNameText, fun _ hcall => nomatch hcall⟩
  | key name =>
    have hhead : ∀ c ∈ "REGEXP_EXTRACT".toList, isIdentifierPart c = true :=
      List.all_eq_true.1 (by decide +kernel)
    refine ⟨hhead, fun call hcall => ?_⟩
    obtain rfl := Option.some.inj hcall
    exact h.isNameText

/-- A sound subject is not empty. -/
theorem Subject.head_ne_nil {x : Subject} (h : x.IsSound) : x.head.1.toList ≠ [] := by
  cases x with
  | field name =>
    obtain ⟨c, cs, hname, -⟩ := h
    rw [Subject.head, hname]
    exact List.cons_ne_nil c cs
  | key name =>
    have hhead : "REGEXP_EXTRACT".toList ≠ [] := by decide
    exact hhead

/-- A field is no call, whatever its name is. -/
theorem delimited_subject : Delimited Subject.IsSound (fun x => x.text.toList)
    (fun r => ∃ rest, r = ' ' :: rest) := by
  have hsubject := (delimited_head.mono fun r (hr : ∃ rest, r = ' ' :: rest) => by
    obtain ⟨rest, rfl⟩ := hr
    exact ⟨beginsOutside_cons.2 rfl, beginsOutside_cons.2 rfl⟩).comp Subject.head
      (fun _ => Subject.isSound_head) fun x y _ _ h => by
        cases x <;> cases y <;> simp_all [Subject.head]
  simpa only [Subject.text_toList] using hsubject

/-- A comparison does not begin with a parenthesis. -/
theorem beginsPlainly_comparisonChars {x : Subject × ClauseReading} (h : x.1.IsSound) :
    BeginsPlainly (comparisonChars x) := by
  obtain ⟨c, rest, hhead⟩ := List.exists_cons_of_ne_nil (Subject.head_ne_nil h)
  have hc : isIdentifierPart c = true :=
    (Subject.isSound_head h).1 c (hhead ▸ List.mem_cons_self)
  -- it begins with a character of a name, which is neither of the two
  refine ⟨c, _, by rw [comparisonChars, Subject.text_toList, headChars, hhead]; rfl, ?_, ?_⟩
  · rintro rfl
    exact absurd hc (by decide)
  · rintro rfl
    exact absurd hc (by decide)

/-- A clause with a known rule and proper operands. -/
structure ClauseReading.IsSound (c : ClauseReading) : Prop where
  rule : c.rule.IsKnown
  operands : ∀ x ∈ c.operands, x.IsProper

/-- A comparison ends as its last operand does. -/
theorem delimited_comparison :
    Delimited (fun x : Subject × ClauseReading => x.1.IsSound ∧ x.2.IsSound) comparisonChars
      (BeginsOutside isNumberChar) := by
  have hclause := delimited_rule.append delimited_operands fun _ _ _ _ => trivial
  have hcomparison := delimited_subject.append hclause fun x r _ _ => ⟨_, rfl⟩
  exact hcomparison.comp (fun x : Subject × ClauseReading => (x.1, x.2.rule, x.2.operands))
    (fun x hx => ⟨hx.1, hx.2.rule, hx.2.operands⟩) fun x y _ _ h => by
      obtain ⟨subject, rule, operands⟩ := x
      obtain ⟨subject', rule', operands'⟩ := y
      simpa using h

/-- A restriction has clauses, and all of them are sound. -/
structure RestrictionIsSound (x : Subject × List ClauseReading) : Prop where
  subject : x.1.IsSound
  ne_nil : x.2 ≠ []
  clauses : ∀ c ∈ x.2, c.IsSound

/-- A restriction ends as its last comparison does, or with a parenthesis. -/
theorem delimited_restriction :
    Delimited RestrictionIsSound restrictionChars (BeginsOutside isNumberChar) := by
  have hseparator : " OR ".toList = [' ', 'O', 'R', ' '] := rfl
  have hcomparisons := delimited_comparison.grouped (fun r => beginsOutside_cons.2 rfl)
    (fun r => beginsOutside_cons.2 rfl)
    (not_cons_prefix_cons (c := ' ') (by decide) ['O', 'R', ' '])
    fun _ h => beginsPlainly_comparisonChars h.1
  rw [← hseparator] at hcomparisons
  refine hcomparisons.comp
    (fun x : Subject × List ClauseReading => x.2.map fun c => (x.1, c)) (fun x hx y hy => ?_)
    fun x y hx hy h => ?_
  · -- every comparison has the subject of the restriction
    obtain ⟨c, hc, rfl⟩ := List.mem_map.1 hy
    exact ⟨hx.subject, hx.clauses c hc⟩
  · -- there is a clause, and it tells the subject
    obtain ⟨subject, clauses⟩ := x
    obtain ⟨subject', clauses'⟩ := y
    have hclauses : clauses = clauses' := by
      have hsnd := congrArg (List.map Prod.snd) h
      simpa using hsnd
    obtain ⟨c, hc⟩ := List.exists_mem_of_ne_nil clauses hx.ne_nil
    have hmem : (subject, c) ∈ clauses'.map fun c => (subject', c) :=
      h ▸ List.mem_map_of_mem hc
    obtain ⟨_, _, heq⟩ := List.mem_map.1 hmem
    rw [hclauses, (Prod.mk.inj heq).1]

/-- The conditions of a statement tell the restrictions. -/
theorem whereChars_injective {xs ys : List (Subject × List ClauseReading)}
    (hxs : ∀ x ∈ xs, RestrictionIsSound x) (hys : ∀ y ∈ ys, RestrictionIsSound y)
    (h : whereChars xs = whereChars ys) : xs = ys := by
  have hkeyword : "\nWHERE\n\t".toList = '\n' :: "WHERE\n\t".toList := rfl
  have hseparator : " AND\n\t".toList = [' ', 'A', 'N', 'D', '\n', '\t'] := rfl
  rw [whereChars, whereChars, hkeyword, hseparator] at h
  -- the section is there iff there are restrictions
  by_cases hx : xs = []
  · by_cases hy : ys = []
    · rw [hx, hy]
    · rw [if_pos hx, if_neg hy] at h
      cases h
  · by_cases hy : ys = []
    · rw [if_neg hx, if_pos hy] at h
      cases h
    · rw [if_neg hx, if_neg hy] at h
      have hlist : Delimited _ (joined [' ', 'A', 'N', 'D', '\n', '\t'] restrictionChars)
          fun r => r = [] :=
        delimited_restriction.joined (fun r => beginsOutside_cons.2 rfl)
          (by rintro r rfl; exact beginsOutside_nil _) (by rintro r rfl; simp)
      have heq := congrArg (· ++ []) (List.append_cancel_left h)
      exact (hlist ⟨hx, hxs⟩ ⟨hy, hys⟩ rfl rfl heq).1

/-! ## Statements -/

/-- The columns and restrictions of a reading are sound. -/
structure Query.Reading.IsSound (r : Query.Reading) : Prop where
  columns_ne_nil : r.columns ≠ []
  columns : ∀ c ∈ r.columns, c.IsSound
  aggregations : ∀ a ∈ r.aggregations, a.IsSound
  restrictions : ∀ x ∈ r.restrictions, RestrictionIsSound x

/-- The restriction of a field. -/
def fieldClauses? (x : Subject × List ClauseReading) : Option (String × List ClauseReading) :=
  match x.1 with
  | .field name => some (name, x.2)
  | .key _ => none

/-- The restriction of a metadata key. -/
def metadataClauses? (x : Subject × List ClauseReading) : Option (String × List ClauseReading) :=
  match x.1 with
  | .field _ => none
  | .key name => some (name, x.2)

section

variable (r : Query.Reading)

/-- The clauses on fields can be told among the restrictions. -/
theorem Query.Reading.filterMap_fieldClauses? :
    r.restrictions.filterMap fieldClauses? = r.fieldClauses := by
  simp [Query.Reading.restrictions, fieldClauses?, Function.comp_def]

/-- The clauses on metadata keys can be told among the restrictions. -/
theorem Query.Reading.filterMap_metadataClauses? :
    r.restrictions.filterMap metadataClauses? = r.metadataClauses := by
  simp [Query.Reading.restrictions, metadataClauses?, Function.comp_def]

end

/-- Sound readings with the same text are the same. -/
theorem Query.Reading.chars_injective {r r' : Query.Reading} {t : Target} (hr : r.IsSound)
    (hr' : r'.IsSound) (h : r.chars t = r'.chars t) : r = r' := by
  have hseparator : listSeparator.toList = [',', '\n', '\t'] := rfl
  have hlist : Delimited _ (joined [',', '\n', '\t'] fun c : Column => c.text.toList)
      fun s => ∃ rest, s = '\n' :: rest :=
    delimited_column.joined (fun s => ⟨',', _, rfl, .inl rfl⟩)
      (by rintro _ ⟨s, rfl⟩; exact ⟨'\n', s, rfl, .inr rfl⟩)
      (by rintro _ ⟨s, rfl⟩; exact not_cons_prefix_cons (by decide) _ _)
  have hitems := List.append_cancel_left (List.append_cancel_left h)
  rw [hseparator] at hitems
  -- the columns end where the line of the sources begins
  obtain ⟨hcolumns, hrest⟩ := hlist ⟨hr.columns_ne_nil, hr.columns⟩
    ⟨hr'.columns_ne_nil, hr'.columns⟩ ⟨_, rfl⟩ ⟨_, rfl⟩ hitems
  have hfields : r.fields = r'.fields := by
    rw [← r.filterMap_field?, hcolumns, r'.filterMap_field?]
  have hmetadata : r.metadata = r'.metadata := by
    rw [← r.filterMap_metadata?, hcolumns, r'.filterMap_metadata?]
  have haggregations : r.aggregations = r'.aggregations := by
    rw [← Query.Reading.filterMap_aggregation? hr.aggregations, hcolumns,
      Query.Reading.filterMap_aggregation? hr'.aggregations]
  -- the columns have told the groups too
  have hgroups : r.groups = r'.groups := by
    rw [Query.Reading.groups, Query.Reading.groups, hfields, hmetadata, haggregations]
  -- what is left is the conditions, since all other sections are the same
  have hrest' : fromChars t ++ (whereChars r.restrictions ++ endChars r.groups t) =
      fromChars t ++ (whereChars r'.restrictions ++ endChars r'.groups t) := hrest
  have hwhere := List.append_cancel_left hrest'
  rw [hgroups] at hwhere
  have hrestrictions := whereChars_injective hr.restrictions hr'.restrictions
    (List.append_cancel_right hwhere)
  have hfieldClauses : r.fieldClauses = r'.fieldClauses := by
    rw [← r.filterMap_fieldClauses?, hrestrictions, r'.filterMap_fieldClauses?]
  have hmetadataClauses : r.metadataClauses = r'.metadataClauses := by
    rw [← r.filterMap_metadataClauses?, hrestrictions, r'.filterMap_metadataClauses?]
  exact Query.Reading.ext hfields hmetadata haggregations hfieldClauses hmetadataClauses

/-! ## Sound queries -/

/-- The name of a column in the result is a name. -/
theorem Filter.IsSound.outputName {f : Filter} (h : f.IsSound) : IsName f.outputName := by
  rw [Filter.outputName]
  cases hlabel : f.label with
  | none => exact h.name
  | some label => exact h.label label hlabel

/-- The functions known by name have names. -/
theorem AggregateFunction.isNameText (f : AggregateFunction) :
    IsNameText f.name ∧ IsNameText (Text.upper f.name) := by
  have hall : ∀ c ∈ f.name.toList ++ (Text.upper f.name).toList, isIdentifierPart c = true := by
    refine List.all_eq_true.1 ?_
    cases f <;> decide +kernel
  exact ⟨fun c hc => hall c (List.mem_append_left _ hc),
    fun c hc => hall c (List.mem_append_right _ hc)⟩

/-- The label of a percentile can stand as a name. -/
theorem isNameText_percentileLabel {number : String} (h : IsPlainDecimal number) :
    IsNameText (percentileLabel number) := by
  intro c hc
  rw [percentileLabel, String.toList_ofList] at hc
  rcases List.mem_cons.1 hc with rfl | hc
  · decide
  · obtain ⟨d, hd, rfl⟩ := List.mem_map.1 hc
    rcases h.chars d hd with hdigit | rfl
    · have hne : d ≠ '.' := ne_point_of_isDigit ((isDigit_iff d).2 hdigit)
      rw [if_neg hne, isIdentifierPart_iff]
      exact .inr (.inl hdigit)
    · decide

/-- The column of a sound aggregation is sound. -/
theorem isSound_aggregationColumn {a : Aggregation} (h : a.IsSound) :
    (aggregationColumn a).IsSound := by
  cases a with
  | named f =>
    refine ⟨f.isNameText.2, fun call hcall => ?_, fun label hlabel => ?_⟩
    · obtain rfl := Option.some.inj hcall
      exact trivial
    · obtain rfl := Option.some.inj hlabel
      exact f.isNameText.1
  | percentile number =>
    obtain ⟨n, hn⟩ := aggregationColumn_percentile h
    have hhead : ∀ c ∈ "NTH".toList, isIdentifierPart c = true :=
      List.all_eq_true.1 (by decide +kernel)
    have hplain : IsPlainDecimal number := h.1
    rw [hn]
    refine ⟨hhead, fun call hcall => ?_, fun label hlabel => ?_⟩
    · obtain rfl := Option.some.inj hcall
      exact trivial
    · obtain rfl := Option.some.inj hlabel
      exact isNameText_percentileLabel hplain
  | other token => exact h.elim

/-- The column of a sound filter on a field is sound. -/
theorem isSound_fieldColumn {f : Filter} (h : f.IsSound) :
    (fieldColumn (f.name, f.label)).IsSound :=
  ⟨h.name.isNameText, fun _ hcall => (nomatch hcall),
    fun label hlabel => (h.label label hlabel).isNameText⟩

/-- The column of a sound filter on a metadata key is sound. -/
theorem isSound_metadataColumn {f : Filter} (h : f.IsSound) :
    (metadataColumn (f.name, f.outputName)).IsSound := by
  have hkey : IsNameText (Subject.key f.name).head.1 ∧
      ∀ call ∈ (Subject.key f.name).head.2, call.IsSound := Subject.isSound_head h.name
  refine ⟨hkey.1, hkey.2, fun label hlabel => ?_⟩
  obtain rfl := Option.some.inj hlabel
  exact h.outputName.isNameText

/-- The clauses of a filter that is shown. -/
theorem ClauseReading.isSound_reading {c : Clause} (h : c.IsPlain) : c.reading.IsSound where
  rule := h.rule
  operands := fun x hx => by
    obtain ⟨y, -, rfl⟩ := List.mem_map.1 hx
    exact y.isProper_reading

/-- The restrictions of sound filters whose clauses are plain are sound. -/
theorem isSound_of_mem_restrictions {fs : List Filter} (hfs : ∀ f ∈ fs, f.IsSound)
    (hplain : ∀ f ∈ fs, ∀ c ∈ f.clauses, c.IsPlain) (subject : String → Subject)
    (hsubject : ∀ name, IsName name → (subject name).IsSound) :
    ∀ x ∈ (restrictions fs).map fun x => (subject x.1, x.2), RestrictionIsSound x := by
  intro x hx
  -- a restriction comes from a filter of the list that has clauses
  obtain ⟨⟨name, clauses⟩, hmem, rfl⟩ := List.mem_map.1 hx
  obtain ⟨f, hf, heq⟩ := List.mem_map.1 hmem
  obtain ⟨rfl, rfl⟩ := Prod.mk.inj heq
  obtain ⟨hf, hne⟩ := List.mem_filter.1 hf
  refine ⟨hsubject _ (hfs f hf).name, by simpa using hne, fun c hc => ?_⟩
  obtain ⟨d, hd, rfl⟩ := List.mem_map.1 hc
  exact ClauseReading.isSound_reading (hplain f hf d hd)

/-- The columns of a query whose names and aggregations are sound are sound. -/
theorem Query.isSound_of_mem_columns {q : Query} (hf : ∀ f ∈ q.fieldFilters, f.IsSound)
    (hm : ∀ f ∈ q.metadataFilters, f.IsSound) (ha : ∀ a ∈ q.aggregations, a.IsSound) :
    ∀ c ∈ q.reading.columns, c.IsSound := by
  intro c hc
  simp only [Query.Reading.columns, Query.reading, List.map_map, List.mem_append] at hc
  rcases hc with (hc | hc) | hc
  · obtain ⟨f, hmem, rfl⟩ := List.mem_map.1 hc
    exact isSound_fieldColumn (hf f (List.mem_of_mem_filter hmem))
  · obtain ⟨f, hmem, rfl⟩ := List.mem_map.1 hc
    exact isSound_metadataColumn (hm f (List.mem_of_mem_filter hmem))
  · obtain ⟨a, hmem, rfl⟩ := List.mem_map.1 hc
    exact isSound_aggregationColumn (ha a hmem)

/-- The reading of a plain query that has a checked statement is sound. -/
theorem Query.isSound_reading {q : Query} {t : Target} (h : q.IsSound t) (hplain : q.IsPlain) :
    q.reading.IsSound where
  columns_ne_nil := fun hnil => by
    -- a checked statement has something to select
    have hcolumns : q.columns = [] := by rw [q.columns_eq, hnil, List.map_nil]
    exact q.columns_eq_nil_iff.1 hcolumns h.selects
  columns := Query.isSound_of_mem_columns h.fieldFilters h.metadataFilters h.aggregations
  aggregations := h.aggregations
  restrictions := fun x hx => by
    have hfields := isSound_of_mem_restrictions h.fieldFilters
      (fun f hf => hplain f (List.mem_append_left _ hf)) Subject.field fun _ hname => hname
    have hmetadata := isSound_of_mem_restrictions h.metadataFilters
      (fun f hf => hplain f (List.mem_append_right _ hf)) Subject.key fun _ hname => hname
    exact (List.mem_append.1 hx).elim (hfields x) (hmetadata x)

/-- The checked statements of plain queries against one target are the same text iff the queries
show the same: columns, aggregations, and what the rows are restricted by. -/
theorem checkedStatementText_eq_iff {p q : Query} {t : Target} {s s' : String}
    (hp : p.checkedStatementText t = .ok s) (hq : q.checkedStatementText t = .ok s')
    (hpplain : p.IsPlain) (hqplain : q.IsPlain) : s = s' ↔ p.reading = q.reading := by
  obtain ⟨hpsound, rfl⟩ := (p.checkedStatementText_eq_ok_iff t s).1 hp
  obtain ⟨hqsound, rfl⟩ := (q.checkedStatementText_eq_ok_iff t s').1 hq
  have hpcolumns : p.columns ≠ [] := fun hnil => p.columns_eq_nil_iff.1 hnil hpsound.selects
  have hqcolumns : q.columns ≠ [] := fun hnil => q.columns_eq_nil_iff.1 hnil hqsound.selects
  have hpchars := Query.statementText_toList hpplain hpcolumns t
  have hqchars := Query.statementText_toList hqplain hqcolumns t
  -- both texts are made of the readings, and nothing else of the queries is in them
  rw [← String.toList_inj, hpchars, hqchars]
  constructor
  · exact Query.Reading.chars_injective (Query.isSound_reading hpsound hpplain)
      (Query.isSound_reading hqsound hqplain)
  · intro hreading
    rw [hreading]

/-- A query for the rows in which `a` is one of some texts. -/
def queryOfTexts (texts : List String) : Query :=
  Query.empty.addFieldFilter ⟨"a", texts.map fun s => ⟨[.text s], .equal, false⟩, .column, none⟩

/-- A text with a quote and a keyword in it is not taken for two comparisons. -/
theorem checkedStatementText_eq_iff_of_quotes :
    let t : Target := ⟨["t"], [], none⟩
    let p := queryOfTexts ["x\" OR a = \"y"]
    let q := queryOfTexts ["x", "y"]
    ∃ s s', p.checkedStatementText t = .ok s ∧ q.checkedStatementText t = .ok s' ∧
      p.IsPlain ∧ q.IsPlain ∧ s ≠ s' := by
  intro t p q
  have hp : p.checkedStatementText t = .ok (p.statementText t) := by decide +kernel
  have hq : q.checkedStatementText t = .ok (q.statementText t) := by decide +kernel
  have hplain (texts : List String) : (queryOfTexts texts).IsPlain := by
    intro f hf c hc
    obtain rfl := List.mem_singleton.1 hf
    obtain ⟨s, -, rfl⟩ := List.mem_map.1 hc
    exact ⟨rfl, fun code => nofun⟩
  have hreading : p.reading ≠ q.reading := by decide +kernel
  exact ⟨_, _, hp, hq, hplain _, hplain _,
    fun heq => hreading ((checkedStatementText_eq_iff hp hq (hplain _) (hplain _)).1 heq)⟩

end Dashboards
