import Dashboards.Proofs.Statement.Delimited
import Dashboards.Statement.Build
import Mathlib.Logic.Basic

/-!
# What can be read of a statement

A statement does not show all of a query: a hidden filter without clauses leaves no trace in it, a
metadata key without an alias is shown under its own name, and of a number there is only its text.
The reading of a query is what it shows.  The statement of a query whose texts are all quoted and
whose rules are all known is made from its reading alone.

## Key results

- `Query.columns_eq`, `Query.groups_eq`, `Query.conditions_map_toList`: the items of a statement,
  made from the reading
- `Query.statementText_toList`: the text of a statement, made from the reading
-/

namespace Dashboards

/-! ## Readings -/

/-- What an operand shows: a number its text, and a text itself. -/
inductive OperandReading where
  | number (text : String)
  | text (s : String)
deriving DecidableEq, Repr

def Operand.reading : Operand → OperandReading
  | .number n => .number n.text
  | .text s => .text s

/-- What a clause shows. -/
structure ClauseReading where
  rule : MatchRule
  operands : List OperandReading
deriving DecidableEq, Repr

def Clause.reading (c : Clause) : ClauseReading := ⟨c.rule, c.operands.map (·.reading)⟩

/-- What a query shows. -/
@[ext]
structure Query.Reading where
  /-- the columns of fields, with their aliases -/
  fields : List (String × Option String)
  /-- the columns of metadata keys, with their names in the result -/
  metadata : List (String × String)
  aggregations : List Aggregation
  /-- the fields that rows are restricted by -/
  fieldClauses : List (String × List ClauseReading)
  /-- the metadata keys that rows are restricted by -/
  metadataClauses : List (String × List ClauseReading)
deriving DecidableEq, Repr

/-- The filters that restrict the rows, by name. -/
def restrictions (fs : List Filter) : List (String × List ClauseReading) :=
  (fs.filter (·.clauses ≠ [])).map fun f => (f.name, f.clauses.map (·.reading))

/-- The reading of a query. -/
def Query.reading (q : Query) : Query.Reading where
  fields := (q.fieldFilters.filter (·.isColumn)).map fun f => (f.name, f.label)
  metadata := (q.metadataFilters.filter (·.isColumn)).map fun f => (f.name, f.outputName)
  aggregations := q.aggregations
  fieldClauses := restrictions q.fieldFilters
  metadataClauses := restrictions q.metadataFilters

/-- The texts of a clause are quoted, and its rule is known. -/
structure Clause.IsPlain (c : Clause) : Prop where
  quoted : c.isExpression = false
  rule : ∀ code, c.rule ≠ .custom code

/-- All clauses of a query are plain. -/
def Query.IsPlain (q : Query) : Prop :=
  ∀ f ∈ q.fieldFilters ++ q.metadataFilters, ∀ c ∈ f.clauses, c.IsPlain

/-! ## Columns -/

/-- The arguments of the functions that columns are made with. -/
inductive Call where
  | key (name : String)
  | value
  | rank (n : Nat)
deriving DecidableEq, Repr

def Call.text : Call → String
  | key name => "(labels, r\"|" ++ name ++ ":(.*?)|\")"
  | value => "(value)"
  | rank n => "(" ++ Decimal.natText n ++ ", QUANTILES(value, 1001))"

/-- A column: a field, or a function with its argument, and perhaps an alias. -/
structure Column where
  head : String
  call : Option Call
  label : Option String
deriving DecidableEq, Repr

def Column.text (c : Column) : String :=
  c.head ++ (c.call.elim "" (·.text) ++ c.label.elim "" fun label => " AS " ++ label)

def fieldColumn (f : String × Option String) : Column := ⟨f.1, none, f.2⟩

def metadataColumn (f : String × String) : Column := ⟨"REGEXP_EXTRACT", some (.key f.1), some f.2⟩

def callColumnOf (name : String) : Column := ⟨Text.upper name, some .value, some name⟩

def aggregationColumn : Aggregation → Column
  | .named f => callColumnOf f.name
  | .other token => callColumnOf token
  | .percentile number =>
    match percentileOf? number with
    | some p => ⟨"NTH", some (.rank (quantileRank p)), some (percentileLabel number)⟩
    | none => callColumnOf (Aggregation.percentile number).text

/-- The columns that a reading has. -/
def Query.Reading.columns (r : Query.Reading) : List Column :=
  r.fields.map fieldColumn ++ r.metadata.map metadataColumn ++ r.aggregations.map aggregationColumn

/-- The column of a field is written as it was built. -/
theorem fieldColumn_text (f : Filter) :
    (fieldColumn (f.name, f.label)).text = f.fieldColumn := by
  rw [Filter.fieldColumn, fieldColumn, Column.text]
  cases f.label with
  | none => simp only [Option.elim_none, String.append_empty]
  | some label =>
    simp only [Option.elim_none, Option.elim_some, String.empty_append, String.append_assoc]

/-- The column of a metadata key is written as it was built. -/
theorem metadataColumn_text (f : Filter) :
    (metadataColumn (f.name, f.outputName)).text = f.metadataColumn := by
  rw [metadataColumn, Column.text, Option.elim_some, Option.elim_some, Call.text,
    ← String.append_assoc, ← String.append_assoc, ← String.append_assoc]
  rfl

/-- The column of a call is written as it was built. -/
theorem callColumnOf_text (name : String) : (callColumnOf name).text = callColumn name := by
  have hcall : "(value) AS " = "(value)" ++ " AS " := rfl
  rw [callColumn, callColumnOf, Column.text, Option.elim_some, Option.elim_some, Call.text, hcall]
  simp only [String.append_assoc]

/-- The column of an aggregation is written as it was built. -/
theorem aggregationColumn_text (a : Aggregation) : (aggregationColumn a).text = a.column := by
  cases a with
  | named f => exact callColumnOf_text f.name
  | other token => exact callColumnOf_text token
  | percentile number =>
    simp only [aggregationColumn, Aggregation.column, Aggregation.percentile?]
    cases percentileOf? number with
    | none => exact callColumnOf_text _
    | some p =>
      have hfront : "NTH(" = "NTH" ++ "(" := rfl
      have hback : ", QUANTILES(value, 1001)) AS " = ", QUANTILES(value, 1001))" ++ " AS " := rfl
      rw [Column.text, Option.elim_some, Option.elim_some, Call.text, hfront, hback]
      simp only [String.append_assoc]

/-- The columns of a query are those of its reading. -/
theorem Query.columns_eq (q : Query) : q.columns = q.reading.columns.map (·.text) := by
  simp only [Query.columns, Query.Reading.columns, Query.reading, List.map_append, List.map_map,
    Function.comp_def, fieldColumn_text, metadataColumn_text, aggregationColumn_text]

/-! ## Groups -/

/-- What the rows of a reading are grouped by. -/
def Query.Reading.groups (r : Query.Reading) : List String :=
  if r.aggregations.isEmpty then []
  else (r.fields.map fun f => f.2.getD f.1) ++ r.metadata.map (·.2)

/-- The groups of a query are those of its reading. -/
theorem Query.groups_eq (q : Query) : q.groups = q.reading.groups := by
  simp only [Query.groups, Query.isAggregated, Query.Reading.groups, Query.reading,
    List.filter_append, List.map_append, List.map_map]
  cases q.aggregations with
  | nil => rfl
  | cons a as => rfl

/-! ## Conditions -/

/-- What is compared: a field, or the value of a metadata key. -/
inductive Subject where
  | field (name : String)
  | key (name : String)
deriving DecidableEq, Repr

def Subject.text : Subject → String
  | field name => name
  | key name => metadataExpression name

def OperandReading.chars : OperandReading → List Char
  | .number digits => digits.toList
  | .text s => (quotedOperand s).toList

/-- An operator with the blanks around it. -/
def MatchRule.chars (r : MatchRule) : List Char := ' ' :: (r.operator.toList ++ [' '])

/-- One comparison. -/
def comparisonChars (x : Subject × ClauseReading) : List Char :=
  x.1.text.toList ++
    (x.2.rule.chars ++ grouped ", ".toList OperandReading.chars x.2.operands)

/-- The comparisons of one filter. -/
def restrictionChars (x : Subject × List ClauseReading) : List Char :=
  grouped " OR ".toList comparisonChars (x.2.map fun c => (x.1, c))

/-- The filters of a reading that restrict the rows. -/
def Query.Reading.restrictions (r : Query.Reading) : List (Subject × List ClauseReading) :=
  (r.fieldClauses.map fun x => (.field x.1, x.2)) ++
    r.metadataClauses.map fun x => (.key x.1, x.2)

/-- An operand that is no expression is written as it is read. -/
theorem Operand.inStatement_toList (x : Operand) :
    (x.inStatement false).toList = x.reading.chars := by
  cases x with
  | number n => rfl
  | text s =>
    rw [Operand.inStatement, if_neg Bool.false_ne_true]
    rfl

/-- A list of texts that stands in parentheses unless it has one item. -/
theorem grouped_toList {α : Type} (separator : String) (text : α → String) {as : List α}
    (h : as.length ≠ 1) :
    ("(" ++ separator.intercalate (as.map text) ++ ")").toList =
      grouped separator.toList (fun a => (text a).toList) as := by
  rw [grouped_of_length_ne_one h, ← intercalate_eq_joined]
  simp [Function.comp_def]

/-- A list may be mapped before it is written or while it is. -/
theorem grouped_map {α β : Type} (separator : List Char) (f : α → β) (text : β → List Char)
    (as : List α) :
    grouped separator text (as.map f) = grouped separator (fun a => text (f a)) as := by
  match as with
  | [] => rfl
  | [_] => rfl
  | _ :: _ :: _ =>
    simp [grouped, ← intercalate_eq_joined, Function.comp_def]

/-- The operands of a clause whose texts are quoted. -/
theorem Clause.operandText_toList {c : Clause} (h : c.isExpression = false) :
    c.operandText.toList = grouped ", ".toList OperandReading.chars c.reading.operands := by
  have hchars : (fun x : Operand => (x.inStatement false).toList) =
      fun x => x.reading.chars := funext Operand.inStatement_toList
  rw [Clause.reading, grouped_map, ← hchars, Clause.operandText, h]
  -- one operand stands by itself, and any other number of them in parentheses
  split
  next x hx => rw [hx]; rfl
  next hne =>
    refine grouped_toList ", " _ fun hone => ?_
    obtain ⟨x, hx⟩ := List.length_eq_one_iff.1 hone
    exact hne x hx

/-- The condition of a clause is the comparison of its reading. -/
theorem Clause.condition_toList {c : Clause} (h : c.isExpression = false) (subject : Subject) :
    (c.condition subject.text).toList = comparisonChars (subject, c.reading) := by
  simp [Clause.condition, comparisonChars, MatchRule.chars, Clause.operandText_toList h,
    Clause.reading]

/-- The condition of a filter, if its clauses are plain. -/
theorem Filter.condition?_toList {f : Filter} (h : ∀ c ∈ f.clauses, c.IsPlain)
    (subject : Subject) :
    (f.condition? subject.text).map String.toList =
      if f.clauses ≠ [] then some (restrictionChars (subject, f.clauses.map (·.reading)))
      else none := by
  have hchars : f.clauses.map (fun c => (c.condition subject.text).toList) =
      f.clauses.map fun c => comparisonChars (subject, c.reading) :=
    List.map_congr_left fun c hc => Clause.condition_toList (h c hc).quoted subject
  rw [restrictionChars, List.map_map, grouped_map, Filter.condition?]
  split
  next hnil => simp [hnil]
  next c hone =>
    -- a single clause stands without parentheses
    have hc : c ∈ f.clauses := hone ▸ List.mem_singleton_self c
    simp [hone, grouped, Clause.condition_toList (h c hc).quoted subject]
  next hnil hone =>
    have hlength : f.clauses.length ≠ 1 := fun hlength =>
      (List.length_eq_one_iff.1 hlength).elim hone
    rw [if_pos hnil, Option.map_some, grouped_toList _ _ hlength, grouped_of_length_ne_one hlength,
      grouped_of_length_ne_one hlength, ← intercalate_eq_joined, ← intercalate_eq_joined, hchars]
    rfl

/-- The conditions of filters whose clauses are plain. -/
theorem filterMap_condition?_toList {fs : List Filter} (h : ∀ f ∈ fs, ∀ c ∈ f.clauses, c.IsPlain)
    (subject : String → Subject) :
    (fs.filterMap fun f => f.condition? (subject f.name).text).map String.toList =
      (restrictions fs).map fun x => restrictionChars (subject x.1, x.2) := by
  -- induction on the filters: one more restricts the rows or is left out of both sides
  induction fs with
  | nil => rfl
  | cons f fs ih =>
    obtain ⟨hf, hfs⟩ := List.forall_mem_cons.1 h
    have hcondition := Filter.condition?_toList hf (subject f.name)
    have hrest := ih hfs
    rw [restrictions] at hrest ⊢
    by_cases hnil : f.clauses = []
    -- a filter without clauses restricts nothing
    · rw [if_neg fun hne => hne hnil, Option.map_eq_none_iff] at hcondition
      simp only [List.filterMap_cons, hcondition]
      rw [List.filter_cons_of_neg (by simp [hnil]), hrest]
    · rw [if_pos hnil, Option.map_eq_some_iff] at hcondition
      obtain ⟨text, htext, hchars⟩ := hcondition
      simp only [List.filterMap_cons, htext]
      rw [List.filter_cons_of_pos (by simp [hnil]), List.map_cons, List.map_cons, List.map_cons,
        hchars, hrest]

/-- The conditions of a plain query are those of its reading. -/
theorem Query.conditions_map_toList {q : Query} (h : q.IsPlain) :
    q.conditions.map String.toList = q.reading.restrictions.map restrictionChars := by
  have hfields : ∀ f ∈ q.fieldFilters, ∀ c ∈ f.clauses, c.IsPlain := fun f hf =>
    h f (List.mem_append_left _ hf)
  have hmetadata : ∀ f ∈ q.metadataFilters, ∀ c ∈ f.clauses, c.IsPlain := fun f hf =>
    h f (List.mem_append_right _ hf)
  have hfieldChars := filterMap_condition?_toList hfields Subject.field
  have hmetadataChars := filterMap_condition?_toList hmetadata Subject.key
  simp only [Subject.text] at hfieldChars hmetadataChars
  rw [Query.conditions, List.map_append, hfieldChars, hmetadataChars]
  simp [Query.Reading.restrictions, Query.reading, Function.comp_def]

/-! ## Statements -/

/-- The section of conditions. -/
def whereChars (xs : List (Subject × List ClauseReading)) : List Char :=
  if xs = [] then [] else "\nWHERE\n\t".toList ++ joined " AND\n\t".toList restrictionChars xs

/-- The sections that follow the conditions. -/
def endSections (groups : List String) (t : Target) : List String :=
  optionalSection "GROUP BY" listSeparator (some groups) ++
    optionalSection "ORDER BY" listSeparator (some t.order) ++
    (match t.limit with
      | some n => ["LIMIT " ++ Decimal.natText n.toNat]
      | none => [])

/-- The section of sources, on a line of its own. -/
def fromChars (t : Target) : List Char :=
  '\n' :: (sectionText "FROM" listSeparator t.sources).toList

/-- The end of a statement. -/
def endChars (groups : List String) (t : Target) : List Char :=
  repeated ['\n'] String.toList (endSections groups t) ++ [';']

/-- The text of a statement, made from a reading. -/
def Query.Reading.chars (r : Query.Reading) (t : Target) : List Char :=
  "SELECT".toList ++ ("\n\t".toList ++ (joined listSeparator.toList (·.text.toList) r.columns ++
    (fromChars t ++ (whereChars r.restrictions ++ endChars r.groups t))))

/-- Parts that begin on lines of their own, after other parts that do. -/
theorem repeated_append {α : Type} (separator : List Char) (text : α → List Char)
    (as bs : List α) :
    repeated separator text (as ++ bs) = repeated separator text as ++ repeated separator text bs :=
  List.flatMap_append

/-- The first of the parts that begin on lines of their own. -/
theorem repeated_cons {α : Type} (separator : List Char) (text : α → List Char) (a : α)
    (as : List α) :
    repeated separator text (a :: as) = separator ++ text a ++ repeated separator text as :=
  List.flatMap_cons

/-- The section of conditions, on a line of its own if there are any. -/
theorem repeated_whereSection {conditions : List String}
    {xs : List (Subject × List ClauseReading)}
    (h : conditions.map String.toList = xs.map restrictionChars) :
    repeated ['\n'] String.toList (optionalSection "WHERE" conditionSeparator (some conditions)) =
      whereChars xs := by
  cases conditions with
  | nil =>
    obtain rfl := List.map_eq_nil_iff.1 h.symm
    rfl
  | cons c cs =>
    have hne : xs ≠ [] := by
      rintro rfl
      exact nomatch h
    rw [whereChars, if_neg hne, ← intercalate_eq_joined, ← h]
    simp [optionalSection, itemsIfAny, Option.filter_some, sectionText, repeated,
      conditionSeparator]

/-- The text of a statement that has columns. -/
theorem Statement.text_toList (s : Statement) (hcolumns : s.columns ≠ []) :
    s.text.toList = "SELECT".toList ++ ("\n\t".toList ++
      (joined listSeparator.toList String.toList s.columns ++
        repeated ['\n'] String.toList s.sections.tail)) ++ [';'] := by
  have hsections : s.sections = sectionText "SELECT" listSeparator s.columns :: s.sections.tail :=
    rfl
  have hselect : sectionText "SELECT" listSeparator s.columns =
      "SELECT" ++ "\n\t" ++ listSeparator.intercalate s.columns :=
    if_neg (by simpa using hcolumns)
  rw [Statement.text, String.toList_append, String.toList_intercalate, intercalate_eq_joined,
    hsections, joined, hselect, String.toList_append, String.toList_append,
    String.toList_intercalate, intercalate_eq_joined]
  simp only [List.append_assoc]
  rfl

/-- The text of the statement of a plain query is made from its reading. -/
theorem Query.statementText_toList {q : Query} (h : q.IsPlain) (hcolumns : q.columns ≠ [])
    (t : Target) : (q.statementText t).toList = q.reading.chars t := by
  -- the first section has the columns; what comes after it begins on lines of its own
  have hsections : (q.statement t).sections.tail =
      sectionText "FROM" listSeparator t.sources ::
        (optionalSection "WHERE" conditionSeparator (some q.conditions) ++
          endSections q.reading.groups t) := by
    rw [endSections, ← q.groups_eq, ← List.append_assoc, ← List.append_assoc]
    rfl
  have hjoined : joined listSeparator.toList String.toList q.columns =
      joined listSeparator.toList (·.text.toList) q.reading.columns := by
    rw [← intercalate_eq_joined, ← intercalate_eq_joined, q.columns_eq, List.map_map]
    rfl
  -- what follows the columns: the sources, the conditions, and the end
  have hrest : repeated ['\n'] String.toList (q.statement t).sections.tail ++ [';'] =
      fromChars t ++ (whereChars q.reading.restrictions ++ endChars q.reading.groups t) := by
    rw [hsections, repeated_cons, repeated_append,
      repeated_whereSection (Query.conditions_map_toList h), endChars, fromChars]
    simp only [List.append_assoc, List.cons_append, List.nil_append]
  calc (q.statementText t).toList
      = "SELECT".toList ++ ("\n\t".toList ++ (joined listSeparator.toList String.toList q.columns ++
          repeated ['\n'] String.toList (q.statement t).sections.tail)) ++ [';'] :=
        (q.statement t).text_toList hcolumns
    _ = "SELECT".toList ++ ("\n\t".toList ++ (joined listSeparator.toList String.toList q.columns ++
          (repeated ['\n'] String.toList (q.statement t).sections.tail ++ [';']))) := by
        simp only [List.append_assoc]
    _ = q.reading.chars t :=
        congrArg₂ (fun x y => "SELECT".toList ++ ("\n\t".toList ++ (x ++ y))) hjoined hrest

end Dashboards
