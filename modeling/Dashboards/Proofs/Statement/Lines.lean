import Dashboards.Proofs.Json.NumberText
import Dashboards.Statement.Layout
import Dashboards.Text.Blank
import Mathlib.Data.List.Basic

/-!
# Lines of statements

The text of a statement can be read line by line.  A line that is not indented is a header, and the
lines under it that are indented by a tab are its items.  All items under a header but the last have
a mark at the end, which is a comma or, for conditions, the word `AND`.  A semicolon ends the text.

So the layout hides nothing, whatever the items are, as long as each is on one line: they may look
like headers, be empty, or end with a mark or a semicolon of their own.

## Key results

- `Statement.text_eq`: the text of a statement is made of lines
- `gather_lines`, `unmark?_markedItems`: the headers and items among them, and their marks
- `Statement.blocksOf?_text`, `Statement.ofBlocks?_blocks`: headers and items that are read are
  those of the statement, and they tell the statement
- `Statement.text_eq_iff`: an empty list and an absent one make the same text
- `Statement.endsInInk_of_mem_splitOn_text`: no line ends in a blank if no item does
- `Statement.layout_reads_back`: a statement is read back from its text
-/

namespace Dashboards

/-! ## Reading -/

/-- A header with the items under it. -/
structure Block where
  header : String
  items : List String
deriving DecidableEq, Repr

/-- The mark at the end of all items but the last under a header. -/
def Block.markOf (header : String) : String := if header = "WHERE" then " AND" else ","

/-- The headers among some lines, each with the indented lines under it, and before them the
indented lines that come before any header. -/
def gather : List (List Char) → List (List Char) × List (List Char × List (List Char))
  | [] => ([], [])
  | ('\t' :: item) :: lines => (item :: (gather lines).1, (gather lines).2)
  | header :: lines => ([], (header, (gather lines).1) :: (gather lines).2)

/-- The items without their marks. -/
def unmark? (mark : List Char) : List (List Char) → Option (List (List Char))
  | marked :: next :: items => do
    let item ← marked.dropSuffix? mark
    let items ← unmark? mark (next :: items)
    return item :: items
  | items => some items

/-- A header and what stands under it. -/
def Block.ofLines? (lines : List Char × List (List Char)) : Option Block := do
  let header := String.ofList lines.1
  let items ← unmark? (Block.markOf header).toList lines.2
  return ⟨header, items.map String.ofList⟩

/-- The headers and items of a text that ends with a semicolon. -/
def blocksOf? (text : String) : Option (List Block) := do
  let body ← text.toList.dropSuffix? [';']
  match gather (body.splitOn '\n') with
  | ([], blocks) => blocks.mapM Block.ofLines?
  | _ => none

/-- The items under a header if it comes next, and what follows them. -/
def takeItems (header : String) : List Block → Option (List String) × List Block
  | [] => (none, [])
  | b :: blocks => if b.header = header then (some b.items, blocks) else (none, b :: blocks)

/-- The limit that a header tells. -/
def limitOf? (b : Block) : Option UInt64 := do
  let digits ← b.header.toList.dropPrefix? "LIMIT ".toList
  let n ← Decimal.numeral? 10 digits
  if b.items = [] ∧ n < UInt64.size then some (UInt64.ofNat n) else none

/-- The statement of some headers in their order, of which only the first two are always there. -/
def Statement.ofBlocks? : List Block → Option Statement
  | ⟨"SELECT", columns⟩ :: ⟨"FROM", sources⟩ :: blocks =>
    let (conditions, blocks) := takeItems "WHERE" blocks
    let (groups, blocks) := takeItems "GROUP BY" blocks
    let (order, blocks) := takeItems "ORDER BY" blocks
    match blocks with
    | [] => some ⟨columns, sources, conditions, groups, order, none⟩
    | [b] => (limitOf? b).map fun n => ⟨columns, sources, conditions, groups, order, some n⟩
    | _ => none
  | _ => none

/-- The statement of a text. -/
def Statement.ofText? (text : String) : Option Statement :=
  (blocksOf? text).bind Statement.ofBlocks?

/-! ## Lines -/

/-- Items with their marks. -/
def markedItems (mark : String) : List String → List String
  | [] => []
  | [item] => [item]
  | item :: next :: items => (item ++ mark) :: markedItems mark (next :: items)

/-- The lines of a header and its items. -/
def Block.lines (b : Block) : List String :=
  b.header :: (markedItems (Block.markOf b.header) b.items).map ("\t" ++ ·)

/-- A header of its own for items, if there are any. -/
def optionalBlock (header : String) (items : Option (List String)) : List Block :=
  match itemsIfAny items with
  | some items => [⟨header, items⟩]
  | none => []

/-- A header of its own for a limit, if there is one. -/
def limitBlock (limit : Option UInt64) : List Block :=
  match limit with
  | some n => [⟨"LIMIT " ++ Decimal.natText n.toNat, []⟩]
  | none => []

/-- The headers of a statement and the items under them, in order. -/
def Statement.blocks (s : Statement) : List Block :=
  [⟨"SELECT", s.columns⟩, ⟨"FROM", s.sources⟩] ++ optionalBlock "WHERE" s.conditions ++
    optionalBlock "GROUP BY" s.groups ++ optionalBlock "ORDER BY" s.order ++ limitBlock s.limit

/-- All items of a statement. -/
def Statement.items (s : Statement) : List String :=
  s.columns ++ s.sources ++ s.conditions.getD [] ++ s.groups.getD [] ++ s.order.getD []

/-- The statement without lists that are there and empty, which show no more than absent ones. -/
def Statement.withoutEmpty (s : Statement) : Statement :=
  { s with
    conditions := itemsIfAny s.conditions
    groups := itemsIfAny s.groups
    order := itemsIfAny s.order }

/-- Lists of texts put together part by part are put together as a whole. -/
theorem intercalate_map_intercalate (separator : String) {xss : List (List String)}
    (h : ∀ xs ∈ xss, xs ≠ []) :
    separator.intercalate (xss.map separator.intercalate) =
      separator.intercalate xss.flatten := by
  induction xss with
  | nil => rfl
  | cons xs xss ih =>
    obtain ⟨hxs, hxss⟩ := List.forall_mem_cons.1 h
    -- the separator comes between two parts only, so that the last part is a case of its own
    cases xss with
    | nil => simp
    | cons ys xss =>
      have hflatten : (ys :: xss).flatten ≠ [] := by
        simp [List.forall_mem_cons.1 hxss]
      rw [List.map_cons, String.intercalate_cons_of_ne_nil (by simp), ih hxss,
        List.flatten_cons (l := xs), String.intercalate_append_of_ne_nil hxs hflatten]

/-- What follows the last text. -/
theorem intercalate_concat_append (separator : String) (xs : List String) (x rest : String) :
    separator.intercalate (xs ++ [x]) ++ rest = separator.intercalate (xs ++ [x ++ rest]) := by
  cases xs with
  | nil => simp
  | cons y ys =>
    rw [String.intercalate_append_of_ne_nil (List.cons_ne_nil y ys) (List.cons_ne_nil _ _),
      String.intercalate_append_of_ne_nil (List.cons_ne_nil y ys) (List.cons_ne_nil _ _),
      String.intercalate_singleton, String.intercalate_singleton, String.append_assoc]

/-- There is a line for the first item. -/
theorem exists_markedItems_cons (mark : String) (item : String) (items : List String) :
    ∃ line lines, markedItems mark (item :: items) = line :: lines := by
  cases items with
  | nil => exact ⟨_, _, rfl⟩
  | cons next items => exact ⟨_, _, rfl⟩

/-- Items make at least one line. -/
theorem map_markedItems_ne_nil (mark : String) (item : String) (items : List String) :
    (markedItems mark (item :: items)).map ("\t" ++ ·) ≠ [] := by
  obtain ⟨line, lines, hlines⟩ := exists_markedItems_cons mark item items
  rw [hlines]
  exact List.cons_ne_nil _ _

/-- The items of a section stand on lines of their own, with their marks. -/
theorem intercalate_items (mark : String) (item : String) (items : List String) :
    "\t" ++ (mark ++ "\n\t").intercalate (item :: items) =
      "\n".intercalate ((markedItems mark (item :: items)).map ("\t" ++ ·)) := by
  induction items generalizing item with
  | nil => simp [markedItems]
  | cons next items ih =>
    have hne := map_markedItems_ne_nil mark next items
    have hbreak : "\n\t" = "\n" ++ "\t" := rfl
    -- the mark stays on the line of its item, and the tab goes to the next
    rw [String.intercalate_cons_cons, markedItems, List.map_cons,
      String.intercalate_cons_of_ne_nil hne, ← ih next, hbreak]
    simp only [String.append_assoc]

/-- The lines of a section. -/
theorem sectionText_eq (header : String) (items : List String) :
    sectionText header (Block.markOf header ++ "\n\t") items =
      "\n".intercalate (Block.lines ⟨header, items⟩) := by
  cases items with
  | nil => simp [sectionText, Block.lines, markedItems]
  | cons item items =>
    have hne := map_markedItems_ne_nil (Block.markOf header) item items
    have hbreak : "\n\t" = "\n" ++ "\t" := rfl
    rw [Block.lines, String.intercalate_cons_of_ne_nil hne, ← intercalate_items, sectionText,
      if_neg (by simp), hbreak]
    simp only [String.append_assoc]

/-- The sections of a statement are its headers and items. -/
theorem Statement.sections_eq (s : Statement) :
    s.sections = s.blocks.map fun b => "\n".intercalate b.lines := by
  have hoptional (header : String) (items : Option (List String)) :
      optionalSection header (Block.markOf header ++ "\n\t") items =
        (optionalBlock header items).map fun b => "\n".intercalate b.lines := by
    rw [optionalSection, optionalBlock]
    cases itemsIfAny items with
    | none => rfl
    | some items => exact congrArg ([·]) (sectionText_eq header items)
  have hlimit : (match s.limit with
      | some n => ["LIMIT " ++ Decimal.natText n.toNat]
      | none => []) = (limitBlock s.limit).map fun b => "\n".intercalate b.lines := by
    cases s.limit with
    | none => rfl
    | some n => simp [limitBlock, Block.lines, markedItems]
  -- what separates items is the mark, the break of the line, and the tab of the next
  have hconditions : conditionSeparator = Block.markOf "WHERE" ++ "\n\t" := by decide
  have hgroups : listSeparator = Block.markOf "GROUP BY" ++ "\n\t" := by decide
  have horder : listSeparator = Block.markOf "ORDER BY" ++ "\n\t" := by decide
  have hfirst : [sectionText "SELECT" listSeparator s.columns,
      sectionText "FROM" listSeparator s.sources] =
      [Block.mk "SELECT" s.columns, ⟨"FROM", s.sources⟩].map fun b => "\n".intercalate b.lines := by
    rw [List.map_cons, List.map_singleton, ← sectionText_eq, ← sectionText_eq]
    rfl
  simp only [Statement.blocks, List.map_append, ← hoptional, ← hconditions, ← hgroups, ← horder,
    ← hfirst, ← hlimit]
  rfl

/-- The text of a statement is its lines, with a semicolon behind the last. -/
theorem Statement.text_eq (s : Statement) :
    s.text = "\n".intercalate (s.blocks.flatMap Block.lines) ++ ";" := by
  have hlines : ∀ xs ∈ s.blocks.map Block.lines, xs ≠ [] := by
    intro xs hxs
    obtain ⟨b, -, rfl⟩ := List.mem_map.1 hxs
    exact List.cons_ne_nil _ _
  -- sections are joined as their lines are
  have hwhole := intercalate_map_intercalate "\n" hlines
  rw [List.map_map, ← List.flatMap_def] at hwhole
  rw [Statement.text, Statement.sections_eq]
  exact congrArg (· ++ ";") hwhole

/-! ## What is read -/

/-- A header and items that cannot be taken for anything else: they are all on one line, and the
header is not indented. -/
structure Block.IsProper (b : Block) : Prop where
  header_head : b.header.toList.head? ≠ some '\t'
  header_line : '\n' ∉ b.header.toList
  items_line : ∀ item ∈ b.items, '\n' ∉ item.toList

/-- A marked item is an item, perhaps with the mark behind it. -/
theorem mem_markedItems {mark : String} {items : List String} {line : String}
    (h : line ∈ markedItems mark items) : ∃ item ∈ items, line = item ∨ line = item ++ mark := by
  induction items with
  | nil => exact nomatch h
  | cons item items ih =>
    cases items with
    | nil => exact ⟨item, List.mem_cons_self, .inl (List.mem_singleton.1 h)⟩
    | cons next items =>
      rcases List.mem_cons.1 h with hline | h
      · exact ⟨item, List.mem_cons_self, .inr hline⟩
      · obtain ⟨item', hitem', hline⟩ := ih h
        exact ⟨item', List.mem_cons_of_mem _ hitem', hline⟩

/-- The lines under a header. -/
theorem Block.mem_lines {b : Block} {line : String} (h : line ∈ b.lines) :
    line = b.header ∨ ∃ item ∈ b.items,
      line = "\t" ++ item ∨ line = "\t" ++ (item ++ Block.markOf b.header) := by
  rcases List.mem_cons.1 h with rfl | h
  · exact .inl rfl
  · obtain ⟨marked, hmarked, rfl⟩ := List.mem_map.1 h
    obtain ⟨item, hitem, heq⟩ := mem_markedItems hmarked
    exact .inr ⟨item, hitem, heq.imp (congrArg ("\t" ++ ·)) (congrArg ("\t" ++ ·))⟩

/-- There are two marks. -/
theorem Block.markOf_eq (header : String) :
    Block.markOf header = "," ∨ Block.markOf header = " AND" := by
  rw [Block.markOf]
  split
  · exact .inr rfl
  · exact .inl rfl

/-- Every line of proper blocks is on one line. -/
theorem Block.IsProper.line_of_mem_lines {b : Block} (hb : b.IsProper) {line : String}
    (h : line ∈ b.lines) : '\n' ∉ line.toList := by
  -- the header, or an item with a tab in front and perhaps a mark behind
  rcases Block.mem_lines h with rfl | ⟨item, hitem, rfl | rfl⟩
  · exact hb.header_line
  · simpa using hb.items_line item hitem
  · have hmark : '\n' ∉ (Block.markOf b.header).toList := by
      rcases Block.markOf_eq b.header with hmark | hmark <;> rw [hmark] <;> decide
    simp [hb.items_line item hitem, hmark]

/-- The lines of a body that is put together of lines. -/
theorem splitOn_intercalate_lines {lines : List String} (hne : lines ≠ [])
    (h : ∀ line ∈ lines, '\n' ∉ line.toList) :
    ("\n".intercalate lines).toList.splitOn '\n' = lines.map String.toList := by
  rw [String.toList_intercalate]
  refine List.splitOn_intercalate '\n' ?_ (by simpa using hne)
  intro cs hcs
  obtain ⟨line, hline, rfl⟩ := List.mem_map.1 hcs
  exact h line hline

/-- A header is told by its first character. -/
theorem gather_header {header : List Char} (h : header.head? ≠ some '\t')
    (lines : List (List Char)) :
    gather (header :: lines) = ([], (header, (gather lines).1) :: (gather lines).2) := by
  rw [gather]
  intro item hitem
  rw [hitem] at h
  exact h rfl

/-- Items are told by their tabs. -/
theorem gather_items (items lines : List (List Char)) :
    gather (items.map ('\t' :: ·) ++ lines) = (items ++ (gather lines).1, (gather lines).2) := by
  induction items with
  | nil => rfl
  | cons item items ih => rw [List.map_cons, List.cons_append, gather, ih, List.cons_append]

/-- The headers and items among the lines of proper blocks. -/
theorem gather_lines {blocks : List Block} (h : ∀ b ∈ blocks, b.IsProper) :
    gather ((blocks.flatMap Block.lines).map String.toList) =
      ([], blocks.map fun b =>
        (b.header.toList, (markedItems (Block.markOf b.header) b.items).map String.toList)) := by
  induction blocks with
  | nil => rfl
  | cons b blocks ih =>
    obtain ⟨hb, hblocks⟩ := List.forall_mem_cons.1 h
    have hitems (items : List String) : (items.map ("\t" ++ ·)).map String.toList =
        (items.map String.toList).map ('\t' :: ·) := by
      simp
    -- the items of the first header end where the lines end or the next header comes
    rw [List.flatMap_cons, List.map_append, Block.lines, List.map_cons, List.cons_append,
      gather_header hb.header_head, hitems, gather_items, ih hblocks, List.append_nil,
      List.map_cons]

/-- Marks are taken off again. -/
theorem unmark?_markedItems (mark : String) (items : List String) :
    unmark? mark.toList ((markedItems mark items).map String.toList) =
      some (items.map String.toList) := by
  induction items with
  | nil => rfl
  | cons item items ih =>
    cases items with
    | nil => rfl
    | cons next items =>
      have hdrop : (item ++ mark).toList.dropSuffix? mark.toList = some item.toList := by
        rw [List.dropSuffix?_eq_some_iff]
        exact ⟨mark.toList, String.toList_append, beq_self_eq_true _⟩
      -- only an item that another line follows has a mark to take off
      obtain ⟨line, lines, hlines⟩ := exists_markedItems_cons mark next items
      rw [hlines, List.map_cons] at ih
      rw [markedItems, hlines, List.map_cons, List.map_cons, unmark?, hdrop, ih]
      rfl

/-- A header with its items is read back. -/
theorem Block.ofLines?_lines (b : Block) :
    Block.ofLines? (b.header.toList,
      (markedItems (Block.markOf b.header) b.items).map String.toList) = some b := by
  have hitems : (b.items.map String.toList).map String.ofList = b.items := by
    simp [Function.comp_def]
  simp only [Block.ofLines?, String.ofList_toList, unmark?_markedItems, Option.bind_eq_bind,
    Option.bind_some, hitems, Option.pure_def]

/-- The lines of every block are read as the block. -/
theorem mapM_ofLines? (blocks : List Block) :
    (blocks.map fun b => (b.header.toList,
      (markedItems (Block.markOf b.header) b.items).map String.toList)).mapM Block.ofLines? =
        some blocks := by
  induction blocks with
  | nil => rfl
  | cons b blocks ih =>
    rw [List.map_cons, List.mapM_cons, Block.ofLines?_lines, ih]
    rfl

/-- What is read of a text that is made of proper blocks. -/
theorem blocksOf?_lines {blocks : List Block} (hne : blocks ≠ []) (h : ∀ b ∈ blocks, b.IsProper) :
    blocksOf? ("\n".intercalate (blocks.flatMap Block.lines) ++ ";") = some blocks := by
  -- the semicolon is the last character, whatever the last line is
  have hdrop : ("\n".intercalate (blocks.flatMap Block.lines) ++ ";").toList.dropSuffix? [';'] =
      some ("\n".intercalate (blocks.flatMap Block.lines)).toList := by
    rw [List.dropSuffix?_eq_some_iff]
    exact ⟨[';'], String.toList_append, beq_self_eq_true _⟩
  have hlines : blocks.flatMap Block.lines ≠ [] := by
    obtain ⟨b, blocks, rfl⟩ := List.exists_cons_of_ne_nil hne
    simp [Block.lines]
  have hline : ∀ line ∈ blocks.flatMap Block.lines, '\n' ∉ line.toList := by
    intro line hmem
    obtain ⟨b, hb, hmem⟩ := List.mem_flatMap.1 hmem
    exact (h b hb).line_of_mem_lines hmem
  simp only [blocksOf?, hdrop, Option.bind_eq_bind, Option.bind_some,
    splitOn_intercalate_lines hlines hline, gather_lines h]
  exact mapM_ofLines? blocks

/-! ## Statements -/

/-- A header of its own has all the items under it. -/
theorem mem_optionalBlock {header : String} {items : Option (List String)} {b : Block}
    (h : b ∈ optionalBlock header items) : b = ⟨header, items.getD []⟩ := by
  match items with
  | none | some [] => exact nomatch h
  | some (item :: items) => exact List.mem_singleton.1 h

/-- The only block that a limit makes is its line. -/
theorem mem_limitBlock {limit : Option UInt64} {b : Block} (h : b ∈ limitBlock limit) :
    ∃ n, b = ⟨"LIMIT " ++ Decimal.natText n, []⟩ := by
  cases limit with
  | none => exact nomatch h
  | some n => exact ⟨n.toNat, List.mem_singleton.1 h⟩

/-- The header of a limit is no header of items. -/
theorem limitHeader_ne {header : String} (h : header.toList.head? ≠ some 'L') (n : Nat) :
    "LIMIT " ++ Decimal.natText n ≠ header := by
  rintro rfl
  simp at h

/-- What the blocks of a statement are. -/
theorem Statement.mem_blocks {s : Statement} {b : Block} (h : b ∈ s.blocks) :
    b ∈ [⟨"SELECT", s.columns⟩, ⟨"FROM", s.sources⟩, ⟨"WHERE", s.conditions.getD []⟩,
      ⟨"GROUP BY", s.groups.getD []⟩, ⟨"ORDER BY", s.order.getD []⟩] ∨
      ∃ n, b = ⟨"LIMIT " ++ Decimal.natText n, []⟩ := by
  simp only [Statement.blocks, List.mem_append] at h
  rcases h with (((h | h) | h) | h) | h
  · exact .inl (List.mem_append_left [_, _, _] h)
  · exact .inl (by simp [mem_optionalBlock h])
  · exact .inl (by simp [mem_optionalBlock h])
  · exact .inl (by simp [mem_optionalBlock h])
  · exact .inr (mem_limitBlock h)

/-- The items under the headers of a statement are its items. -/
theorem Statement.items_subset_of_mem_blocks {s : Statement} {b : Block} (h : b ∈ s.blocks) :
    b.items ⊆ s.items := by
  rcases Statement.mem_blocks h with h | ⟨n, rfl⟩
  · intro item hitem
    simp only [List.mem_cons, List.not_mem_nil, or_false] at h
    simp only [Statement.items, List.mem_append]
    rcases h with rfl | rfl | rfl | rfl | rfl <;> simp [hitem]
  · exact List.nil_subset _

/-- The headers of a statement are on one line and not indented. -/
theorem Statement.header_of_mem_blocks {s : Statement} {b : Block} (h : b ∈ s.blocks) :
    b.header.toList.head? ≠ some '\t' ∧ '\n' ∉ b.header.toList := by
  rcases Statement.mem_blocks h with h | ⟨n, rfl⟩
  -- one of the five keywords, or a limit with its digits
  · have hkeyword : ∀ header ∈ ["SELECT", "FROM", "WHERE", "GROUP BY", "ORDER BY"],
        header.toList.head? ≠ some '\t' ∧ '\n' ∉ header.toList := by decide
    exact hkeyword b.header (List.mem_map_of_mem h)
  · refine ⟨by simp, ?_⟩
    simpa using Decimal.newLine_notMem_natText n

/-- The blocks of a statement whose items are on one line are proper. -/
theorem Statement.isProper_of_mem_blocks {s : Statement}
    (h : ∀ item ∈ s.items, '\n' ∉ item.toList) : ∀ b ∈ s.blocks, b.IsProper := by
  intro b hb
  obtain ⟨hhead, hline⟩ := Statement.header_of_mem_blocks hb
  exact ⟨hhead, hline, fun item hitem => h item (Statement.items_subset_of_mem_blocks hb hitem)⟩

/-- Items are taken if there are any, and otherwise what follows has another header. -/
theorem takeItems_optionalBlock {header : String} {items : Option (List String)}
    {blocks : List Block} (h : ∀ b ∈ blocks, b.header ≠ header) :
    takeItems header (optionalBlock header items ++ blocks) = (itemsIfAny items, blocks) := by
  rw [optionalBlock]
  cases itemsIfAny items with
  | some items => exact if_pos rfl
  | none =>
    cases blocks with
    | nil => rfl
    | cons b blocks => exact if_neg (h b List.mem_cons_self)

/-- The limit is read back. -/
theorem limitOf?_limitBlock (n : UInt64) :
    limitOf? ⟨"LIMIT " ++ Decimal.natText n.toNat, []⟩ = some n := by
  have hdrop : ("LIMIT " ++ Decimal.natText n.toNat).toList.dropPrefix? "LIMIT ".toList =
      some (Decimal.digits n.toNat) := by
    rw [String.toList_append, Decimal.natText_toList]
    exact List.dropPrefix?_append_of_beq _ (beq_self_eq_true "LIMIT ".toList)
  simp only [limitOf?, hdrop, Decimal.numeral?_digits, Option.bind_eq_bind, Option.bind_some,
    UInt64.toNat_lt_size, and_self, if_true, UInt64.ofNat_toNat]

/-- The sections of a statement tell the statement, but not whether a list is empty or absent. -/
theorem Statement.ofBlocks?_blocks (s : Statement) :
    Statement.ofBlocks? s.blocks = some s.withoutEmpty := by
  -- no header is taken for another: the keywords differ, and a limit begins with another letter
  have hlimit {header : String} (hheader : header.toList.head? ≠ some 'L') :
      ∀ b ∈ limitBlock s.limit, b.header ≠ header := by
    intro b hb
    obtain ⟨n, rfl⟩ := mem_limitBlock hb
    exact limitHeader_ne hheader n
  have hoptional {header header' : String} (hheader : header' ≠ header)
      (items : Option (List String)) : ∀ b ∈ optionalBlock header' items, b.header ≠ header := by
    intro b hb
    rw [mem_optionalBlock hb]
    exact hheader
  -- each of the three lists is followed only by headers that come after its own
  have horder : takeItems "ORDER BY" (optionalBlock "ORDER BY" s.order ++ limitBlock s.limit) =
      (itemsIfAny s.order, limitBlock s.limit) :=
    takeItems_optionalBlock (hlimit (by decide))
  have hgroups : takeItems "GROUP BY" (optionalBlock "GROUP BY" s.groups ++
      (optionalBlock "ORDER BY" s.order ++ limitBlock s.limit)) =
      (itemsIfAny s.groups, optionalBlock "ORDER BY" s.order ++ limitBlock s.limit) :=
    takeItems_optionalBlock (List.forall_mem_append.2
      ⟨hoptional (by decide) s.order, hlimit (by decide)⟩)
  have hconditions : takeItems "WHERE" (optionalBlock "WHERE" s.conditions ++
      (optionalBlock "GROUP BY" s.groups ++
        (optionalBlock "ORDER BY" s.order ++ limitBlock s.limit))) =
      (itemsIfAny s.conditions, optionalBlock "GROUP BY" s.groups ++
        (optionalBlock "ORDER BY" s.order ++ limitBlock s.limit)) :=
    takeItems_optionalBlock (List.forall_mem_append.2 ⟨hoptional (by decide) s.groups,
      List.forall_mem_append.2 ⟨hoptional (by decide) s.order, hlimit (by decide)⟩⟩)
  rw [Statement.blocks, List.append_assoc, List.append_assoc, List.append_assoc, List.cons_append,
    List.cons_append, List.nil_append, Statement.ofBlocks?, hconditions]
  simp only [hgroups, horder]
  rcases s with ⟨columns, sources, conditions, groups, order, _ | n⟩
  · rfl
  · exact congrArg (Option.map _) (limitOf?_limitBlock n)

/-- The headers and items that are read are those of the statement. -/
theorem Statement.blocksOf?_text {s : Statement} (h : ∀ item ∈ s.items, '\n' ∉ item.toList) :
    blocksOf? s.text = some s.blocks := by
  rw [Statement.text_eq]
  exact blocksOf?_lines (List.cons_ne_nil _ _) (Statement.isProper_of_mem_blocks h)

/-! ## Ends of lines -/

/-- The line has a last character, and it is not blank. -/
def EndsInInk (line : List Char) : Prop := ∃ c ∈ line.getLast?, Text.isBlank c = false

instance (line : List Char) : Decidable (EndsInInk line) :=
  decidable_of_iff (line.getLast?.any (!Text.isBlank ·) = true)
    (by simp [EndsInInk, Option.any_eq_true])

/-- What stands before a line does not change how it ends. -/
theorem endsInInk_append {line rest : List Char} (h : EndsInInk rest) :
    EndsInInk (line ++ rest) := by
  obtain ⟨c, hc, hink⟩ := h
  refine ⟨c, ?_, hink⟩
  rw [List.getLast?_append, hc]
  rfl

/-- Digits are not blank. -/
theorem endsInInk_digits (n : Nat) : EndsInInk (Decimal.digits n) := by
  have hne : Decimal.digits n ≠ [] := Nat.toDigits_ne_nil
  refine ⟨_, List.getLast?_eq_some_getLast hne, ?_⟩
  exact Text.isBlank_of_isDigit (Decimal.isDigit_of_mem_digits (List.getLast_mem hne))

/-- The headers of a statement end in ink. -/
theorem Statement.endsInInk_header_of_mem_blocks {s : Statement} {b : Block} (h : b ∈ s.blocks) :
    EndsInInk b.header.toList := by
  rcases Statement.mem_blocks h with h | ⟨n, rfl⟩
  · have hkeyword : ∀ header ∈ ["SELECT", "FROM", "WHERE", "GROUP BY", "ORDER BY"],
        EndsInInk header.toList := by decide
    exact hkeyword b.header (List.mem_map_of_mem h)
  · rw [String.toList_append, Decimal.natText_toList]
    exact endsInInk_append (endsInInk_digits n)

/-- If all items of a statement end in ink, then so do all its lines. -/
theorem Statement.endsInInk_of_mem_lines {s : Statement}
    (h : ∀ item ∈ s.items, EndsInInk item.toList) {line : String}
    (hline : line ∈ s.blocks.flatMap Block.lines) : EndsInInk line.toList := by
  obtain ⟨b, hb, hline⟩ := List.mem_flatMap.1 hline
  -- a line ends as its header, its item or its mark does
  rcases Block.mem_lines hline with rfl | ⟨item, hitem, rfl | rfl⟩
  · exact Statement.endsInInk_header_of_mem_blocks hb
  · rw [String.toList_append]
    exact endsInInk_append (h item (Statement.items_subset_of_mem_blocks hb hitem))
  · have hmark : EndsInInk (Block.markOf b.header).toList := by
      rcases Block.markOf_eq b.header with hmark | hmark <;> rw [hmark] <;> decide
    rw [String.toList_append, String.toList_append]
    exact endsInInk_append (endsInInk_append hmark)

/-- The lines of a statement's text are those of its blocks, with a semicolon behind the last. -/
theorem Statement.splitOn_text {s : Statement} (h : ∀ item ∈ s.items, '\n' ∉ item.toList) :
    ∃ lines last, s.blocks.flatMap Block.lines = lines ++ [last] ∧
      s.text.toList.splitOn '\n' = (lines ++ [last ++ ";"]).map String.toList := by
  obtain ⟨lines, last, hlines⟩ : ∃ lines last, s.blocks.flatMap Block.lines = lines ++ [last] :=
    (List.eq_nil_or_concat' _).resolve_left (List.cons_ne_nil _ _)
  have hline : ∀ line ∈ lines ++ [last], '\n' ∉ line.toList := by
    intro line hmem
    obtain ⟨b, hb, hmem⟩ := List.mem_flatMap.1 (hlines ▸ hmem)
    exact (Statement.isProper_of_mem_blocks h b hb).line_of_mem_lines hmem
  obtain ⟨hbefore, hlast⟩ := List.forall_mem_append.1 hline
  refine ⟨lines, last, hlines, ?_⟩
  rw [Statement.text_eq, hlines, intercalate_concat_append]
  refine splitOn_intercalate_lines (by simp) (List.forall_mem_append.2 ⟨hbefore, ?_⟩)
  intro line hmem
  rw [List.mem_singleton.1 hmem]
  simpa using hlast last List.mem_cons_self

/-- Neither do the lines of the text end in a blank, if no item does. -/
theorem Statement.endsInInk_of_mem_splitOn_text {s : Statement}
    (h : ∀ item ∈ s.items, '\n' ∉ item.toList) (hink : ∀ item ∈ s.items, EndsInInk item.toList) :
    ∀ line ∈ s.text.toList.splitOn '\n', EndsInInk line := by
  obtain ⟨lines, last, hlines, hsplit⟩ := Statement.splitOn_text h
  intro line hmem
  rw [hsplit] at hmem
  obtain ⟨text, htext, rfl⟩ := List.mem_map.1 hmem
  rcases List.mem_append.1 htext with htext | htext
  · exact Statement.endsInInk_of_mem_lines hink (hlines ▸ List.mem_append_left [last] htext)
  · rw [List.mem_singleton.1 htext, String.toList_append]
    exact endsInInk_append (by decide)

/-! ## Reading back -/

/-- Lists that are there and empty have the same headers as absent ones, which is none. -/
theorem Statement.blocks_withoutEmpty (s : Statement) : s.withoutEmpty.blocks = s.blocks := by
  have hoptional (header : String) (items : Option (List String)) :
      optionalBlock header (itemsIfAny items) = optionalBlock header items := by
    match items with
    | none | some [] | some (_ :: _) => rfl
  simp only [Statement.blocks, Statement.withoutEmpty, hoptional]

/-- The text of a statement tells the statement, but not whether a list is empty or absent. -/
theorem Statement.ofText?_text {s : Statement} (h : ∀ item ∈ s.items, '\n' ∉ item.toList) :
    Statement.ofText? s.text = some s.withoutEmpty := by
  rw [Statement.ofText?, Statement.blocksOf?_text h, Option.bind_some, Statement.ofBlocks?_blocks]

/-- Statements have the same text iff they are the same but for lists that are empty in one of them
and absent in the other. -/
theorem Statement.text_eq_iff {s t : Statement} (hs : ∀ item ∈ s.items, '\n' ∉ item.toList)
    (ht : ∀ item ∈ t.items, '\n' ∉ item.toList) :
    t.text = s.text ↔ t.withoutEmpty = s.withoutEmpty := by
  constructor
  -- both are read back from the text that they share
  · intro htext
    have hread := Statement.ofText?_text ht
    rw [htext, Statement.ofText?_text hs] at hread
    exact (Option.some.inj hread).symm
  · intro hsame
    rw [Statement.text_eq, Statement.text_eq, ← t.blocks_withoutEmpty, hsame, s.blocks_withoutEmpty]

/-- The layout hides nothing, for all lists of items on one line, whether or not the last three are
there, and every limit.  The headers come in order, none for a list that is empty or absent, and
with the items under them they tell the lists and the limit; an empty list and an absent one are the
same here, and nothing else is.  No line ends in a blank if no item does. -/
theorem Statement.layout_reads_back (s : Statement) (h : ∀ item ∈ s.items, '\n' ∉ item.toList) :
    blocksOf? s.text = some s.blocks ∧ Statement.ofText? s.text = some s.withoutEmpty ∧
      (∀ t : Statement, (∀ item ∈ t.items, '\n' ∉ item.toList) →
        (t.text = s.text ↔ t.withoutEmpty = s.withoutEmpty)) ∧
      ((∀ item ∈ s.items, EndsInInk item.toList) →
        ∀ line ∈ s.text.toList.splitOn '\n', EndsInInk line) :=
  ⟨Statement.blocksOf?_text h, Statement.ofText?_text h, fun _ => Statement.text_eq_iff h,
    Statement.endsInInk_of_mem_splitOn_text h⟩

/-- Items that look like headers or like the end of a statement, or that end with a mark. -/
theorem Statement.layout_reads_back_of_marks :
    let s : Statement :=
      ⟨["WHERE", "a,"], [";"], some ["b AND", "LIMIT 3"], none, some [], some 5⟩
    s.text = "SELECT\n\tWHERE,\n\ta,\nFROM\n\t;\nWHERE\n\tb AND AND\n\tLIMIT 3\nLIMIT 5;" ∧
      blocksOf? s.text = some [⟨"SELECT", ["WHERE", "a,"]⟩, ⟨"FROM", [";"]⟩,
        ⟨"WHERE", ["b AND", "LIMIT 3"]⟩, ⟨"LIMIT 5", []⟩] ∧
      Statement.ofText? s.text = some { s with order := none } ∧
      ({ s with groups := some [] } : Statement).text = s.text ∧
      ∀ line ∈ s.text.toList.splitOn '\n', EndsInInk line := by
  intro s
  obtain ⟨hblocks, hread, hsame, hink⟩ := Statement.layout_reads_back s (by decide)
  exact ⟨by decide +kernel, hblocks, hread, (hsame _ (by decide)).2 rfl, hink (by decide)⟩

end Dashboards
