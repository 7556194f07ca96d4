import Dashboards.Yaml.Token.Scalar
import Mathlib.Data.List.Infix

/-!
# Line folding between quotes

A JSON string escapes tabs, line feeds and carriage returns, so that of the characters that separate
the words of a quoted scalar only spaces and three kinds of line breaks stand in it as they are.
Here is what such a text is read as, `reread?`, and which texts are read as they are.

A gap of spaces counts as it is.  If there is a break in it, its spaces are lost, the break of next
line becomes a line feed, and a single one becomes a space.  A word after a break that looks like
the border of a document ends the reading.

## Key results

- `reread?_eq_some_self_iff`: the texts that are read as they are
-/

namespace Dashboards.Yaml

/-! ## Gaps -/

/-- Whether the character separates words of a quoted scalar where JSON does not escape it. -/
def isGapChar (c : Char) : Bool := c == ' ' || c == '\u0085' || c == '\u2028' || c == '\u2029'

/-- What a break counts as in a scalar. -/
def breakText (c : Char) : List Char := if c = '\u0085' then ['\n'] else [c]

/-- What spaces and breaks between two words count for. -/
def gapText (gap : List Char) : List Char :=
  match gap.filter (· ≠ ' ') with
  | [] => gap
  | b :: bs => foldBreaks (breakText b) (bs.flatMap breakText)

/-- The gap with one more character. -/
def Gap.add (g : Gap) (c : Char) : Gap :=
  if c = ' ' then (if g.isBroken then g else { g with blanks := g.blanks ++ [c] })
  else g.addBreak (breakText c)

/-- After the first break of a gap only its further breaks count. -/
theorem foldl_add_of_isBroken (gap : List Char) (g : Gap) (hg : g.isBroken = true) :
    gap.foldl Gap.add g =
      { g with further := g.further ++ (gap.filter (· ≠ ' ')).flatMap breakText } := by
  -- induction on the gap, which stays broken once it is
  induction gap generalizing g with
  | nil => simp
  | cons c gap ih =>
    by_cases hc : c = ' '
    · simp [Gap.add, hc, hg, ih g hg]
    · have hadd : g.add c = { g with further := g.further ++ breakText c } := by
        simp [Gap.add, hc, Gap.addBreak, hg]
      rw [List.foldl_cons, hadd, ih { g with further := g.further ++ breakText c } hg]
      simp [hc]

/-- The text of a gap after some blanks, which are forgotten at its first break. -/
theorem text_foldl_add_blanks (gap blanks : List Char) :
    (gap.foldl Gap.add { blanks := blanks }).text =
      match gap.filter (· ≠ ' ') with
      | [] => blanks ++ gap
      | b :: bs => foldBreaks (breakText b) (bs.flatMap breakText) := by
  induction gap generalizing blanks with
  | nil => simp [Gap.text]
  | cons c gap ih =>
    by_cases hc : c = ' '
    · simp only [List.foldl_cons, Gap.add, hc, if_true, Bool.false_eq_true, if_false, ih]
      simp
    · have hfirst : Gap.add { blanks := blanks } c =
          { first := breakText c, isBroken := true } := by
        simp [Gap.add, hc, Gap.addBreak]
      rw [List.foldl_cons, hfirst, foldl_add_of_isBroken gap _ rfl]
      simp [Gap.text, hc]

/-- A gap counts for what its characters count for. -/
theorem text_foldl_add (gap : List Char) : (gap.foldl Gap.add {}).text = gapText gap :=
  text_foldl_add_blanks gap []

/-! ## Texts -/

/-- Whether three characters of a kind with a gap after them stand at the front. -/
def marks (m : Char) (cs : List Char) : Bool :=
  cs.take 3 == [m, m, m] && (cs.drop 3).head?.any isGapChar

/-- Whether the front looks like the border of a document at the start of a line. -/
def looksLikeBorder (cs : List Char) : Bool := marks '-' cs || marks '.' cs

/-- What the characters of a text are read as between double quotes after a gap, `none` if they
cannot be read. -/
def reread? (gap : List Char) : List Char → Option (List Char)
  | [] => some (gapText gap)
  | c :: cs =>
    if isGapChar c then reread? (gap ++ [c]) cs
    else if gap.getLast?.any isBreak && looksLikeBorder (c :: cs) then none
    else (reread? [] cs).map fun text => gapText gap ++ c :: text

example : reread? [] "a \u2028 b\u0085c d".toList = some "a\u2028b c d".toList := by decide +kernel
example : reread? [] "a\u2028--- b".toList = none := by decide +kernel

/-- Every text starts with a word or a gap, which may be empty and goes as far as it can. -/
theorem exists_eq_front_append (isGap : Bool) (cs : List Char) :
    ∃ front back, cs = front ++ back ∧ (∀ c ∈ front, isGapChar c = isGap) ∧
      ∀ c ∈ back.head?, isGapChar c = !isGap := by
  induction cs with
  | nil => exact ⟨[], [], rfl, by simp, by simp⟩
  | cons c cs ih =>
    by_cases hc : isGapChar c = isGap
    · obtain ⟨front, back, rfl, hfront, hback⟩ := ih
      exact ⟨c :: front, back, rfl, List.forall_mem_cons.2 ⟨hc, hfront⟩, hback⟩
    · exact ⟨[], c :: cs, rfl, by simp, by simpa [Bool.eq_not] using hc⟩

/-- The characters of a word are read as they are. -/
theorem reread?_word {word : List Char} (hword : ∀ c ∈ word, isGapChar c = false)
    (cs : List Char) : reread? [] (word ++ cs) = (reread? [] cs).map (word ++ ·) := by
  induction word with
  | nil => simp
  | cons c word ih =>
    have ih := ih fun c' hc' => hword c' (List.mem_cons_of_mem c hc')
    rw [List.cons_append, reread?, hword c List.mem_cons_self, ih]
    cases reread? [] cs <;> rfl

/-- A gap is read as a whole. -/
theorem reread?_gap {more : List Char} (hmore : ∀ c ∈ more, isGapChar c = true)
    (gap cs : List Char) : reread? gap (more ++ cs) = reread? (gap ++ more) cs := by
  induction more generalizing gap with
  | nil => simp
  | cons c more ih =>
    have ih := ih fun c' hc' => hmore c' (List.mem_cons_of_mem c hc')
    rw [List.cons_append, reread?, if_pos (hmore c List.mem_cons_self), ih, List.append_assoc,
      List.singleton_append]

/-- Where a gap has ended, what follows may be a border, and otherwise is read by itself. -/
theorem reread?_of_head {cs : List Char} (hcs : ∀ c ∈ cs.head?, isGapChar c = false)
    (gap : List Char) :
    reread? gap cs = if gap.getLast?.any isBreak && looksLikeBorder cs then none
      else (reread? [] cs).map (gapText gap ++ ·) := by
  cases cs with
  | nil =>
    have hnone : looksLikeBorder [] = false := by decide
    simp [reread?, hnone, gapText]
  | cons c cs =>
    rw [reread?, hcs c rfl, if_neg Bool.false_ne_true]
    split
    · rfl
    · rw [reread?, hcs c rfl]
      cases reread? [] cs <;> rfl

/-! ## What is read as it is -/

/-- The breaks that a text may keep. -/
def keptBreaks : List Char := ['\u2028', '\u2029']

/-- Nothing in a text is changed by line folding: it has no next line, no space beside a break, and
no mark of a border after a break. -/
structure IsUnfolded (cs : List Char) : Prop where
  noNextLine : '\u0085' ∉ cs
  noSpaceBefore : ∀ b ∈ keptBreaks, ¬ [' ', b] <:+: cs
  noSpaceAfter : ∀ b ∈ keptBreaks, ¬ [b, ' '] <:+: cs
  noBorder : ∀ b ∈ keptBreaks, ∀ m ∈ ['-', '.'], ∀ d ∈ ' ' :: keptBreaks,
    ¬ [b, m, m, m, d] <:+: cs

/-- Nothing is changed in a part of a text in which nothing is. -/
theorem IsUnfolded.of_infix {part cs : List Char} (h : IsUnfolded cs) (hpart : part <:+: cs) :
    IsUnfolded part where
  noNextLine hmem := h.noNextLine (hpart.subset hmem)
  noSpaceBefore b hb hin := h.noSpaceBefore b hb (hin.trans hpart)
  noSpaceAfter b hb hin := h.noSpaceAfter b hb (hin.trans hpart)
  noBorder b hb m hm d hd hin := h.noBorder b hb m hm d hd (hin.trans hpart)

/-- The characters of gaps: the space, the next line, and the breaks that a text may keep. -/
theorem isGapChar_iff {c : Char} :
    isGapChar c = true ↔ c = ' ' ∨ c = '\u0085' ∨ c ∈ keptBreaks := by
  simp [isGapChar, keptBreaks, or_assoc]

/-- What holds of the four characters of gaps holds of each of them. -/
theorem forall_isGapChar {p : Char → Prop} (h : p ' ' ∧ p '\u0085' ∧ p '\u2028' ∧ p '\u2029')
    {c : Char} (hc : isGapChar c = true) : p c := by
  obtain ⟨hspace, hnext, hline, hparagraph⟩ := h
  rcases isGapChar_iff.1 hc with rfl | rfl | hc
  · exact hspace
  · exact hnext
  · rcases List.mem_pair.1 hc with rfl | rfl
    · exact hline
    · exact hparagraph

/-- The characters of gaps are breaks but for the space. -/
theorem isBreak_iff_of_isGapChar {c : Char} (h : isGapChar c = true) :
    isBreak c = true ↔ c ≠ ' ' :=
  forall_isGapChar (p := fun c => isBreak c = true ↔ c ≠ ' ') (by decide) h

/-- Each break counts as one character. -/
theorem length_flatMap_breakText (bs : List Char) : (bs.flatMap breakText).length = bs.length := by
  have hone : ∀ c, (breakText c).length = 1 := fun c => by
    rw [breakText]
    split <;> rfl
  simp [List.length_flatMap, hone]

/-- No break counts as a next line. -/
theorem nextLine_notMem_breakText (bs : List Char) : '\u0085' ∉ bs.flatMap breakText := by
  intro h
  obtain ⟨c, -, hc⟩ := List.mem_flatMap.1 h
  rw [breakText] at hc
  split at hc
  · exact absurd hc (by decide)
  next hne => exact hne (List.mem_singleton.1 hc).symm

/-- A gap does not grow. -/
theorem length_gapText_le (gap : List Char) : (gapText gap).length ≤ gap.length := by
  have hfilter := List.length_filter_le (fun c => decide (c ≠ ' ')) gap
  have hfirst : ∀ c, (breakText c).length = 1 := fun c => by
    simpa using length_flatMap_breakText [c]
  rw [gapText]
  split
  next => exact le_rfl
  next b bs heq =>
    rw [heq, List.length_cons] at hfilter
    rw [foldBreaks]
    split
    · split
      · rw [List.length_singleton]
        omega
      · rw [length_flatMap_breakText]
        omega
    · rw [List.length_append, hfirst, length_flatMap_breakText]
      omega

/-- A gap whose first break is a next line does not count as it is. -/
theorem gapText_ne_self_of_nextLine {gap bs : List Char}
    (heq : gap.filter (· ≠ ' ') = '\u0085' :: bs) : gapText gap ≠ gap := by
  have hmem : '\u0085' ∈ gap :=
    (List.mem_filter.1 (heq ▸ List.mem_cons_self : '\u0085' ∈ gap.filter (· ≠ ' '))).1
  -- the text of the gap has too few characters, or too few breaks
  have hlength : bs.length + 1 ≤ gap.length := by
    have hfilter := List.length_filter_le (fun c => decide (c ≠ ' ')) gap
    rwa [heq, List.length_cons] at hfilter
  have hfeed : breakText '\u0085' = ['\n'] := rfl
  intro h
  simp only [gapText, heq] at h
  rw [foldBreaks, hfeed, if_pos rfl] at h
  split at h
  · -- a single one is a space
    rw [← h] at hmem
    exact absurd hmem (by decide)
  · -- the first of several is dropped
    have hshort := congrArg List.length h
    rw [length_flatMap_breakText] at hshort
    omega

/-- The spaces of a gap with another first break are lost. -/
theorem gapText_of_keptBreak {gap bs : List Char} {b : Char} (hb : b ∈ keptBreaks)
    (heq : gap.filter (· ≠ ' ') = b :: bs) : gapText gap = b :: bs.flatMap breakText := by
  have hself : breakText b = [b] ∧ [b] ≠ ['\n'] := by
    rcases List.mem_pair.1 hb with rfl | rfl <;> decide
  simp only [gapText, heq]
  rw [foldBreaks, hself.1, if_neg hself.2, List.singleton_append]

/-- A gap counts as it is if it has no next line and not both spaces and breaks. -/
theorem gapText_eq_self_iff {gap : List Char} (hgap : ∀ c ∈ gap, isGapChar c = true) :
    gapText gap = gap ↔ '\u0085' ∉ gap ∧ ((∀ c ∈ gap, c = ' ') ∨ ∀ c ∈ gap, c ≠ ' ') := by
  cases heq : gap.filter (· ≠ ' ') with
  | nil =>
    have hspaces : ∀ c ∈ gap, c = ' ' := by simpa using heq
    refine iff_of_true (by simp only [gapText, heq]) ⟨fun h => ?_, .inl hspaces⟩
    exact absurd (hspaces _ h) (by decide)
  | cons b bs =>
    obtain ⟨hb, hspace⟩ : b ∈ gap ∧ b ≠ ' ' := by
      have hmem : b ∈ gap.filter (· ≠ ' ') := heq ▸ List.mem_cons_self
      simpa using List.mem_filter.1 hmem
    rcases isGapChar_iff.1 (hgap b hb) with rfl | rfl | hkept
    · exact absurd rfl hspace
    · exact iff_of_false (gapText_ne_self_of_nextLine heq) fun h => h.1 hb
    rw [gapText_of_keptBreak hkept heq]
    constructor
    case mp =>
      intro h
      -- nothing was lost, so that there is no space
      have hall : (gap.filter (· ≠ ' ')).length = gap.length := by
        rw [heq, ← h, List.length_cons, List.length_cons, length_flatMap_breakText]
      rw [List.length_filter_eq_length_iff] at hall
      refine ⟨fun hmem => ?_, .inr fun c hc => by simpa using hall c hc⟩
      rw [← h] at hmem
      rcases List.mem_cons.1 hmem with he | hmem
      · rw [← he] at hkept
        exact absurd hkept (by decide)
      · exact nextLine_notMem_breakText bs hmem
    case mpr =>
      rintro ⟨hnext, hspaces | hbreaks⟩
      · exact absurd (hspaces b hb) hspace
      · have hgapeq : gap = b :: bs := by
          rw [← heq, List.filter_eq_self.2 fun c hc => decide_eq_true (hbreaks c hc)]
        have hself : ∀ c ∈ bs, breakText c = [c] := by
          intro c hc
          rw [breakText, if_neg]
          rintro rfl
          exact hnext (hgapeq ▸ List.mem_cons_of_mem b hc)
        rw [List.flatMap_congr hself, hgapeq]
        exact congrArg (b :: ·) (List.flatMap_singleton' bs)

/-! ## Parts of a text -/

/-- What has nothing of a middle character in it lies on one side of it. -/
theorem infix_append_cons_iff {l as bs : List Char} {c : Char} (hc : c ∉ l) :
    l <:+: as ++ c :: bs ↔ l <:+: as ∨ l <:+: bs := by
  have hprefix : ∀ as, l <+: as ++ c :: bs ↔ l <+: as := by
    intro as
    refine ⟨fun h => ?_, fun h => h.trans (List.prefix_append _ _)⟩
    rcases le_or_gt l.length as.length with hle | hlt
    · exact List.prefix_of_prefix_length_le h (List.prefix_append _ _) hle
    · -- a longer one would reach the character
      have hreach : as ++ [c] <+: l := by
        refine List.prefix_of_prefix_length_le ⟨bs, by simp⟩ h ?_
        rw [List.length_append, List.length_singleton]
        omega
      exact absurd (hreach.subset (by simp)) hc
  induction as with
  | nil =>
    rw [List.nil_append, List.infix_cons_iff]
    refine or_congr ?_ Iff.rfl
    rw [← List.nil_append (c :: bs), hprefix []]
    simp
  | cons a as ih =>
    have hfront := hprefix (a :: as)
    rw [List.cons_append] at hfront ⊢
    rw [List.infix_cons_iff, List.infix_cons_iff, hfront, or_assoc]
    exact or_congr Iff.rfl ih

/-- A mark of a border after a break lies on one side of a character between words, or the gap
before it ends with the break. -/
theorem border_infix_append_cons_iff {gap bs : List Char} {c b m d : Char}
    (hgap : ∀ c ∈ gap, isGapChar c = true) (hc : isGapChar c = false) (hb : isGapChar b = true)
    (hm : isGapChar m = false) :
    [b, m, m, m, d] <:+: gap ++ c :: bs ↔
      (gap.getLast? = some b ∧ [m, m, m, d] <+: c :: bs) ∨ [b, m, m, m, d] <:+: bs := by
  induction gap with
  | nil =>
    have hbc : b ≠ c := by
      rintro rfl
      rw [hb] at hc
      exact nomatch hc
    simp [List.infix_cons_iff, List.cons_prefix_cons, hbc]
  | cons g gap ih =>
    have ih := ih fun c hc => hgap c (List.mem_cons_of_mem g hc)
    rw [List.cons_append, List.infix_cons_iff, ih, List.cons_prefix_cons]
    cases gap with
    | nil => simp [eq_comm]
    | cons h gap =>
      -- the gap goes on, where the mark would have to begin
      have hmh : m ≠ h := by
        rintro rfl
        rw [hgap m (by simp)] at hm
        exact nomatch hm
      simp [List.cons_prefix_cons, hmh]

/-- The front looks like a border if it is a mark with a gap after it. -/
theorem looksLikeBorder_iff {cs : List Char} :
    looksLikeBorder cs = true ↔
      ∃ m ∈ ['-', '.'], ∃ d, isGapChar d = true ∧ [m, m, m, d] <+: cs := by
  have hmarks : ∀ m, marks m cs = true ↔ ∃ d, isGapChar d = true ∧ [m, m, m, d] <+: cs := by
    intro m
    rw [marks, Bool.and_eq_true, beq_iff_eq, Option.any_eq_true]
    constructor
    case mp =>
      rintro ⟨htake, d, hd, hgap⟩
      refine ⟨d, hgap, ?_⟩
      obtain ⟨ds, hds⟩ := List.head?_eq_some_iff.1 hd
      rw [← List.take_append_drop 3 cs, htake, hds]
      exact ⟨ds, rfl⟩
    case mpr =>
      rintro ⟨d, hgap, ds, rfl⟩
      exact ⟨rfl, d, rfl, hgap⟩
  simp [looksLikeBorder, hmarks]

/-! ## Reading a text as it is -/

/-- The breaks that a text may keep are characters of gaps. -/
theorem isGapChar_of_mem_keptBreaks {b : Char} (h : b ∈ keptBreaks) : isGapChar b = true :=
  isGapChar_iff.2 (.inr (.inr h))

/-- The marks of borders are no characters of gaps. -/
theorem isGapChar_of_mem_markers {m : Char} (h : m ∈ ['-', '.']) : isGapChar m = false := by
  rcases List.mem_pair.1 h with rfl | rfl <;> decide

/-- An unfolded gap has not both spaces and breaks. -/
theorem IsUnfolded.spaces_or_breaks {gap : List Char} (h : IsUnfolded gap)
    (hgap : ∀ c ∈ gap, isGapChar c = true) : (∀ c ∈ gap, c = ' ') ∨ ∀ c ∈ gap, c ≠ ' ' := by
  induction gap with
  | nil => exact .inl (by simp)
  | cons g gap ih =>
    have hrest := ih (h.of_infix (List.suffix_cons g gap).isInfix)
      fun c hc => hgap c (List.mem_cons_of_mem g hc)
    have hkind : ∀ c ∈ g :: gap, c = ' ' ∨ c ∈ keptBreaks := by
      intro c hc
      rcases isGapChar_iff.1 (hgap c hc) with hc' | rfl | hc'
      · exact .inl hc'
      · exact absurd hc h.noNextLine
      · exact .inr hc'
    cases gap with
    | nil => simpa using em (g = ' ')
    | cons g' gap =>
      -- the first two characters are of one kind
      have hpair : [g, g'] <:+: g :: g' :: gap := ⟨[], gap, rfl⟩
      have hne : ∀ b ∈ keptBreaks, b ≠ ' ' := by
        intro b hb
        rcases List.mem_pair.1 hb with rfl | rfl <;> decide
      rcases hkind g (by simp) with rfl | hg <;> rcases hkind g' (by simp) with rfl | hg'
      · left
        intro c hc
        rcases List.mem_cons.1 hc with rfl | hc
        · rfl
        · exact hrest.resolve_right (fun hall => hall ' ' (by simp) rfl) c hc
      · exact absurd hpair (h.noSpaceBefore g' hg')
      · exact absurd hpair (h.noSpaceAfter g hg)
      · right
        intro c hc
        rcases List.mem_cons.1 hc with rfl | hc
        · exact hne c hg
        · exact hrest.resolve_left (fun hall => hne g' hg' (hall g' (by simp))) c hc

/-- A gap is kept if it counts as it is. -/
theorem isUnfolded_gap_iff {gap : List Char} (hgap : ∀ c ∈ gap, isGapChar c = true) :
    IsUnfolded gap ↔ gapText gap = gap := by
  rw [gapText_eq_self_iff hgap]
  constructor
  case mp => exact fun h => ⟨h.noNextLine, h.spaces_or_breaks hgap⟩
  case mpr =>
    rintro ⟨hnext, hkind⟩
    -- a space next to a break would be both
    have hpair : ∀ b ∈ keptBreaks, ¬ (' ' ∈ gap ∧ b ∈ gap) := by
      rintro b hb ⟨hspace, hbreak⟩
      rcases hkind with hall | hall
      · exact absurd (hall b hbreak ▸ hb) (by decide)
      · exact hall ' ' hspace rfl
    refine ⟨hnext, fun b hb h => hpair b hb ⟨?_, ?_⟩, fun b hb h => hpair b hb ⟨?_, ?_⟩,
      fun b _ m hm d _ h => ?_⟩
    · exact h.subset (by simp)
    · exact h.subset (by simp)
    · exact h.subset (by simp)
    · exact h.subset (by simp)
    · have hmem : m ∈ gap := h.subset (by simp)
      exact absurd (hgap m hmem) (by simp [isGapChar_of_mem_markers hm])

/-- In an unfolded text no word after a break looks like a border. -/
theorem IsUnfolded.not_looksLikeBorder {gap cs : List Char} {c : Char}
    (h : IsUnfolded (gap ++ c :: cs)) (hgap : ∀ c ∈ gap, isGapChar c = true)
    (hc : isGapChar c = false) :
    ¬ (gap.getLast?.any isBreak = true ∧ looksLikeBorder (c :: cs) = true) := by
  rintro ⟨hlast, hlooks⟩
  obtain ⟨b, hb, hbreak⟩ := (Option.any_eq_true _ _).1 hlast
  obtain ⟨m, hm, d, hd, hprefix⟩ := looksLikeBorder_iff.1 hlooks
  -- neither the break nor what follows the mark can be a next line
  have hbmem : b ∈ gap := List.mem_of_getLast? hb
  have hdmem : d ∈ c :: cs := hprefix.subset (by simp)
  have hbkept : b ∈ keptBreaks := by
    rcases isGapChar_iff.1 (hgap b hbmem) with rfl | rfl | hkept
    · exact absurd hbreak (by decide)
    · exact absurd (List.mem_append_left _ hbmem) h.noNextLine
    · exact hkept
  have hdkept : d ∈ ' ' :: keptBreaks := by
    rcases isGapChar_iff.1 hd with rfl | rfl | hkept
    · exact List.mem_cons_self
    · exact absurd (List.mem_append_right _ hdmem) h.noNextLine
    · exact List.mem_cons_of_mem _ hkept
  exact h.noBorder b hbkept m hm d hdkept ((border_infix_append_cons_iff hgap hc
    (isGapChar_of_mem_keptBreaks hbkept) (isGapChar_of_mem_markers hm)).2 (.inl ⟨hb, hprefix⟩))

/-- Words and gaps are kept one by one. -/
theorem isUnfolded_append_cons_iff {gap cs : List Char} {c : Char}
    (hgap : ∀ c ∈ gap, isGapChar c = true) (hc : isGapChar c = false) :
    IsUnfolded (gap ++ c :: cs) ↔ IsUnfolded gap ∧ IsUnfolded cs ∧
      ¬ (gap.getLast?.any isBreak = true ∧ looksLikeBorder (c :: cs) = true) := by
  -- a pair of gap characters lies on one side of the character between
  have hside : ∀ {a b : Char}, isGapChar a = true → isGapChar b = true → c ∉ [a, b] := by
    intro a b ha hb hmem
    rcases List.mem_pair.1 hmem with rfl | rfl
    · rw [ha] at hc
      exact nomatch hc
    · rw [hb] at hc
      exact nomatch hc
  have hspace : isGapChar ' ' = true := by decide
  constructor
  case mp =>
    intro h
    have hfront : gap <:+: gap ++ c :: cs := (List.prefix_append _ _).isInfix
    have hback : cs <:+: gap ++ c :: cs := ⟨gap ++ [c], [], by simp⟩
    exact ⟨h.of_infix hfront, h.of_infix hback, h.not_looksLikeBorder hgap hc⟩
  case mpr =>
    rintro ⟨⟨hnext₁, hbefore₁, hafter₁, -⟩, ⟨hnext₂, hbefore₂, hafter₂, hborder₂⟩, hlooks⟩
    refine ⟨fun h => ?_, fun b hb h => ?_, fun b hb h => ?_, fun b hb m hm d hd h => ?_⟩
    · rcases List.mem_append.1 h with h | h
      · exact hnext₁ h
      · rcases List.mem_cons.1 h with rfl | h
        · exact absurd hc (by decide)
        · exact hnext₂ h
    · rw [infix_append_cons_iff (hside hspace (isGapChar_of_mem_keptBreaks hb))] at h
      exact h.elim (hbefore₁ b hb) (hbefore₂ b hb)
    · rw [infix_append_cons_iff (hside (isGapChar_of_mem_keptBreaks hb) hspace)] at h
      exact h.elim (hafter₁ b hb) (hafter₂ b hb)
    -- a border lies behind the character, or begins with it after a break
    · have hbgap := isGapChar_of_mem_keptBreaks hb
      rw [border_infix_append_cons_iff hgap hc hbgap (isGapChar_of_mem_markers hm)] at h
      rcases h with ⟨hlast, hprefix⟩ | h
      · refine hlooks ⟨(Option.any_eq_true _ _).2 ⟨b, hlast, ?_⟩,
          looksLikeBorder_iff.2 ⟨m, hm, d, ?_, hprefix⟩⟩
        · rw [isBreak_iff_of_isGapChar hbgap]
          rintro rfl
          exact absurd hb (by decide)
        · rcases List.mem_cons.1 hd with rfl | hd
          · exact hspace
          · exact isGapChar_of_mem_keptBreaks hd
      · exact hborder₂ b hb m hm d hd h

/-- What is read is not longer than what is written. -/
theorem length_le_of_reread? {gap cs text : List Char} (h : reread? gap cs = some text) :
    text.length ≤ gap.length + cs.length := by
  induction cs generalizing gap text with
  | nil =>
    obtain rfl := Option.some.inj h
    simpa using length_gapText_le gap
  | cons c cs ih =>
    rw [reread?] at h
    split at h
    -- the character joins the gap
    · have := ih h
      rw [List.length_append, List.length_singleton] at this
      rw [List.length_cons]
      omega
    · split at h
      · exact nomatch h
      · obtain ⟨rest, hrest, rfl⟩ := Option.map_eq_some_iff.1 h
        have hle := ih hrest
        have hgap := length_gapText_le gap
        simp only [List.length_append, List.length_cons, List.length_nil] at hle ⊢
        omega

/-- A text after a gap is read as it is if nothing in it is folded. -/
theorem reread?_eq_some_append_iff {gap cs : List Char} (hgap : ∀ c ∈ gap, isGapChar c = true) :
    reread? gap cs = some (gap ++ cs) ↔ IsUnfolded (gap ++ cs) := by
  induction cs generalizing gap with
  | nil => rw [reread?, List.append_nil, isUnfolded_gap_iff hgap, Option.some_inj]
  | cons c cs ih =>
    by_cases hc : isGapChar c = true
    · have hsnoc : ∀ c' ∈ gap ++ [c], isGapChar c' = true := fun c' hc' =>
        (List.mem_append.1 hc').elim (hgap c') fun h => List.mem_singleton.1 h ▸ hc
      have hrest := ih hsnoc
      rw [List.append_assoc, List.singleton_append] at hrest
      rw [reread?, if_pos hc]
      exact hrest
    · rw [Bool.not_eq_true] at hc
      have hrest : reread? [] cs = some cs ↔ IsUnfolded cs := ih (List.forall_mem_nil _)
      rw [isUnfolded_append_cons_iff hgap hc, isUnfolded_gap_iff hgap, ← hrest, reread?, hc,
        if_neg Bool.false_ne_true, ← Bool.and_eq_true]
      by_cases hborder : (gap.getLast?.any isBreak && looksLikeBorder (c :: cs)) = true
      · simp [hborder]
      · rw [if_neg hborder, Option.map_eq_some_iff]
        constructor
        case mp =>
          rintro ⟨text, htext, heq⟩
          -- neither part is longer than what it is read from, so that both are the same
          have hle := length_le_of_reread? htext
          have hgaple := length_gapText_le gap
          have hlength := congrArg List.length heq
          simp only [List.length_append, List.length_cons, List.length_nil] at hle hlength
          obtain ⟨hg, ht⟩ := List.append_inj heq (by omega)
          exact ⟨hg, (List.cons.inj ht).2 ▸ htext, hborder⟩
        case mpr =>
          rintro ⟨hg, htext, -⟩
          exact ⟨cs, htext, by rw [hg]⟩

/-- The texts that are read as they are. -/
theorem reread?_eq_some_self_iff {cs : List Char} : reread? [] cs = some cs ↔ IsUnfolded cs :=
  reread?_eq_some_append_iff (by simp)

end Dashboards.Yaml
