import Dashboards.Proofs.Json.Printing
import Dashboards.Proofs.Yaml.Folding

/-!
# JSON strings as quoted scalars

The characters of a JSON string, as they are escaped in JSON text, are a scalar between double
quotes.  Escapes stand for what they stand for in JSON, and of what is not escaped only gaps between
words count for something else than themselves.  However the text is folded, the scalar ends at the
quote that ends the string.

## Key results

- `exists_readQuoted_eq`: a JSON string is read as its text is reread
- `readQuoted_word`: a string without gaps is read as it is
-/

namespace Dashboards.Yaml

open Json (escapeChar)

/-! ## Places -/

namespace Cursor

/-- A place that is advanced by nothing is the same. -/
theorem advance_zero (p : Cursor) : p.advance 0 = p := rfl

/-- Two advances are one. -/
theorem advance_advance (p : Cursor) (m n : Nat) : (p.advance m).advance n = p.advance (m + n) := by
  simp only [advance, indexAfter, List.drop_drop, List.take_add, List.foldl_append, Nat.add_assoc]

/-- What is left after some characters have been passed. -/
theorem rest_advance {p : Cursor} {cs rest : List Char} (h : p.rest = cs ++ rest) :
    (p.advance cs.length).rest = rest := by
  simp [advance, h]

/-- What is left after one character has been passed. -/
theorem rest_advance_one {p : Cursor} {c : Char} {cs : List Char} (h : p.rest = c :: cs) :
    (p.advance 1).rest = cs := by
  simp [advance, h]

/-- Characters have at most four octets. -/
theorem index_advance_le (p : Cursor) (n : Nat) : (p.advance n).index ≤ p.index + 4 * n := by
  have hfold : ∀ (cs : List Char) (i : Nat),
      cs.foldl (fun i c => i + c.utf8Size) i ≤ i + 4 * cs.length := by
    intro cs
    induction cs with
    | nil => simp
    | cons c cs ih =>
      intro i
      have hle := ih (i + c.utf8Size)
      have hsize := c.utf8Size_le_four
      rw [List.foldl_cons, List.length_cons]
      omega
  have hle := hfold (p.rest.take n) p.index
  have hlength := List.length_take_le n p.rest
  show p.indexAfter n ≤ _
  rw [indexAfter]
  omega

end Cursor

/-! ## Escapes -/

/-- A gap is not escaped. -/
theorem escapeChar_of_isGapChar {c : Char} (h : isGapChar c = true) : escapeChar c = [c] :=
  forall_isGapChar (p := fun c => escapeChar c = [c]) (by decide) h

/-- The characters of gaps separate words. -/
theorem isSeparator_of_isGapChar {c : Char} (h : isGapChar c = true) : isSeparator c = true :=
  forall_isGapChar (p := fun c => isSeparator c = true) (by decide) h

/-- What a character is written as begins with the character, or with a backslash. -/
theorem exists_cons_eq_escapeChar (c : Char) :
    ∃ x xs, escapeChar c = x :: xs ∧ (x = c ∨ x = '\\') := by
  unfold escapeChar
  split
  all_goals first | exact ⟨_, _, rfl, .inr rfl⟩ | skip
  split
  · exact ⟨_, _, rfl, .inr rfl⟩
  · exact ⟨_, _, rfl, .inl rfl⟩

/-- A text is not longer than what is written for it. -/
theorem length_le_flatMap_escapeChar (cs : List Char) :
    cs.length ≤ (cs.flatMap escapeChar).length := by
  induction cs with
  | nil => exact le_rfl
  | cons c cs ih =>
    obtain ⟨x, xs, hx, -⟩ := exists_cons_eq_escapeChar c
    rw [List.flatMap_cons, hx, List.cons_append, List.length_cons, List.length_cons,
      List.length_append]
    omega

/-- The separators that are not escaped are the gaps. -/
theorem isSeparator_eq_isGapChar {c : Char} (htab : c ≠ '\t') (hfeed : c ≠ '\n')
    (hreturn : c ≠ '\r') : isSeparator c = isGapChar c := by
  rw [← beq_eq_false_iff_ne] at htab hfeed hreturn
  simp [isSeparator, isBlank, isBreak, isGapChar, htab, hfeed, hreturn, Bool.or_assoc]

/-- A character of a word is read in one step. -/
theorem exists_escapeChar_eq {c : Char} (hc : isGapChar c = false) :
    ∃ x xs, escapeChar c = x :: xs ∧ isSeparator x = false ∧
      ∀ rest, doubleQuotedStep x (xs ++ rest) = .char c (escapeChar c).length := by
  unfold escapeChar
  split
  · exact ⟨'\\', ['"'], rfl, by decide, fun _ => rfl⟩
  · exact ⟨'\\', ['\\'], rfl, by decide, fun _ => rfl⟩
  · exact ⟨'\\', ['b'], rfl, by decide, fun _ => rfl⟩
  · exact ⟨'\\', ['f'], rfl, by decide, fun _ => rfl⟩
  · exact ⟨'\\', ['n'], rfl, by decide, fun _ => rfl⟩
  · exact ⟨'\\', ['r'], rfl, by decide, fun _ => rfl⟩
  · exact ⟨'\\', ['t'], rfl, by decide, fun _ => rfl⟩
  next _ hquote hbackslash _ _ hfeed hreturn htab =>
    split
    next hcontrol =>
      -- a control character is written with four hexadecimal digits
      obtain ⟨hnumeral, -, -⟩ := Json.numeral?_escape c.toNat hcontrol
      refine ⟨'\\', _, rfl, by decide, fun rest => ?_⟩
      have hvalid : c.toNat.isValidChar := .inl (by omega)
      have hescape : readEscape? (['u', '0', '0', Nat.digitChar (c.toNat / 16),
          Nat.digitChar (c.toNat % 16)] ++ rest) = some (c, 5) := by
        simp only [readEscape?, escapeLength?, List.cons_append, List.nil_append,
          List.take_succ_cons, List.take_zero, List.length_cons, List.length_nil, hnumeral,
          Option.bind_some, if_pos hvalid, Char.ofNat_toNat, if_true]
      have hbreak : isBreak 'u' = false := by decide
      rw [doubleQuotedStep, if_neg (by decide), if_neg (by decide), if_pos rfl, hescape]
      simp [hbreak]
    next hcontrol =>
      have hseparator : isSeparator c = false := by
        rw [isSeparator_eq_isGapChar htab hfeed hreturn, hc]
      refine ⟨c, [], rfl, hseparator, fun rest => ?_⟩
      rw [doubleQuotedStep, hseparator, if_neg Bool.false_ne_true, if_neg hquote,
        if_neg hbackslash]
      rfl

/-- The characters of a gap are not escaped. -/
theorem flatMap_escapeChar_of_isGapChar {gap : List Char} (hgap : ∀ c ∈ gap, isGapChar c = true) :
    gap.flatMap escapeChar = gap := by
  rw [List.flatMap_congr fun c hc => escapeChar_of_isGapChar (hgap c hc)]
  exact List.flatMap_singleton' gap

/-- No gap begins where a word or the closing quote stands. -/
theorem exists_cons_eq_of_head {cs : List Char} (hcs : ∀ c ∈ cs.head?, isGapChar c = false)
    (tail : List Char) :
    ∃ x xs, cs.flatMap escapeChar ++ '"' :: tail = x :: xs ∧ isSeparator x = false := by
  cases cs with
  | nil => exact ⟨'"', tail, rfl, by decide⟩
  | cons c cs =>
    obtain ⟨x, xs, hx, hsep, -⟩ := exists_escapeChar_eq (hcs c rfl)
    exact ⟨x, xs ++ (cs.flatMap escapeChar ++ '"' :: tail), by simp [hx], hsep⟩

/-! ## Words -/

/-- The characters of a word are read up to its end. -/
theorem readQuotedWord_append {word : List Char} (hword : ∀ c ∈ word, isGapChar c = false)
    {p : Cursor} {rest : List Char} (hrest : p.rest = word.flatMap escapeChar ++ rest)
    (fuel : Nat) :
    readQuotedWord doubleQuotedStep (fuel + word.length) p =
      (readQuotedWord doubleQuotedStep fuel (p.advance (word.flatMap escapeChar).length)).map
        fun (w, r) => (word ++ w, r) := by
  -- induction on the word, each of whose characters takes one unit of fuel
  induction word generalizing p with
  | nil => simp [Cursor.advance_zero]
  | cons c word ih =>
    obtain ⟨x, xs, hx, -, hstep⟩ := exists_escapeChar_eq (hword c List.mem_cons_self)
    -- the first character takes one step, however many characters it is written with
    have hcons : p.rest = x :: (xs ++ (word.flatMap escapeChar ++ rest)) := by
      rw [hrest, List.flatMap_cons, hx]
      simp
    have hnext : (p.advance (escapeChar c).length).rest = word.flatMap escapeChar ++ rest := by
      refine Cursor.rest_advance ?_
      rw [hrest, List.flatMap_cons, List.append_assoc]
    have ih := ih (fun c' hc' => hword c' (List.mem_cons_of_mem c hc')) hnext
    rw [List.length_cons, ← Nat.add_assoc, readQuotedWord, hcons]
    simp only [hstep, ih, Cursor.advance_advance, Option.map_map, List.flatMap_cons,
      List.length_append]
    rfl

/-- A word up to the closing quote. -/
theorem readQuotedWord_quote {word : List Char} (hword : ∀ c ∈ word, isGapChar c = false)
    {p : Cursor} {tail : List Char} (hrest : p.rest = word.flatMap escapeChar ++ '"' :: tail)
    {fuel : Nat} (hfuel : word.length < fuel) :
    readQuotedWord doubleQuotedStep fuel p =
      some (word, .quote, p.advance ((word.flatMap escapeChar).length + 1)) := by
  obtain ⟨k, rfl⟩ := Nat.exists_eq_add_of_le' (Nat.succ_le_of_lt hfuel)
  have hquote := Cursor.rest_advance hrest
  rw [Nat.succ_eq_add_one, ← Nat.add_assoc, Nat.add_right_comm, readQuotedWord_append hword hrest,
    readQuotedWord, hquote]
  have hstep : doubleQuotedStep '"' tail = .quote := rfl
  simp [hstep, Cursor.advance_advance]

/-- A word up to a gap. -/
theorem readQuotedWord_gap {word : List Char} (hword : ∀ c ∈ word, isGapChar c = false)
    {p : Cursor} {g : Char} (hg : isGapChar g = true) {tail : List Char}
    (hrest : p.rest = word.flatMap escapeChar ++ g :: tail) {fuel : Nat}
    (hfuel : word.length < fuel) :
    readQuotedWord doubleQuotedStep fuel p =
      some (word, .separator, p.advance (word.flatMap escapeChar).length) := by
  obtain ⟨k, rfl⟩ := Nat.exists_eq_add_of_le' (Nat.succ_le_of_lt hfuel)
  have hgap := Cursor.rest_advance hrest
  have hstep : doubleQuotedStep g tail = .separator := if_pos (isSeparator_of_isGapChar hg)
  rw [Nat.succ_eq_add_one, ← Nat.add_assoc, Nat.add_right_comm, readQuotedWord_append hword hrest,
    readQuotedWord, hgap]
  simp [hstep]

/-! ## Gaps -/

/-- A gap is passed over, and the place after it starts a line if it ends with a break. -/
theorem exists_passGap_eq {gap : List Char} (hgap : ∀ c ∈ gap, isGapChar c = true) {p : Cursor}
    {x : Char} {rest : List Char} (hx : isSeparator x = false) (hrest : p.rest = gap ++ x :: rest)
    (g : Gap) {fuel : Nat} (hfuel : gap.length < fuel) :
    ∃ q : Cursor, passGap fuel none g p = some (gap.foldl Gap.add g, q) ∧ q.rest = x :: rest ∧
      (q.column = 0 ↔ gap.getLast?.elim (p.column = 0) (isBreak · = true)) := by
  -- induction on the gap, which also tells in which column the place after it is
  induction gap generalizing p g fuel with
  | nil =>
    obtain ⟨k, rfl⟩ := Nat.exists_eq_add_of_lt hfuel
    have hblank : isBlank x = false ∧ isBreak x = false := by simpa [isSeparator] using hx
    refine ⟨p, ?_, hrest, Iff.rfl⟩
    rw [passGap, hrest]
    simp [hblank]
  | cons c gap ih =>
    obtain ⟨k, rfl⟩ : ∃ k, fuel = k + 1 := ⟨fuel - 1, by omega⟩
    have hc := hgap c List.mem_cons_self
    have ih := fun {p : Cursor} (h : p.rest = gap ++ x :: rest) =>
      ih (fun c' hc' => hgap c' (List.mem_cons_of_mem c hc')) h (g.add c)
        (Nat.lt_of_succ_lt_succ hfuel)
    by_cases hspace : c = ' '
    · -- a space stays in the line
      have hnext : (p.advance 1).rest = gap ++ x :: rest := by simp [Cursor.advance, hrest]
      obtain ⟨q, hq, hqrest, hcolumn⟩ := ih hnext
      refine ⟨q, ?_, hqrest, ?_⟩
      · rw [List.foldl_cons, ← hq, passGap, hrest]
        simp [hspace, isBlank, Gap.add]
      · rw [hcolumn, List.getLast?_cons]
        cases gap.getLast? <;> simp [Cursor.advance, hspace, isBreak]
    · -- a break starts a line
      have hbreak : isBreak c = true := (isBreak_iff_of_isGapChar hc).2 hspace
      obtain ⟨hblank, htake⟩ : isBlank c = false ∧ p.takeBreak = (breakText c, p.nextLine 1) := by
        rw [Cursor.takeBreak, hrest]
        rcases isGapChar_iff.1 hc with rfl | rfl | hc
        · exact absurd rfl hspace
        · exact ⟨by decide, rfl⟩
        · rcases List.mem_pair.1 hc with rfl | rfl
          · exact ⟨by decide, rfl⟩
          · exact ⟨by decide, rfl⟩
      have hnext : (p.nextLine 1).rest = gap ++ x :: rest := by simp [Cursor.nextLine, hrest]
      obtain ⟨q, hq, hqrest, hcolumn⟩ := ih hnext
      refine ⟨q, ?_, hqrest, ?_⟩
      · rw [List.foldl_cons, ← hq, passGap, hrest]
        simp [hblank, hbreak, htake, Gap.add, hspace]
      · rw [hcolumn, List.getLast?_cons]
        cases gap.getLast? <;> simp [Cursor.nextLine, hbreak]

/-- What follows a word begins with a gap, which is passed over up to the next word or the closing
quote. -/
theorem exists_passGap_split {g : Char} (hg : isGapChar g = true) {after tail : List Char}
    {p : Cursor} (hrest : p.rest = (g :: after).flatMap escapeChar ++ '"' :: tail) :
    ∃ gap rest q, g :: after = gap ++ rest ∧ gap ≠ [] ∧ (∀ c ∈ gap, isGapChar c = true) ∧
      (∀ c ∈ rest.head?, isGapChar c = false) ∧
      passGap (p.rest.length + 1) none {} p = some (gap.foldl Gap.add {}, q) ∧
      q.rest = rest.flatMap escapeChar ++ '"' :: tail ∧
      (q.column == 0) = gap.getLast?.any isBreak := by
  obtain ⟨gap, rest, hsplit, hgap, hhead⟩ := exists_eq_front_append true (g :: after)
  -- the gap has the first character at least
  have hne : gap ≠ [] := by
    rintro rfl
    rw [List.nil_append] at hsplit
    exact absurd hg (by simp [hhead g (hsplit ▸ rfl)])
  rw [hsplit, List.flatMap_append, List.append_assoc, flatMap_escapeChar_of_isGapChar hgap] at hrest
  obtain ⟨x, xs, hx, hstop⟩ := exists_cons_eq_of_head hhead tail
  rw [hx] at hrest
  have hlong : gap.length < p.rest.length + 1 := by
    rw [hrest, List.length_append]
    omega
  obtain ⟨q, hq, hqrest, hcolumn⟩ := exists_passGap_eq hgap hstop hrest {} hlong
  refine ⟨gap, rest, q, hsplit, hne, hgap, hhead, hq, hqrest.trans hx.symm, ?_⟩
  rw [Bool.eq_iff_iff, beq_iff_eq, hcolumn]
  cases hlast : gap.getLast? with
  | none => exact absurd (List.getLast?_eq_none_iff.1 hlast) hne
  | some b => rfl

/-! ## Borders -/

/-- The front of a string has a mark some times, with something separated after it, as the front of
its text has. -/
theorem take_escaped_eq_replicate_iff {m : Char} (hm : m ∈ ['-', '.']) (tail : List Char) (n : Nat)
    (cs : List Char) :
    ((cs.flatMap escapeChar ++ '"' :: tail).take n = List.replicate n m ∧
      startsSeparated ((cs.flatMap escapeChar ++ '"' :: tail).drop n) = true) ↔
    (cs.take n = List.replicate n m ∧ (cs.drop n).head?.any isGapChar = true) := by
  have hself : escapeChar m = [m] := by rcases List.mem_pair.1 hm with rfl | rfl <;> decide
  have hquote : '"' ≠ m := by rcases List.mem_pair.1 hm with rfl | rfl <;> decide
  have hbackslash : '\\' ≠ m := by rcases List.mem_pair.1 hm with rfl | rfl <;> decide
  -- one character after the other is compared, and then what follows them
  induction n generalizing cs with
  | zero =>
    cases cs with
    | nil => simp [startsSeparated, isSeparator, isBlank, isBreak]
    | cons c cs =>
      by_cases hc : isGapChar c = true
      · simp [startsSeparated, escapeChar_of_isGapChar hc, isSeparator_of_isGapChar hc, hc]
      · rw [Bool.not_eq_true] at hc
        obtain ⟨x, xs, hx, hsep, -⟩ := exists_escapeChar_eq hc
        simp [startsSeparated, hx, hsep, hc]
  | succ n ih =>
    cases cs with
    | nil => simp [List.replicate_succ, hquote]
    | cons c cs =>
      by_cases hcm : c = m
      · simpa [hcm, hself, List.replicate_succ] using ih cs
      · -- neither the character nor what it is written as is the mark
        obtain ⟨x, xs, hx, hkind⟩ := exists_cons_eq_escapeChar c
        have hxm : x ≠ m := by
          rcases hkind with rfl | rfl
          · exact hcm
          · exact hbackslash
        simp [hx, List.replicate_succ, hcm, hxm]

/-- The front of a string is marked as the front of its text is. -/
theorem marks_escaped {m : Char} (hm : m ∈ ['-', '.']) (cs tail : List Char) :
    ((cs.flatMap escapeChar ++ '"' :: tail).take 3 == [m, m, m] &&
      startsSeparated ((cs.flatMap escapeChar ++ '"' :: tail).drop 3)) = marks m cs := by
  rw [Bool.eq_iff_iff, marks]
  simpa using take_escaped_eq_replicate_iff hm tail 3 cs

/-- A string is at the border of a document if its text looks like one at the start of a line. -/
theorem atDocumentBorder_escaped {cs tail : List Char} {p : Cursor}
    (hrest : p.rest = cs.flatMap escapeChar ++ '"' :: tail) :
    p.atDocumentBorder = (p.column == 0 && looksLikeBorder cs) := by
  rw [Cursor.atDocumentBorder, Cursor.atMarker, Cursor.atMarker, hrest, Bool.and_assoc,
    Bool.and_assoc, marks_escaped (by simp), marks_escaped (by simp), ← Bool.and_or_distrib_left,
    looksLikeBorder]

/-! ## Strings -/

/-- A string without gaps is read as it is, in one line. -/
theorem readQuoted_word {word : List Char} (hword : ∀ c ∈ word, isGapChar c = false) {p : Cursor}
    {tail : List Char} (hrest : p.rest = word.flatMap escapeChar ++ '"' :: tail)
    (hcolumn : p.column ≠ 0) (fuel : Nat) :
    readQuoted doubleQuotedStep (fuel + 1) p =
      some (word, p.advance ((word.flatMap escapeChar).length + 1)) := by
  have hne : p.rest.isEmpty = false := by simp [hrest]
  have hborder : p.atDocumentBorder = false := by simp [atDocumentBorder_escaped hrest, hcolumn]
  have hlong : word.length < p.rest.length + 1 := by
    have hle := length_le_flatMap_escapeChar word
    rw [hrest, List.length_append]
    omega
  rw [readQuoted, hborder, hne, Bool.or_false, if_neg Bool.false_ne_true,
    readQuotedWord_quote hword hrest hlong]

/-- A string is read as its text is reread, up to the closing quote. -/
theorem exists_readQuoted_eq {cs tail : List Char} {p : Cursor}
    (hrest : p.rest = cs.flatMap escapeChar ++ '"' :: tail) {fuel : Nat}
    (hfuel : cs.length < fuel) :
    ∃ q : Cursor, q.rest = tail ∧ readQuoted doubleQuotedStep fuel p =
      (if p.column == 0 && looksLikeBorder cs then none else reread? [] cs).map (·, q) := by
  induction hn : cs.length using Nat.strong_induction_on generalizing cs p fuel with
  | _ n ih =>
    obtain ⟨k, rfl⟩ : ∃ k, fuel = k + 1 := ⟨fuel - 1, by omega⟩
    have hopen : p.rest.isEmpty = false := by simp [hrest]
    rw [readQuoted, atDocumentBorder_escaped hrest, hopen, Bool.or_false]
    by_cases hborder : (p.column == 0 && looksLikeBorder cs) = true
    · have hend : (p.advance (cs.flatMap escapeChar ++ ['"']).length).rest = tail :=
        Cursor.rest_advance (by simp [hrest])
      exact ⟨_, hend, by simp [hborder]⟩
    rw [if_neg hborder, if_neg hborder]
    -- the text is a word, with a gap and more words after it or not
    obtain ⟨word, after, rfl, hword, hafter⟩ := exists_eq_front_append false cs
    have hlong : word.length < p.rest.length + 1 := by
      have hle : word.length ≤ (word.flatMap escapeChar).length := length_le_flatMap_escapeChar word
      simp only [hrest, List.flatMap_append, List.length_append]
      omega
    rw [List.flatMap_append, List.append_assoc] at hrest
    have hplace := Cursor.rest_advance hrest
    rw [reread?_word hword]
    cases after with
    | nil =>
      refine ⟨p.advance ((word.flatMap escapeChar).length + 1), ?_, ?_⟩
      · rw [← Cursor.advance_advance]
        exact Cursor.rest_advance_one hplace
      · rw [readQuotedWord_quote hword hrest hlong]
        simp [reread?, gapText]
    | cons g after =>
      have hg : isGapChar g = true := hafter g rfl
      have hrest' : p.rest = word.flatMap escapeChar ++
          g :: (after.flatMap escapeChar ++ '"' :: tail) := by
        rw [hrest, List.flatMap_cons, escapeChar_of_isGapChar hg]
        rfl
      have hword' := readQuotedWord_gap hword hg hrest' hlong
      obtain ⟨gap, rest, q, hsplit, hne, hgap, hhead, hq, hqrest, hstart⟩ :=
        exists_passGap_split hg hplace
      have hshort : rest.length < (word ++ g :: after).length := by
        have hpos := List.length_pos_iff.2 hne
        rw [hsplit, List.length_append, List.length_append]
        omega
      have hfuel' : rest.length < k := by omega
      -- the words after the gap are fewer, so that the induction goes on with them
      obtain ⟨r, hr, hread⟩ := ih _ (hn ▸ hshort) hqrest hfuel' rfl
      refine ⟨r, hr, ?_⟩
      rw [hword', hsplit, reread?_gap hgap, List.nil_append, reread?_of_head hhead]
      simp only [hq, hread, hstart, text_foldl_add]
      split
      · rfl
      · cases reread? [] rest <;> simp

end Dashboards.Yaml
