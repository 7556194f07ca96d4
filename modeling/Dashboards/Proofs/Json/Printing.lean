import Dashboards.Json.Writer
import Dashboards.Proofs.Json.NumberReading

/-!
# Indented text read back

The indented text of a value is read as the draft of the value, with nothing left over.  Escapes in
strings, lines and indentation do not matter; of the doubles in the value it must be known that they
are read back.

## Key results

- `readString_escaped`: strings are read back
- `Draft.ofText_pretty`: values are read back
-/

namespace Dashboards.Json

/-! ## Strings -/

/-- The digits of an escape by number are a numeral of the character. -/
theorem numeral?_escape : ∀ n < 0x20,
    Decimal.numeral? 16 ['0', '0', Nat.digitChar (n / 16), Nat.digitChar (n % 16)] = some n ∧
      isLowSurrogate n = false ∧ isHighSurrogate n = false := by
  decide

/-- A written character is scanned as one unit, and the unit is joined as the character. -/
theorem exists_unit_escapeChar (c : Char) : ∃ u,
    (∀ cs, scanUnits (escapeChar c ++ cs) = (u :: (scanUnits cs).1, (scanUnits cs).2)) ∧
      ∀ ending us, joinUnits ending (u :: us) = (joinUnits ending us).map (c :: ·) := by
  unfold escapeChar
  -- seven characters have a short escape, control characters one by number, all others none
  split
  · exact ⟨.char '"', fun _ => rfl, fun _ _ => rfl⟩
  · exact ⟨.char '\\', fun _ => rfl, fun _ _ => rfl⟩
  · exact ⟨.char '\x08', fun _ => rfl, fun _ _ => rfl⟩
  · exact ⟨.char '\x0c', fun _ => rfl, fun _ _ => rfl⟩
  · exact ⟨.char '\n', fun _ => rfl, fun _ _ => rfl⟩
  · exact ⟨.char '\r', fun _ => rfl, fun _ _ => rfl⟩
  · exact ⟨.char '\t', fun _ => rfl, fun _ _ => rfl⟩
  next _ hquote hbackslash _ _ _ _ _ =>
    split
    next hcontrol =>
      -- a control character is written as its code, which is no half of a pair
      obtain ⟨hnumeral, hlow, hhigh⟩ := numeral?_escape c.toNat hcontrol
      refine ⟨.code c.toNat, fun cs => ?_, fun ending us => ?_⟩
      · simp only [List.cons_append, List.nil_append]
        rw [scanUnits, hnumeral]
      · rw [joinUnits.eq_def]
        simp [hlow, hhigh, Char.ofNat_toNat]
    next hcontrol =>
      refine ⟨.char c, fun cs => ?_, fun _ _ => rfl⟩
      rw [List.singleton_append, scanUnits]
      · exact if_neg hcontrol
      · exact hquote
      all_goals
        intros
        exact hbackslash ‹c = '\\'›

/-- The characters of a string, escaped and with the closing quote, are read back. -/
theorem readString_escaped (s : String) (rest : List Char) :
    readString (s.toList.flatMap escapeChar ++ '"' :: rest) = (.ok s, .ok rest) := by
  -- by induction on the characters: each gives one unit, and the quote at the end stops the scan
  have hunits : ∀ cs : List Char, ∃ units,
      scanUnits (cs.flatMap escapeChar ++ '"' :: rest) = (units, .ok rest) ∧
        joinUnits none units = .ok cs := by
    intro cs
    induction cs with
    | nil => exact ⟨[], rfl, rfl⟩
    | cons c cs ih =>
      obtain ⟨units, hscan, hjoin⟩ := ih
      obtain ⟨u, hu, hc⟩ := exists_unit_escapeChar c
      refine ⟨u :: units, ?_, ?_⟩
      · rw [List.flatMap_cons, List.append_assoc, hu, hscan]
      · rw [hc, hjoin]
        rfl
  obtain ⟨units, hscan, hjoin⟩ := hunits s.toList
  simp only [readString, hscan, hjoin, Except.map, String.ofList_toList]

/-! ## Space -/

/-- The space of a new line is skipped. -/
theorem skipSpace_newLine (level : Nat) (cs : List Char) :
    skipSpace (newLine level ++ cs) = skipSpace cs := by
  have hspace : ∀ c ∈ newLine level, isSpace c = true := by
    intro c hc
    rcases List.mem_cons.1 hc with rfl | hc
    · decide
    · rw [List.eq_of_mem_replicate hc]
      decide
  unfold skipSpace
  rw [List.dropWhile_append_of_pos hspace]

/-- A new line before a value makes no difference. -/
theorem readValue_newLine (level fuel : Nat) (cs : List Char) :
    readValue fuel (newLine level ++ cs) = readValue fuel cs := by
  cases fuel with
  | zero => rfl
  | succ fuel => rw [readValue, readValue, skipSpace_newLine]

/-- A new line before the items of a list makes no difference. -/
theorem readItems_newLine (level fuel : Nat) (cs : List Char) :
    readItems fuel (newLine level ++ cs) = readItems fuel cs := by
  cases fuel with
  | zero => rfl
  | succ fuel => rw [readItems, readItems, readValue_newLine]

/-- A new line before the members of an object makes no difference. -/
theorem readMembers_newLine (level fuel : Nat) (cs : List Char) :
    readMembers fuel (newLine level ++ cs) = readMembers fuel cs := by
  cases fuel with
  | zero => rfl
  | succ fuel => rw [readMembers, readMembers, skipSpace_newLine]

/-- The text of a value begins with a character that is no space and does not close a list. -/
theorem exists_cons_eq_prettyValue (level : Nat) (v : Value) :
    ∃ c cs, prettyValue level v = c :: cs ∧ isSpace c = false ∧ c ≠ ']' := by
  match v with
  | .null => exact ⟨_, _, rfl, by decide, by decide⟩
  | .bool true | .bool false => exact ⟨_, _, rfl, by decide, by decide⟩
  | .string s => exact ⟨_, _, rfl, by decide, by decide⟩
  | .array [] | .array (_ :: _) => exact ⟨_, _, rfl, by decide, by decide⟩
  | .object [] | .object (_ :: _) => exact ⟨_, _, rfl, by decide, by decide⟩
  | .number n =>
    -- a number has a text, and neither spaces nor brackets occur in it
    rw [prettyValue]
    cases hcs : n.text.toList with
    | nil => exact absurd hcs n.text_toList_ne_nil
    | cons c cs =>
      have hc : isNumberChar c = true :=
        Number.isNumberChar_of_mem_text (hcs ▸ List.mem_cons_self)
      exact ⟨c, cs, rfl, isSpace_of_isNumberChar hc, fun he => nomatch he ▸ hc⟩

/-! ## Doubles of a value -/

mutual

/-- The doubles in a value. -/
def Value.doubles : Value → List Decimal.Binary64
  | .number (.double x) => [x]
  | .array items => Value.itemDoubles items
  | .object ms => Value.memberDoubles ms
  | _ => []

/-- The doubles in items. -/
def Value.itemDoubles : List Value → List Decimal.Binary64
  | [] => []
  | v :: vs => v.doubles ++ Value.itemDoubles vs

/-- The doubles in the values of members. -/
def Value.memberDoubles : List (String × Value) → List Decimal.Binary64
  | [] => []
  | (_, v) :: ms => v.doubles ++ Value.memberDoubles ms

end

/-! ## Values -/

/-- The text of a list that is not empty is read as what is found between the brackets. -/
theorem readValue_array {cs cs' : List Char} {c : Char} (hcs : skipSpace cs = c :: cs')
    (hc : c ≠ ']') (fuel : Nat) {items : List Draft} {stop : Option Fault}
    {rest : Option (List Char)} (h : readItems fuel (c :: cs') = (items, stop, rest)) :
    readValue (fuel + 1) ('[' :: cs) = (.array items stop, rest) := by
  rw [readValue, skipSpace_cons (by decide)]
  simp only [hcs]
  split
  next he => cases he
  next he => exact absurd (List.cons.inj he).1 hc
  next => rw [h]

/-- The text of an object that is not empty is read as what is found between the braces. -/
theorem readValue_object {cs cs' : List Char} {c : Char} (hcs : skipSpace cs = c :: cs')
    (hc : c ≠ '\x7d') (fuel : Nat) {members : DraftMembers} {stop : Option Fault}
    {rest : Option (List Char)} (h : readMembers fuel (c :: cs') = (members, stop, rest)) :
    readValue (fuel + 1) ('\x7b' :: cs) = (.object members stop, rest) := by
  rw [readValue, skipSpace_cons (by decide)]
  simp only [hcs]
  split
  next he => cases he
  next he => exact absurd (List.cons.inj he).1 hc
  next => rw [h]

/-- A space before a value makes no difference. -/
theorem readValue_space (fuel : Nat) (cs : List Char) :
    readValue fuel (' ' :: cs) = readValue fuel cs := by
  cases fuel with
  | zero => rfl
  | succ fuel =>
    rw [readValue, readValue]
    rfl

/-- The text of a key begins with a quotation mark, and another one stands before the colon. -/
theorem stringChars_append_colon (key : String) (cs : List Char) :
    stringChars key ++ ':' :: cs =
      '"' :: (key.toList.flatMap escapeChar ++ '"' :: ':' :: cs) := by
  simp [stringChars]

section

variable {fuel : Nat} {cs left rest : List Char} {d : Draft}
  (h : readValue fuel cs = (d, some left))
include h

/-- The last item of a list. -/
theorem readItems_last (hleft : skipSpace left = ']' :: rest) :
    readItems (fuel + 1) cs = ([d], none, some rest) := by
  rw [readItems, h]
  simp only [hleft]

/-- An item of a list that is not the last one. -/
theorem readItems_cons (hleft : skipSpace left = ',' :: rest) :
    readItems (fuel + 1) cs = (d :: (readItems fuel rest).1, (readItems fuel rest).2) := by
  rw [readItems, h]
  simp only [hleft]

/-- The last member of an object. -/
theorem readMembers_last (key : String) (hleft : skipSpace left = '\x7d' :: rest) :
    readMembers (fuel + 1) (stringChars key ++ ':' :: ' ' :: cs) =
      ([(.ok key, d)], none, some rest) := by
  have hvalue := (readValue_space fuel cs).trans h
  rw [stringChars_append_colon, readMembers, skipSpace_cons (by decide)]
  simp only [readString_escaped, skipSpace_cons (c := ':') (by decide), hvalue, hleft]

/-- A member of an object that is not the last one. -/
theorem readMembers_cons (key : String) (hleft : skipSpace left = ',' :: rest) :
    readMembers (fuel + 1) (stringChars key ++ ':' :: ' ' :: cs) =
      ((.ok key, d) :: (readMembers fuel rest).1, (readMembers fuel rest).2) := by
  have hvalue := (readValue_space fuel cs).trans h
  rw [stringChars_append_colon, readMembers, skipSpace_cons (by decide)]
  simp only [readString_escaped, skipSpace_cons (c := ':') (by decide), hvalue, hleft]

end

/-- Numbers are read back, doubles if they are known to be. -/
theorem Number.readsBack {n : Number} (h : ∀ x ∈ (Value.number n).doubles, Rereads x) :
    n.ReadsBack := by
  cases n with
  | integer n fits => exact readsBack_integer n fits
  | double x => exact readsBack_of_ofText (h x List.mem_cons_self)

/-- A new line ends a number. -/
theorem endsNumber_newLine (level : Nat) (cs : List Char) : EndsNumber (newLine level ++ cs) :=
  endsNumber_cons _ (by decide)

/-- A new line has at least the line break, which pays for a unit of fuel. -/
theorem length_newLine_pos (level : Nat) : 0 < (newLine level).length := Nat.succ_pos _

/-- Items begin with a new line and the first item. -/
theorem exists_prettyItems_eq (level : Nat) (v : Value) (vs : List Value) :
    ∃ cs, prettyItems level (v :: vs) = newLine level ++ (prettyValue level v ++ cs) := by
  cases vs with
  | nil => exact ⟨[], by simp [prettyItems]⟩
  | cons w vs => exact ⟨',' :: prettyItems level (w :: vs), by simp [prettyItems]⟩

/-- Members begin with a new line and the first key. -/
theorem exists_prettyMembers_eq (level : Nat) (m : String × Value) (ms : Members) :
    ∃ cs, prettyMembers level (m :: ms) = newLine level ++ '"' :: cs := by
  obtain ⟨key, v⟩ := m
  cases ms with
  | nil =>
    simp only [prettyMembers, stringChars, List.append_assoc, List.cons_append]
    exact ⟨_, rfl⟩
  | cons m ms =>
    simp only [prettyMembers, stringChars, List.append_assoc, List.cons_append]
    exact ⟨_, rfl⟩

-- By induction on the value.  The fuel is no less than the length of the text: every item and every
-- member takes one unit of fuel and at least the new line before it.
mutual

/-- The indented text of a value is read as its draft. -/
theorem readValue_prettyValue : (v : Value) → (∀ x ∈ v.doubles, Rereads x) → (level fuel : Nat) →
    (prettyValue level v).length ≤ fuel → (rest : List Char) → EndsNumber rest →
    readValue fuel (prettyValue level v ++ rest) = (v.draft, some rest)
  | v, _, level, 0, hfuel, rest, _ => by
    obtain ⟨c, cs, hcs, -⟩ := exists_cons_eq_prettyValue level v
    rw [hcs] at hfuel
    exact nomatch hfuel
  | .null, _, level, fuel + 1, _, rest, _ => by
    rw [prettyValue, readValue]; rfl
  | .bool true, _, level, fuel + 1, _, rest, _ => by
    rw [prettyValue, readValue]; rfl
  | .bool false, _, level, fuel + 1, _, rest, _ => by
    rw [prettyValue, readValue]; rfl
  | .number n, hv, level, fuel + 1, _, rest, hrest => Number.readsBack hv fuel rest hrest
  | .string s, _, level, fuel + 1, _, rest, _ => by
    have htext : prettyValue level (.string s) ++ rest =
        '"' :: (s.toList.flatMap escapeChar ++ '"' :: rest) := by
      simp [prettyValue, stringChars]
    rw [htext, readValue, skipSpace_cons (by decide)]
    simp only [stringDraft, readString_escaped]
    rfl
  | .array [], _, level, fuel + 1, _, rest, _ => by
    rw [prettyValue, readValue]; rfl
  | .array (v :: vs), hv, level, fuel + 1, hfuel, rest, _ => by
    have htext : prettyValue level (.array (v :: vs)) ++ rest =
        '[' :: (prettyItems (level + 1) (v :: vs) ++ (newLine level ++ ']' :: rest)) := by
      simp [prettyValue]
    have hlength : (prettyItems (level + 1) (v :: vs)).length ≤ fuel := by
      simp only [prettyValue, List.length_append, List.length_cons, List.length_nil] at hfuel
      omega
    have hitems := readItems_prettyItems (v :: vs) (List.cons_ne_nil v vs) hv (level + 1) level fuel
      hlength rest
    -- the items begin with a new line, which is skipped
    obtain ⟨cs, hcs⟩ := exists_prettyItems_eq (level + 1) v vs
    obtain ⟨c, cs', hv', hspace, hc⟩ := exists_cons_eq_prettyValue (level + 1) v
    rw [hcs, hv', List.append_assoc, readItems_newLine] at hitems
    rw [htext, hcs, hv', List.append_assoc]
    refine readValue_array ?_ hc fuel hitems
    rw [skipSpace_newLine]
    exact skipSpace_cons hspace _
  | .object [], _, level, fuel + 1, _, rest, _ => by
    rw [prettyValue, readValue]; rfl
  | .object (m :: ms), hv, level, fuel + 1, hfuel, rest, _ => by
    have htext : prettyValue level (.object (m :: ms)) ++ rest =
        '\x7b' :: (prettyMembers (level + 1) (m :: ms) ++ (newLine level ++ '\x7d' :: rest)) := by
      simp [prettyValue]
    -- the brackets are two characters, so the fuel that is left covers what is between them
    have hlength : (prettyMembers (level + 1) (m :: ms)).length ≤ fuel := by
      simp only [prettyValue, List.length_append, List.length_cons, List.length_nil] at hfuel
      omega
    have hmembers := readMembers_prettyMembers (m :: ms) (List.cons_ne_nil m ms) hv (level + 1)
      level fuel hlength rest
    obtain ⟨cs, hcs⟩ := exists_prettyMembers_eq (level + 1) m ms
    rw [hcs, List.append_assoc, readMembers_newLine] at hmembers
    rw [htext, hcs, List.append_assoc]
    refine readValue_object ?_ (by decide) fuel hmembers
    rw [skipSpace_newLine]
    exact skipSpace_cons (by decide) _

/-- The items of a list are read as their drafts. -/
theorem readItems_prettyItems : (vs : List Value) → vs ≠ [] →
    (∀ x ∈ Value.itemDoubles vs, Rereads x) → (level level' fuel : Nat) →
    (prettyItems level vs).length ≤ fuel → (rest : List Char) →
    readItems fuel (prettyItems level vs ++ (newLine level' ++ ']' :: rest)) =
      (Value.draftItems vs, none, some rest)
  | [], hne, _, _, _, _, _, _ => absurd rfl hne
  | v :: vs, _, hvs, level, level', 0, hfuel, rest => by
    obtain ⟨cs, hcs⟩ := exists_prettyItems_eq level v vs
    rw [hcs] at hfuel
    exact nomatch hfuel
  | [v], _, hvs, level, level', fuel + 1, hfuel, rest => by
    have hlength : (prettyValue level v).length ≤ fuel := by
      have hpos := length_newLine_pos level
      simp only [prettyItems, List.length_append] at hfuel
      omega
    have hv : ∀ x ∈ v.doubles, Rereads x := fun x hx => hvs x (List.mem_append_left _ hx)
    -- a line break ends the last item, and a comma every other
    have hvalue := readValue_prettyValue v hv level fuel hlength _
      (endsNumber_newLine level' (']' :: rest))
    rw [← readValue_newLine level] at hvalue
    rw [prettyItems, List.append_assoc]
    refine readItems_last hvalue ?_
    rw [skipSpace_newLine]
    exact skipSpace_cons (by decide) _
  | v :: w :: vs, _, hvs, level, level', fuel + 1, hfuel, rest => by
    -- the comma ends the value, and the rest of the items is shorter
    have hpos := length_newLine_pos level
    simp only [prettyItems, List.length_append, List.length_cons] at hfuel
    have hlength : (prettyValue level v).length ≤ fuel := by omega
    have hlength' : (prettyItems level (w :: vs)).length ≤ fuel := by omega
    have hv : ∀ x ∈ v.doubles, Rereads x := fun x hx => hvs x (List.mem_append_left _ hx)
    have hvs : ∀ x ∈ Value.itemDoubles (w :: vs), Rereads x := fun x hx =>
      hvs x (List.mem_append_right _ hx)
    have hitems := readItems_prettyItems (w :: vs) (List.cons_ne_nil w vs) hvs level level' fuel
      hlength' rest
    have htext : prettyItems level (v :: w :: vs) ++ (newLine level' ++ ']' :: rest) =
        newLine level ++ (prettyValue level v ++
          ',' :: (prettyItems level (w :: vs) ++ (newLine level' ++ ']' :: rest))) := by
      simp [prettyItems]
    have hvalue := readValue_prettyValue v hv level fuel hlength
      (',' :: (prettyItems level (w :: vs) ++ (newLine level' ++ ']' :: rest)))
      (endsNumber_cons _ (by decide))
    rw [← readValue_newLine level] at hvalue
    rw [htext, readItems_cons hvalue (skipSpace_cons (by decide) _), hitems]
    rfl

/-- The members of an object are read as their drafts. -/
theorem readMembers_prettyMembers : (ms : List (String × Value)) → ms ≠ [] →
    (∀ x ∈ Value.memberDoubles ms, Rereads x) → (level level' fuel : Nat) →
    (prettyMembers level ms).length ≤ fuel → (rest : List Char) →
    readMembers fuel (prettyMembers level ms ++ (newLine level' ++ '\x7d' :: rest)) =
      (Value.draftMembers ms, none, some rest)
  | [], hne, _, _, _, _, _, _ => absurd rfl hne
  | m :: ms, _, hms, level, level', 0, hfuel, rest => by
    obtain ⟨cs, hcs⟩ := exists_prettyMembers_eq level m ms
    rw [hcs] at hfuel
    exact nomatch hfuel
  | [(key, v)], _, hms, level, level', fuel + 1, hfuel, rest => by
    have hlength : (prettyValue level v).length ≤ fuel := by
      have hpos := length_newLine_pos level
      simp only [prettyMembers, List.length_append, List.length_cons] at hfuel
      omega
    have hv : ∀ x ∈ v.doubles, Rereads x := fun x hx => hms x (List.mem_append_left _ hx)
    -- a line break ends the last value, and a comma every other
    have hvalue := readValue_prettyValue v hv level fuel hlength _
      (endsNumber_newLine level' ('\x7d' :: rest))
    have htext : prettyMembers level [(key, v)] ++ (newLine level' ++ '\x7d' :: rest) =
        newLine level ++ (stringChars key ++
          ':' :: ' ' :: (prettyValue level v ++ (newLine level' ++ '\x7d' :: rest))) := by
      simp [prettyMembers]
    rw [htext, readMembers_newLine]
    refine readMembers_last hvalue key ?_
    rw [skipSpace_newLine]
    exact skipSpace_cons (by decide) _
  | (key, v) :: m :: ms, _, hms, level, level', fuel + 1, hfuel, rest => by
    have hpos := length_newLine_pos level
    simp only [prettyMembers, List.length_append, List.length_cons] at hfuel
    have hlength : (prettyValue level v).length ≤ fuel := by omega
    have hlength' : (prettyMembers level (m :: ms)).length ≤ fuel := by omega
    have hv : ∀ x ∈ v.doubles, Rereads x := fun x hx => hms x (List.mem_append_left _ hx)
    have hms : ∀ x ∈ Value.memberDoubles (m :: ms), Rereads x := fun x hx =>
      hms x (List.mem_append_right _ hx)
    have hmembers := readMembers_prettyMembers (m :: ms) (List.cons_ne_nil m ms) hms level level'
      fuel hlength' rest
    have hvalue := readValue_prettyValue v hv level fuel hlength
      (',' :: (prettyMembers level (m :: ms) ++ (newLine level' ++ '\x7d' :: rest)))
      (endsNumber_cons _ (by decide))
    have htext : prettyMembers level ((key, v) :: m :: ms) ++ (newLine level' ++ '\x7d' :: rest) =
        newLine level ++ (stringChars key ++ ':' :: ' ' :: (prettyValue level v ++
          ',' :: (prettyMembers level (m :: ms) ++ (newLine level' ++ '\x7d' :: rest)))) := by
      simp [prettyMembers]
    rw [htext, readMembers_newLine,
      readMembers_cons hvalue key (skipSpace_cons (by decide) _), hmembers]
    rfl

end

/-- The indented text of a value is read as the draft of the value. -/
theorem Draft.ofText_pretty {v : Value} (hv : ∀ x ∈ v.doubles, Rereads x) :
    Draft.ofText v.pretty = (v.draft, none) := by
  refine Draft.ofText_eq_none_iff.2 ⟨[], ?_, rfl⟩
  have htext : v.pretty.toList = prettyValue 0 v := String.toList_ofList
  rw [htext]
  have hread := readValue_prettyValue v hv 0 (2 * (prettyValue 0 v).length + 2) (by omega) []
    endsNumber_nil
  rwa [List.append_nil] at hread

end Dashboards.Json
