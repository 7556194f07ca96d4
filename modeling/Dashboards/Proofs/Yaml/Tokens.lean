import Dashboards.Proofs.Yaml.Numbers
import Dashboards.Proofs.Yaml.Scanning

/-!
# The tokens of compact JSON text

The compact text of a JSON array or object is a flow collection.  Its tokens are those of the value
that one gets by rereading every string, and it has none if a string cannot be read.  The keys of
objects are supposed to be short names, which can be told to be keys.

## Key results

- `tokens?_compact`: the tokens of the compact text of an array or an object
-/

namespace Dashboards.Yaml

open Json (Value compactValue compactItems compactMembers escapeChar stringChars)

/-! ## Rereading -/

/-- Whether the character may stand in JSON text that is read as YAML, as it is or escaped. -/
def isWritable (c : Char) : Bool := isAllowed c || c.toNat < 0x20

/-- What the text of a JSON string is read as. -/
def rereadText? (text : String) : Option String :=
  if text.toList.all isWritable then (reread? [] text.toList).map String.ofList else none

mutual

/-- The value with every string reread. -/
def rereadValue? : Value → Option Value
  | .string text => (rereadText? text).map .string
  | .array items => (rereadItems? items).map .array
  | .object ms => (rereadMembers? ms).map .object
  | v => some v

/-- The items with every string reread. -/
def rereadItems? : List Value → Option (List Value)
  | [] => some []
  | v :: vs => (rereadValue? v).bind fun v => (rereadItems? vs).map (v :: ·)

/-- The members with every string reread but the keys. -/
def rereadMembers? : List (String × Value) → Option (List (String × Value))
  | [] => some []
  | (key, v) :: ms => (rereadValue? v).bind fun v => (rereadMembers? ms).map ((key, v) :: ·)

end

mutual

/-- Whether all keys in a value are short names. -/
def hasNameKeys : Value → Bool
  | .array items => itemsHaveNameKeys items
  | .object ms => membersHaveNameKeys ms
  | _ => true

/-- Whether all keys in items are short names. -/
def itemsHaveNameKeys : List Value → Bool
  | [] => true
  | v :: vs => hasNameKeys v && itemsHaveNameKeys vs

/-- Whether all keys in members are short names. -/
def membersHaveNameKeys : List (String × Value) → Bool
  | [] => true
  | (key, v) :: ms => Scan.isNameKey key && hasNameKeys v && membersHaveNameKeys ms

end

/-! ## Tokens -/

mutual

/-- The tokens of a value as a part of a flow collection. -/
def valueTokens : Value → List Token
  | .null => [.scalar "null" .plain]
  | .bool true => [.scalar "true" .plain]
  | .bool false => [.scalar "false" .plain]
  | .number n => [.scalar n.text .plain]
  | .string text => [.scalar text .doubleQuoted]
  | .array items => .flowSequenceStart :: itemTokens items
  | .object ms => .flowMappingStart :: memberTokens ms

/-- The tokens of items and of the closing bracket. -/
def itemTokens : List Value → List Token
  | [] => [.flowSequenceEnd]
  | [v] => valueTokens v ++ [.flowSequenceEnd]
  | v :: vs => valueTokens v ++ .flowEntry :: itemTokens vs

/-- The tokens of members and of the closing brace. -/
def memberTokens : List (String × Value) → List Token
  | [] => [.flowMappingEnd]
  | [(key, v)] =>
    [.key, .scalar key .doubleQuoted, .value] ++ valueTokens v ++ [.flowMappingEnd]
  | (key, v) :: ms =>
    [.key, .scalar key .doubleQuoted, .value] ++ valueTokens v ++ .flowEntry :: memberTokens ms

end

/-- There is a comma between the texts of two items. -/
theorem compactItems_cons_cons (v w : Value) (vs : List Value) :
    compactItems (v :: w :: vs) = compactValue v ++ ',' :: compactItems (w :: vs) := by
  simp [compactItems]

/-- There is a token of a comma between those of two items. -/
theorem itemTokens_cons_cons (v w : Value) (vs : List Value) :
    itemTokens (v :: w :: vs) = valueTokens v ++ .flowEntry :: itemTokens (w :: vs) := by
  simp [itemTokens]

/-- The last member is followed by the brace. -/
theorem compactMembers_singleton (key : String) (v : Value) :
    compactMembers [(key, v)] = stringChars key ++ ':' :: (compactValue v ++ ['\x7d']) := by
  simp [compactMembers]

/-- There is a comma between the texts of two members. -/
theorem compactMembers_cons_cons (key : String) (v : Value) (m : String × Value)
    (ms : List (String × Value)) :
    compactMembers ((key, v) :: m :: ms) =
      stringChars key ++ ':' :: (compactValue v ++ ',' :: compactMembers (m :: ms)) := by
  simp [compactMembers]

/-- There is a token of a comma between those of two members. -/
theorem memberTokens_cons_cons (key : String) (v : Value) (m : String × Value)
    (ms : List (String × Value)) :
    memberTokens ((key, v) :: m :: ms) = [.key, .scalar key .doubleQuoted, .value] ++
      valueTokens v ++ .flowEntry :: memberTokens (m :: ms) := by
  simp [memberTokens]

/-- The tokens of several items reread. -/
theorem map_itemTokens_cons_cons (v w : Value) (vs : List Value) :
    (rereadItems? (v :: w :: vs)).map itemTokens =
      ((rereadValue? v).map valueTokens).bind fun ts =>
        (((rereadItems? (w :: vs)).map itemTokens).map ([.flowEntry] ++ ·)).map (ts ++ ·) := by
  rw [rereadItems?]
  cases rereadValue? v with
  | none => rfl
  | some v' =>
    rw [rereadItems?]
    cases rereadValue? w with
    | none => rfl
    | some w' => cases rereadItems? vs <;> simp [itemTokens]

/-- The tokens of several members reread. -/
theorem map_memberTokens_cons_cons (key : String) (v : Value) (m : String × Value)
    (ms : List (String × Value)) :
    (rereadMembers? ((key, v) :: m :: ms)).map memberTokens =
      (((rereadValue? v).map valueTokens).bind fun ts =>
        (((rereadMembers? (m :: ms)).map memberTokens).map ([.flowEntry] ++ ·)).map (ts ++ ·)).map
          ([.key, .scalar key .doubleQuoted, .value] ++ ·) := by
  obtain ⟨key', w⟩ := m
  rw [rereadMembers?]
  cases rereadValue? v with
  | none => rfl
  | some v' =>
    rw [rereadMembers?]
    cases rereadValue? w with
    | none => rfl
    | some w' => cases rereadMembers? ms <;> simp [memberTokens]

/-! ## Characters -/

/-- A character that is not a control of ASCII is not escaped, or is allowed. -/
theorem isAllowed_or_escapeChar_eq (c : Char) :
    isWritable c = true ∨ escapeChar c = [c] := by
  unfold escapeChar
  split
  all_goals first | exact .inl (by decide) | skip
  split
  next h => exact .inl (by simp [isWritable, h])
  next => exact .inr rfl

/-- If the characters of a string are allowed in a text, those of what is written are writable. -/
theorem all_isWritable {text : String} (h : ∀ c ∈ stringChars text, isAllowed c = true) :
    text.toList.all isWritable = true := by
  refine List.all_eq_true.2 fun c hc => ?_
  rcases isAllowed_or_escapeChar_eq c with hw | he
  · exact hw
  -- a character that is not escaped stands in the text itself
  · have hmem : c ∈ stringChars text := by
      rw [stringChars, List.cons_append]
      refine List.mem_cons_of_mem _ (List.mem_append_left _ (List.mem_flatMap.2 ⟨c, hc, ?_⟩))
      rw [he]
      exact List.mem_cons_self
    simp [isWritable, h c hmem]

namespace Scan

/-- The characters of numbers are those of plain scalars. -/
theorem isPlainChar_of_isNumberChar {c : Char} (h : isNumberChar c = true) :
    isPlainChar c = true := by
  rw [isNumberChar, Bool.or_eq_true, decide_eq_true_iff] at h
  rcases h with h | h
  · simp [isPlainChar, Char.isAlphanum, h]
  · simp only [List.mem_cons, List.not_mem_nil, or_false] at h
    rcases h with rfl | rfl | rfl | rfl <;> decide

/-- The text of a number begins like one. -/
theorem beginsWord_numberText (n : Json.Number) : beginsWord n.text.toList = true := by
  obtain ⟨negative, d, cs, htext, hd⟩ := exists_numberText_eq n
  rw [htext]
  cases negative with
  | true => simp [signChars, beginsWord, hd]
  | false => simp [signChars, beginsWord, Char.isAlphanum, hd]

/-! ## Values -/

mutual

/-- A value is found as it is reread. -/
theorem finds_value : (v : Value) → hasNameKeys v = true →
    (∀ c ∈ compactValue v, isAllowed c = true) → (s : Scan) → (depth : Nat) →
    s.Within (depth + 1) → (tail : List Char) → endsScalar tail = true →
    s.place.rest = compactValue v ++ tail →
    s.Finds ((rereadValue? v).map valueTokens) tail (depth + 1)
  | .null, _, _, s, depth, hs, tail, htail, hrest =>
    ⟨1, exists_passes_plain hs (by decide) (List.all_eq_true.1 (by decide)) htail hrest⟩
  | .bool true, _, _, s, depth, hs, tail, htail, hrest =>
    ⟨1, exists_passes_plain hs (by decide) (List.all_eq_true.1 (by decide)) htail hrest⟩
  | .bool false, _, _, s, depth, hs, tail, htail, hrest =>
    ⟨1, exists_passes_plain hs (by decide) (List.all_eq_true.1 (by decide)) htail hrest⟩
  | .number n, _, _, s, depth, hs, tail, htail, hrest => by
    have hchars : ∀ c ∈ n.text.toList, isPlainChar c = true := fun c hc =>
      isPlainChar_of_isNumberChar (Json.Number.isNumberChar_of_mem_text hc)
    have hpasses := exists_passes_plain hs (beginsWord_numberText n) hchars htail hrest
    rw [String.ofList_toList] at hpasses
    exact ⟨1, hpasses⟩
  | .string text, _, hallowed, s, depth, hs, tail, _, hrest => by
    -- the string is closed by its own quote, so that it does not matter what follows
    have hfinds := finds_string hs hrest
    rw [rereadValue?, rereadText?, if_pos (all_isWritable hallowed), Option.map_map, Option.map_map]
    exact hfinds
  | .array items, hkeys, hallowed, s, depth, hs, tail, _, hrest => by
    -- the bracket first, and then the items with the bracket that closes
    obtain ⟨s', hs', -⟩ := exists_passes_open hs List.mem_cons_self hrest
    have hitems := finds_items items hkeys
      (fun c hc => hallowed c (List.mem_cons_of_mem _ hc)) s' (depth + 1) hs'.within tail hs'.place
    rw [rereadValue?, Option.map_map]
    have hfinds := hs'.finds hitems
    rwa [Option.map_map] at hfinds
  | .object ms, hkeys, hallowed, s, depth, hs, tail, _, hrest => by
    obtain ⟨s', hs', hkey⟩ :=
      exists_passes_open hs (List.mem_cons_of_mem _ List.mem_cons_self) hrest
    have hmembers := finds_members ms hkeys
      (fun c hc => hallowed c (List.mem_cons_of_mem _ hc)) s' (depth + 1) hs'.within hkey tail
      hs'.place
    rw [rereadValue?, Option.map_map]
    have hfinds := hs'.finds hmembers
    rwa [Option.map_map] at hfinds

/-- The items of an array are found as they are reread, with the closing bracket. -/
theorem finds_items : (vs : List Value) → itemsHaveNameKeys vs = true →
    (∀ c ∈ compactItems vs, isAllowed c = true) → (s : Scan) → (depth : Nat) →
    s.Within (depth + 1) → (tail : List Char) → s.place.rest = compactItems vs ++ tail →
    s.Finds ((rereadItems? vs).map itemTokens) tail depth
  | [], _, _, s, depth, hs, tail, hrest => ⟨1, exists_passes_close hs (by simp) hrest⟩
  | [v], hkeys, hallowed, s, depth, hs, tail, hrest => by
    rw [itemsHaveNameKeys, Bool.and_eq_true] at hkeys
    rw [compactItems, List.append_assoc] at hrest
    have hvalue := finds_value v hkeys.1
      (fun c hc => hallowed c (by rw [compactItems]; exact List.mem_append_left _ hc)) s depth hs
      (']' :: tail) rfl hrest
    have hfinds : s.Finds (((rereadValue? v).map valueTokens).bind fun ts =>
        (some [Token.flowSequenceEnd]).map (ts ++ ·)) tail depth :=
      hvalue.append fun h => ⟨1, exists_passes_close h.within List.mem_cons_self h.place⟩
    rw [rereadItems?, rereadItems?]
    cases hv : rereadValue? v <;> simpa [hv, itemTokens] using hfinds
  | v :: w :: vs, hkeys, hallowed, s, depth, hs, tail, hrest => by
    rw [itemsHaveNameKeys, Bool.and_eq_true] at hkeys
    rw [compactItems_cons_cons, List.append_assoc, List.cons_append] at hrest
    rw [compactItems_cons_cons] at hallowed
    have hvalue := finds_value v hkeys.1 (fun c hc => hallowed c (List.mem_append_left _ hc)) s
      depth hs (',' :: (compactItems (w :: vs) ++ tail)) rfl hrest
    rw [map_itemTokens_cons_cons]
    refine hvalue.append fun h => ?_
    -- after the comma the scan is inside the same array, with one item less
    obtain ⟨s', hs', -⟩ := exists_passes_comma h.within h.place
    exact hs'.finds (finds_items (w :: vs) hkeys.2 (fun c hc =>
      hallowed c (List.mem_append_right _ (List.mem_cons_of_mem _ hc))) s' depth hs'.within tail
      hs'.place)

/-- The members of an object are found as they are reread, with the closing brace. -/
theorem finds_members : (ms : List (String × Value)) → membersHaveNameKeys ms = true →
    (∀ c ∈ compactMembers ms, isAllowed c = true) → (s : Scan) → (depth : Nat) →
    s.Within (depth + 1) → s.keyAllowed = true → (tail : List Char) →
    s.place.rest = compactMembers ms ++ tail →
    s.Finds ((rereadMembers? ms).map memberTokens) tail depth
  | [], _, _, s, depth, hs, _, tail, hrest => ⟨1, exists_passes_close hs (by simp) hrest⟩
  | [(key, v)], hkeys, hallowed, s, depth, hs, hkey, tail, hrest => by
    rw [membersHaveNameKeys, Bool.and_eq_true, Bool.and_eq_true] at hkeys
    rw [compactMembers_singleton, List.append_assoc, List.cons_append, List.append_assoc] at hrest
    rw [compactMembers_singleton] at hallowed
    obtain ⟨s', hs'⟩ := exists_passes_key hs hkey hkeys.1.1 hrest
    -- what follows the value ends a scalar, here the closing brace
    have hvalue := finds_value v hkeys.1.2 (fun c hc => hallowed c (List.mem_append_right _
      (List.mem_cons_of_mem _ (List.mem_append_left _ hc)))) s' depth hs'.within ('\x7d' :: tail)
      rfl hs'.place
    have hfinds : s'.Finds (((rereadValue? v).map valueTokens).bind fun ts =>
        (some [Token.flowMappingEnd]).map (ts ++ ·)) tail depth :=
      hvalue.append fun h => ⟨1, exists_passes_close h.within
        (List.mem_cons_of_mem _ List.mem_cons_self) h.place⟩
    have hall := hs'.finds hfinds
    rw [rereadMembers?, rereadMembers?]
    cases hv : rereadValue? v <;> simpa [hv, memberTokens] using hall
  | (key, v) :: m :: ms, hkeys, hallowed, s, depth, hs, hkey, tail, hrest => by
    rw [membersHaveNameKeys, Bool.and_eq_true, Bool.and_eq_true] at hkeys
    rw [compactMembers_cons_cons, List.append_assoc, List.cons_append, List.append_assoc,
      List.cons_append] at hrest
    rw [compactMembers_cons_cons] at hallowed
    obtain ⟨s', hs'⟩ := exists_passes_key hs hkey hkeys.1.1 hrest
    -- here it is a comma, after which there is another key
    have hvalue := finds_value v hkeys.1.2 (fun c hc => hallowed c (List.mem_append_right _
      (List.mem_cons_of_mem _ (List.mem_append_left _ hc)))) s' depth hs'.within
      (',' :: (compactMembers (m :: ms) ++ tail)) rfl hs'.place
    rw [map_memberTokens_cons_cons]
    refine hs'.finds (hvalue.append fun h => ?_)
    obtain ⟨s'', hs'', hkey'⟩ := exists_passes_comma h.within h.place
    exact hs''.finds (finds_members (m :: ms) hkeys.2 (fun c hc =>
      hallowed c (List.mem_append_right _ (List.mem_cons_of_mem _ (List.mem_append_right _
        (List.mem_cons_of_mem _ hc))))) s'' depth hs''.within hkey' tail hs''.place)

end

end Scan

/-! ## Characters that are not allowed -/

/-- What is written of a writable character is allowed. -/
theorem isAllowed_of_mem_escapeChar {c x : Char} (hc : isWritable c = true)
    (hx : x ∈ escapeChar c) : isAllowed x = true := by
  have hdigit : ∀ n < 16, isAllowed (Nat.digitChar n) = true := by decide
  revert hx
  unfold escapeChar
  split
  all_goals first | exact List.all_eq_true.1 (by decide) x | skip
  split
  next h =>
    -- a control character: a backslash, a letter and digits
    intro hx
    simp only [List.mem_cons, List.not_mem_nil, or_false] at hx
    rcases hx with rfl | rfl | rfl | rfl | rfl | rfl
    · decide
    · decide
    · decide
    · decide
    · exact hdigit _ (by omega)
    · exact hdigit _ (by omega)
  next h =>
    intro hx
    obtain rfl := List.mem_singleton.1 hx
    rw [isWritable, Bool.or_eq_true, decide_eq_true_iff] at hc
    exact hc.resolve_right h

/-- Letters and digits are allowed. -/
theorem isAllowed_of_isAlphanum {c : Char} (h : c.isAlphanum = true) : isAllowed c = true := by
  have hrange : 0x20 ≤ c.toNat ∧ c.toNat ≤ 0x7E := by
    have hupper : c.isUpper = true ↔ 'A' ≤ c ∧ c ≤ 'Z' := decide_eq_true_iff
    have hlower : c.isLower = true ↔ 'a' ≤ c ∧ c ≤ 'z' :=
      Bool.and_eq_true_iff.trans (and_congr decide_eq_true_iff decide_eq_true_iff)
    have hdigit : c.isDigit = true ↔ '0' ≤ c ∧ c ≤ '9' :=
      Bool.and_eq_true_iff.trans (and_congr decide_eq_true_iff decide_eq_true_iff)
    have halpha : c.isAlpha = true ↔ c.isUpper = true ∨ c.isLower = true := Bool.or_eq_true_iff
    -- all three ranges lie between the space and the tilde
    rw [Char.isAlphanum, Bool.or_eq_true_iff, halpha, hupper, hlower, hdigit] at h
    rcases h with (⟨h, h'⟩ | ⟨h, h'⟩) | ⟨h, h'⟩
    · have hlow : 65 ≤ c.toNat := UInt32.le_iff_toNat_le.1 h
      have hhigh : c.toNat ≤ 90 := UInt32.le_iff_toNat_le.1 h'
      omega
    · have hlow : 97 ≤ c.toNat := UInt32.le_iff_toNat_le.1 h
      have hhigh : c.toNat ≤ 122 := UInt32.le_iff_toNat_le.1 h'
      omega
    · have hlow : 48 ≤ c.toNat := UInt32.le_iff_toNat_le.1 h
      have hhigh : c.toNat ≤ 57 := UInt32.le_iff_toNat_le.1 h'
      omega
  simp [isAllowed, hrange]

/-- The characters of words and numbers are allowed. -/
theorem isAllowed_of_isPlainChar {c : Char} (h : Scan.isPlainChar c = true) :
    isAllowed c = true := by
  simp only [Scan.isPlainChar, Bool.or_eq_true, beq_iff_eq] at h
  rcases h with ((h | rfl) | rfl) | rfl
  · exact isAllowed_of_isAlphanum h
  · decide
  · decide
  · decide

/-- The characters of a key that is a short name are allowed, and so are its quotes. -/
theorem isAllowed_of_mem_key {key : String} (h : Scan.isNameKey key = true) {c : Char}
    (hc : c ∈ stringChars key) : isAllowed c = true := by
  rw [Scan.stringChars_of_isNameKey h] at hc
  have hchars := List.all_eq_true.1 (Bool.and_eq_true_iff.1 h).1
  simp only [List.cons_append, List.mem_cons, List.mem_append, List.not_mem_nil, or_false] at hc
  rcases hc with rfl | hc | rfl
  · decide
  · have hname := hchars c hc
    simp only [isNameChar, Bool.or_eq_true, beq_iff_eq] at hname
    rcases hname with (hname | rfl) | rfl
    · exact isAllowed_of_isAlphanum hname
    · decide
    · decide
  · decide

mutual

/-- The text of a value that can be reread has only characters that are allowed. -/
theorem isAllowed_of_mem_compactValue : (v : Value) → hasNameKeys v = true →
    (rereadValue? v).isSome = true → ∀ c ∈ compactValue v, isAllowed c = true
  | .null, _, _ => List.all_eq_true.1 (by decide)
  | .bool true, _, _ => List.all_eq_true.1 (by decide)
  | .bool false, _, _ => List.all_eq_true.1 (by decide)
  | .number n, _, _ => fun c hc => isAllowed_of_isPlainChar
    (Scan.isPlainChar_of_isNumberChar (Json.Number.isNumberChar_of_mem_text hc))
  | .string text, _, hsome => by
    intro c hc
    -- a text that is not writable is not reread
    have hall : text.toList.all isWritable = true := by
      by_contra hnot
      simp [rereadValue?, rereadText?, hnot] at hsome
    rw [compactValue, stringChars] at hc
    simp only [List.cons_append, List.mem_cons, List.mem_append, List.mem_flatMap, List.not_mem_nil,
      or_false] at hc
    rcases hc with rfl | ⟨x, hx, hc⟩ | rfl
    · decide
    · exact isAllowed_of_mem_escapeChar (List.all_eq_true.1 hall x hx) hc
    · decide
  | .array items, hkeys, hsome => by
    rw [rereadValue?, Option.isSome_map] at hsome
    exact List.forall_mem_cons.2 ⟨by decide, isAllowed_of_mem_compactItems items hkeys hsome⟩
  | .object ms, hkeys, hsome => by
    rw [rereadValue?, Option.isSome_map] at hsome
    exact List.forall_mem_cons.2 ⟨by decide, isAllowed_of_mem_compactMembers ms hkeys hsome⟩

/-- The text of items that can be reread has only characters that are allowed. -/
theorem isAllowed_of_mem_compactItems : (vs : List Value) → itemsHaveNameKeys vs = true →
    (rereadItems? vs).isSome = true → ∀ c ∈ compactItems vs, isAllowed c = true
  | [], _, _ => List.forall_mem_singleton.2 (by decide)
  | [v], hkeys, hsome => by
    rw [rereadItems?, Option.isSome_bind, Option.any_eq_true] at hsome
    -- items that can be reread have a first one that can be, and others that can be
    obtain ⟨v', hv, -⟩ := hsome
    have hvalue := isAllowed_of_mem_compactValue v (Bool.and_eq_true_iff.1 hkeys).1 (hv ▸ rfl)
    rw [compactItems]
    exact List.forall_mem_append.2 ⟨hvalue, List.forall_mem_singleton.2 (by decide)⟩
  | v :: w :: vs, hkeys, hsome => by
    rw [rereadItems?, Option.isSome_bind, Option.any_eq_true] at hsome
    obtain ⟨v', hv, hrest⟩ := hsome
    rw [Option.isSome_map] at hrest
    have hkeys := Bool.and_eq_true_iff.1 hkeys
    have hvalue := isAllowed_of_mem_compactValue v hkeys.1 (hv ▸ rfl)
    rw [compactItems_cons_cons]
    exact List.forall_mem_append.2 ⟨hvalue, List.forall_mem_cons.2 ⟨by decide,
      isAllowed_of_mem_compactItems (w :: vs) hkeys.2 hrest⟩⟩

/-- The text of members that can be reread has only characters that are allowed. -/
theorem isAllowed_of_mem_compactMembers : (ms : List (String × Value)) →
    membersHaveNameKeys ms = true → (rereadMembers? ms).isSome = true →
    ∀ c ∈ compactMembers ms, isAllowed c = true
  | [], _, _ => List.forall_mem_singleton.2 (by decide)
  | [(key, v)], hkeys, hsome => by
    rw [rereadMembers?, Option.isSome_bind, Option.any_eq_true] at hsome
    obtain ⟨v', hv, -⟩ := hsome
    rw [membersHaveNameKeys, Bool.and_eq_true, Bool.and_eq_true] at hkeys
    have hvalue := isAllowed_of_mem_compactValue v hkeys.1.2 (hv ▸ rfl)
    rw [compactMembers_singleton]
    exact List.forall_mem_append.2 ⟨fun c => isAllowed_of_mem_key hkeys.1.1,
      List.forall_mem_cons.2 ⟨by decide, List.forall_mem_append.2 ⟨hvalue,
        List.forall_mem_singleton.2 (by decide)⟩⟩⟩
  | (key, v) :: m :: ms, hkeys, hsome => by
    rw [rereadMembers?, Option.isSome_bind, Option.any_eq_true] at hsome
    obtain ⟨v', hv, hrest⟩ := hsome
    rw [Option.isSome_map] at hrest
    rw [membersHaveNameKeys, Bool.and_eq_true, Bool.and_eq_true] at hkeys
    have hvalue := isAllowed_of_mem_compactValue v hkeys.1.2 (hv ▸ rfl)
    rw [compactMembers_cons_cons]
    exact List.forall_mem_append.2 ⟨fun c => isAllowed_of_mem_key hkeys.1.1,
      List.forall_mem_cons.2 ⟨by decide, List.forall_mem_append.2 ⟨hvalue,
        List.forall_mem_cons.2 ⟨by decide,
          isAllowed_of_mem_compactMembers (m :: ms) hkeys.2 hrest⟩⟩⟩⟩

end

/-! ## Texts -/

/-- What is found up to the end of the text is what the scan returns. -/
theorem Scan.Finds.run_eq {s : Scan} {ts : Option (List Token)} (h : s.Finds ts [] 0)
    (hfound : s.found = []) {fuel : Nat} (hfuel : s.place.rest.length < fuel) :
    s.run fuel = ts := by
  cases ts with
  | some ts =>
    obtain ⟨rounds, s', hs'⟩ := h
    have hrounds := hs'.rounds_le
    obtain ⟨left, rfl⟩ : ∃ left, fuel = rounds + (left + 1) := ⟨fuel - rounds - 1, by
      rw [List.length_nil] at hrounds
      omega⟩
    rw [hs'.run_add, run_nil hs'.within hs'.place, hs'.found, hfound]
    simp
  | none =>
    obtain ⟨rounds, hrounds, hs'⟩ := h
    rw [← Nat.add_sub_cancel' (hrounds.trans hfuel.le), hs']

/-- The tokens of the compact text of an object are those of the object reread; if it cannot be
reread, the text has none. -/
theorem tokens?_compact {ms : List (String × Value)} (hkeys : membersHaveNameKeys ms = true) :
    tokens? (Value.object ms).compact = (rereadValue? (.object ms)).map valueTokens := by
  rw [tokens?, Value.compact, String.toList_ofList]
  by_cases hallowed : (compactValue (.object ms)).all isAllowed = true
  · rw [if_pos hallowed]
    have hchars := List.all_eq_true.1 hallowed
    have hrest : (Scan.start (compactValue (.object ms))).place.rest =
        '\x7b' :: compactMembers ms := rfl
    -- the first brace opens a collection, and what is found in it is found to its end
    obtain ⟨s, hs, hkey⟩ := Scan.exists_passes_open (Scan.within_start _)
      (List.mem_cons_of_mem _ List.mem_cons_self) hrest
    have hmembers := Scan.finds_members ms hkeys
      (fun c hc => hchars c (List.mem_cons_of_mem _ hc)) s 0 hs.within hkey []
      (by rw [hs.place, List.append_nil])
    have hfinds := hs.finds hmembers
    rw [rereadValue?, Option.map_map]
    rw [Option.map_map] at hfinds
    exact hfinds.run_eq rfl (Nat.lt_succ_of_lt (Nat.lt_succ_self _))
  · rw [if_neg hallowed]
    cases hsome : rereadValue? (.object ms) with
    | none => rfl
    | some v =>
      exact absurd (List.all_eq_true.2 (isAllowed_of_mem_compactValue (.object ms) hkeys
        (hsome ▸ rfl))) hallowed

end Dashboards.Yaml
