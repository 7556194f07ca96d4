import Dashboards.Proofs.Yaml.Quoted
import Dashboards.Yaml.Token.Scan

/-!
# Steps of a scan

What a scan does at one token, where no block collection is open and every place of a possible key
may be given up: brackets, commas, keys between quotes, and scalars.  Each step is one round of the
scan and leaves it in such a state again, so that steps can be put one after the other.

## Key results

- `Scan.Passes.trans`: steps one after the other
- `Scan.exists_passes_open`, `Scan.exists_passes_close`, `Scan.exists_passes_comma`,
  `Scan.exists_passes_key`, `Scan.finds_string`, `Scan.exists_passes_plain`
-/

namespace Dashboards.Yaml

open Json (escapeChar stringChars)

namespace Scan

/-! ## States -/

/-- The scan is inside so many flow collections and in no block collection, and no key has to be
where one may have started. -/
structure Within (depth : Nat) (s : Scan) : Prop where
  candidates : s.candidates.length = depth + 1
  optional : ∀ c ∈ s.candidates, ∀ k ∈ c, k.isRequired = false
  indent : s.indent = -1
  outer : s.outer = []

/-- At the start the scan is inside no collection. -/
theorem within_start (cs : List Char) : (start cs).Within 0 := ⟨rfl, by simp [start], rfl, rfl⟩

section

variable {s : Scan} {depth : Nat} (hs : s.Within depth)
include hs

/-- The scan is in a flow collection if it is inside at least one. -/
theorem Within.inFlow : s.inFlow = decide (0 < depth) := by
  rw [Scan.inFlow, hs.candidates]
  exact decide_eq_decide.2 (by omega)

/-- There is no block collection that a line could close. -/
theorem Within.outdentTo (column : Int) : s.outdentTo column = s := by
  have hnone : outdent column s.indent s.outer = (s.indent, s.outer, 0) := by
    rw [hs.outer, outdent]
  rw [Scan.outdentTo, hnone]
  split <;> rfl

/-- Where a key may have started can be given up. -/
theorem Within.exists_unmarkKey_eq :
    ∃ cs, s.unmarkKey = some { s with candidates := cs } ∧
      ({ s with candidates := cs } : Scan).Within depth := by
  rw [unmarkKey]
  split
  next c rest heq =>
    have hc : c.isRequired = false := hs.optional (some c) (heq ▸ List.mem_cons_self) c rfl
    rw [hc, if_neg Bool.false_ne_true]
    refine ⟨_, rfl, ⟨?_, fun c' hc' k hk => ?_, hs.indent, hs.outer⟩⟩
    · rw [← hs.candidates, heq]
      rfl
    · rcases List.mem_cons.1 hc' with rfl | hc'
      · exact nomatch hk
      · exact hs.optional c' (heq ▸ List.mem_cons_of_mem _ hc') k hk
  next => exact ⟨s.candidates, rfl, hs⟩

/-- A key may start where one is allowed, and need not be there. -/
theorem Within.markKey_eq (hkey : s.keyAllowed = true) :
    s.markKey = some { s with
      candidates := some ⟨s.place, s.found.length, false⟩ :: s.candidates.tail } := by
  -- a key is required in the column of a block mapping, and none is open
  have hcolumn : (!s.inFlow && s.indent == s.place.column) = false := by
    have hne : (s.indent == (s.place.column : Int)) = false := by
      rw [hs.indent, beq_eq_false_iff_ne]
      omega
    rw [hne, Bool.and_false]
  rw [markKey, if_pos hkey, hcolumn]
  cases heq : s.candidates with
  | nil => exact absurd (congrArg List.length heq) (by simp [hs.candidates])
  | cons c rest =>
    cases c with
    | none => rfl
    | some c =>
      have hc : c.isRequired = false := hs.optional (some c) (heq ▸ List.mem_cons_self) c rfl
      simp [hc]

/-- The state stays as it is described when a key may have started. -/
theorem Within.mark (before : Nat) :
    ({ s with candidates := some ⟨s.place, before, false⟩ :: s.candidates.tail } : Scan).Within
      depth := by
  refine ⟨?_, fun c hc k hk => ?_, hs.indent, hs.outer⟩
  · show s.candidates.tail.length + 1 = depth + 1
    rw [List.length_tail, hs.candidates]
    rfl
  · rcases List.mem_cons.1 hc with rfl | hc
    · obtain rfl := Option.mem_some.1 hk
      rfl
    · exact hs.optional c (List.mem_of_mem_tail hc) k hk

/-- A key may be marked anywhere: where none is allowed nothing happens. -/
theorem Within.exists_markKey_eq :
    ∃ cs, s.markKey = some { s with candidates := cs } ∧
      ({ s with candidates := cs } : Scan).Within depth := by
  by_cases hkey : s.keyAllowed = true
  · exact ⟨_, hs.markKey_eq hkey, hs.mark _⟩
  · exact ⟨s.candidates, if_neg hkey, hs⟩

end

/-! ## Rounds -/

/-- The scan without the places of keys that can no longer end here. -/
def settled (s : Scan) : Scan :=
  { s with candidates := s.candidates.map (·.filter (!KeyCandidate.isStale s.place ·)) }

/-- Keys that can no longer end here are dropped: none of them is required. -/
theorem Within.dropStaleKeys_eq {s : Scan} {depth : Nat} (hs : s.Within depth) :
    s.dropStaleKeys = some s.settled := by
  -- induction on the places, each of which is kept or dropped by itself
  have hall : ∀ cs : List (Option KeyCandidate), (∀ c ∈ cs, ∀ k ∈ c, k.isRequired = false) →
      dropStale s.place cs = some (cs.map (·.filter (!KeyCandidate.isStale s.place ·))) := by
    intro cs
    induction cs with
    | nil => intro _; rfl
    | cons c cs ih =>
      intro h
      have ih := ih fun c' hc' => h c' (List.mem_cons_of_mem c hc')
      cases c with
      | none => simp [dropStale, ih]
      | some k =>
        have hk : k.isRequired = false := h (some k) List.mem_cons_self k rfl
        by_cases hstale : KeyCandidate.isStale s.place k = true
        · simp [dropStale, ih, hk, hstale, Option.filter_some]
        · simp [dropStale, ih, hstale, Option.filter_some]
  rw [dropStaleKeys, hall s.candidates hs.optional]
  rfl

/-- The state stays as it is described when keys are dropped. -/
theorem Within.settled {s : Scan} {depth : Nat} (hs : s.Within depth) : s.settled.Within depth := by
  refine ⟨?_, fun c hc k hk => ?_, hs.indent, hs.outer⟩
  · show (s.candidates.map _).length = depth + 1
    rw [List.length_map, hs.candidates]
  · obtain ⟨c', hc', rfl⟩ := List.mem_map.1 hc
    exact hs.optional c' hc' k (Option.mem_filter_iff.1 hk).1

/-- Whether a token starts with the character, wherever it stands. -/
def startsToken (c : Char) : Bool := !isSeparator c && c != '#' && c != '\ufeff'

/-- Nothing is passed over where a token starts or the text ends. -/
theorem passSpace_eq {s : Scan} (h : ∀ c ∈ s.place.rest.head?, startsToken c = true) (fuel : Nat) :
    s.passSpace (fuel + 1) = s := by
  rw [passSpace]
  cases hrest : s.place.rest with
  | nil => simp [hrest, Cursor.skipWhile, Cursor.advance_zero]
  | cons c cs =>
    have hc : startsToken c = true := h c (by rw [hrest]; rfl)
    simp only [startsToken, isSeparator, isBlank, Bool.and_eq_true, Bool.not_eq_true',
      Bool.or_eq_false_iff, bne_iff_ne, beq_eq_false_iff_ne] at hc
    obtain ⟨⟨⟨⟨hspace, htab⟩, hbreak⟩, hcomment⟩, hmark⟩ := hc
    simp [hrest, Cursor.skipWhile, Cursor.advance_zero, hspace, htab, hbreak, hcomment, hmark]

/-- A round of the scan finds the token that starts here. -/
theorem run_succ {s : Scan} {depth : Nat} (hs : s.Within depth) {c : Char} {cs : List Char}
    (hrest : s.place.rest = c :: cs) (hc : startsToken c = true) (fuel : Nat) :
    s.run (fuel + 1) = (s.settled.scanToken c cs).bind (·.run fuel) := by
  -- a token starts here, so that nothing is passed over before it
  have hpass : s.passSpace (s.place.rest.length + 1) = s :=
    passSpace_eq (by rw [hrest]; simpa using hc) _
  have hsame : s.settled.place = s.place := rfl
  rw [run, hpass, hs.dropStaleKeys_eq]
  simp only [hs.settled.outdentTo, hsame, hrest]
  cases s.settled.scanToken c cs <;> rfl

/-- At the end of the text the scan is over. -/
theorem run_nil {s : Scan} {depth : Nat} (hs : s.Within depth) (hrest : s.place.rest = [])
    (fuel : Nat) : s.run (fuel + 1) = some s.found.reverse := by
  have hpass : s.passSpace (s.place.rest.length + 1) = s :=
    passSpace_eq (by rw [hrest]; simp) _
  have hsame : s.settled.place = s.place := rfl
  obtain ⟨cs, hcs, -⟩ := hs.settled.exists_unmarkKey_eq
  rw [run, hpass, hs.dropStaleKeys_eq]
  simp only [hs.settled.outdentTo, hsame, hrest, finish, hcs]
  rfl

/-! ## Steps -/

/-- From one state the scan comes in some rounds to another one, where so many characters are left
and some more tokens are found. -/
structure Passes (rounds : Nat) (ts : List Token) (rest : List Char) (depth : Nat) (s s' : Scan) :
    Prop where
  run_add : ∀ fuel, s.run (rounds + fuel) = s'.run fuel
  place : s'.place.rest = rest
  found : s'.found = ts.reverse ++ s.found
  rounds_le : rounds + rest.length ≤ s.place.rest.length
  within : s'.Within depth

/-- Steps one after the other find their tokens one after the other. -/
theorem Passes.trans {m n : Nat} {ts us : List Token} {mid rest : List Char} {inner depth : Nat}
    {s₁ s₂ s₃ : Scan} (h₁ : s₁.Passes m ts mid inner s₂) (h₂ : s₂.Passes n us rest depth s₃) :
    s₁.Passes (m + n) (ts ++ us) rest depth s₃ where
  run_add fuel := by rw [Nat.add_assoc, h₁.run_add, h₂.run_add]
  place := h₂.place
  found := by rw [h₂.found, h₁.found, List.reverse_append, List.append_assoc]
  rounds_le := by
    have := h₁.rounds_le
    have := h₂.rounds_le
    rw [h₁.place] at this
    omega
  within := h₂.within

/-- What a scan finds before some characters that are left: tokens, or nothing at all because it
fails before it comes there. -/
def Finds (s : Scan) (ts : Option (List Token)) (rest : List Char) (depth : Nat) : Prop :=
  match ts with
  | some ts => ∃ rounds s', s.Passes rounds ts rest depth s'
  | none => ∃ rounds ≤ s.place.rest.length, ∀ fuel, s.run (rounds + fuel) = none

/-- A step before. -/
theorem Passes.finds {m : Nat} {ts : List Token} {us : Option (List Token)} {mid rest : List Char}
    {inner depth : Nat} {s s' : Scan} (h : s.Passes m ts mid inner s')
    (h' : s'.Finds us rest depth) : s.Finds (us.map (ts ++ ·)) rest depth := by
  cases us with
  | some us =>
    obtain ⟨n, s'', h''⟩ := h'
    exact ⟨m + n, s'', h.trans h''⟩
  | none =>
    obtain ⟨n, hle, hn⟩ := h'
    rw [h.place] at hle
    exact ⟨m + n, (Nat.add_le_add_left hle m).trans h.rounds_le, fun fuel => by
      rw [Nat.add_assoc, h.run_add, hn]⟩

/-- What is found before what is found. -/
theorem Finds.append {ts us : Option (List Token)} {mid rest : List Char} {inner depth : Nat}
    {s : Scan} (h : s.Finds ts mid inner)
    (h' : ∀ {rounds ts s'}, s.Passes rounds ts mid inner s' → s'.Finds us rest depth) :
    s.Finds (ts.bind fun ts => us.map (ts ++ ·)) rest depth := by
  cases ts with
  | some ts =>
    obtain ⟨m, s', hs'⟩ := h
    exact hs'.finds (h' hs')
  | none => exact h

/-- One round in which the token at a place is found. -/
theorem passes_of_scanToken {s s' : Scan} {depth depth' : Nat} (hs : s.Within depth) {c : Char}
    {cs rest : List Char} (hrest : s.place.rest = c :: cs) (hc : startsToken c = true)
    (h : s.settled.scanToken c cs = some s') {ts : List Token} (hplace : s'.place.rest = rest)
    (hfound : s'.found = ts.reverse ++ s.found) (hlength : rest.length ≤ cs.length)
    (hs' : s'.Within depth') : s.Passes 1 ts rest depth' s' where
  run_add fuel := by rw [Nat.add_comm, run_succ hs hrest hc, h, Option.bind_some]
  place := hplace
  found := hfound
  rounds_le := by
    rw [hrest, List.length_cons]
    omega
  within := hs'

end Scan

/-! ## Kinds of tokens -/

/-- A place before another character is no marker of documents. -/
theorem Cursor.atMarker_eq_false {p : Cursor} {x c : Char} {cs : List Char}
    (hrest : p.rest = x :: cs) (h : x ≠ c) : p.atMarker c = false := by
  simp [Cursor.atMarker, hrest, h]

namespace Scan

variable {s : Scan} {depth : Nat} {cs tail : List Char}

/-- An opening bracket or brace.  A key may start after it. -/
theorem exists_passes_open (hs : s.Within depth) {c : Char} {t : Token}
    (hc : (c, t) ∈ [('[', Token.flowSequenceStart), ('\x7b', .flowMappingStart)])
    (hrest : s.place.rest = c :: cs) :
    ∃ s', s.Passes 1 [t] cs (depth + 1) s' ∧ s'.keyAllowed = true := by
  have hplace : s.settled.place.rest = c :: cs := hrest
  -- a bracket is neither a marker of documents nor anything else that starts a token
  have hscan : s.settled.scanToken c cs = s.settled.scanFlowStart t ∧ startsToken c = true := by
    simp only [List.mem_cons, Prod.mk.injEq, List.not_mem_nil, or_false] at hc
    rcases hc with ⟨rfl, rfl⟩ | ⟨rfl, rfl⟩
    · simp [scanToken, Cursor.atMarker_eq_false hplace]
      decide
    · simp [scanToken, Cursor.atMarker_eq_false hplace]
      decide
  obtain ⟨ks, hmark, hks⟩ := hs.settled.exists_markKey_eq
  have hstart : s.settled.scanFlowStart t = some (({ s.settled with
      candidates := none :: ks, keyAllowed := true }.advance 1).emit t) := by
    simp [scanFlowStart, hmark]
  refine ⟨_, passes_of_scanToken hs hrest hscan.2 (hscan.1.trans hstart)
    (Cursor.rest_advance_one hplace) rfl le_rfl ⟨?_, fun k hk => ?_, hks.indent, hks.outer⟩, rfl⟩
  -- inside there is one more place where a key may start
  · show (none :: ks).length = _
    rw [List.length_cons, hks.candidates]
  · rcases List.mem_cons.1 hk with rfl | hk
    · exact fun k hk => nomatch hk
    · exact hks.optional k hk

/-- A closing bracket or brace. -/
theorem exists_passes_close (hs : s.Within (depth + 1)) {c : Char} {t : Token}
    (hc : (c, t) ∈ [(']', Token.flowSequenceEnd), ('\x7d', .flowMappingEnd)])
    (hrest : s.place.rest = c :: cs) : ∃ s', s.Passes 1 [t] cs depth s' := by
  have hplace : s.settled.place.rest = c :: cs := hrest
  have hscan : s.settled.scanToken c cs = s.settled.scanFlowEnd t ∧ startsToken c = true := by
    simp only [List.mem_cons, Prod.mk.injEq, List.not_mem_nil, or_false] at hc
    rcases hc with ⟨rfl, rfl⟩ | ⟨rfl, rfl⟩
    · simp [scanToken, Cursor.atMarker_eq_false hplace]
      decide
    · simp [scanToken, Cursor.atMarker_eq_false hplace]
      decide
  obtain ⟨ks, hunmark, hks⟩ := hs.settled.exists_unmarkKey_eq
  have hflow : ({ s.settled with candidates := ks } : Scan).inFlow = true := by
    rw [hks.inFlow]
    exact decide_eq_true (by omega)
  have hend : s.settled.scanFlowEnd t = some (({ s.settled with
      candidates := ks.drop 1, keyAllowed := false }.advance 1).emit t) := by
    simp [scanFlowEnd, hunmark, hflow]
  refine ⟨_, passes_of_scanToken hs hrest hscan.2 (hscan.1.trans hend)
    (Cursor.rest_advance_one hplace) rfl le_rfl ⟨?_, fun k hk => ?_, hks.indent, hks.outer⟩⟩
  -- the place of the innermost collection goes with it
  · show (ks.drop 1).length = _
    rw [List.length_drop, hks.candidates]
    rfl
  · exact hks.optional k (List.mem_of_mem_drop hk)

/-- A comma.  A key may start after it. -/
theorem exists_passes_comma (hs : s.Within depth) (hrest : s.place.rest = ',' :: cs) :
    ∃ s', s.Passes 1 [.flowEntry] cs depth s' ∧ s'.keyAllowed = true := by
  have hplace : s.settled.place.rest = ',' :: cs := hrest
  have hscan : s.settled.scanToken ',' cs = s.settled.scanFlowEntry := by
    simp [scanToken, Cursor.atMarker_eq_false hplace]
  obtain ⟨ks, hunmark, hks⟩ := hs.settled.exists_unmarkKey_eq
  have hentry : s.settled.scanFlowEntry = some (({ s.settled with
      candidates := ks, keyAllowed := true }.advance 1).emit .flowEntry) := by
    simp [scanFlowEntry, hunmark]
  exact ⟨_, passes_of_scanToken hs hrest (by decide) (hscan.trans hentry)
    (Cursor.rest_advance_one hplace) rfl le_rfl ⟨hks.candidates, hks.optional, hks.indent,
      hks.outer⟩, rfl⟩

/-- The scan at a quote. -/
theorem scanToken_quote (hrest : s.place.rest = '"' :: cs) :
    s.scanToken '"' cs = s.scanQuoted .doubleQuoted doubleQuotedStep := by
  simp [scanToken, Cursor.atMarker_eq_false hrest]

/-- Whether a key is short and has no other characters than those of names. -/
def isNameKey (key : String) : Bool := key.toList.all isNameChar && key.length ≤ 250

/-- A character of names is none of a gap. -/
theorem isGapChar_of_isNameChar {c : Char} (h : isNameChar c = true) : isGapChar c = false := by
  rw [← Bool.not_eq_true, isGapChar_iff]
  rintro (rfl | rfl | hc)
  · exact absurd h (by decide)
  · exact absurd h (by decide)
  · rcases List.mem_pair.1 hc with rfl | rfl <;> exact absurd h (by decide)

/-- A character of names is not escaped. -/
theorem escapeChar_of_isNameChar {c : Char} (h : isNameChar c = true) : escapeChar c = [c] := by
  unfold escapeChar
  split
  all_goals first | exact absurd h (by decide) | skip
  rw [if_neg]
  intro hcontrol
  have hall : ∀ n < 0x20, isNameChar (Char.ofNat n) = false := by decide
  have := hall c.toNat hcontrol
  rw [Char.ofNat_toNat, h] at this
  exact nomatch this

/-- The characters of a name are written as they are. -/
theorem flatMap_escapeChar_of_isNameKey {key : String} (h : isNameKey key = true) :
    key.toList.flatMap escapeChar = key.toList := by
  have hall : ∀ c ∈ key.toList, escapeChar c = [c] := fun c hc =>
    escapeChar_of_isNameChar (List.all_eq_true.1 (Bool.and_eq_true_iff.1 h).1 c hc)
  rw [List.flatMap_congr hall]
  simp

/-- A key that is a short name stands between the quotes as it is. -/
theorem stringChars_of_isNameKey {key : String} (h : isNameKey key = true) :
    stringChars key = '"' :: key.toList ++ ['"'] := by
  rw [stringChars, flatMap_escapeChar_of_isNameKey h]

/-- A name is read after the opening quote as it is, in one line. -/
theorem readQuoted_name {key : String} (hkey : isNameKey key = true) {p : Cursor}
    {tail : List Char} (hrest : p.rest = '"' :: (key.toList ++ '"' :: tail)) (fuel : Nat) :
    readQuoted doubleQuotedStep (fuel + 1) (p.advance 1) =
        some (key.toList, p.advance (key.length + 2)) ∧
      (p.advance (key.length + 2)).rest = tail := by
  have hchars := List.all_eq_true.1 (Bool.and_eq_true_iff.1 hkey).1
  have hescaped := flatMap_escapeChar_of_isNameKey hkey
  have hopened : (p.advance 1).rest = key.toList.flatMap escapeChar ++ '"' :: tail := by
    rw [Cursor.rest_advance_one hrest, hescaped]
  have hend : (p.advance 1).advance (key.toList.length + 1) = p.advance (key.length + 2) := by
    rw [Cursor.advance_advance, String.length_toList, Nat.add_comm]
  constructor
  · rw [readQuoted_word (fun c hc => isGapChar_of_isNameChar (hchars c hc)) hopened
      (Nat.succ_ne_zero _), hescaped, hend]
  · rw [← hend, ← hescaped, ← Cursor.advance_advance]
    exact Cursor.rest_advance_one (Cursor.rest_advance hopened)

/-- A colon after a key.  The mark of the key goes before its text. -/
theorem exists_run_colon (hs : s.Within (depth + 1)) {c : KeyCandidate}
    {ks : List (Option KeyCandidate)} (hcandidates : s.settled.candidates = some c :: ks)
    {t : Token} {found : List Token} (hfound : s.settled.found = t :: found)
    (hbefore : c.before = found.length) (hrest : s.settled.place.rest = ':' :: cs) :
    ∃ s' : Scan, (∀ fuel, s.run (1 + fuel) = s'.run fuel) ∧ s'.place.rest = cs ∧
      s'.found = .value :: t :: .key :: found ∧ s'.Within (depth + 1) := by
  have hlength : ks.length = depth + 1 := by
    have := hs.settled.candidates
    rw [hcandidates, List.length_cons] at this
    omega
  have hflow : s.settled.inFlow = true := by
    rw [hs.settled.inFlow]
    exact decide_eq_true (Nat.succ_pos _)
  -- the scan stays in the collection, whatever it has found
  have hflow' : ∀ found',
      ({ s.settled with found := found', candidates := none :: ks } : Scan).inFlow = true := by
    intro found'
    simp [Scan.inFlow, hlength]
  have hscan : s.settled.scanToken ':' cs = s.settled.scanValue := by
    simp [scanToken, Cursor.atMarker_eq_false hrest, hflow]
  obtain ⟨s', hs'⟩ : ∃ s' : Scan, s' = ({ s.settled with
      found := t :: .key :: found, candidates := none :: ks, keyAllowed := false }.advance 1).emit
        .value := ⟨_, rfl⟩
  -- the candidate was noted just before the last token, so the mark goes there
  have hvalue : s.settled.scanValue = some s' := by
    rw [hs', scanValue, hcandidates]
    simp [indentTo, hflow', hfound, hbefore]
  refine ⟨s', fun fuel => ?_, ?_, by rw [hs']; rfl, ?_⟩
  · rw [Nat.add_comm, run_succ hs hrest (by decide), hscan, hvalue, Option.bind_some]
  · rw [hs']
    exact Cursor.rest_advance_one hrest
  · have hoptional := hs.settled.optional
    rw [hcandidates] at hoptional
    rw [hs']
    refine ⟨?_, fun k hk => ?_, hs.indent, hs.outer⟩
    · show (none :: ks).length = _
      rw [List.length_cons, hlength]
    · rcases List.mem_cons.1 hk with rfl | hk
      · exact fun k hk => nomatch hk
      · exact hoptional k (List.mem_cons_of_mem _ hk)

/-- So near to its start, a key may still end. -/
theorem isStale_advance_eq_false (p : Cursor) (before : Nat) {n : Nat} (hn : n ≤ 252) :
    KeyCandidate.isStale (p.advance n) ⟨p, before, false⟩ = false := by
  have hindex := Cursor.index_advance_le p n
  simp only [KeyCandidate.isStale, Bool.or_eq_false_iff, decide_eq_false_iff_not, not_lt]
  exact ⟨le_rfl, by omega⟩

/-- A name between quotes, which may be a key. -/
theorem exists_passes_name (hs : s.Within depth) (hallowed : s.keyAllowed = true) {key : String}
    (hkey : isNameKey key = true) (hrest : s.place.rest = stringChars key ++ ':' :: cs) :
    ∃ s', s.Passes 1 [.scalar key .doubleQuoted] (':' :: cs) depth s' ∧
      s'.place = s.place.advance (key.length + 2) ∧
      s'.candidates = some ⟨s.place, s.found.length, false⟩ :: s.settled.candidates.tail ∧
      s'.found = .scalar key .doubleQuoted :: s.found := by
  rw [stringChars_of_isNameKey hkey, List.cons_append, List.cons_append, List.append_assoc] at hrest
  have hplace : s.settled.place.rest = '"' :: (key.toList ++ '"' :: ':' :: cs) := hrest
  obtain ⟨hread, hnext⟩ := readQuoted_name hkey hplace (s.settled.place.advance 1).rest.length
  have hmarked := hs.settled.mark s.found.length
  obtain ⟨s', hs'⟩ : ∃ s' : Scan, s' = { s.settled with
      place := s.place.advance (key.length + 2)
      found := .scalar key .doubleQuoted :: s.found
      candidates := some ⟨s.place, s.found.length, false⟩ :: s.settled.candidates.tail
      keyAllowed := false } := ⟨_, rfl⟩
  -- a key may start here, so that the place is noted
  have hscan : s.settled.scanToken '"' (key.toList ++ '"' :: ':' :: cs) = some s' := by
    rw [scanToken_quote hplace, scanQuoted, hs.settled.markKey_eq hallowed, hs']
    simp only [Option.bind_eq_bind, Option.bind_some, hread, String.ofList_toList]
    rfl
  refine ⟨s', passes_of_scanToken hs hrest (by decide) hscan ?_ ?_ (by simp; omega) ?_, ?_⟩
  · rw [hs']
    exact hnext
  · rw [hs']
    rfl
  · rw [hs']
    exact ⟨hmarked.candidates, hmarked.optional, hmarked.indent, hmarked.outer⟩
  · rw [hs']
    exact ⟨rfl, rfl, rfl⟩

/-- A key with the colon after it.  The mark of the key goes before its text. -/
theorem exists_passes_key (hs : s.Within (depth + 1)) (hallowed : s.keyAllowed = true)
    {key : String} (hkey : isNameKey key = true)
    (hrest : s.place.rest = stringChars key ++ ':' :: cs) :
    ∃ s', s.Passes 2 [.key, .scalar key .doubleQuoted, .value] cs (depth + 1) s' := by
  obtain ⟨s₁, hname, hplace, hcandidates, hfound⟩ := exists_passes_name hs hallowed hkey hrest
  have hlength : key.length ≤ 250 := of_decide_eq_true (Bool.and_eq_true_iff.1 hkey).2
  -- the colon is near enough to the start of the name
  have hnear := isStale_advance_eq_false s.place s.found.length (Nat.add_le_add_right hlength 2)
  have hsettled : s₁.settled.candidates = some ⟨s.place, s.found.length, false⟩ ::
      (s.settled.candidates.tail).map (·.filter (!KeyCandidate.isStale s₁.place ·)) := by
    simp [Scan.settled, hcandidates, hplace, Option.filter_some, hnear]
  obtain ⟨s₂, hrun, hs₂rest, hs₂found, hs₂⟩ :=
    exists_run_colon hname.within hsettled (hfound : s₁.settled.found = _) rfl hname.place
  exact ⟨s₂, fun fuel => by rw [Nat.add_assoc 1 1 fuel, hname.run_add, hrun], hs₂rest,
    by rw [hs₂found]; rfl, by
      have := hname.rounds_le
      rw [List.length_cons] at this
      omega, hs₂⟩

/-- A string is found as its text is reread. -/
theorem finds_string (hs : s.Within depth) {text : String}
    (hrest : s.place.rest = stringChars text ++ tail) :
    s.Finds ((reread? [] text.toList).map fun t => [.scalar (String.ofList t) .doubleQuoted]) tail
      depth := by
  rw [stringChars, List.cons_append, List.cons_append, List.append_assoc, List.singleton_append]
    at hrest
  have hplace : s.settled.place.rest = '"' :: (text.toList.flatMap escapeChar ++ '"' :: tail) :=
    hrest
  have hopened := Cursor.rest_advance_one hplace
  obtain ⟨ks, hmark, hks⟩ := hs.settled.exists_markKey_eq
  have hlong : text.toList.length < (s.settled.place.advance 1).rest.length + 1 := by
    have hle := length_le_flatMap_escapeChar text.toList
    rw [hopened, List.length_append]
    omega
  obtain ⟨q, hq, hread⟩ := exists_readQuoted_eq hopened hlong
  -- after the quote the scan is not at the start of a line
  have hcolumn : ((s.settled.place.advance 1).column == 0) = false := rfl
  rw [hcolumn, Bool.false_and, if_neg Bool.false_ne_true] at hread
  -- whether the string is read is whether its text can be reread
  have hscan : s.settled.scanToken '"' (text.toList.flatMap escapeChar ++ '"' :: tail) =
      (reread? [] text.toList).map fun t => { s.settled with
        place := q
        found := .scalar (String.ofList t) .doubleQuoted :: s.found
        candidates := ks
        keyAllowed := false } := by
    rw [scanToken_quote hplace, scanQuoted, hmark]
    simp only [Option.bind_eq_bind, Option.bind_some, hread]
    cases reread? [] text.toList <;> rfl
  cases htext : reread? [] text.toList with
  | none =>
    rw [htext] at hscan
    refine ⟨1, by rw [hrest]; exact Nat.succ_pos _, fun fuel => ?_⟩
    rw [Nat.add_comm, run_succ hs hrest (by decide), hscan]
    rfl
  | some t =>
    rw [htext] at hscan
    exact ⟨1, _, passes_of_scanToken hs hrest (by decide) hscan hq rfl (by simp; omega)
      ⟨hks.candidates, hks.optional, hks.indent, hks.outer⟩⟩

/-! ## Plain scalars -/

/-- The characters of words and numbers. -/
def isPlainChar (c : Char) : Bool := c.isAlphanum || c == '-' || c == '+' || c == '.'

/-- Whether the text goes on after a scalar of a flow collection. -/
def endsScalar (cs : List Char) : Bool := cs.head?.any [',', ']', '\x7d'].contains

/-- A character of a kind is none of those that are not of the kind. -/
theorem ne_of_all_not {p : Char → Bool} {c : Char} (hc : p c = true) {cs : List Char}
    (h : cs.all (!p ·) = true) : ∀ x ∈ cs, c ≠ x := by
  rintro x hx rfl
  have hnot := List.all_eq_true.1 h c hx
  rw [hc] at hnot
  exact nomatch hnot

/-- The characters of words and numbers are read up to the end of the scalar. -/
theorem readPlainWord_append {word : List Char} (hword : ∀ c ∈ word, isPlainChar c = true)
    (htail : endsScalar tail = true) : readPlainWord true (word ++ tail) = some word := by
  -- induction on the word: none of its characters ends a scalar, and the one after it does
  induction word with
  | nil =>
    obtain ⟨c, hc, hends⟩ := (Option.any_eq_true _ _).1 htail
    obtain ⟨cs, rfl⟩ := List.head?_eq_some_iff.1 hc
    have hmem : c ∈ [',', ']', '\x7d'] := List.contains_iff_mem.1 hends
    simp only [List.mem_cons, List.not_mem_nil, or_false] at hmem
    rcases hmem with rfl | rfl | rfl <;>
      simp [readPlainWord, isSeparator, isBlank, isBreak]
  | cons c word ih =>
    have hc : isPlainChar c = true := hword c List.mem_cons_self
    have ih := ih fun c' hc' => hword c' (List.mem_cons_of_mem c hc')
    have hne : ∀ x ∈ [' ', '\t', '\n', '\r', '\u0085', '\u2028', '\u2029', ':', ',', '[', ']',
        '\x7b', '\x7d'], c ≠ x := ne_of_all_not hc (by decide)
    simp only [List.forall_mem_cons] at hne
    simp [readPlainWord, isSeparator, isBlank, isBreak, hne, ih]

/-- Whether the text begins like a word or a number, whose sign a digit follows. -/
def beginsWord : List Char → Bool
  | [] => false
  | c :: cs => c.isAlphanum || (c == '-' && cs.head?.any Char.isDigit)

/-- What begins a word starts nothing else than a plain scalar. -/
theorem scanToken_word {c : Char} (hword : beginsWord (c :: cs) = true)
    (hrest : s.place.rest = c :: cs) :
    s.scanToken c cs = s.scanPlain ∧ s.place.atDocumentBorder = false ∧ startsToken c = true := by
  rw [beginsWord, Bool.or_eq_true, Bool.and_eq_true, beq_iff_eq] at hword
  rcases hword with hc | ⟨rfl, hdigit⟩
  · have hne : ∀ x ∈ [' ', '\t', '\n', '\r', '\u0085', '\u2028', '\u2029', '\ufeff', '.', '-', '?',
        ':', ',', '[', ']', '\x7b', '\x7d', '#', '&', '*', '!', '|', '>', '\'', '"', '%', '@',
        '\x60'], c ≠ x := ne_of_all_not hc (by decide)
    simp only [List.forall_mem_cons] at hne
    -- a letter or a digit is no marker of documents
    have hborder : ∀ x ∈ ['-', '.'], s.place.atMarker x = false := by
      intro x hx
      refine Cursor.atMarker_eq_false hrest ?_
      rcases List.mem_pair.1 hx with rfl | rfl
      · exact hne.2.2.2.2.2.2.2.2.2.1
      · exact hne.2.2.2.2.2.2.2.2.1
    have hdash := hborder '-' (by simp)
    have hdots := hborder '.' (by simp)
    refine ⟨?_, by simp [Cursor.atDocumentBorder, hdash, hdots], by
      simp [startsToken, isSeparator, isBlank, isBreak, hne]⟩
    simp [scanToken, hdash, hdots, hne, startsPlain, isSeparator, isBlank, isBreak, isIndicator]
  · -- a sign with a digit after it
    obtain ⟨d, hd, hdigit'⟩ := (Option.any_eq_true _ _).1 hdigit
    obtain ⟨ds, rfl⟩ := List.head?_eq_some_iff.1 hd
    have hne : ∀ x ∈ [' ', '\t', '\n', '\r', '\u0085', '\u2028', '\u2029', '-'], d ≠ x :=
      ne_of_all_not hdigit' (by decide)
    simp only [List.forall_mem_cons] at hne
    have hdash : s.place.atMarker '-' = false := by simp [Cursor.atMarker, hrest, hne]
    have hdots : s.place.atMarker '.' = false := Cursor.atMarker_eq_false hrest (by decide)
    refine ⟨?_, by simp [Cursor.atDocumentBorder, hdash, hdots], by decide⟩
    simp [scanToken, hdash, hdots, startsSeparated, isSeparator, isBlank, isBreak, startsPlain,
      hne]

/-- What begins like a word still does when more follows. -/
theorem beginsWord_append {word : List Char} (h : beginsWord word = true) (tail : List Char) :
    beginsWord (word ++ tail) = true := by
  cases word with
  | nil => exact nomatch h
  | cons c cs =>
    rw [List.cons_append]
    rw [beginsWord, Bool.or_eq_true, Bool.and_eq_true] at h ⊢
    refine h.imp_right (And.imp_right fun hdigit => ?_)
    obtain ⟨d, hd, hdigit⟩ := (Option.any_eq_true _ _).1 hdigit
    obtain ⟨ds, rfl⟩ := List.head?_eq_some_iff.1 hd
    exact hdigit

/-- The end of a scalar is not one of its gaps. -/
theorem any_isSeparator_of_endsScalar (htail : endsScalar tail = true) :
    tail.head?.any isSeparator = false := by
  obtain ⟨x, hx, hends⟩ := (Option.any_eq_true _ _).1 htail
  have hmem : x ∈ [',', ']', '\x7d'] := List.contains_iff_mem.1 hends
  have hnone : [',', ']', '\x7d'].all (!isSeparator ·) = true := by decide
  rw [hx, Option.any_some, ← Bool.not_eq_true']
  exact List.all_eq_true.1 hnone x hmem

/-- A word is read as it is, in one line. -/
theorem readPlain_word {p : Cursor} {c : Char} (hword : ∀ x ∈ c :: cs, isPlainChar x = true)
    (htail : endsScalar tail = true) (hrest : p.rest = c :: cs ++ tail)
    (hborder : p.atDocumentBorder = false) (indent : Int) (fuel : Nat) :
    readPlain true indent (fuel + 1) [] {} p =
      some (c :: cs, false, p.advance (c :: cs).length) := by
  have hcomment : c ≠ '#' := by
    rintro rfl
    exact absurd (hword '#' List.mem_cons_self) (by decide)
  have hcons : readPlainWord true (c :: (cs ++ tail)) = some (c :: cs) :=
    readPlainWord_append hword htail
  have hstop := any_isSeparator_of_endsScalar htail
  have hnext : (p.advance (c :: cs).length).rest = tail := Cursor.rest_advance hrest
  rw [List.cons_append] at hrest
  rw [readPlain, hborder, hrest]
  simp [hcomment, hcons, hnext, hstop, Gap.text, -List.length_cons]

/-- A word or a number in a flow collection. -/
theorem exists_passes_plain (hs : s.Within (depth + 1)) {word : List Char}
    (hbegin : beginsWord word = true) (hword : ∀ c ∈ word, isPlainChar c = true)
    (htail : endsScalar tail = true) (hrest : s.place.rest = word ++ tail) :
    ∃ s', s.Passes 1 [.scalar (String.ofList word) .plain] tail (depth + 1) s' := by
  obtain ⟨c, cs, rfl⟩ : ∃ c cs, word = c :: cs := by
    cases word with
    | nil => exact nomatch hbegin
    | cons c cs => exact ⟨c, cs, rfl⟩
  have hplace : s.settled.place.rest = (c :: cs) ++ tail := hrest
  obtain ⟨hscan, hborder, hstart⟩ := scanToken_word (beginsWord_append hbegin tail) hplace
  obtain ⟨ks, hmark, hks⟩ := hs.settled.exists_markKey_eq
  have hnext : (s.settled.place.advance (c :: cs).length).rest = tail :=
    Cursor.rest_advance hplace
  have hread := readPlain_word hword htail hplace hborder
  obtain ⟨s', hs'⟩ : ∃ s' : Scan, s' = { s.settled with
      place := s.settled.place.advance (c :: cs).length
      found := .scalar (String.ofList (c :: cs)) .plain :: s.found
      candidates := ks
      keyAllowed := false } := ⟨_, rfl⟩
  -- a plain scalar stays in its line, so that the scan is still in the collection
  have hplain : s.settled.scanPlain = some s' := by
    have hflow' : ({ s.settled with candidates := ks } : Scan).inFlow = true := by
      rw [hks.inFlow]
      exact decide_eq_true (Nat.succ_pos _)
    rw [scanPlain, hmark, hs']
    simp only [Option.bind_eq_bind, Option.bind_some, hflow', hread]
    rfl
  refine ⟨s', passes_of_scanToken hs hrest hstart (hscan.trans hplain) (by rw [hs']; exact hnext)
    (by rw [hs']; rfl) (by simp) ?_⟩
  rw [hs']
  exact ⟨hks.candidates, hks.optional, hks.indent, hks.outer⟩

end Scan

end Dashboards.Yaml
