/-!
# Replacing a character

`String.replace` searches a text for the places of a pattern and puts the result together from the
replacements and from what lies between the places.  For a pattern of one character this comes to
the same as going from character to character.

## Key results

- `toList_replace`: a text in which a character was replaced, character by character
-/

namespace Dashboards.Text

open String.Slice.Pattern

/-- What becomes of a character where the character `old` is replaced. -/
def replacedChar (old : Char) (new : String) (c : Char) : List Char :=
  if c = old then new.toList else [c]

/-- Texts without the character that is replaced stay as they are. -/
theorem flatMap_replacedChar_eq_self {old : Char} (new : String) {cs : List Char} (h : old ∉ cs) :
    cs.flatMap (replacedChar old new) = cs := by
  induction cs with
  | nil => rfl
  | cons c cs ih =>
    obtain ⟨hne, hcs⟩ := List.ne_and_not_mem_of_not_mem_cons h
    rw [List.flatMap_cons, ih hcs, replacedChar, if_neg (Ne.symm hne), List.singleton_append]

/-! ## Searching -/

/-- What one step of the search adds to the result. -/
def addStep (s : String.Slice) (new : String) (text : String) : SearchStep s → String
  | .matched _ _ => text ++ new.toSlice
  | .rejected start stop => text ++ s.slice! start stop

/-- Between two positions of which none in between matches, the character does not occur. -/
theorem notMem_of_not_matchesAt {s : String.Slice} {old : Char} {p q : s.Pos}
    {before between after : String} (hp : p.Splits before (between ++ after))
    (hq : q.Splits (before ++ between) after)
    (h : ∀ r, p ≤ r → r < q → ¬ Model.MatchesAt old r) : old ∉ between.toList := by
  intro hmem
  obtain ⟨front, back, hbetween⟩ := List.append_of_mem hmem
  have htext : between = String.ofList front ++ (String.singleton old ++ String.ofList back) := by
    rw [← String.toList_inj, hbetween]
    simp
  -- the position of the character
  have hcopy : s.copy = (before ++ String.ofList front) ++
      (String.singleton old ++ (String.ofList back ++ after)) := by
    rw [hp.eq_append, htext]
    simp only [String.append_assoc]
  have hr := String.Slice.Pos.splits_ofEqAppend hcopy
  refine h _ ?_ ?_ (Model.Char.matchesAt_iff_splits.2 ⟨_, _, hr⟩)
  · refine (hp.le_iff_exists_eq_append hr).2 ⟨String.ofList front, rfl, ?_⟩
    rw [htext]
    simp only [String.append_assoc]
  · refine (hr.lt_iff_exists_eq_append hq).2
      ⟨String.singleton old ++ String.ofList back, ?_, ?_, ?_⟩
    · simp
    · rw [htext]
      simp only [String.append_assoc]
    · simp only [String.append_assoc]

/-- The steps of a search from a position on add what follows the position, with the character
replaced. -/
theorem toList_foldl_addStep {s : String.Slice} {old : Char} (new : String) {p : s.Pos}
    {steps : List (SearchStep s)} (h : Model.IsValidSearchFrom old p steps) {before after : String}
    (hp : p.Splits before after) (text : String) :
    (steps.foldl (addStep s new) text).toList =
      text.toList ++ after.toList.flatMap (replacedChar old new) := by
  induction h generalizing before after text with
  | endPos =>
    obtain ⟨-, rfl⟩ := String.Slice.splits_endPos_iff.1 hp
    simp
  | @matched steps p q hmatch _ ih =>
    obtain ⟨hend, rfl, hget⟩ := Model.Char.isLongestMatchAt_iff.1 hmatch
    obtain ⟨after, rfl⟩ := hp.exists_eq_singleton_append hend
    -- the character at the position is replaced
    rw [hget] at hp ⊢
    rw [List.foldl_cons, ih hp.next]
    simp [addStep, replacedChar]
  | @mismatched steps p q hlt hnone _ ih =>
    have hq := q.splits
    obtain ⟨between, -, hbefore, rfl⟩ := (hp.lt_iff_exists_eq_append hq).1 hlt
    rw [hbefore] at hq
    -- what is passed over has no such character, so it is kept
    have hkept := flatMap_replacedChar_eq_self new (notMem_of_not_matchesAt hp hq hnone)
    obtain ⟨hle, hslice⟩ := String.Slice.copy_slice_eq_iff_splits.2 ⟨before, _, hp, hq⟩
    rw [List.foldl_cons, ih hq]
    simp [addStep, ← String.Slice.slice_eq_slice! (h := hle), hslice, hkept]

/-- A character is replaced wherever it stands, and all others stay. -/
theorem toList_replace (s : String) (old : Char) (new : String) :
    (s.replace old new).toList = s.toList.flatMap (replacedChar old new) := by
  let searcher := ToForwardSearcher.toSearcher old s.toSlice
  have hsearch : Model.IsValidSearchFrom old s.toSlice.startPos searcher.toList :=
    Model.LawfulToForwardSearcherModel.isValidSearchFrom_toList s.toSlice
  have hreplace : s.replace old new = searcher.fold (addStep s.toSlice new) "" := by
    rw [String.replace, String.Slice.replace]
    congr 1
    funext text step
    cases step with
    | matched _ _ => rfl
    | rejected _ _ => rfl
  rw [hreplace, ← Std.Iter.foldl_toList,
    toList_foldl_addStep new hsearch (String.Slice.splits_startPos s.toSlice), String.toList_empty,
    List.nil_append, String.copy_toSlice]

end Dashboards.Text
