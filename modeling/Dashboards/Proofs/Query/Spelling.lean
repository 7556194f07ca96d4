import Dashboards.Proofs.Query.RoundTrip

/-!
# How aggregations are spelled

Three kinds of text are told apart: the name of a function, a number followed by a percent sign, and
anything else.  What each kind looks like is said here without a reader, and the reader is compared
with it.  Names are written in either case, but only letters of ASCII can stand for their letters,
although they are compared with the lower-case form of the text by the tables of all letters.

## Key results

- `AggregateFunction.ofName?_eq_some_iff`: which texts are the name of a function
- `Aggregation.ofText_eq_percentile_iff`: which texts are percentiles
- `Aggregation.ofText_eq_iff_spells`: what is made of a text, and that it is made of its own text
  again
-/

namespace Dashboards

/-- The text is the name, but for the case of letters of ASCII. -/
def SpellsName (s name : String) : Prop :=
  s.toList.map Char.toLower = name.toList.map Char.toLower

/-- The text is the number of a percentile with blanks around it, and a percent sign at the end. -/
def SpellsPercentile (s number : String) : Prop :=
  IsPercentile number ∧ ∃ before after : List Char, (∀ c ∈ before, Text.isBlank c = true) ∧
    (∀ c ∈ after, Text.isBlank c = true) ∧ s.toList = before ++ number.toList ++ after ++ ['%']

/-! ## Names -/

namespace AggregateFunction

/-- The names have letters of ASCII only, and none of them is `k`. -/
theorem name_toList_plain (f : AggregateFunction) :
    ∀ c ∈ f.name.toList, c.toNat < 0x80 ∧ c ≠ 'k' := by
  have hall : f.name.toList.all (fun c => c.toNat < 0x80 && c != 'k') = true := by
    cases f <;> decide
  intro c hc
  simpa using List.all_eq_true.1 hall c hc

/-- The names are in lower case. -/
theorem map_toLower_name (f : AggregateFunction) :
    f.name.toList.map Char.toLower = f.name.toList := by
  cases f <;> decide

/-- A text has a name for its lower-case form iff it spells the name. -/
theorem lower_eq_name_iff {s : String} {f : AggregateFunction} :
    Text.lower s = f.name ↔ SpellsName s f.name := by
  rw [Text.lower_eq_iff f.name_toList_plain, SpellsName, map_toLower_name]

/-- A text is looked up by its spelling. -/
theorem ofName?_eq_some_iff {s : String} {f : AggregateFunction} :
    ofName? s = some f ↔ SpellsName s f.name := by
  rw [← lower_eq_name_iff]
  constructor
  case mp =>
    intro h
    rw [ofName?] at h
    have hfound := List.find?_some h
    exact (beq_iff_eq.1 hfound).symm
  case mpr =>
    intro h
    -- the name itself has the same lower-case form
    have hname : Text.lower f.name = f.name := lower_eq_name_iff.2 rfl
    have hfound : ofName? f.name = some f := ofName?_name f
    rwa [ofName?, hname, ← h] at hfound

end AggregateFunction

/-! ## Percentiles -/

namespace SpellsPercentile

variable {s number : String}

/-- A percentile is no name, since it has a percent sign. -/
theorem ofName?_eq_none (h : SpellsPercentile s number) : AggregateFunction.ofName? s = none := by
  obtain ⟨-, before, after, -, -, hs⟩ := h
  -- no name ends with a percent sign
  have hpercent : s = String.ofList (before ++ number.toList ++ after) ++ "%" := by
    rw [← String.toList_inj, String.toList_append, String.toList_ofList, hs]
    rfl
  rw [hpercent]
  exact AggregateFunction.ofName?_percent _

/-- The blanks around the number are trimmed. -/
theorem trim_eq (h : SpellsPercentile s number) :
    Text.trim (String.ofList s.toList.dropLast) = number := by
  obtain ⟨hnumber, before, after, hbefore, hafter, hs⟩ := h
  rw [hs, List.dropLast_concat, Text.trim, String.toList_ofList,
    Text.trimChars_append hbefore hafter hnumber.1.isBlank_eq_false, String.ofList_toList]

end SpellsPercentile

/-- What is trimmed before a percent sign spells a percentile if it is one. -/
theorem spellsPercentile_trim {s : String} (hlast : s.toList.getLast? = some '%')
    (h : IsPercentile (Text.trim (String.ofList s.toList.dropLast))) :
    SpellsPercentile s (Text.trim (String.ofList s.toList.dropLast)) := by
  obtain ⟨before, after, hbefore, hafter, hs⟩ := Text.exists_append_trimChars s.toList.dropLast
  refine ⟨h, before, after, hbefore, hafter, ?_⟩
  rw [Text.trim, String.toList_ofList, String.toList_ofList, ← hs]
  exact (List.dropLast_append_getLast? '%' hlast).symm

/-! ## Texts -/

namespace Aggregation

/-- A text is read as a function iff it spells its name. -/
theorem ofText_eq_named_iff {s : String} {f : AggregateFunction} :
    ofText s = named f ↔ SpellsName s f.name := by
  rw [← AggregateFunction.ofName?_eq_some_iff]
  constructor
  case mp =>
    intro h
    simp only [ofText] at h
    split at h
    next f' hf' => rw [hf', Aggregation.named.inj h]
    next =>
      split at h
      · split at h
        · cases h
        · cases h
      · cases h
  case mpr =>
    intro h
    simp only [ofText, h]

/-- A text is read as a percentile iff it spells it. -/
theorem ofText_eq_percentile_iff {s number : String} :
    ofText s = percentile number ↔ SpellsPercentile s number := by
  constructor
  case mp =>
    intro h
    have hnumber := (percentileOf?_isSome_iff number).1 (isSome_of_ofText_eq_percentile h)
    -- of the ways through the reader only the one for a number with a sign gives a percentile
    simp only [ofText] at h
    split at h
    · cases h
    · split at h
      next hlast =>
        split at h
        next =>
          obtain rfl := Aggregation.percentile.inj h
          exact spellsPercentile_trim hlast hnumber
        next => cases h
      next => cases h
  case mpr =>
    intro h
    have hlast : s.toList.getLast? = some '%' := by
      obtain ⟨-, before, after, -, -, hs⟩ := h
      rw [hs, List.getLast?_concat]
    have hsome := (percentileOf?_isSome_iff number).2 h.1
    simp only [ofText, h.ofName?_eq_none, hlast, h.trim_eq, if_pos hsome]

/-- Other tokens are the texts that are neither of the two. -/
theorem ofText_eq_other_iff {s token : String} : ofText s = other token ↔
    token = s ∧ (∀ f : AggregateFunction, ¬ SpellsName s f.name) ∧
      ∀ number, ¬ SpellsPercentile s number := by
  constructor
  case mp =>
    intro h
    refine ⟨eq_of_ofText_eq_other h, fun f hf => ?_, fun number hnumber => ?_⟩
    · rw [ofText_eq_named_iff.2 hf] at h
      cases h
    · rw [ofText_eq_percentile_iff.2 hnumber] at h
      cases h
  case mpr =>
    rintro ⟨rfl, hname, hnumber⟩
    -- what is read as neither of the two is the only thing left
    cases h : ofText token with
    | named f => exact absurd (ofText_eq_named_iff.1 h) (hname f)
    | percentile number => exact absurd (ofText_eq_percentile_iff.1 h) (hnumber number)
    | other s => rw [eq_of_ofText_eq_other h]

/-- What is made of a text is known unless it is another token. -/
theorem isKnown_ofText_iff {s : String} :
    (ofText s).isKnown = true ↔ ∀ token, ofText s ≠ other token := by
  cases h : ofText s with
  | named f => exact iff_of_true rfl fun _ => nofun
  | percentile number => exact iff_of_true (isSome_of_ofText_eq_percentile h) fun _ => nofun
  | other token => exact iff_of_false Bool.false_ne_true fun hne => hne token rfl

/-- A text that spells the name of a function, in either case of ASCII, is that function.  One that
spells a percentile is the percentile of its number, and any other text is itself as another token.
What is made of a text is made of its own text again, and it is known unless it is another token. -/
theorem ofText_eq_iff_spells (s : String) :
    (∀ f, ofText s = named f ↔ SpellsName s f.name) ∧
      (∀ number, ofText s = percentile number ↔ SpellsPercentile s number) ∧
      (∀ token, ofText s = other token ↔ token = s ∧
        (∀ f : AggregateFunction, ¬ SpellsName s f.name) ∧
          ∀ number, ¬ SpellsPercentile s number) ∧
      ofText (ofText s).text = ofText s ∧
      ((ofText s).isKnown = true ↔ ∀ token, ofText s ≠ other token) :=
  ⟨fun _ => ofText_eq_named_iff, fun _ => ofText_eq_percentile_iff,
    fun _ => ofText_eq_other_iff, ofText_text s, isKnown_ofText_iff⟩

end Aggregation

end Dashboards
