import Dashboards.Proofs.Json.Drafts
import Dashboards.Proofs.Json.NumberText

/-!
# Numbers read back

A number is read from the front of a text as far as it goes, so that what follows makes no
difference as long as it cannot go on with the number.

Whole numbers are read back from their texts.  Whether a double is depends on how doubles are made
of digits, which is not looked at here: a double that is read back when its text stands alone is
read back wherever the text stands.

## Key results

- `readsFront_readLiteral`: literals are read from the front of a text
- `Number.readsBack_integer`, `Number.readsBack_of_ofText`: numbers are read back in a longer text
-/

namespace Dashboards.Json

/-! ## Where a number ends -/

/-- What follows does not go on with a number: it is nothing, or begins with another character. -/
def EndsNumber (rest : List Char) : Prop :=
  ∀ c ∈ rest.head?, c.isDigit = false ∧ c ≠ '.' ∧ c ≠ 'e' ∧ c ≠ 'E'

/-- The end of the text ends a number. -/
theorem endsNumber_nil : EndsNumber [] := fun _ hc => nomatch hc

/-- A character that could not stand in a number ends it. -/
theorem endsNumber_cons {c : Char} (cs : List Char)
    (h : c.isDigit = false ∧ c ≠ '.' ∧ c ≠ 'e' ∧ c ≠ 'E') : EndsNumber (c :: cs) := by
  intro c' hc'
  obtain rfl := Option.some.inj hc'
  exact h

section

variable {rest : List Char} (hrest : EndsNumber rest)
include hrest

/-- Digits end where the number ends. -/
theorem takeWhile_isDigit_append (cs : List Char) :
    (cs ++ rest).takeWhile Char.isDigit = cs.takeWhile Char.isDigit := by
  induction cs with
  | nil =>
    cases rest with
    | nil => rfl
    | cons c rest => simp [(hrest c rfl).1]
  | cons c cs ih =>
    by_cases hc : c.isDigit
    · simp [hc, ih]
    · simp [hc]

/-- What comes after the digits is the same with more text after it. -/
theorem dropWhile_isDigit_append (cs : List Char) :
    (cs ++ rest).dropWhile Char.isDigit = cs.dropWhile Char.isDigit ++ rest := by
  induction cs with
  | nil =>
    cases rest with
    | nil => rfl
    | cons c rest => simp [(hrest c rfl).1]
  | cons c cs ih =>
    by_cases hc : c.isDigit
    · simp [hc, ih]
    · simp [hc]

end

/-! ## Reading from the front -/

/-- A reader takes something from the front of a text, also if the text goes on with `rest`. -/
def ReadsFront {β : Type} (rest : List Char) (read : List Char → Except Fault (β × List Char)) :
    Prop :=
  ∀ cs b left, read cs = .ok (b, left) → left <:+ cs ∧ read (cs ++ rest) = .ok (b, left ++ rest)

/-- What is made of something from the front. -/
theorem ReadsFront.map_eq_ok {β γ : Type} {rest : List Char}
    {read : List Char → Except Fault (β × List Char)} (h : ReadsFront rest read) (f : β → γ)
    {cs left : List Char} {c : γ}
    (hcs : (read cs).map (fun (b, rest) => (f b, rest)) = .ok (c, left)) :
    left <:+ cs ∧
      (read (cs ++ rest)).map (fun (b, rest) => (f b, rest)) = .ok (c, left ++ rest) := by
  cases hb : read cs with
  | error e => rw [hb] at hcs; exact nomatch hcs
  | ok r =>
    obtain ⟨b, left'⟩ := r
    rw [hb] at hcs
    obtain ⟨rfl, rfl⟩ := Prod.mk.inj (Except.ok.inj hcs)
    obtain ⟨hsuffix, happend⟩ := h cs b left' hb
    exact ⟨hsuffix, by rw [happend]; rfl⟩

section

variable {rest : List Char} (hrest : EndsNumber rest)
include hrest

/-- Digits are read from the front of a text. -/
theorem readsFront_readDigits : ReadsFront rest readDigits := by
  intro cs ds left h
  simp only [readDigits] at h ⊢
  rw [takeWhile_isDigit_append hrest, dropWhile_isDigit_append hrest]
  split at h
  · exact nomatch h
  next hne =>
    obtain ⟨rfl, rfl⟩ := Prod.mk.inj (Except.ok.inj h)
    exact ⟨List.dropWhile_suffix _, if_neg hne⟩

/-- A zero that stands alone still does if the number ends after it. -/
theorem readsFront_readWhole : ReadsFront rest readWhole := by
  intro cs ds left h
  unfold readWhole at h
  split at h
  next c cs =>
    split at h
    · exact nomatch h
    next hc =>
      obtain ⟨rfl, rfl⟩ := Prod.mk.inj (Except.ok.inj h)
      exact ⟨List.suffix_cons _ _, if_neg hc⟩
  next hnot =>
    obtain ⟨hsuffix, happend⟩ := readsFront_readDigits hrest cs ds left h
    refine ⟨hsuffix, ?_⟩
    cases cs with
    | nil => exact nomatch h
    | cons c cs =>
      -- only a zero looks at what comes after it
      by_cases hc : c = '0'
      · subst hc
        cases cs with
        | cons c cs => exact absurd rfl (hnot c cs)
        | nil =>
          obtain ⟨rfl, rfl⟩ := Prod.mk.inj (Except.ok.inj h)
          cases rest with
          | nil => rfl
          | cons c rest =>
            show (if c.isDigit then _ else _) = _
            rw [if_neg (by simp [(hrest c rfl).1])]
            rfl
      · rw [List.cons_append, readWhole]
        · exact happend
        · exact fun _ _ he => absurd (List.cons.inj he).1 hc

/-- A fraction is read from the front of a text; where there is none the number has ended or an
exponent follows. -/
theorem readsFront_readFraction : ReadsFront rest readFraction := by
  intro cs fraction left h
  cases cs with
  -- at the end of the text there is no fraction, and what ends a number is no point
  | nil =>
    obtain ⟨rfl, rfl⟩ := Prod.mk.inj (Except.ok.inj h)
    refine ⟨List.suffix_rfl, ?_⟩
    cases rest with
    | nil => rfl
    | cons c rest =>
      rw [List.nil_append, readFraction]
      exact fun _ he => absurd (List.cons.inj he).1 (hrest c rfl).2.1
  | cons c cs =>
    by_cases hc : c = '.'
    · subst hc
      obtain ⟨hsuffix, happend⟩ := (readsFront_readDigits hrest).map_eq_ok some h
      exact ⟨hsuffix.trans (List.suffix_cons _ _), happend⟩
    · have hnone : ∀ cs, readFraction (c :: cs) = .ok (none, c :: cs) := fun cs => by
        rw [readFraction]
        exact fun _ he => absurd (List.cons.inj he).1 hc
      rw [hnone] at h
      obtain ⟨rfl, rfl⟩ := Prod.mk.inj (Except.ok.inj h)
      exact ⟨List.suffix_rfl, hnone _⟩

/-- An exponent is read from the front of a text, with a sign or without one. -/
theorem readsFront_readExponentDigits : ReadsFront rest readExponentDigits := by
  intro cs e left h
  have hdigits := readsFront_readDigits hrest
  unfold readExponentDigits at h
  -- a plus, a minus, or neither; `hplus` and `hminus` rule the first two out in the third case
  split at h
  · obtain ⟨hsuffix, happend⟩ := hdigits.map_eq_ok (fun ds => (false, ds)) h
    exact ⟨hsuffix.trans (List.suffix_cons _ _), happend⟩
  · obtain ⟨hsuffix, happend⟩ := hdigits.map_eq_ok (fun ds => (true, ds)) h
    exact ⟨hsuffix.trans (List.suffix_cons _ _), happend⟩
  next hplus hminus =>
    obtain ⟨hsuffix, happend⟩ := hdigits.map_eq_ok (fun ds => (false, ds)) h
    refine ⟨hsuffix, ?_⟩
    cases cs with
    | nil => exact nomatch h
    | cons c cs =>
      rw [List.cons_append, readExponentDigits]
      · exact happend
      · exact fun _ he => hplus cs (by rw [(List.cons.inj he).1])
      · exact fun _ he => hminus cs (by rw [(List.cons.inj he).1])

/-- The exponent and its letter are read from the front of a text, if there is one. -/
theorem readsFront_readExponent : ReadsFront rest readExponent := by
  intro cs e left h
  have hdigits := readsFront_readExponentDigits hrest
  cases cs with
  -- what ends a number is neither of the letters of an exponent
  | nil =>
    obtain ⟨rfl, rfl⟩ := Prod.mk.inj (Except.ok.inj h)
    refine ⟨List.suffix_rfl, ?_⟩
    cases rest with
    | nil => rfl
    | cons c rest =>
      rw [List.nil_append, readExponent]
      · exact fun _ he => absurd (List.cons.inj he).1 (hrest c rfl).2.2.1
      · exact fun _ he => absurd (List.cons.inj he).1 (hrest c rfl).2.2.2
  | cons c cs =>
    by_cases hlower : c = 'e'
    · subst hlower
      obtain ⟨hsuffix, happend⟩ := hdigits.map_eq_ok some h
      exact ⟨hsuffix.trans (List.suffix_cons _ _), happend⟩
    · by_cases hupper : c = 'E'
      · subst hupper
        obtain ⟨hsuffix, happend⟩ := hdigits.map_eq_ok some h
        exact ⟨hsuffix.trans (List.suffix_cons _ _), happend⟩
      · have hnone : ∀ cs, readExponent (c :: cs) = .ok (none, c :: cs) := fun cs => by
          rw [readExponent]
          · exact fun _ he => absurd (List.cons.inj he).1 hlower
          · exact fun _ he => absurd (List.cons.inj he).1 hupper
        rw [hnone] at h
        obtain ⟨rfl, rfl⟩ := Prod.mk.inj (Except.ok.inj h)
        exact ⟨List.suffix_rfl, hnone _⟩

/-- A literal is read from the front of a text. -/
theorem readsFront_readLiteral (negative : Bool) : ReadsFront rest (readLiteral negative) := by
  intro cs l left h
  unfold readLiteral at h ⊢
  -- each part is read from what the part before it has left
  cases hwhole : readWhole cs with
  | error f => rw [hwhole] at h; exact nomatch h
  | ok r =>
    obtain ⟨whole, cs₁⟩ := r
    obtain ⟨hsuffix₁, happend₁⟩ := readsFront_readWhole hrest cs whole cs₁ hwhole
    simp only [hwhole, happend₁, bind, Except.bind] at h ⊢
    cases hfraction : readFraction cs₁ with
    | error f => rw [hfraction] at h; exact nomatch h
    | ok r =>
      obtain ⟨fraction, cs₂⟩ := r
      obtain ⟨hsuffix₂, happend₂⟩ := readsFront_readFraction hrest cs₁ fraction cs₂ hfraction
      simp only [hfraction, happend₂] at h ⊢
      cases hexponent : readExponent cs₂ with
      | error f => rw [hexponent] at h; exact nomatch h
      | ok r =>
        obtain ⟨exponent, cs₃⟩ := r
        obtain ⟨hsuffix₃, happend₃⟩ := readsFront_readExponent hrest cs₂ exponent cs₃ hexponent
        simp only [hexponent, happend₃] at h ⊢
        obtain ⟨rfl, rfl⟩ := Prod.mk.inj (Except.ok.inj h)
        exact ⟨(hsuffix₃.trans hsuffix₂).trans hsuffix₁, rfl⟩

end

/-! ## Texts of numbers -/

/-- A number is read back from its text, whatever follows that does not go on with it. -/
def Number.ReadsBack (n : Number) : Prop :=
  ∀ fuel rest, EndsNumber rest →
    readValue (fuel + 1) (n.text.toList ++ rest) = (.number (.ok n), some rest)

/-- Nothing is skipped in front of a character that is no space. -/
theorem skipSpace_cons {c : Char} (hc : isSpace c = false) (cs : List Char) :
    skipSpace (c :: cs) = c :: cs := by
  rw [skipSpace, List.dropWhile_cons_of_neg (by simp [hc])]

/-- The characters of numbers are no space. -/
theorem isSpace_of_isNumberChar {c : Char} (hc : isNumberChar c = true) : isSpace c = false := by
  rw [← Bool.not_eq_true]
  intro h
  simp only [isSpace, Bool.or_eq_true, beq_iff_eq] at h
  rcases h with ((rfl | rfl) | rfl) | rfl <;> exact nomatch hc

/-- A digit begins a number. -/
theorem readValue_of_isDigit {c : Char} (hc : c.isDigit = true) (fuel : Nat) (cs : List Char) :
    readValue (fuel + 1) (c :: cs) = numberDraft false (c :: cs) := by
  have hother : ∀ c' cs', c :: cs = c' :: cs' → c'.isDigit = true := fun _ _ he =>
    (List.cons.inj he).1 ▸ hc
  rw [readValue, skipSpace_cons (isSpace_of_isNumberChar (isNumberChar_of_isDigit hc))]
  -- all cases but the last ask for a certain character, and none of those is a digit
  split
  case h_9 he =>
    obtain ⟨rfl, rfl⟩ := List.cons.inj he
    rw [if_pos hc]
  case h_1 he => exact nomatch he
  all_goals
    next he => exact nomatch hother _ _ he

/-- Only a sign or a digit begins a number. -/
theorem numberDraft_of_readValue {fuel : Nat} {c : Char} {cs : List Char} {n : Number}
    {left : List Char} (hspace : isSpace c = false)
    (h : readValue (fuel + 1) (c :: cs) = (.number (.ok n), some left)) :
    (c = '-' ∧ numberDraft true cs = (.number (.ok n), some left)) ∨
      (c.isDigit = true ∧ numberDraft false (c :: cs) = (.number (.ok n), some left)) := by
  rw [readValue, skipSpace_cons hspace] at h
  split at h
  case h_9 he =>
    obtain ⟨rfl, rfl⟩ := List.cons.inj he
    split at h
    next hc => exact .inr ⟨hc, h⟩
    next => exact nomatch h
  case h_6 he =>
    obtain ⟨rfl, rfl⟩ := List.cons.inj he
    exact .inl ⟨rfl, h⟩
  case h_1 he => exact nomatch he
  -- nothing else is read as a number
  case h_2 | h_3 | h_4 =>
    unfold scalar at h
    split at h <;> exact nomatch h
  case h_5 =>
    unfold stringDraft at h
    split at h <;> exact nomatch h
  case h_7 | h_8 => split at h <;> exact nomatch h

/-- What is left of a number after the literal. -/
theorem readLiteral_of_numberDraft {negative : Bool} {cs left : List Char} {n : Number}
    (h : numberDraft negative cs = (.number (.ok n), some left)) :
    ∃ l, readLiteral negative cs = .ok (l, left) ∧ Number.ofLiteral? l = some n := by
  unfold numberDraft at h
  split at h
  next l rest hl =>
    obtain ⟨hn, hleft⟩ := Prod.mk.inj h
    obtain rfl := Option.some.inj hleft
    refine ⟨l, hl, ?_⟩
    cases hof : Number.ofLiteral? l with
    | none => rw [hof] at hn; exact nomatch hn
    | some n' =>
      rw [hof] at hn
      exact congrArg some (Except.ok.inj (Draft.number.inj hn))
  next => exact nomatch h

/-- A literal is read as a number wherever it stands. -/
theorem numberDraft_append {negative : Bool} {cs : List Char} {l : Decimal.Literal} {n : Number}
    (hl : readLiteral negative cs = .ok (l, [])) (hn : Number.ofLiteral? l = some n)
    {rest : List Char} (hrest : EndsNumber rest) :
    numberDraft negative (cs ++ rest) = (.number (.ok n), some rest) := by
  obtain ⟨-, happend⟩ := readsFront_readLiteral hrest negative cs l [] hl
  simp only [numberDraft, happend, hn, List.nil_append]

/-- A sign begins a number. -/
theorem readValue_minus (fuel : Nat) (cs : List Char) :
    readValue (fuel + 1) ('-' :: cs) = numberDraft true cs := by
  rw [readValue, skipSpace_cons (by decide)]
  rfl

/-! ## Whole numbers -/

/-- Only zero is written with a zero at the front. -/
theorem head?_digits_ne_zero {n : Nat} (hn : 0 < n) : (Decimal.digits n).head? ≠ some '0' := by
  induction n using Nat.strongRecOn with
  | ind n ih =>
    unfold Decimal.digits at ih ⊢
    by_cases h : n < 10
    · rw [Nat.toDigits_of_lt_base h]
      match n, h with
      | 1, _ | 2, _ | 3, _ | 4, _ | 5, _ | 6, _ | 7, _ | 8, _ | 9, _ => decide
    · have hq : 0 < n / 10 := by omega
      have hr : n % 10 < 10 := Nat.mod_lt _ (by decide)
      -- the digits before the last one are those of the quotient, which is not zero either
      have happend := Nat.toDigits_append_toDigits (by decide : 1 < 10) hq hr
      rw [Nat.div_add_mod] at happend
      have hhead := ih (n / 10) (by omega) hq
      rw [← happend, List.head?_append]
      cases hds : Nat.toDigits 10 (n / 10) with
      | nil => exact absurd hds Nat.toDigits_ne_nil
      | cons c cs =>
        rw [hds] at hhead
        exact hhead

/-- Digits are read as a literal without point and exponent. -/
theorem readLiteral_digits (negative : Bool) (n : Nat) :
    readLiteral negative (Decimal.digits n) =
      .ok (⟨negative, Decimal.digits n, none, none⟩, []) := by
  have hall : ∀ c ∈ Decimal.digits n, c.isDigit = true := fun _ => Decimal.isDigit_of_mem_digits
  have hne : Decimal.digits n ≠ [] := Nat.toDigits_ne_nil
  have hdigits : readDigits (Decimal.digits n) = .ok (Decimal.digits n, []) := by
    unfold readDigits
    rw [List.takeWhile_eq_self_iff.2 hall, List.dropWhile_eq_nil_iff.2 hall]
    exact if_neg hne
  -- no digits but those of zero begin with a zero
  have hwhole : readWhole (Decimal.digits n) = .ok (Decimal.digits n, []) := by
    by_cases hn : n = 0
    · subst hn
      rfl
    · have hhead := head?_digits_ne_zero (Nat.pos_of_ne_zero hn)
      generalize Decimal.digits n = cs at hdigits hhead
      rw [readWhole]
      · exact hdigits
      · rintro c cs rfl
        exact hhead rfl
  simp only [readLiteral, hwhole, bind, Except.bind, readFraction, readExponent, pure, Except.pure]

/-- Whole numbers that fit are read back. -/
theorem Number.readsBack_integer (n : Int) (fits : FitsInteger n) :
    (Number.integer n fits).ReadsBack := by
  intro fuel rest hrest
  have hlit := fun negative m => readLiteral_digits negative m
  cases n with
  | ofNat m =>
    have htext : (Number.integer (Int.ofNat m) fits).text.toList = Decimal.digits m := by
      rw [Number.text, Decimal.intText, String.toList_ofList]
    have hof : Number.ofLiteral? ⟨false, Decimal.digits m, none, none⟩ =
        some (.integer (Int.ofNat m) fits) := by
      have hofInt : Number.ofInt? (m : Int) = some (.integer (Int.ofNat m) fits) := dif_pos fits
      simp [Number.ofLiteral?, hofInt]
    rw [htext]
    cases hdigits : Decimal.digits m with
    | nil => exact absurd hdigits Nat.toDigits_ne_nil
    | cons c cs =>
      have hc : c.isDigit = true := Decimal.isDigit_of_mem_digits (hdigits ▸ List.mem_cons_self)
      rw [List.cons_append, readValue_of_isDigit hc, ← List.cons_append, ← hdigits]
      exact numberDraft_append (hlit false m) hof hrest
  | negSucc m =>
    have htext : (Number.integer (Int.negSucc m) fits).text.toList =
        '-' :: Decimal.digits (m + 1) := by
      rw [Number.text, Decimal.intText, String.toList_ofList]
    have hof : Number.ofLiteral? ⟨true, Decimal.digits (m + 1), none, none⟩ =
        some (.integer (Int.negSucc m) fits) := by
      have hofInt : Number.ofInt? (-((m + 1 : Nat) : Int)) = some (.integer (Int.negSucc m) fits) :=
        dif_pos fits
      simp only [Number.ofLiteral?, Option.isNone_none, Bool.and_self, if_true,
        Decimal.valueOf_digits, hofInt, Nat.succ_ne_zero, if_false]
      rfl
    -- the sign is read first, and then the digits of the magnitude
    rw [htext, List.cons_append, readValue_minus]
    exact numberDraft_append (hlit true (m + 1)) hof hrest

/-! ## Doubles -/

/-- A double whose text, standing alone, is read as the same double. -/
def Rereads (x : Decimal.Binary64) : Prop :=
  Value.ofText (doubleText x) = .ok (.number (.double x))

/-- Only the draft of a number has a number as its value. -/
theorem Draft.eq_number_of_read {o : Origin} {d : Draft} {n : Number}
    (h : d.read o = .ok (.number n)) : d = .number (.ok n) := by
  cases d with
  | array ds stop =>
    obtain ⟨_, _, _, _, _, he⟩ := read_array_eq_ok_iff.1 h
    cases he
  | object ms stop =>
    obtain ⟨_, _, _, _, _, he⟩ := read_object_eq_ok_iff.1 h
    cases he
  | null | bool _ | number _ | string _ | broken _ _ _ => exact (eq_draft_of_read h rfl).1

/-- What a text without space leaves over, if nothing but space is left over. -/
theorem eq_nil_of_skipSpace {cs left : List Char} (hcs : ∀ c ∈ cs, isSpace c = false)
    (hleft : left <:+ cs) (h : skipSpace left = []) : left = [] := by
  cases left with
  | nil => rfl
  | cons c left =>
    rw [skipSpace_cons (hcs c (hleft.subset List.mem_cons_self))] at h
    exact nomatch h

/-- A number whose text is read back alone is read back in a longer text. -/
theorem Number.readsBack_of_ofText {n : Number} (h : Value.ofText n.text = .ok (.number n)) :
    n.ReadsBack := by
  intro fuel rest hrest
  -- the text alone is read as a draft of the number with nothing left over
  obtain ⟨hread, hstop⟩ := Value.ofText_eq_ok_iff.1 h
  have hdraft := Draft.eq_number_of_read hread
  obtain ⟨left, hvalue, hleft⟩ := Draft.ofText_eq_none_iff.1 (Prod.ext hdraft hstop)
  have hspace : ∀ c ∈ n.text.toList, isSpace c = false := fun c hc =>
    isSpace_of_isNumberChar (Number.isNumberChar_of_mem_text hc)
  generalize hcs : n.text.toList = cs at hvalue hspace ⊢
  cases cs with
  | nil => exact absurd hcs n.text_toList_ne_nil
  | cons c cs =>
    obtain ⟨hc, htail⟩ := List.forall_mem_cons.1 hspace
    -- a minus is read before the literal, a digit along with it
    rcases numberDraft_of_readValue hc hvalue with ⟨rfl, hnumber⟩ | ⟨hdigit, hnumber⟩
    · obtain ⟨l, hl, hn⟩ := readLiteral_of_numberDraft hnumber
      have hsuffix := (readsFront_readLiteral hrest true cs l left hl).1
      obtain rfl := eq_nil_of_skipSpace htail hsuffix hleft
      rw [List.cons_append, readValue_minus]
      exact numberDraft_append hl hn hrest
    · obtain ⟨l, hl, hn⟩ := readLiteral_of_numberDraft hnumber
      have hsuffix := (readsFront_readLiteral hrest false (c :: cs) l left hl).1
      obtain rfl := eq_nil_of_skipSpace hspace hsuffix hleft
      rw [List.cons_append, readValue_of_isDigit hdigit]
      exact numberDraft_append hl hn hrest

end Dashboards.Json
