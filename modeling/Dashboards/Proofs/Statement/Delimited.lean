import Dashboards.Proofs.Json.NumberText
import Dashboards.Proofs.Statement.Quoting

/-!
# Texts that tell where they end

A text is delimited if it can be told from all others of its kind wherever it stands, and its end
can be found without knowing what follows: two such texts at the start of one longer text are the
same, and so is what follows them.  What follows may have to begin in some way; a name, say, ends
where something stands that is no part of a name.

Delimited texts can be put together.  This file has the rows of characters of a class, quoted
texts, lists with separators, and lists that stand in parentheses unless they have just one item.

## Key results

- `Delimited.of_read`: texts that a reader takes off what follows
- `delimited_row`, `delimited_quotedOperand`: rows of characters, and quoted texts
- `Delimited.append`: one delimited text after another
- `Delimited.joined`, `Delimited.grouped`: lists of delimited texts
-/

namespace Dashboards

/-- Wherever the text of something admissible stands, followed by what may follow it, the thing and
what follows are determined. -/
def Delimited {α : Type} (ok : α → Prop) (text : α → List Char) (next : List Char → Prop) : Prop :=
  ∀ ⦃a b : α⦄ ⦃r s : List Char⦄, ok a → ok b → next r → next s →
    text a ++ r = text b ++ s → a = b ∧ r = s

/-- A text is empty or begins with a character outside a class. -/
def BeginsOutside (p : Char → Bool) (r : List Char) : Prop := ∀ c ∈ r.head?, p c = false

/-- The end of a text is outside of every kind of characters. -/
theorem beginsOutside_nil (p : Char → Bool) : BeginsOutside p [] := fun _ h => nomatch h

/-- Whether a text begins outside of a kind is a matter of its first character. -/
theorem beginsOutside_cons {p : Char → Bool} {c : Char} {r : List Char} :
    BeginsOutside p (c :: r) ↔ p c = false := by
  simp [BeginsOutside]

/-! ## Rows of characters -/

/-- A row of characters of a class ends where the class does. -/
theorem takeWhile_append_of_beginsOutside {p : Char → Bool} {cs r : List Char}
    (hcs : ∀ c ∈ cs, p c = true) (hr : BeginsOutside p r) : (cs ++ r).takeWhile p = cs := by
  rw [List.takeWhile_append_of_pos hcs]
  cases r with
  | nil => rw [List.takeWhile_nil, List.append_nil]
  | cons c r =>
    have hc : p c = false := beginsOutside_cons.1 hr
    rw [List.takeWhile_cons_of_neg (by simp [hc]), List.append_nil]

/-- Rows of characters of a class are delimited by what is outside the class. -/
theorem delimited_row (p : Char → Bool) :
    Delimited (fun cs => ∀ c ∈ cs, p c = true) id (BeginsOutside p) := by
  intro a b r s ha hb hr hs h
  have heq := congrArg (List.takeWhile p) h
  rw [id, id, takeWhile_append_of_beginsOutside ha hr, takeWhile_append_of_beginsOutside hb hs]
    at heq
  subst heq
  exact ⟨rfl, List.append_cancel_left h⟩

/-! ## Quoted texts -/

/-- Texts that a reader takes off whatever may follow them are delimited. -/
theorem Delimited.of_read {α : Type} {ok : α → Prop} {text : α → List Char}
    {next : List Char → Prop} (read : List Char → Option (α × List Char))
    (h : ∀ a r, ok a → next r → read (text a ++ r) = some (a, r)) : Delimited ok text next := by
  intro a b r s ha hb hr hs heq
  have hsame : some (a, r) = some (b, s) := by
    rw [← h a r ha hr, ← h b s hb hs, heq]
  exact Prod.mk.inj (Option.some.inj hsame)

/-- A quoted text is delimited, whatever is quoted and whatever follows. -/
theorem delimited_quotedOperand :
    Delimited (fun _ => True) (fun s => (quotedOperand s).toList) (fun _ => True) := by
  refine .of_read (fun cs => (scanLiteral? cs).map fun found => (.ofList found.1, found.2)) ?_
  intro s r _ _
  rw [scanLiteral?_quotedOperand, Option.map_some, String.ofList_toList]

/-! ## Sequences -/

section

variable {α β : Type} {ok : α → Prop} {text : α → List Char} {next : List Char → Prop}

/-- Things of which delimited texts are made are delimited if they can be told by what the texts are
made of. -/
theorem Delimited.comp (h : Delimited ok text next) {okβ : β → Prop} (f : β → α)
    (hok : ∀ b, okβ b → ok (f b)) (hf : ∀ a b, okβ a → okβ b → f a = f b → a = b) :
    Delimited okβ (fun b => text (f b)) next := by
  intro a b r s ha hb hr hs heq
  obtain ⟨hab, hrs⟩ := h (hok a ha) (hok b hb) hr hs heq
  exact ⟨hf a b ha hb hab, hrs⟩

/-- Numbers are delimited by what is no digit. -/
theorem delimited_digits : Delimited (fun _ => True) Decimal.digits (BeginsOutside Char.isDigit) :=
  (delimited_row Char.isDigit).comp Decimal.digits
    (fun _ _ _ h => Decimal.isDigit_of_mem_digits h) fun a b _ _ h => by
      rw [← Decimal.valueOf_digits a, h, Decimal.valueOf_digits]

/-- Less may follow. -/
theorem Delimited.mono (h : Delimited ok text next) {next' : List Char → Prop}
    (hnext : ∀ r, next' r → next r) : Delimited ok text next' :=
  fun _ _ r s ha hb hr hs heq => h ha hb (hnext r hr) (hnext s hs) heq

/-- The same text in front of delimited ones. -/
theorem Delimited.prepend (h : Delimited ok text next) (front : List Char) :
    Delimited ok (fun a => front ++ text a) next := by
  intro a b r s ha hb hr hs heq
  rw [List.append_assoc, List.append_assoc] at heq
  exact h ha hb hr hs (List.append_cancel_left heq)

/-- The same text behind delimited ones, for any that may follow them. -/
theorem Delimited.postpone (h : Delimited ok text next) (back : List Char)
    (hback : ∀ r, next (back ++ r)) :
    Delimited ok (fun a => text a ++ back) (fun _ => True) := by
  intro a b r s ha hb _ _ heq
  rw [List.append_assoc, List.append_assoc] at heq
  obtain ⟨hab, hrs⟩ := h ha hb (hback r) (hback s) heq
  exact ⟨hab, List.append_cancel_left hrs⟩

/-- One delimited text after another. -/
theorem Delimited.append {okβ : β → Prop} {textβ : β → List Char} {nextβ : List Char → Prop}
    (h : Delimited ok text next) (hβ : Delimited okβ textβ nextβ)
    (hnext : ∀ b r, okβ b → nextβ r → next (textβ b ++ r)) :
    Delimited (fun x : α × β => ok x.1 ∧ okβ x.2) (fun x => text x.1 ++ textβ x.2) nextβ := by
  rintro ⟨a, a'⟩ ⟨b, b'⟩ r s ⟨ha, ha'⟩ ⟨hb, hb'⟩ hr hs heq
  simp only [List.append_assoc] at heq
  -- the first text ends where the second begins, and the second where the rest does
  obtain ⟨rfl, hrest⟩ := h ha hb (hnext a' r ha' hr) (hnext b' s hb' hs) heq
  obtain ⟨rfl, rfl⟩ := hβ ha' hb' hr hs hrest
  exact ⟨rfl, rfl⟩

/-- A text that is there or not, if it can be told by the character that it begins with. -/
theorem Delimited.optional (h : Delimited ok text next) (c : Char)
    (hbegin : ∀ a, ∃ rest, text a = c :: rest)
    (hnext : ∀ r, next r → BeginsOutside (· == c) r) :
    Delimited (fun o : Option α => ∀ a ∈ o, ok a) (fun o => o.elim [] text) next := by
  -- what follows an absent text does not begin as a text does
  have hne : ∀ a r s, next r → text a ++ s ≠ r := by
    rintro a _ s hr rfl
    obtain ⟨rest, hrest⟩ := hbegin a
    have hfirst := hnext _ hr
    rw [hrest, List.cons_append, beginsOutside_cons] at hfirst
    simp at hfirst
  intro o o' r s ho ho' hr hs heq
  cases o with
  | none =>
    cases o' with
    | none => exact ⟨rfl, heq⟩
    | some b => exact absurd heq.symm (hne b r s hr)
  | some a =>
    cases o' with
    | none => exact absurd heq (hne a s r hs)
    | some b =>
      obtain ⟨rfl, rfl⟩ := h (ho a rfl) (ho' b rfl) hr hs heq
      exact ⟨rfl, rfl⟩

/-- What begins with a text that may be absent begins as the text does, or as what follows. -/
theorem beginsOutside_optional {p : Char → Bool} {c : Char} (hc : p c = false)
    (hbegin : ∀ a, ∃ rest, text a = c :: rest) (o : Option α) {r : List Char}
    (hr : BeginsOutside p r) : BeginsOutside p (o.elim [] text ++ r) := by
  cases o with
  | none => exact hr
  | some a =>
    obtain ⟨rest, hrest⟩ := hbegin a
    rw [Option.elim_some, hrest, List.cons_append]
    exact beginsOutside_cons.2 hc

/-! ## Lists -/

/-- Items with a separator in front of each. -/
def repeated (separator : List Char) (text : α → List Char) (as : List α) : List Char :=
  as.flatMap fun a => separator ++ text a

/-- Items with a separator between them. -/
def joined (separator : List Char) (text : α → List Char) : List α → List Char
  | [] => []
  | a :: as => text a ++ repeated separator text as

/-- Texts with separators between them are joined texts. -/
theorem intercalate_eq_joined (separator : List Char) (text : α → List Char) (as : List α) :
    separator.intercalate (as.map text) = joined separator text as := by
  -- induction on the texts, where the last one has no separator after it
  induction as with
  | nil => rfl
  | cons a as ih =>
    cases as with
    | nil => simp [joined, repeated]
    | cons b as =>
      rw [List.map_cons, List.map_cons, List.intercalate_cons_cons, ← List.map_cons, ih]
      simp [joined, repeated]

/-- What follows an item is a separator, or what follows the list. -/
theorem next_repeated_append {separator : List Char} {done : List Char → Prop}
    (hseparator : ∀ r, next (separator ++ r)) (hdone : ∀ r, done r → next r) (as : List α)
    {r : List Char} (hr : done r) : next (repeated separator text as ++ r) := by
  cases as with
  | nil => exact hdone r hr
  | cons a as =>
    rw [repeated, List.flatMap_cons, List.append_assoc, List.append_assoc]
    exact hseparator _

/-- Delimited items with a separator in front of each go on until something else follows. -/
theorem Delimited.repeated (h : Delimited ok text next) {separator : List Char}
    {done : List Char → Prop} (hseparator : ∀ r, next (separator ++ r))
    (hdone : ∀ r, done r → next r) (hend : ∀ r, done r → ¬ separator <+: r) :
    Delimited (fun as => ∀ a ∈ as, ok a) (repeated separator text) done := by
  intro as bs r s has hbs hr hs heq
  -- where one list is done the other cannot go on, since it would go on with a separator
  induction as generalizing bs with
  | nil =>
    cases bs with
    | nil => exact ⟨rfl, heq⟩
    | cons b bs =>
      rw [Dashboards.repeated, Dashboards.repeated, List.flatMap_nil, List.nil_append,
        List.flatMap_cons, List.append_assoc, List.append_assoc] at heq
      exact absurd ⟨_, heq.symm⟩ (hend r hr)
  | cons a as ih =>
    obtain ⟨ha, has'⟩ := List.forall_mem_cons.1 has
    cases bs with
    | nil =>
      rw [Dashboards.repeated, Dashboards.repeated, List.flatMap_nil, List.nil_append,
        List.flatMap_cons, List.append_assoc, List.append_assoc] at heq
      exact absurd ⟨_, heq⟩ (hend s hs)
    | cons b bs =>
      obtain ⟨hb, hbs'⟩ := List.forall_mem_cons.1 hbs
      rw [Dashboards.repeated, Dashboards.repeated, List.flatMap_cons, List.flatMap_cons] at heq
      simp only [List.append_assoc] at heq
      obtain ⟨rfl, hrest⟩ := h ha hb (next_repeated_append hseparator hdone as hr)
        (next_repeated_append hseparator hdone bs hs) (List.append_cancel_left heq)
      obtain ⟨rfl, rfl⟩ := ih has' hbs' hrest
      exact ⟨rfl, rfl⟩

/-- A list of delimited items is delimited by what is no separator. -/
theorem Delimited.joined (h : Delimited ok text next) {separator : List Char}
    {done : List Char → Prop} (hseparator : ∀ r, next (separator ++ r))
    (hdone : ∀ r, done r → next r) (hend : ∀ r, done r → ¬ separator <+: r) :
    Delimited (fun as => as ≠ [] ∧ ∀ a ∈ as, ok a) (joined separator text) done := by
  intro as bs r s ⟨has, haok⟩ ⟨hbs, hbok⟩ hr hs heq
  cases as with
  | nil => exact absurd rfl has
  | cons a as =>
    cases bs with
    | nil => exact absurd rfl hbs
    | cons b bs =>
      -- the first item, and the others as a list with separators in front
      have hlist := h.append (h.repeated hseparator hdone hend) fun as _ _ hr =>
        next_repeated_append hseparator hdone as hr
      obtain ⟨hab, hrs⟩ := @hlist (a, as) (b, bs) r s (List.forall_mem_cons.1 haok)
        (List.forall_mem_cons.1 hbok) hr hs heq
      obtain ⟨rfl, rfl⟩ := Prod.mk.inj hab
      exact ⟨rfl, hrs⟩

/-- One item by itself, and other than one in parentheses with a separator between them. -/
def grouped (separator : List Char) (text : α → List Char) : List α → List Char
  | [a] => text a
  | as => '(' :: (joined separator text as ++ [')'])

/-- The text of an item begins with something other than a parenthesis. -/
def BeginsPlainly (cs : List Char) : Prop := ∃ c rest, cs = c :: rest ∧ c ≠ '(' ∧ c ≠ ')'

/-- Items in parentheses are delimited, whatever follows. -/
theorem Delimited.parenthesized (h : Delimited ok text next) {separator : List Char}
    (hseparator : ∀ r, next (separator ++ r)) (hclose : ∀ r, next (')' :: r))
    (hend : ∀ r, ¬ separator <+: ')' :: r) (hbegin : ∀ a, ok a → BeginsPlainly (text a)) :
    Delimited (fun as => ∀ a ∈ as, ok a) (fun as => Dashboards.joined separator text as ++ [')'])
      (fun _ => True) := by
  have hjoined : Delimited (fun as => as ≠ [] ∧ ∀ a ∈ as, ok a) (Dashboards.joined separator text)
      fun r => ∃ r', r = ')' :: r' :=
    h.joined hseparator (by rintro _ ⟨r, rfl⟩; exact hclose r) (by rintro _ ⟨r, rfl⟩; exact hend r)
  -- a list of items does not begin with the closing parenthesis
  have hne : ∀ a as r s, ok a → Dashboards.joined separator text (a :: as) ++ r ≠ ')' :: s := by
    intro a as r s ha heq
    obtain ⟨c, rest, htext, -, hc⟩ := hbegin a ha
    rw [Dashboards.joined, htext, List.cons_append, List.cons_append, List.cons.injEq] at heq
    exact hc heq.1
  intro as bs r s has hbs _ _ heq
  simp only [List.append_assoc, List.singleton_append] at heq
  cases as with
  | nil =>
    cases bs with
    | nil => exact ⟨rfl, (List.cons.inj heq).2⟩
    | cons b bs => exact absurd heq.symm (hne b bs _ _ (List.forall_mem_cons.1 hbs).1)
  | cons a as =>
    cases bs with
    | nil => exact absurd heq (hne a as _ _ (List.forall_mem_cons.1 has).1)
    | cons b bs =>
      obtain ⟨hab, hrest⟩ := hjoined ⟨List.cons_ne_nil _ _, has⟩ ⟨List.cons_ne_nil _ _, hbs⟩
        ⟨r, rfl⟩ ⟨s, rfl⟩ heq
      exact ⟨hab, (List.cons.inj hrest).2⟩

/-- Other than one item stand in parentheses. -/
theorem grouped_of_length_ne_one {separator : List Char} {as : List α} (h : as.length ≠ 1) :
    grouped separator text as = '(' :: (Dashboards.joined separator text as ++ [')']) := by
  match as with
  | [] => rfl
  | [a] => exact absurd rfl h
  | _ :: _ :: _ => rfl

/-- A list that stands in parentheses unless it has just one item is delimited as the items are. -/
theorem Delimited.grouped (h : Delimited ok text next) {separator : List Char}
    (hseparator : ∀ r, next (separator ++ r)) (hclose : ∀ r, next (')' :: r))
    (hend : ∀ r, ¬ separator <+: ')' :: r) (hbegin : ∀ a, ok a → BeginsPlainly (text a)) :
    Delimited (fun as => ∀ a ∈ as, ok a) (grouped separator text) next := by
  have hmany := h.parenthesized hseparator hclose hend hbegin
  -- one item does not begin with a parenthesis
  have hne : ∀ a r s, ok a → text a ++ r ≠ '(' :: s := by
    intro a r s ha heq
    obtain ⟨c, rest, htext, hc, -⟩ := hbegin a ha
    rw [htext, List.cons_append, List.cons.injEq] at heq
    exact hc heq.1
  intro as bs r s has hbs hr hs heq
  -- both lists have one item, or both have another number of them
  by_cases hone : as.length = 1
  · obtain ⟨a, rfl⟩ := List.length_eq_one_iff.1 hone
    have ha := has a (List.mem_singleton_self a)
    by_cases hone' : bs.length = 1
    · obtain ⟨b, rfl⟩ := List.length_eq_one_iff.1 hone'
      obtain ⟨rfl, rfl⟩ := h ha (hbs b (List.mem_singleton_self b)) hr hs heq
      exact ⟨rfl, rfl⟩
    · rw [grouped_of_length_ne_one hone'] at heq
      exact absurd heq (hne a _ _ ha)
  · rw [grouped_of_length_ne_one hone] at heq
    by_cases hone' : bs.length = 1
    · obtain ⟨b, rfl⟩ := List.length_eq_one_iff.1 hone'
      exact absurd heq.symm (hne b _ _ (hbs b (List.mem_singleton_self b)))
    · rw [grouped_of_length_ne_one hone', List.cons_append, List.cons_append,
        List.cons.injEq] at heq
      exact hmany has hbs trivial trivial heq.2

end

end Dashboards
