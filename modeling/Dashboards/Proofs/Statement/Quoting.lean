import Dashboards.Proofs.Text.Replace
import Dashboards.Statement.Items

/-!
# Quoted operands are literals

A text operand stands in a statement as a literal.  A scanner of literals reads one from its opening
quote to the first quote that stands by itself, where a backslash makes the next character stand for
itself.  Here the scanner is compared with quoting, which can also be done in two passes over the
whole text: first every backslash is doubled, then every quote gets a backslash.

## Key results

- `quotedOperand_eq_replace`: quoting in two passes
- `scanBody?_quotedOperandChar`, `scanBody?_quoted`: the scanner takes what one character was
  quoted as, and what a row of characters was quoted as
- `scanLiteral?_append`: a literal stays the same, whatever follows
- `Operand.inStatement_is_literal`: a quoted operand is just one literal
-/

namespace Dashboards

/-! ## Scanning -/

/-- The characters of a literal and what follows its closing quote, from inside the literal; after a
backslash, `escaped`, the next character stands for itself. -/
def scanBody? (escaped : Bool) : List Char → Option (List Char × List Char)
  | [] => none
  | c :: rest =>
    if escaped = false ∧ c = '\\' then scanBody? true rest
    else if escaped = false ∧ c = '"' then some ([], rest)
    else (scanBody? false rest).map fun found => (c :: found.1, found.2)

/-- The characters of the literal at the start of a text, and what follows the literal. -/
def scanLiteral? : List Char → Option (List Char × List Char)
  | [] => none
  | c :: rest => if c = '"' then scanBody? false rest else none

/-- The scanner does not look at what follows the closing quote. -/
theorem scanBody?_append {escaped : Bool} {text cs rest : List Char} (more : List Char)
    (h : scanBody? escaped text = some (cs, rest)) :
    scanBody? escaped (text ++ more) = some (cs, rest ++ more) := by
  -- the scanner stops at the closing quote or goes on with the rest, and the rest is all that grows
  fun_induction scanBody? escaped text generalizing cs with
  | case1 => cases h
  | case2 escaped c text hbackslash ih =>
    rw [List.cons_append, scanBody?, if_pos hbackslash]
    exact ih h
  | case3 escaped c text hbackslash hquote =>
    obtain ⟨rfl, rfl⟩ := Prod.mk.inj (Option.some.inj h)
    rw [List.cons_append, scanBody?, if_neg hbackslash, if_pos hquote]
  | case4 escaped c text hbackslash hquote ih =>
    obtain ⟨⟨cs', rest'⟩, hscan, heq⟩ := Option.map_eq_some_iff.1 h
    obtain ⟨rfl, rfl⟩ := Prod.mk.inj heq
    rw [List.cons_append, scanBody?, if_neg hbackslash, if_neg hquote, ih hscan, Option.map_some]

/-- A literal stays the same, whatever follows. -/
theorem scanLiteral?_append {text cs rest : List Char} (more : List Char)
    (h : scanLiteral? text = some (cs, rest)) :
    scanLiteral? (text ++ more) = some (cs, rest ++ more) := by
  cases text with
  | nil => cases h
  | cons c text =>
    rw [scanLiteral?] at h
    rw [List.cons_append, scanLiteral?]
    split
    next hquote =>
      rw [if_pos hquote] at h
      exact scanBody?_append more h
    next hquote =>
      rw [if_neg hquote] at h
      cases h

/-! ## Quoting -/

/-- What a character is quoted as is read as the character. -/
theorem scanBody?_quotedOperandChar (c : Char) (rest : List Char) :
    scanBody? false (quotedOperandChar c ++ rest) =
      (scanBody? false rest).map fun found => (c :: found.1, found.2) := by
  rw [quotedOperandChar]
  split
  -- with a backslash in front, or as it is
  next => simp [scanBody?]
  next h =>
    obtain ⟨hbackslash, hquote⟩ := not_or.1 h
    simp [scanBody?, hbackslash, hquote]

/-- What characters are quoted as is read as the characters, up to the closing quote. -/
theorem scanBody?_quoted (cs rest : List Char) :
    scanBody? false (cs.flatMap quotedOperandChar ++ '"' :: rest) = some (cs, rest) := by
  induction cs with
  | nil => rfl
  | cons c cs ih =>
    rw [List.flatMap_cons, List.append_assoc, scanBody?_quotedOperandChar, ih, Option.map_some]

/-- A quoted text is read as the text. -/
theorem scanLiteral?_quotedOperand (s : String) (rest : List Char) :
    scanLiteral? ((quotedOperand s).toList ++ rest) = some (s.toList, rest) := by
  have htext : (quotedOperand s).toList ++ rest =
      '"' :: (s.toList.flatMap quotedOperandChar ++ '"' :: rest) := by
    rw [quotedOperand, String.toList_ofList]
    simp only [List.cons_append, List.append_assoc, List.nil_append]
  rw [htext, scanLiteral?, if_pos rfl, scanBody?_quoted]

/-- In the start of a quoted text there is a literal only if nothing is missing. -/
theorem scanLiteral?_take_isSome_iff (s : String) (k : Nat) :
    (scanLiteral? ((quotedOperand s).toList.take k)).isSome ↔
      (quotedOperand s).toList.length ≤ k := by
  have hwhole : scanLiteral? (quotedOperand s).toList = some (s.toList, []) := by
    simpa using scanLiteral?_quotedOperand s []
  constructor
  case mp =>
    intro h
    obtain ⟨⟨cs, rest⟩, hfound⟩ := Option.isSome_iff_exists.1 h
    -- what is missing follows the literal, and nothing does
    have hmore := scanLiteral?_append ((quotedOperand s).toList.drop k) hfound
    rw [List.take_append_drop, hwhole] at hmore
    have hnothing : rest ++ (quotedOperand s).toList.drop k = [] :=
      (Prod.mk.inj (Option.some.inj hmore)).2.symm
    exact List.drop_eq_nil_iff.1 (List.append_eq_nil_iff.1 hnothing).2
  case mpr =>
    intro h
    rw [List.take_of_length_le h, hwhole, Option.isSome_some]

/-! ## Quoting in two passes -/

/-- A backslash that a quote gets is no backslash that is doubled: backslashes are doubled first. -/
theorem quotedOperandChar_eq_flatMap (c : Char) :
    quotedOperandChar c =
      (Text.replacedChar '\\' "\\\\" c).flatMap (Text.replacedChar '"' "\\\"") := by
  by_cases hbackslash : c = '\\'
  · subst hbackslash
    decide
  · by_cases hquote : c = '"'
    · subst hquote
      decide
    · simp [quotedOperandChar, Text.replacedChar, hbackslash, hquote]

/-- Quoting doubles every backslash, then puts a backslash in front of every quote. -/
theorem quotedOperand_eq_replace (s : String) :
    quotedOperand s = "\"" ++ (s.replace '\\' "\\\\").replace '"' "\\\"" ++ "\"" := by
  -- both passes go from character to character, so that they are one pass
  have hpasses : s.toList.flatMap quotedOperandChar =
      (s.toList.flatMap (Text.replacedChar '\\' "\\\\")).flatMap
        (Text.replacedChar '"' "\\\"") := by
    rw [List.flatMap_assoc]
    congr 1
    funext c
    exact quotedOperandChar_eq_flatMap c
  rw [← String.toList_inj, quotedOperand, hpasses]
  simp only [String.toList_append, String.toList_ofList, Text.toList_replace]
  rfl

/-- A text operand that is no expression is quoted in two passes.  A scanner of literals takes just
what was quoted, gives the text back and leaves what follows, whatever that is; and it finds no
literal before the last character. -/
theorem Operand.inStatement_is_literal (s : String) :
    (text s).inStatement false = "\"" ++ (s.replace '\\' "\\\\").replace '"' "\\\"" ++ "\"" ∧
      (∀ rest, scanLiteral? (((text s).inStatement false).toList ++ rest) =
        some (s.toList, rest)) ∧
      ∀ k, (scanLiteral? (((text s).inStatement false).toList.take k)).isSome ↔
        ((text s).inStatement false).toList.length ≤ k :=
  ⟨quotedOperand_eq_replace s, scanLiteral?_quotedOperand s, scanLiteral?_take_isSome_iff s⟩

end Dashboards
