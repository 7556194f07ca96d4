/-!
# Places in YAML text

A cursor is a place in a text: the characters that follow, and where the place is.  The classes of
characters that the format distinguishes are those of line breaks, blanks, and what may stand in a
text at all.
-/

namespace Dashboards.Yaml

/-! ## Characters -/

/-- Whether the character may stand in a text: tabs, line breaks and what is not a control. -/
def isAllowed (c : Char) : Bool :=
  let n := c.toNat
  n == 0x09 || n == 0x0A || n == 0x0D || (0x20 ≤ n && n ≤ 0x7E) || n == 0x85 ||
    (0xA0 ≤ n && n ≤ 0xD7FF) || (0xE000 ≤ n && n ≤ 0xFFFD) || 0x10000 ≤ n

/-- Whether the character ends a line. -/
def isBreak (c : Char) : Bool :=
  c == '\n' || c == '\r' || c == '\u0085' || c == '\u2028' || c == '\u2029'

/-- Whether the character is a space or a tab. -/
def isBlank (c : Char) : Bool := c == ' ' || c == '\t'

/-- Whether the character separates tokens. -/
def isSeparator (c : Char) : Bool := isBlank c || isBreak c

/-- Whether a text starts with a separator; its end counts as one. -/
def startsSeparated : List Char → Bool
  | [] => true
  | c :: _ => isSeparator c

/-- Whether a text starts with a line break; its end counts as one. -/
def startsBroken : List Char → Bool
  | [] => true
  | c :: _ => isBreak c

/-- Whether the character may stand in the name of an anchor. -/
def isNameChar (c : Char) : Bool := c.isAlphanum || c == '_' || c == '-'

/-! ## Cursors -/

/-- A place in a text, with the number of octets before it in UTF-8, its line and its column, which
is a number of characters. -/
structure Cursor where
  rest : List Char
  index : Nat
  line : Nat
  column : Nat

namespace Cursor

/-- The start of a text. -/
def start (cs : List Char) : Cursor := ⟨cs, 0, 0, 0⟩

/-- The number of octets before the place `n` characters further on. -/
def indexAfter (n : Nat) (p : Cursor) : Nat :=
  (p.rest.take n).foldl (fun i c => i + c.utf8Size) p.index

/-- The place after `n` more characters of the line. -/
def advance (n : Nat) (p : Cursor) : Cursor :=
  { p with rest := p.rest.drop n, index := p.indexAfter n, column := p.column + n }

/-- The place after all characters of a class from here on. -/
def skipWhile (test : Char → Bool) (p : Cursor) : Cursor :=
  p.advance (p.rest.takeWhile test).length

/-- The characters of a class from here on, and the place after them. -/
def takeWhile (test : Char → Bool) (p : Cursor) : List Char × Cursor :=
  (p.rest.takeWhile test, p.skipWhile test)

/-- The start of the next line, `n` characters further on. -/
def nextLine (n : Nat) (p : Cursor) : Cursor :=
  { p with rest := p.rest.drop n, index := p.indexAfter n, line := p.line + 1, column := 0 }

/-- The line break at a place, as it counts in a scalar, and the place after it.  Every break but
the separators of lines and paragraphs counts as a line feed. -/
def takeBreak (p : Cursor) : List Char × Cursor :=
  match p.rest with
  | '\r' :: '\n' :: _ => (['\n'], p.nextLine 2)
  | '\u2028' :: _ => (['\u2028'], p.nextLine 1)
  | '\u2029' :: _ => (['\u2029'], p.nextLine 1)
  | c :: _ => if isBreak c then (['\n'], p.nextLine 1) else ([], p)
  | [] => ([], p)

/-- The place after the line break at a place. -/
def skipBreak (p : Cursor) : Cursor := p.takeBreak.2

/-- Whether three characters of a kind at the start of a line mark the border of a document. -/
def atMarker (c : Char) (p : Cursor) : Bool :=
  p.column == 0 && p.rest.take 3 == [c, c, c] && startsSeparated (p.rest.drop 3)

/-- Whether a marker of the start or the end of a document is at a place. -/
def atDocumentBorder (p : Cursor) : Bool := p.atMarker '-' || p.atMarker '.'

end Cursor

end Dashboards.Yaml
