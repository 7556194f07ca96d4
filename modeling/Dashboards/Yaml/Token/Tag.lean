import Dashboards.Decimal.Digits
import Dashboards.Yaml.Cursor
import Dashboards.Yaml.Token

/-!
# Tags and directives in YAML text

A tag says what kind of thing a node is.  It is written in full between `!<` and `>`, or as a handle
and a suffix: `!suffix`, `!!suffix`, `!name!suffix`.  What a handle stands for is said by
directives, lines before the document that start with a percent sign.

A tag is a row of octets.  Here each octet is the character with its number, so that the text of a
tag is an ordinary text as long as it is ASCII.
-/

namespace Dashboards.Yaml

/-! ## Characters of tags -/

/-- Whether the character may stand in a tag; in full tags some more characters may. -/
def isTagChar (isFull : Bool) (c : Char) : Bool :=
  isNameChar c || ";/?:@&=+$.!~*'()".toList.contains c || (isFull && ",[]".toList.contains c)

/-- The octet of an escape: a percent sign and two hexadecimal digits. -/
def escapedOctet? : List Char → Option Nat
  | '%' :: a :: b :: _ => Decimal.numeral? 16 [a, b]
  | _ => none

/-- How many octets a character has in UTF-8, by the first of them. -/
def octetCount? (octet : Nat) : Option Nat :=
  if octet < 0x80 then some 1
  else if octet < 0xC0 then none
  else if octet < 0xE0 then some 2
  else if octet < 0xF0 then some 3
  else if octet < 0xF8 then some 4
  else none

/-- The octets of a character after the first one, as many as given. -/
def furtherOctets? : Nat → List Char → Option (List Char)
  | 0, _ => some []
  | n + 1, cs => do
    let octet ← escapedOctet? cs
    if octet < 0x80 ∨ 0xC0 ≤ octet then none
    return Char.ofNat octet :: (← furtherOctets? n (cs.drop 3))

/-- The octets of one escaped character. -/
def escapedCharacter? (cs : List Char) : Option (List Char) := do
  let octet ← escapedOctet? cs
  let n ← octetCount? octet
  return Char.ofNat octet :: (← furtherOctets? (n - 1) (cs.drop 3))

/-- The octets of a tag from a place on. -/
def readOctets (isFull : Bool) : Nat → Cursor → Option (List Char × Cursor)
  | 0, _ => none
  | fuel + 1, p =>
    match p.rest with
    | [] => some ([], p)
    | c :: _ =>
      if c = '%' then do
        let octets ← escapedCharacter? p.rest
        let (further, p) ← readOctets isFull fuel (p.advance (3 * octets.length))
        return (octets ++ further, p)
      else if isTagChar isFull c then do
        let (further, p) ← readOctets isFull fuel (p.advance 1)
        return (c :: further, p)
      else some ([], p)

/-- The octets of a tag or a part of one, at least one. -/
def readSomeOctets (isFull : Bool) (p : Cursor) : Option (List Char × Cursor) :=
  (readOctets isFull (p.rest.length + 1) p).filter fun (octets, _) => !octets.isEmpty

/-- Octets as text; they end before the first zero. -/
def octetText (octets : List Char) : String := String.ofList (octets.takeWhile (· != '\x00'))

/-- A handle: an exclamation mark, then characters of a name, then another mark if there is one. -/
def readHandle (p : Cursor) : Option (List Char × Cursor) :=
  match p.rest with
  | '!' :: _ =>
    let (name, p) := (p.advance 1).takeWhile isNameChar
    if p.rest.head? = some '!' then some ('!' :: name ++ ['!'], p.advance 1)
    else some ('!' :: name, p)
  | _ => none

/-! ## Tags -/

/-- A tag in full, after its exclamation mark. -/
def readFullTag (p : Cursor) : Option (String × String × Cursor) := do
  let (octets, p) ← readSomeOctets true (p.advance 1)
  if p.rest.head? ≠ some '>' then none
  return ("", octetText octets, p.advance 1)

/-- A tag that starts with a handle.  What looks like the start of a longer handle but is none
belongs to the suffix of the shortest one, and an exclamation mark alone is a complete tag. -/
def readShortTag (p : Cursor) : Option (String × String × Cursor) := do
  let (handle, p) ← readHandle p
  if 1 < handle.length ∧ handle.getLast? = some '!' then
    let (octets, p) ← readSomeOctets false p
    return (String.ofList handle, octetText octets, p)
  else
    let (octets, p) ← readOctets false (p.rest.length + 1) p
    let suffix := octetText (handle.drop 1 ++ octets)
    return if suffix = "" then ("", "!", p) else ("!", suffix, p)

/-- A tag as its handle and its suffix.  It ends at a separator, and in a flow collection also at a
comma. -/
def readTag (inFlow : Bool) (p : Cursor) : Option (String × String × Cursor) := do
  let (handle, suffix, p) ←
    if (p.rest.drop 1).head? = some '<' then readFullTag (p.advance 1) else readShortTag p
  if !(startsSeparated p.rest || (inFlow && p.rest.head? == some ',')) then none
  return (handle, suffix, p)

/-! ## Directives -/

/-- A part of a version: a numeral of at most nine digits. -/
def readVersionPart (p : Cursor) : Option (Nat × Cursor) :=
  let (ds, p) := p.takeWhile Char.isDigit
  if ds = [] ∨ 9 < ds.length then none else some (Decimal.valueOf 10 ds, p)

/-- The version that a directive gives. -/
def readVersion (p : Cursor) : Option (Directive × Cursor) := do
  let (major, p) ← readVersionPart (p.skipWhile isBlank)
  if p.rest.head? ≠ some '.' then none
  let (minor, p) ← readVersionPart (p.advance 1)
  return (Directive.version major minor, p)

/-- The handle that a directive explains, and what it stands for. -/
def readHandleMeaning (p : Cursor) : Option (Directive × Cursor) := do
  let (handle, p) ← readHandle (p.skipWhile isBlank)
  if handle.getLast? ≠ some '!' then none
  if !p.rest.head?.any isBlank then none
  let (octets, p) ← readSomeOctets true (p.skipWhile isBlank)
  if !startsSeparated p.rest then none
  return (Directive.handle (String.ofList handle) (octetText octets), p)

/-- A directive, and the start of the line after it. -/
def readDirective (p : Cursor) : Option (Directive × Cursor) := do
  let (name, p) := (p.advance 1).takeWhile isNameChar
  if !startsSeparated p.rest then none
  let (d, p) ← match String.ofList name with
    | "YAML" => readVersion p
    | "TAG" => readHandleMeaning p
    | _ => none
  let p := p.skipWhile isBlank
  let p := if p.rest.head? = some '#' then p.skipWhile fun c => !isBreak c else p
  if !startsBroken p.rest then none
  return (d, p.skipBreak)

example : (readTag false (.start "!!int 5".toList)).map (fun (h, s, _) => (h, s)) =
    some ("!!", "int") := by decide +kernel
example : (readTag false (.start "!<a%C3%A9> x".toList)).map (fun (h, s, _) => (h, s)) =
    some ("", "a\u00c3\u00a9") := by decide +kernel
example : (readTag false (.start "! x".toList)).map (fun (h, s, _) => (h, s)) =
    some ("", "!") := by decide +kernel
example : (readTag false (.start "!! x".toList)).isNone := by decide +kernel
example : (readDirective (.start "%TAG !e! tag:e,2020: # e\n".toList)).map (·.1) =
    some (Directive.handle "!e!" "tag:e,2020:") := by decide +kernel

end Dashboards.Yaml
