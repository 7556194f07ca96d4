import Dashboards.Decimal.Digits
import Dashboards.Yaml.Cursor

/-!
# Scalars in YAML text

The three ways to write a scalar: between quotes, plain, and as a block of lines.  Quoted and plain
scalars may go on over several lines.  A single line break then counts as a space, further breaks
count as themselves, and blanks around breaks do not count.

Every loop runs through the text from the front; the first argument of a function that calls itself
bounds the number of its rounds.
-/

namespace Dashboards.Yaml

/-- The breaks between two lines of a scalar as text: one line feed is a space, and of several the
first is dropped. -/
def foldBreaks (first further : List Char) : List Char :=
  if first = ['\n'] then (if further = [] then [' '] else further) else first ++ further

/-- The blanks and breaks met between two words of a scalar. -/
structure Gap where
  /-- blanks of the line, as long as no break is met -/
  blanks : List Char := []
  /-- the first break -/
  first : List Char := []
  further : List Char := []
  /-- whether the blanks no longer count -/
  isBroken : Bool := false

/-- What a gap counts for. -/
def Gap.text (g : Gap) : List Char :=
  if g.isBroken then foldBreaks g.first g.further else g.blanks

/-- The gap with one more break. -/
def Gap.addBreak (g : Gap) (chars : List Char) : Gap :=
  if g.isBroken then { g with further := g.further ++ chars }
  else { g with blanks := [], first := chars, isBroken := true }

/-- Passes over blanks and breaks.  A plain scalar in a block may not be indented by tabs, that is,
have them to the left of the given column; `none` if it is. -/
def passGap : Nat → Option Nat → Gap → Cursor → Option (Gap × Cursor)
  | 0, _, _, _ => none
  | fuel + 1, tabLimit, g, p =>
    match p.rest with
    | [] => some (g, p)
    | c :: _ =>
      if isBlank c then
        if g.isBroken && c == '\t' && tabLimit.any (p.column < ·) then none
        else
          let g := if g.isBroken then g else { g with blanks := g.blanks ++ [c] }
          passGap fuel tabLimit g (p.advance 1)
      else if isBreak c then
        let (chars, p) := p.takeBreak
        passGap fuel tabLimit (g.addBreak chars) p
      else some (g, p)

/-! ## Quoted scalars -/

/-- The character of an escape by letter between double quotes. -/
def escapedChar? : Char → Option Char
  | '0' => some '\x00'
  | 'a' => some '\x07'
  | 'b' => some '\x08'
  | 't' => some '\t'
  | '\t' => some '\t'
  | 'n' => some '\n'
  | 'v' => some '\x0b'
  | 'f' => some '\x0c'
  | 'r' => some '\x0d'
  | 'e' => some '\x1b'
  | ' ' => some ' '
  | '"' => some '"'
  | '/' => some '/'
  | '\\' => some '\\'
  | 'N' => some '\u0085'
  | '_' => some '\u00a0'
  | 'L' => some '\u2028'
  | 'P' => some '\u2029'
  | _ => none

/-- The number of hexadecimal digits of an escape by number. -/
def escapeLength? : Char → Option Nat
  | 'x' => some 2
  | 'u' => some 4
  | 'U' => some 8
  | _ => none

/-- The character of an escape, after its backslash, and how many characters it takes. -/
def readEscape? : List Char → Option (Char × Nat)
  | [] => none
  | c :: cs =>
    match escapeLength? c with
    | some n =>
      let ds := cs.take n
      if ds.length = n then
        (Decimal.numeral? 16 ds).bind fun code =>
          if code.isValidChar then some (Char.ofNat code, n + 1) else none
      else none
    | none => (escapedChar? c).map fun e => (e, 1)

/-- How a word of a quoted scalar ended: at the closing quote, at a break that is escaped, or at a
separator or the end of the text. -/
inductive WordEnd where
  | quote
  | escapedBreak
  | separator

/-- One step through a word of a quoted scalar, at a character with those that follow it. -/
inductive WordStep where
  /-- a character of the scalar, written with so many characters -/
  | char (c : Char) (length : Nat)
  | quote
  | escapedBreak
  | separator
  | error

/-- The step at a character of a scalar between single quotes. -/
def singleQuotedStep (c : Char) (cs : List Char) : WordStep :=
  if isSeparator c then .separator
  else if c = '\'' then (if cs.head? = some '\'' then .char '\'' 2 else .quote)
  else .char c 1

/-- The step at a character of a scalar between double quotes. -/
def doubleQuotedStep (c : Char) (cs : List Char) : WordStep :=
  if isSeparator c then .separator
  else if c = '"' then .quote
  else if c = '\\' then
    if cs.head?.any isBreak then .escapedBreak
    else
      match readEscape? cs with
      | some (e, n) => .char e (n + 1)
      | none => .error
  else .char c 1

/-- The characters of a quoted scalar up to the next separator. -/
def readQuotedWord (step : Char → List Char → WordStep) : Nat → Cursor →
    Option (List Char × WordEnd × Cursor)
  | 0, _ => none
  | fuel + 1, p =>
    match p.rest with
    | [] => some ([], .separator, p)
    | c :: cs =>
      match step c cs with
      | .char e n =>
        (readQuotedWord step fuel (p.advance n)).map fun (word, rest) => (e :: word, rest)
      | .quote => some ([], .quote, p.advance 1)
      | .escapedBreak => some ([], .escapedBreak, (p.advance 1).skipBreak)
      | .separator => some ([], .separator, p)
      | .error => none

/-- The text of a quoted scalar from a place after its opening quote on. -/
def readQuoted (step : Char → List Char → WordStep) : Nat → Cursor →
    Option (List Char × Cursor)
  | 0, _ => none
  | fuel + 1, p =>
    if p.atDocumentBorder || p.rest.isEmpty then none
    else
      match readQuotedWord step (p.rest.length + 1) p with
      | none => none
      | some (word, .quote, p) => some (word, p)
      | some (word, wordEnd, p) =>
        -- an escaped break is none of the breaks that are folded
        let gap : Gap := match wordEnd with
          | .escapedBreak => { isBroken := true }
          | _ => {}
        match passGap (p.rest.length + 1) none gap p with
        | none => none
        | some (gap, p) =>
          (readQuoted step fuel p).map fun (text, p) => (word ++ gap.text ++ text, p)

/-! ## Plain scalars -/

/-- A word of a plain scalar, up to a separator or a character that ends the scalar. -/
def readPlainWord (inFlow : Bool) : List Char → Option (List Char)
  | [] => some []
  | c :: cs =>
    if isSeparator c then some []
    else if inFlow && c == ':' && cs.head?.any (",?[]\x7b\x7d".toList.contains ·) then none
    else if c == ':' && startsSeparated cs then some []
    else if inFlow && ",[]\x7b\x7d".toList.contains c then some []
    else (readPlainWord inFlow cs).map (c :: ·)

/-- The text of a plain scalar whose text so far and the gap after it are given, whether it ended
after a line break, and the place after it.  In a block it goes on as long as its lines are indented
by the given number of columns at least. -/
def readPlain (inFlow : Bool) (indent : Int) : Nat → List Char → Gap → Cursor →
    Option (List Char × Bool × Cursor)
  | 0, _, _, _ => none
  | fuel + 1, text, gap, p =>
    -- the gap before a border or a comment is not a part of the scalar
    if p.atDocumentBorder || p.rest.head? == some '#' then some (text, gap.isBroken, p)
    else
      match readPlainWord inFlow p.rest with
      | none => none
      | some word =>
        let p := p.advance word.length
        let (text, gap) := if word = [] then (text, gap) else (text ++ gap.text ++ word, {})
        if p.rest.head?.any isSeparator then
          match passGap (p.rest.length + 1) (some indent.toNat) gap p with
          | none => none
          | some (gap, p) =>
            if !inFlow && (p.column : Int) < indent then some (text, gap.isBroken, p)
            else readPlain inFlow indent fuel text gap p
        else some (text, gap.isBroken, p)

/-! ## Block scalars -/

/-- What a block scalar does with the breaks at its end. -/
inductive Chomping where
  | strip
  | clip
  | keep
deriving DecidableEq, Repr

/-- The chomping mark of a header. -/
def chomping? : Char → Option Chomping
  | '-' => some .strip
  | '+' => some .keep
  | _ => none

/-- The indentation mark of a header, zero if there is none; zero itself is no mark. -/
def readIncrement (p : Cursor) : Option (Nat × Cursor) :=
  match p.rest with
  | c :: _ =>
    if c = '0' then none
    else if c.isDigit then some (c.toNat - '0'.toNat, p.advance 1)
    else some (0, p)
  | [] => some (0, p)

/-- The marks of a header, in either order. -/
def readHeader (p : Cursor) : Option (Chomping × Nat × Cursor) :=
  match p.rest.head?.bind chomping? with
  | some chomping => (readIncrement (p.advance 1)).map fun (n, p) => (chomping, n, p)
  -- the indentation mark first, and then the chomping mark
  | none =>
    (readIncrement p).map fun (n, p) =>
      match (if n = 0 then none else p.rest.head?.bind chomping?) with
      | some chomping => (chomping, n, p.advance 1)
      | none => (.clip, n, p)

/-- Passes over the indentation and the empty lines before a line of a block scalar.  `indent` is
zero as long as it is not known; the widest indentation met is counted. -/
def passIndentation (indent : Nat) : Nat → List Char → Nat → Cursor →
    Option (List Char × Nat × Cursor)
  | 0, _, _, _ => none
  | fuel + 1, breaks, widest, p =>
    let room := if indent = 0 then p.rest.length else indent - p.column
    let p := p.advance ((p.rest.take room).takeWhile (· == ' ')).length
    let widest := max widest p.column
    if (indent == 0 || p.column < indent) && p.rest.head? == some '\t' then none
    else if p.rest.head?.any isBreak then
      let (chars, p) := p.takeBreak
      passIndentation indent fuel (breaks ++ chars) widest p
    else some (breaks, widest, p)

/-- The lines of a block scalar, as they are joined. -/
structure BlockText where
  text : List Char := []
  /-- the break after the last line -/
  first : List Char := []
  /-- the breaks of empty lines after it -/
  further : List Char := []
  /-- whether the last line starts with a blank -/
  isIndented : Bool := false

/-- The text with the breaks before a line that starts with a blank or not. -/
def BlockText.joined (literal startsBlank : Bool) (b : BlockText) : List Char :=
  if !literal && b.first == ['\n'] && !b.isIndented && !startsBlank then
    b.text ++ (if b.further = [] then [' '] else b.further)
  else b.text ++ b.first ++ b.further

/-- The lines of a block scalar from the start of one on. -/
def readBlockLines (literal : Bool) (indent : Nat) : Nat → BlockText → Cursor →
    Option (BlockText × Cursor)
  | 0, _, _ => none
  | fuel + 1, b, p =>
    if p.column = indent ∧ p.rest ≠ [] then
      let startsBlank := p.rest.head?.any isBlank
      let (line, p) := p.takeWhile fun c => !isBreak c
      let text := b.joined literal startsBlank ++ line
      let (first, p) := p.takeBreak
      match passIndentation indent (p.rest.length + 1) [] 0 p with
      | none => none
      | some (further, _, p) =>
        readBlockLines literal indent fuel ⟨text, first, further, startsBlank⟩ p
    else some (b, p)

/-- A block scalar after its indicator; `parent` is the indentation of what surrounds it. -/
def readBlock (literal : Bool) (parent : Int) (p : Cursor) : Option (List Char × Cursor) := do
  let (chomping, increment, p) ← readHeader p
  let p := p.skipWhile isBlank
  let p := if p.rest.head? = some '#' then p.skipWhile fun c => !isBreak c else p
  if !startsBroken p.rest then none
  let p := p.skipBreak
  let given := if increment = 0 then 0 else (max parent 0).toNat + increment
  let (breaks, widest, p) ← passIndentation given (p.rest.length + 1) [] 0 p
  -- without a mark the widest indentation met so far counts
  let indent := if given = 0 then max widest (max (parent + 1) 1).toNat else given
  let (b, p) ← readBlockLines literal indent (p.rest.length + 1) { further := breaks } p
  let ending := match chomping with
    | .strip => []
    | .clip => b.first
    | .keep => b.first ++ b.further
  return (b.text ++ ending, p)

end Dashboards.Yaml
