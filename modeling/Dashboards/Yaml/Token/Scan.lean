import Dashboards.Yaml.Token.Scalar
import Dashboards.Yaml.Token.Tag

/-!
# From YAML text to tokens

The tokens of a text, found from its front.  A mapping is known to have started only when the `:`
after its first key is met, so the scan remembers where a key may have started, and puts the tokens
before it when it turns out to be one.
-/

namespace Dashboards.Yaml

/-- A place where a key may have started: how many tokens were found before it, and whether nothing
but a key can be there. -/
structure KeyCandidate where
  place : Cursor
  before : Nat
  isRequired : Bool

/-- A scan of a text. -/
structure Scan where
  place : Cursor
  /-- the tokens found, the last one first -/
  found : List Token
  /-- the column of the innermost block collection, `-1` if there is none -/
  indent : Int
  /-- the columns of the block collections around it -/
  outer : List Int
  /-- where a key may have started: in the innermost flow collection first, and last in the block
  around all of them -/
  candidates : List (Option KeyCandidate)
  /-- whether a key may start here -/
  keyAllowed : Bool

namespace Scan

/-- A scan at the start of a text. -/
def start (cs : List Char) : Scan := ⟨.start cs, [], -1, [], [none], true⟩

/-- Whether the scan is inside a flow collection. -/
def inFlow (s : Scan) : Bool := 1 < s.candidates.length

/-- The scan with one more token. -/
def emit (t : Token) (s : Scan) : Scan := { s with found := t :: s.found }

/-- The scan `n` characters further on. -/
def advance (n : Nat) (s : Scan) : Scan := { s with place := s.place.advance n }

/-! ## Indentation -/

/-- Starts a block collection in a column that lies to the right of the innermost one.  Its token is
put before the last `after` tokens. -/
def indentTo (column : Nat) (after : Nat) (t : Token) (s : Scan) : Scan :=
  if !s.inFlow && s.indent < column then
    { s with
      indent := column
      outer := s.indent :: s.outer
      found := s.found.insertIdx after t }
  else s

/-- The columns of block collections after those to the right of a column have ended, and how many
have. -/
def outdent (column : Int) : Int → List Int → Int × List Int × Nat
  | indent, [] => (indent, [], 0)
  | indent, i :: outer =>
    if column < indent then
      let (indent, outer, n) := outdent column i outer
      (indent, outer, n + 1)
    else (indent, i :: outer, 0)

/-- Ends the block collections to the right of a column. -/
def outdentTo (column : Int) (s : Scan) : Scan :=
  if s.inFlow then s
  else
    let (indent, outer, n) := outdent column s.indent s.outer
    { s with indent := indent, outer := outer, found := List.replicate n .blockEnd ++ s.found }

/-! ## Keys -/

/-- Remembers that a key may start here; it must if the place is in the column of the innermost
block collection. -/
def markKey (s : Scan) : Option Scan :=
  if s.keyAllowed then
    let candidate : KeyCandidate :=
      ⟨s.place, s.found.length, !s.inFlow && s.indent == s.place.column⟩
    match s.candidates with
    | some c :: rest =>
      if c.isRequired then none else some { s with candidates := some candidate :: rest }
    | none :: rest => some { s with candidates := some candidate :: rest }
    | [] => some s
  else some s

/-- Forgets the place where a key may have started; an error if a key had to be there. -/
def unmarkKey (s : Scan) : Option Scan :=
  match s.candidates with
  | some c :: rest => if c.isRequired then none else some { s with candidates := none :: rest }
  | _ => some s

/-- Whether a key that started in a place can no longer end here: keys have one line and at most
1024 octets. -/
def KeyCandidate.isStale (here : Cursor) (c : KeyCandidate) : Bool :=
  c.place.line < here.line || c.place.index + 1024 < here.index

/-- Forgets the places of keys that can no longer end here. -/
def dropStale (here : Cursor) : List (Option KeyCandidate) → Option (List (Option KeyCandidate))
  | [] => some []
  | none :: cs => (dropStale here cs).map (none :: ·)
  | some c :: cs =>
    if KeyCandidate.isStale here c then
      if c.isRequired then none else (dropStale here cs).map (none :: ·)
    else (dropStale here cs).map (some c :: ·)

/-- The scan without the places of keys that can no longer end here. -/
def dropStaleKeys (s : Scan) : Option Scan :=
  (dropStale s.place s.candidates).map fun cs => { s with candidates := cs }

/-! ## Between tokens -/

/-- Passes over blanks, comments and breaks.  In a block, a tab may not stand where a key may
start.  A byte order mark may stand at the start of a line, where it takes a column. -/
def passSpace : Nat → Scan → Scan
  | 0, s => s
  | fuel + 1, s =>
    let p := s.place
    let p := if p.column = 0 ∧ p.rest.head? = some '\ufeff' then p.advance 1 else p
    -- a tab is not indentation, so in a block it may stand only where no key may start
    let tabs := s.inFlow || !s.keyAllowed
    let p := p.skipWhile fun c => c == ' ' || (tabs && c == '\t')
    let p := if p.rest.head? = some '#' then p.skipWhile fun c => !isBreak c else p
    if p.rest.head?.any isBreak then
      passSpace fuel { s with place := p.skipBreak, keyAllowed := s.keyAllowed || !s.inFlow }
    else { s with place := p }

/-! ## Tokens -/

/-- A directive.  It takes its whole line, and no key may start after it. -/
def scanDirective (s : Scan) : Option Scan := do
  let s ← (s.outdentTo (-1)).unmarkKey
  let (d, p) ← readDirective s.place
  return { s with place := p, keyAllowed := false }.emit (.directive d)

/-- A border of a document. -/
def scanBorder (t : Token) (s : Scan) : Option Scan := do
  let s ← (s.outdentTo (-1)).unmarkKey
  return ({ s with keyAllowed := false }.advance 3).emit t

/-- The start of a flow collection, which may be a key itself. -/
def scanFlowStart (t : Token) (s : Scan) : Option Scan := do
  let s ← s.markKey
  return ({ s with candidates := none :: s.candidates, keyAllowed := true }.advance 1).emit t

/-- The end of a flow collection. -/
def scanFlowEnd (t : Token) (s : Scan) : Option Scan := do
  let s ← s.unmarkKey
  let candidates := if s.inFlow then s.candidates.drop 1 else s.candidates
  return ({ s with candidates := candidates, keyAllowed := false }.advance 1).emit t

/-- A comma in a flow collection. -/
def scanFlowEntry (s : Scan) : Option Scan := do
  let s ← s.unmarkKey
  return ({ s with keyAllowed := true }.advance 1).emit .flowEntry

/-- The dash of an entry of a block sequence. -/
def scanBlockEntry (s : Scan) : Option Scan := do
  if !s.inFlow && !s.keyAllowed then none
  let s ← (s.indentTo s.place.column 0 .blockSequenceStart).unmarkKey
  return ({ s with keyAllowed := true }.advance 1).emit .blockEntry

/-- The question mark of a key. -/
def scanKey (s : Scan) : Option Scan := do
  if !s.inFlow && !s.keyAllowed then none
  let s ← (s.indentTo s.place.column 0 .blockMappingStart).unmarkKey
  return ({ s with keyAllowed := !s.inFlow }.advance 1).emit .key

/-- The colon before a value.  If a key may have started before, it is one. -/
def scanValue (s : Scan) : Option Scan := do
  match s.candidates with
  | some c :: rest =>
    -- the mark of the key goes before what was found since, and the start of a mapping before it
    let after := s.found.length - c.before
    let s := { s with found := s.found.insertIdx after .key, candidates := none :: rest }
    let s := s.indentTo c.place.column (after + 1) .blockMappingStart
    return ({ s with keyAllowed := false }.advance 1).emit .value
  | _ =>
    if !s.inFlow && !s.keyAllowed then none
    let s := s.indentTo s.place.column 0 .blockMappingStart
    return ({ s with keyAllowed := !s.inFlow }.advance 1).emit .value

/-- An anchor or an alias, after its indicator. -/
def scanName (t : String → Token) (s : Scan) : Option Scan := do
  let s ← s.markKey
  let (name, p) := (s.place.advance 1).takeWhile isNameChar
  if name.isEmpty then none
  if !(startsSeparated p.rest || p.rest.head?.any ("?:,]\x7d%@\x60".toList.contains ·)) then none
  return { s with place := p, keyAllowed := false }.emit (t (String.ofList name))

/-- A tag. -/
def scanTag (s : Scan) : Option Scan := do
  let s ← s.markKey
  let (handle, suffix, p) ← readTag s.inFlow s.place
  return { s with place := p, keyAllowed := false }.emit (.tag handle suffix)

/-- A literal or folded block scalar. -/
def scanBlockScalar (literal : Bool) (s : Scan) : Option Scan := do
  let s ← s.unmarkKey
  let (text, p) ← readBlock literal s.indent (s.place.advance 1)
  let style := if literal then .literal else .folded
  return { s with place := p, keyAllowed := true }.emit (.scalar (String.ofList text) style)

/-- A quoted scalar. -/
def scanQuoted (style : Style) (step : Char → List Char → WordStep) (s : Scan) : Option Scan := do
  let s ← s.markKey
  let p := s.place.advance 1
  let (text, p) ← readQuoted step (p.rest.length + 1) p
  return { s with place := p, keyAllowed := false }.emit (.scalar (String.ofList text) style)

/-- A plain scalar.  After a line break a key may start again. -/
def scanPlain (s : Scan) : Option Scan := do
  let s ← s.markKey
  let (text, broken, p) ← readPlain s.inFlow (s.indent + 1) (s.place.rest.length + 1) [] {} s.place
  return { s with place := p, keyAllowed := broken }.emit (.scalar (String.ofList text) .plain)

/-- The characters that start something else than a plain scalar. -/
def isIndicator (c : Char) : Bool := "-?:,[]\x7b\x7d#&*!|>'\"%@\x60".toList.contains c

/-- Whether a plain scalar may start with a character before others. -/
def startsPlain (inFlow : Bool) (c : Char) (cs : List Char) : Bool :=
  !(isSeparator c || isIndicator c) ||
    (c == '-' && !cs.head?.any isBlank) ||
    (!inFlow && (c == '?' || c == ':') && !startsSeparated cs)

/-- Finds the token at a character. -/
def scanToken (c : Char) (cs : List Char) (s : Scan) : Option Scan :=
  if s.place.column == 0 && c == '%' then s.scanDirective
  else if s.place.atMarker '-' then s.scanBorder .documentStart
  else if s.place.atMarker '.' then s.scanBorder .documentEnd
  else if c == '[' then s.scanFlowStart .flowSequenceStart
  else if c == '\x7b' then s.scanFlowStart .flowMappingStart
  else if c == ']' then s.scanFlowEnd .flowSequenceEnd
  else if c == '\x7d' then s.scanFlowEnd .flowMappingEnd
  else if c == ',' then s.scanFlowEntry
  -- before other characters these three begin plain scalars
  else if c == '-' && startsSeparated cs then s.scanBlockEntry
  else if c == '?' && (s.inFlow || startsSeparated cs) then s.scanKey
  else if c == ':' && (s.inFlow || startsSeparated cs) then s.scanValue
  else if c == '*' then s.scanName .aliasOf
  else if c == '&' then s.scanName .anchor
  else if c == '!' then s.scanTag
  -- block scalars have no place in a flow collection
  else if c == '|' && !s.inFlow then s.scanBlockScalar true
  else if c == '>' && !s.inFlow then s.scanBlockScalar false
  else if c == '\'' then s.scanQuoted .singleQuoted singleQuotedStep
  else if c == '"' then s.scanQuoted .doubleQuoted doubleQuotedStep
  else if startsPlain s.inFlow c cs then s.scanPlain
  else none

/-- The end of the text ends all block collections. -/
def finish (s : Scan) : Option (List Token) := do
  let s ← (s.outdentTo (-1)).unmarkKey
  return s.found.reverse

/-- Finds all tokens from here on.  The first argument bounds their number. -/
def run : Nat → Scan → Option (List Token)
  | 0, _ => none
  | fuel + 1, s =>
    match (s.passSpace (s.place.rest.length + 1)).dropStaleKeys with
    | none => none
    | some s =>
      let s := s.outdentTo s.place.column
      match s.place.rest with
      | [] => s.finish
      | c :: cs =>
        match s.scanToken c cs with
        | none => none
        | some s => run fuel s

end Scan

/-- The tokens of a text, `none` if it breaks the rules of YAML. -/
def tokens? (text : String) : Option (List Token) :=
  let cs := text.toList
  if cs.all isAllowed then (Scan.start cs).run (cs.length + 2) else none

end Dashboards.Yaml
