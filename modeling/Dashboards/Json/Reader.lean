import Dashboards.Json.Draft

/-!
# Reading JSON text

From characters to a draft.  Every function takes the characters at its place in the text and
returns what it found with the characters that follow, or with none if a fault stopped it.
-/

namespace Dashboards.Json

/-- The characters that may stand between tokens. -/
def isSpace (c : Char) : Bool := c == ' ' || c == '\t' || c == '\n' || c == '\r'

/-- The text without the space at its front. -/
def skipSpace (cs : List Char) : List Char := cs.dropWhile isSpace

/-- The text after an expected row of characters. -/
def expect : List Char → List Char → Except Fault (List Char)
  | [], cs => .ok cs
  | _ :: _, [] => .error .unfinished
  | e :: es, c :: cs => if c = e then expect es cs else .error .malformed

/-! ## Numbers -/

/-- The fault of a place where a digit is missing. -/
def missingDigit : List Char → Fault
  | [] => .unfinished
  | _ :: _ => .malformed

/-- A nonempty row of digits and what follows it. -/
def readDigits (cs : List Char) : Except Fault (List Char × List Char) :=
  let ds := cs.takeWhile Char.isDigit
  let rest := cs.dropWhile Char.isDigit
  if ds = [] then .error (missingDigit cs) else .ok (ds, rest)

/-- The digits before the point: a zero stands alone. -/
def readWhole : List Char → Except Fault (List Char × List Char)
  | '0' :: c :: cs => if c.isDigit then .error .malformed else .ok (['0'], c :: cs)
  | cs => readDigits cs

/-- The digits after the point, if there is one. -/
def readFraction : List Char → Except Fault (Option (List Char) × List Char)
  | '.' :: cs => (readDigits cs).map fun (ds, rest) => (some ds, rest)
  | cs => .ok (none, cs)

/-- The digits of an exponent after its letter, with their sign. -/
def readExponentDigits : List Char → Except Fault ((Bool × List Char) × List Char)
  | '+' :: cs => (readDigits cs).map fun (ds, rest) => ((false, ds), rest)
  | '-' :: cs => (readDigits cs).map fun (ds, rest) => ((true, ds), rest)
  | cs => (readDigits cs).map fun (ds, rest) => ((false, ds), rest)

/-- The exponent, if there is one. -/
def readExponent : List Char → Except Fault (Option (Bool × List Char) × List Char)
  | 'e' :: cs => (readExponentDigits cs).map fun (e, rest) => (some e, rest)
  | 'E' :: cs => (readExponentDigits cs).map fun (e, rest) => (some e, rest)
  | cs => .ok (none, cs)

/-- A number literal after its sign. -/
def readLiteral (negative : Bool) (cs : List Char) :
    Except Fault (Decimal.Literal × List Char) := do
  let (whole, cs) ← readWhole cs
  let (fraction, cs) ← readFraction cs
  let (exponent, cs) ← readExponent cs
  return (⟨negative, whole, fraction, exponent⟩, cs)

/-! ## Strings -/

/-- One element of a written string: a character, or the 16 bits of an escape by number. -/
inductive StringUnit where
  | char (c : Char)
  | code (n : Nat)
deriving DecidableEq, Repr

/-- The character of an escape by letter. -/
def escapedChar? : Char → Option Char
  | '"' => some '"'
  | '\\' => some '\\'
  | '/' => some '/'
  | 'b' => some '\x08'
  | 'f' => some '\x0c'
  | 'n' => some '\n'
  | 'r' => some '\r'
  | 't' => some '\t'
  | _ => none

/-- The units of a string after its opening quote, and the text after its closing quote or the
fault in its place.  An escape by number needs four digits; fewer than four bytes to the end of the
text leave it unfinished. -/
def scanUnits : List Char → List StringUnit × Except Fault (List Char)
  | [] => ([], .error .unfinished)
  | '"' :: cs => ([], .ok cs)
  | ['\\'] => ([], .error .unfinished)
  | '\\' :: 'u' :: a :: b :: c :: d :: cs =>
    match Decimal.numeral? 16 [a, b, c, d] with
    | some n =>
      let (units, rest) := scanUnits cs
      (.code n :: units, rest)
    | none => ([], .error .malformed)
  | '\\' :: 'u' :: cs =>
    ([], .error (if (String.ofList cs).utf8ByteSize < 4 then .unfinished else .malformed))
  | '\\' :: c :: cs =>
    match escapedChar? c with
    | some e =>
      let (units, rest) := scanUnits cs
      (.char e :: units, rest)
    | none => ([], .error .malformed)
  | c :: cs =>
    if c.toNat < 0x20 then ([], .error .malformed)
    else
      let (units, rest) := scanUnits cs
      (.char c :: units, rest)

/-- Whether a number is the first half of a surrogate pair. -/
def isHighSurrogate (n : Nat) : Bool := 0xD800 ≤ n && n ≤ 0xDBFF

/-- Whether a number is the second half of a surrogate pair. -/
def isLowSurrogate (n : Nat) : Bool := 0xDC00 ≤ n && n ≤ 0xDFFF

/-- The character of a surrogate pair. -/
def pairChar (high low : Nat) : Char :=
  Char.ofNat (0x10000 + (high - 0xD800) * 0x400 + (low - 0xDC00))

/-- The characters of a string, given its units and the fault that ends them, if any.  Halves of
surrogate pairs must stand together. -/
def joinUnits (ending : Option Fault) : List StringUnit → Except Fault (List Char)
  | [] => match ending with
    | none => .ok []
    | some f => .error f
  | .char c :: us => (joinUnits ending us).map (c :: ·)
  | .code n :: us =>
    if isLowSurrogate n then .error .malformed
    else if isHighSurrogate n then
      -- a first half needs a second one right after it
      match us with
      | [] => .error (ending.getD .malformed)
      | .char _ :: _ => .error .malformed
      | .code m :: us =>
        if isLowSurrogate m then (joinUnits ending us).map (pairChar n m :: ·)
        else .error .malformed
    else (joinUnits ending us).map (Char.ofNat n :: ·)

/-- A string after its opening quote: its text or the fault for one who reads it, and the text that
follows or the fault for one who skips it. -/
def readString (cs : List Char) : Except Fault String × Except Fault (List Char) :=
  let (units, rest) := scanUnits cs
  let ending := match rest with
    | .ok _ => none
    | .error f => some f
  ((joinUnits ending units).map String.ofList, rest)

/-! ## Values -/

/-- The draft of a scalar that ended well, or of its fault. -/
def scalar (cs : Except Fault (List Char)) (d : Draft) : Draft × Option (List Char) :=
  match cs with
  | .ok rest => (d, some rest)
  | .error f => (.broken .other f f, none)

/-- The draft of a string after its opening quote. -/
def stringDraft (cs : List Char) : Draft × Option (List Char) :=
  match readString cs with
  | (content, .ok rest) => (.string content, some rest)
  | (.error f, .error g) => (.broken .string f g, none)
  | (.ok _, .error g) => (.broken .string g g, none)

/-- The draft of a number after its sign.  For one who skips it, a number that is cut off is
malformed. -/
def numberDraft (negative : Bool) (cs : List Char) : Draft × Option (List Char) :=
  match readLiteral negative cs with
  | .ok (l, rest) =>
    (.number (match Number.ofLiteral? l with
      | some n => .ok n
      | none => .error .malformed), some rest)
  | .error f => (.broken .other f .malformed, none)

/-- The draft of the end of a text in the place of a value. -/
def noDraft : Draft := .broken .nothing .unfinished .unfinished

/-- The draft of characters that no value begins with, or of a place that no value can be in. -/
def wrongDraft : Draft := .broken .other .malformed .malformed

mutual

/-- The draft of the value at the front of a text.  The first argument bounds the number of nested
calls. -/
def readValue : Nat → List Char → Draft × Option (List Char)
  | 0, _ => (wrongDraft, none)
  | fuel + 1, cs =>
    match skipSpace cs with
    | [] => (noDraft, none)
    | 'n' :: cs => scalar (expect ['u', 'l', 'l'] cs) .null
    | 't' :: cs => scalar (expect ['r', 'u', 'e'] cs) (.bool true)
    | 'f' :: cs => scalar (expect ['a', 'l', 's', 'e'] cs) (.bool false)
    | '"' :: cs => stringDraft cs
    | '-' :: cs => numberDraft true cs
    | '[' :: cs =>
      match skipSpace cs with
      | [] => (.array [] (some .unfinished), none)
      | ']' :: cs => (.array [] none, some cs)
      | cs =>
        let (items, stop, rest) := readItems fuel cs
        (.array items stop, rest)
    | '\x7b' :: cs =>
      match skipSpace cs with
      | [] => (.object [] (some .unfinished), none)
      | '\x7d' :: cs => (.object [] none, some cs)
      | cs =>
        let (members, stop, rest) := readMembers fuel cs
        (.object members stop, rest)
    | c :: cs =>
      if c.isDigit then numberDraft false (c :: cs)
      else (wrongDraft, none)

/-- The items of an array from the place of an item on, the fault in place of the closing bracket
if there is one, and the text that follows. -/
def readItems : Nat → List Char → List Draft × Option Fault × Option (List Char)
  | 0, _ => ([], some .malformed, none)
  | fuel + 1, cs =>
    match readValue fuel cs with
    -- after a value that is cut off there is no telling where the next one begins
    | (d, none) => ([d], some .malformed, none)
    | (d, some cs) =>
      match skipSpace cs with
      | [] => ([d], some .unfinished, none)
      | ']' :: cs => ([d], none, some cs)
      | ',' :: cs =>
        let (ds, stop, rest) := readItems fuel cs
        (d :: ds, stop, rest)
      | _ :: _ => ([d], some .malformed, none)

/-- The members of an object from the place of a member on, the fault in place of the closing brace
if there is one, and the text that follows. -/
def readMembers : Nat → List Char → DraftMembers × Option Fault × Option (List Char)
  | 0, _ => ([], some .malformed, none)
  | fuel + 1, cs =>
    match skipSpace cs with
    | [] => ([(.error .unfinished, noDraft)], some .unfinished, none)
    | '"' :: cs =>
      match readString cs with
      -- a key without an end takes the rest of the text with it
      | (key, .error f) => ([(key, .broken .string f f)], some .malformed, none)
      | (key, .ok cs) =>
        match skipSpace cs with
        | [] => ([(key, noDraft)], some .unfinished, none)
        | ':' :: cs =>
          match readValue fuel cs with
          | (d, none) => ([(key, d)], some .malformed, none)
          | (d, some cs) =>
            match skipSpace cs with
            | [] => ([(key, d)], some .unfinished, none)
            | '\x7d' :: cs => ([(key, d)], none, some cs)
            | ',' :: cs =>
              let (ms, stop, rest) := readMembers fuel cs
              ((key, d) :: ms, stop, rest)
            | _ :: _ => ([(key, d)], some .malformed, none)
        | _ :: _ => ([(key, wrongDraft)], some .malformed, none)
    | _ :: _ => ([(.error .malformed, wrongDraft)], some .malformed, none)

end

/-- The draft of a text, and the fault that follows its value, if any: only space may. -/
def Draft.ofText (text : String) : Draft × Option Fault :=
  let cs := text.toList
  match readValue (2 * cs.length + 2) cs with
  | (d, none) => (d, some .malformed)
  | (d, some rest) => (d, if skipSpace rest = [] then none else some .malformed)

/-- The sorted value of a text. -/
def Value.ofText (text : String) : Except Fault Value := do
  let (d, stop) := Draft.ofText text
  let v ← d.read .wholeText
  match stop with
  | none => return v
  | some f => throw f

example : (Value.ofText " [1, -0, \"\\ud83d\\ude00\"] ").toOption =
    some (.array [.number (.integer 1 (by decide)), .number (.double (.zero true)),
      .string "😀"]) := by
  decide +kernel
example : (match Value.ofText "[1," with
    | .error f => some f
    | .ok _ => none) = some .unfinished := by decide +kernel

end Dashboards.Json
