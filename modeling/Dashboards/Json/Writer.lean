import Dashboards.Json.Value

/-!
# Writing JSON text

The compact text of a value, and its text with one member or item a line, indented by two spaces a
level.  Members are written in the order in which the value holds them.
-/

namespace Dashboards.Json

/-- One character of a written string. -/
def escapeChar (c : Char) : List Char :=
  match c with
  | '"' => ['\\', '"']
  | '\\' => ['\\', '\\']
  | '\x08' => ['\\', 'b']
  | '\x0c' => ['\\', 'f']
  | '\n' => ['\\', 'n']
  | '\r' => ['\\', 'r']
  | '\t' => ['\\', 't']
  | c =>
    if c.toNat < 0x20 then
      ['\\', 'u', '0', '0', Nat.digitChar (c.toNat / 16), Nat.digitChar (c.toNat % 16)]
    else [c]

/-- A string between quotes, with quotes, backslashes and controls escaped. -/
def stringChars (s : String) : List Char :=
  '"' :: s.toList.flatMap escapeChar ++ ['"']

/-! ## Compact text -/

mutual

/-- The compact text of a value. -/
def compactValue : Value → List Char
  | .null => ['n', 'u', 'l', 'l']
  | .bool true => ['t', 'r', 'u', 'e']
  | .bool false => ['f', 'a', 'l', 's', 'e']
  | .number n => n.text.toList
  | .string s => stringChars s
  | .array items => '[' :: compactItems items
  | .object ms => '\x7b' :: compactMembers ms

/-- The items of an array and its closing bracket. -/
def compactItems : List Value → List Char
  | [] => [']']
  | [v] => compactValue v ++ [']']
  | v :: vs => compactValue v ++ ',' :: compactItems vs

/-- The members of an object and its closing brace. -/
def compactMembers : List (String × Value) → List Char
  | [] => ['\x7d']
  | [(k, v)] => stringChars k ++ ':' :: compactValue v ++ ['\x7d']
  | (k, v) :: ms => stringChars k ++ ':' :: compactValue v ++ ',' :: compactMembers ms

end

/-- The compact text of a value. -/
def Value.compact (v : Value) : String := String.ofList (compactValue v)

/-! ## Indented text -/

/-- A new line at a level of indentation. -/
def newLine (level : Nat) : List Char := '\n' :: List.replicate (2 * level) ' '

mutual

/-- The indented text of a value whose first line starts at the level. -/
def prettyValue (level : Nat) : Value → List Char
  | .null => ['n', 'u', 'l', 'l']
  | .bool true => ['t', 'r', 'u', 'e']
  | .bool false => ['f', 'a', 'l', 's', 'e']
  | .number n => n.text.toList
  | .string s => stringChars s
  | .array [] => ['[', ']']
  | .array (v :: vs) => '[' :: prettyItems (level + 1) (v :: vs) ++ newLine level ++ [']']
  | .object [] => ['\x7b', '\x7d']
  | .object (m :: ms) =>
    '\x7b' :: prettyMembers (level + 1) (m :: ms) ++ newLine level ++ ['\x7d']

/-- Items on lines of their own. -/
def prettyItems (level : Nat) : List Value → List Char
  | [] => []
  | [v] => newLine level ++ prettyValue level v
  | v :: vs => newLine level ++ prettyValue level v ++ ',' :: prettyItems level vs

/-- Members on lines of their own. -/
def prettyMembers (level : Nat) : List (String × Value) → List Char
  | [] => []
  | [(k, v)] => newLine level ++ stringChars k ++ ':' :: ' ' :: prettyValue level v
  | (k, v) :: ms =>
    newLine level ++ stringChars k ++ ':' :: ' ' :: prettyValue level v ++
      ',' :: prettyMembers level ms

end

/-- The indented text of a value. -/
def Value.pretty (v : Value) : String := String.ofList (prettyValue 0 v)

end Dashboards.Json
