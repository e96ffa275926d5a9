import DataClient.Json.Basic
import DataClient.Number.Float
import DataClient.Text.Chars

/-!
# Writing JSON

Compactly, or indented by two spaces a level. Members are written in the order in which they
stand. Only quotes, backslashes and controls are escaped.
-/

set_option autoImplicit false

namespace DataClient.Json

/-- A character inside a string. -/
def writeChar (c : Char) : List Char :=
  match c with
  | '"' => ['\\', '"']
  | '\\' => ['\\', '\\']
  | '\x08' => ['\\', 'b']
  | '\x0c' => ['\\', 'f']
  | '\n' => ['\\', 'n']
  | '\r' => ['\\', 'r']
  | '\t' => ['\\', 't']
  | c =>
    if c.toNat < 0x20 then
      ['\\', 'u', '0', '0', Text.hexDigit (c.toNat / 16), Text.hexDigit (c.toNat % 16)]
    else [c]

/-- A string between its quotes. -/
def writeString (s : String) : String :=
  String.ofList ('"' :: s.toList.flatMap writeChar ++ ['"'])

/-- A number; a double without a finite value has no number and is written as `null`. -/
def Number.write : Number → String
  | .natural n => Nat.repr n.toNat
  | .negative n => toString n.toInt
  | .float x =>
    if Number.isFiniteDouble x then Number.Style.json.write (Number.Parts.ofDouble x) else "null"

mutual

/-- A document on one line, without spaces. -/
def compact : Json → String
  | .null => "null"
  | .bool b => if b then "true" else "false"
  | .number n => n.write
  | .string s => writeString s
  | .array items => "[" ++ compactItems items ++ "]"
  | .object ms => "\x7b" ++ compactMembers ms ++ "\x7d"

/-- Items with commas between them. -/
def compactItems : List Json → String
  | [] => ""
  | x :: xs => compact x ++ compactMoreItems xs

/-- Further items, a comma before each. -/
def compactMoreItems : List Json → String
  | [] => ""
  | x :: xs => "," ++ compact x ++ compactMoreItems xs

/-- Members with commas between them. -/
def compactMembers : List (String × Json) → String
  | [] => ""
  | (k, v) :: ms => writeString k ++ ":" ++ compact v ++ compactMoreMembers ms

/-- Further members, a comma before each. -/
def compactMoreMembers : List (String × Json) → String
  | [] => ""
  | (k, v) :: ms => "," ++ writeString k ++ ":" ++ compact v ++ compactMoreMembers ms

end

/-- The start of a line at a level of nesting. -/
def indent (level : Nat) : String := "\n" ++ String.ofList (List.replicate (2 * level) ' ')

mutual

/-- A document over several lines, its nested parts indented; `level` is that of the line on which
it starts. -/
def indented (level : Nat) : Json → String
  | .null => "null"
  | .bool b => if b then "true" else "false"
  | .number n => n.write
  | .string s => writeString s
  | .array [] => "[]"
  | .array (x :: xs) =>
    "[" ++ indent (level + 1) ++ indented (level + 1) x ++ indentedItems (level + 1) xs
      ++ indent level ++ "]"
  | .object [] => "\x7b\x7d"
  | .object ((k, v) :: ms) =>
    "\x7b" ++ indent (level + 1) ++ writeString k ++ ": " ++ indented (level + 1) v
      ++ indentedMembers (level + 1) ms ++ indent level ++ "\x7d"

/-- Further items, each on a line of its own. -/
def indentedItems (level : Nat) : List Json → String
  | [] => ""
  | x :: xs => "," ++ indent level ++ indented level x ++ indentedItems level xs

/-- Further members, each on a line of its own. -/
def indentedMembers (level : Nat) : List (String × Json) → String
  | [] => ""
  | (k, v) :: ms =>
    "," ++ indent level ++ writeString k ++ ": " ++ indented level v ++ indentedMembers level ms

end

/-- A document over several lines. -/
def pretty (j : Json) : String := indented 0 j

end DataClient.Json
