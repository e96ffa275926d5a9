import DataClient.Text.Chars
import DataClient.Text.Visible

/-!
# Quoted texts

How a text stands inside a message or inside the name of a type: between double quotes, with a
backslash before quotes and backslashes, short forms for the usual controls, and the number of any
other character without a visible form.
-/

set_option autoImplicit false

namespace DataClient.Text

def numbered (c : Char) : String := "\\u\x7b" ++ hex c.toNat ++ "\x7d"

/-- A character inside quotes. -/
def quotedChar (c : Char) : String :=
  match c with
  | '\x00' => "\\0"
  | '\t' => "\\t"
  | '\n' => "\\n"
  | '\r' => "\\r"
  | '"' => "\\\""
  | '\\' => "\\\\"
  | c => if c.toNat < 0x20 || c.toNat = 0x7F || isHidden c then numbered c else String.singleton c

/-- A text between double quotes. -/
def quoted (s : String) : String :=
  "\"" ++ String.join (s.toList.map quotedChar) ++ "\""

end DataClient.Text
