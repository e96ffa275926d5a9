import DataClient.Bytes.Base64
import DataClient.Json.Writer
import DataClient.Time.Calendar

/-!
# Cells

The values that a query result holds, how they are shown and how they are written as JSON. A null
stands for an absent value only, never for zero or for an empty text.
-/

set_option autoImplicit false

namespace DataClient

/-- One value of a result. -/
inductive Cell
  | null
  | bool (b : Bool)
  | int (n : Int64)
  | float (x : Float)
  | string (s : String)
  | bytes (b : ByteArray)
  /-- Milliseconds since the epoch, UTC. -/
  | timestamp (ms : Int64)
  deriving Inhabited

namespace Cell

/-- Whether the value is absent. -/
def isNull : Cell → Bool
  | .null => true
  | _ => false

/-- The integer, if the cell holds one. -/
def int? : Cell → Option Int64
  | .int n => some n
  | _ => none

/-- The text, if the cell holds one. -/
def string? : Cell → Option String
  | .string s => some s
  | _ => none

/-- The cell as it is shown to a reader. -/
def display : Cell → String
  | .null => "NULL"
  | .bool b => if b then "true" else "false"
  | .int n => toString n.toInt
  | .float x => Number.Style.plain.write (Number.Parts.ofDouble x)
  | .string s => s
  | .bytes b => "<" ++ toString b.size ++ " bytes>"
  | .timestamp ms => Time.writeMillis ms

/-- The cell as JSON: bytes in base64, timestamps as text, a double without a finite value as
null. -/
def toJson : Cell → Json
  | .null => .null
  | .bool b => .bool b
  | .int n => Json.ofInt64 n
  | .float x => .number (.float x)
  | .string s => .string s
  | .bytes b => .string (Bytes.toBase64 b)
  | .timestamp ms => .string (Time.writeMillis ms)

/-- Equality of values: doubles compare as numbers, so a NaN differs from itself and the two zeros
are equal. -/
def equals : Cell → Cell → Bool
  | .null, .null => true
  | .bool a, .bool b => a == b
  | .int a, .int b => a == b
  | .float a, .float b => a == b
  | .string a, .string b => a == b
  | .bytes a, .bytes b => a == b
  | .timestamp a, .timestamp b => a == b
  | _, _ => false

end Cell

end DataClient
