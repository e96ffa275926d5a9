import DataClient.Text.Chars
import DataClient.Toml.Basic

/-!
# Reading tokens

A `Reader α` reads an `α` off the front of a text or refuses. A refusal is final once what has been
read can only mean one thing; until then another reading may be tried from the same place. Its place
is where the text stops making sense.
-/

set_option autoImplicit false

namespace DataClient.Toml

/-- Where reading stands: the number of characters read, and the rest. -/
structure Cursor where
  offset : Nat
  rest : List Char

/-- Where a text stops making sense, and whether no other reading may be tried. -/
structure Refusal where
  offset : Nat
  isFinal : Bool

abbrev Reader := StateT Cursor (Except Refusal)

namespace Reader

variable {α β : Type}

/-- Refuses where reading stands. -/
def refuse : Reader α := fun c => .error ⟨c.offset, false⟩

/-- Refuses for good where reading stands. -/
def stop : Reader α := fun c => .error ⟨c.offset, true⟩

/-- Makes a refusal final. -/
def must (r : Reader α) : Reader α := fun c =>
  match r c with
  | .error e => .error { e with isFinal := true }
  | read => read

/-- Reads nothing if the reader refuses. -/
def maybe (r : Reader α) : Reader (Option α) := fun c =>
  match r c with
  | .ok (a, c') => .ok (some a, c')
  | .error e => if e.isFinal then .error e else .ok (none, c)

/-- Tries a second reading after the first. -/
def either (r s : Reader α) : Reader α := fun c =>
  match r c with
  | .error e => if e.isFinal then .error e else s c
  | read => read

/-- Refuses what was read, as a whole, unless it has a meaning. -/
def meaning (f : α → Option β) (r : Reader α) : Reader β := fun c =>
  match r c with
  | .error e => .error e
  | .ok (a, c') =>
    match f a with
    | some b => .ok (b, c')
    | none => .error ⟨c.offset, false⟩

/-- What the reader would read, with reading left where it stands. -/
def ahead (r : Reader α) : Reader α := fun c =>
  match r c with
  | .ok (a, _) => .ok (a, c)
  | .error e => .error e

/-- The next character, left where it is. -/
def peek : Reader (Option Char) := fun c => .ok (c.rest.head?, c)

/-- The number of characters read. -/
def position : Reader Nat := fun c => .ok (c.offset, c)

/-- Reads one character of a class. -/
def char (p : Char → Bool) : Reader Char := fun c =>
  match c.rest with
  | x :: xs => if p x then .ok (x, ⟨c.offset + 1, xs⟩) else .error ⟨c.offset, false⟩
  | [] => .error ⟨c.offset, false⟩

/-- Reads the characters of a class that come next. -/
def chars (p : Char → Bool) : Reader (List Char) := fun c =>
  let cs := c.rest.takeWhile p
  .ok (cs, ⟨c.offset + cs.length, c.rest.dropWhile p⟩)

/-- Reads a fixed text. -/
def literal (s : String) : Reader Unit := fun c =>
  if Text.startsWith s.toList c.rest then .ok ((), ⟨c.offset + s.length, c.rest.drop s.length⟩)
  else .error ⟨c.offset, false⟩

/-- Refuses unless nothing is left. -/
def ended : Reader Unit := fun c => if c.rest.isEmpty then .ok ((), c) else .error ⟨c.offset, false⟩

/-- Reads up to `fuel` items, until one is refused. -/
def manyUpTo (r : Reader α) : (fuel : Nat) → Reader (List α)
  | 0 => return []
  | fuel + 1 => do
    match ← maybe r with
    | none => return []
    | some a => return a :: (← manyUpTo r fuel)

/-- Reads items until one is refused. An item has at least one character. -/
def many (r : Reader α) : Reader (List α) := fun c => manyUpTo r c.rest.length c

/-- Reads items until one is refused; the first must be there. -/
def many1 (r : Reader α) : Reader (List α) := return (← r) :: (← many r)

/-- Reads items with a separator between them; a separator without an item behind it is left. -/
def separated1 (r : Reader α) (separator : Reader Unit) : Reader (List α) :=
  return (← r) :: (← many (do separator; r))

/-- Reads items with a separator between them, or none. -/
def separated (r : Reader α) (separator : Reader Unit) : Reader (List α) :=
  return (← maybe (separated1 r separator)).getD []

/-! ## Blanks, comments and line ends -/

/-- The blanks inside a line. -/
def isBlank (c : Char) : Bool := c = ' ' || c = '\t'

def blanks : Reader Unit := discard (chars isBlank)

/-- Whether a character may stand in a comment. -/
def isCommentChar (c : Char) : Bool := c = '\t' || (0x20 ≤ c.toNat && c.toNat != 0x7F)

/-- Reads a comment up to the end of its line. -/
def comment : Reader Unit := do
  literal "#"
  discard (chars isCommentChar)

/-- Reads one end of a line. -/
def newline : Reader Unit := either (literal "\n") (literal "\r\n")

/-- Reads the end of a line or of the text. -/
def lineEnd : Reader Unit := either newline ended

/-- Reads what may follow on a line behind its contents. -/
def lineRest : Reader Unit := do
  blanks
  discard (maybe comment)
  lineEnd

/-- Reads a line end inside a value, a comment before it included. A carriage return that no line
feed follows is refused behind itself. -/
def innerLineEnd : Reader Unit := do
  match ← peek with
  | some '#' =>
    comment
    match ← peek with
    | some '\r' => do discard (char (· = '\r')); literal "\n"
    | _ => literal "\n"
  | some '\r' => do discard (char (· = '\r')); literal "\n"
  | _ => literal "\n"

/-- Whether a line end or a comment comes next. -/
def startsLineEnd (c : Char) : Bool := c = '#' || c = '\n' || c = '\r'

/-- Reads up to `fuel` lines that hold nothing but blanks and a comment. -/
def trivialLines : (fuel : Nat) → Reader Unit
  | 0 => return ()
  | fuel + 1 => do
    blanks
    if (← peek).any startsLineEnd then do
      innerLineEnd
      trivialLines fuel

/-- Reads blanks, comments and line ends inside a value. -/
def trivia : Reader Unit := fun c => trivialLines (c.rest.length + 1) c

end Reader

end DataClient.Toml
