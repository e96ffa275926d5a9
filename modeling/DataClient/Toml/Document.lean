import DataClient.Toml.Scalar

/-!
# Reading documents

A document is read line by line. A line adds one value to the table at hand, or its header makes a
new table the one at hand.
-/

set_option autoImplicit false

namespace DataClient.Toml

open Reader

/-! ## Names -/

/-- Whether a character stands in a name without quotes. -/
def isNameChar (c : Char) : Bool := c.isAlphanum || c = '_' || c = '-'

/-- One name. -/
def simpleKey : Reader Key := do
  let start ← position
  match ← peek with
  | some '"' => return ⟨← basicString, start⟩
  | some '\'' => return ⟨← literalString, start⟩
  | _ =>
    let c ← char isNameChar
    return ⟨String.ofList (c :: (← chars isNameChar)), start⟩

/-- Values may be nested less deeply than this, and a path has fewer names. -/
def depthLimit : Nat := 80

/-- Names with dots between them: the path and the last name. -/
def dottedKey : Reader (List Key × Key) :=
  meaning (fun keys : List Key =>
    if keys.length < depthLimit then keys.getLast?.map fun k => (keys.dropLast, k) else none)
    (separated1 (do blanks; let k ← simpleKey; blanks; return k) (literal "."))

/-! ## Values -/

/-- A number, a date or a time. -/
def numeric : Reader Scalar :=
  either (.date <$> moment) (either (.float <$> float) (.integer <$> integer))

/-- A value that begins with the given character and has no parts. -/
def scalar (c : Char) : Reader Scalar :=
  if c = '"' ∨ c = '\'' then .string <$> string
  else if isSign c ∨ Text.isDigit c then numeric
  else if c = '_' then .integer <$> integer
  else if c = '.' then .float <$> float
  else if c = 't' then do discard (word "true"); return .boolean true
  else if c = 'f' then do discard (word "false"); return .boolean false
  else if c = 'i' then .float <$> word "inf"
  else if c = 'n' then .float <$> word "nan"
  else refuse

/-- A list, behind its opening bracket, of what `item` reads. -/
def arrayItems (item : Reader Node) : Reader (List Node) := must do
  let items ← separated (do trivia; let n ← item; trivia; return n) (literal ",")
  if !items.isEmpty then discard (maybe (literal ","))
  trivia
  literal "]"
  return items

/-- A name and a value in an inline table. -/
def inlinePair (item : Reader Node) : Reader (List Key × Key × Node) := do
  let (path, key) ← dottedKey
  must do
    literal "="
    blanks
    let n ← item
    blanks
    return (path, key, n)

/-- The entries of an inline table, behind its opening brace. -/
def inlineEntries (item : Reader Node) : Reader Entries := must do
  let entries ← meaning
    (fun pairs : List (List Key × Key × Node) =>
      pairs.foldlM (fun es (path, key, n) => Entries.insert? es path key n) [])
    (do
      let pairs ← separated (inlinePair item) (literal ",")
      blanks
      return pairs)
  literal "\x7d"
  return entries

/-- A value with at most so many values around the innermost. -/
def value : (depth : Nat) → Reader Node
  | 0 => do
    let start ← position
    match ← peek with
    | none => refuse
    | some c => if c = '[' ∨ c = '{' then stop else return .scalar start (← scalar c)
  | depth + 1 => do
    let start ← position
    match ← peek with
    | none => refuse
    | some c =>
      if c = '[' then do literal "["; return .array start (← arrayItems (value depth))
      else if c = '{' then do
        literal "\x7b"
        return .table .inlined (some start) (← inlineEntries (value depth))
      else return .scalar start (← scalar c)

/-! ## Lines -/

/-- What has been read: the finished tables, and the one at hand with its header and its path. -/
structure Progress where
  root : Entries
  current : Entries
  start : Option Nat
  path : List Key
  /-- Whether the one at hand is one of several of its name. -/
  isOneOfSeveral : Bool

namespace Progress

/-- Nothing has been read. -/
def empty : Progress := ⟨[], [], none, [], false⟩

/-- Adds a value to the table at hand. -/
def withPair (p : Progress) (path : List Key) (key : Key) (n : Node) : Option Progress :=
  (Entries.insert? p.current path key n).map fun current => { p with current }

/-- Puts the table at hand in its place. -/
def finished? (p : Progress) : Option Entries :=
  match p.path.getLast? with
  | none => some p.current
  | some key =>
    let table := Node.table .header p.start p.current
    (Entries.within false (fun _ es => Entries.alter key (fun
      | none => some ((), if p.isOneOfSeveral then .tables [table] else table)
      | some (.tables items) =>
        if p.isOneOfSeveral then some ((), .tables (items ++ [table])) else none
      | some _ => none) es) p.path.dropLast .header p.root).map (·.2)

/-- Makes a new table the one at hand. A table that was made only by the header of one inside it
goes on. -/
def withTable (p : Progress) (path : List Key) (key : Key) (start : Nat) : Option Progress := do
  let root ← p.finished?
  let (current, root) ← Entries.within false (fun _ es =>
    match es.find? key.name with
    | none => some ([], es)
    | some (.table .implied _ inner) => some (inner, es.erase key.name)
    | some _ => none) path .header root
  return ⟨root, current, some start, path ++ [key], false⟩

/-- Makes a new table of several of its name the one at hand. -/
def withOneOfSeveral (p : Progress) (path : List Key) (key : Key) (start : Nat) : Option Progress := do
  let root ← p.finished?
  let (_, root) ← Entries.within false (fun _ es =>
    match es.find? key.name with
    | none => some ((), es)
    | some (.tables _) => some ((), es)
    | some _ => none) path .header root
  return ⟨root, [], some start, path ++ [key], true⟩

end Progress

/-- A line that gives a value. -/
def pairLine (p : Progress) : Reader Progress :=
  meaning (fun (path, key, n) => p.withPair path key n) (do
    let (path, key) ← dottedKey
    must do
      literal "="
      blanks
      let n ← value (depthLimit - 1)
      lineRest
      return (path, key, n))

/-- A header behind its opening brackets. -/
def headerLine (brackets : Nat) : Reader (List Key × Key) := do
  literal (String.ofList (List.replicate brackets '['))
  must do
    let (path, key) ← dottedKey
    literal (String.ofList (List.replicate brackets ']'))
    lineRest
    return (path, key)

/-- A line that begins a table. -/
def tableLine (p : Progress) : Reader Progress := do
  let start ← position
  match (← get).rest with
  | '[' :: '[' :: _ =>
    meaning (fun (path, key) => p.withOneOfSeveral path key start) (headerLine 2)
  | _ :: _ :: _ => meaning (fun (path, key) => p.withTable path key start) (headerLine 1)
  | _ => refuse

/-- One line, from its first character that is no blank. -/
def line (p : Progress) : Reader Progress := must do
  match ← peek with
  | some '#' => do comment; lineEnd; return p
  | some '[' => tableLine p
  | some '\n' => do newline; return p
  | some '\r' => do newline; return p
  | _ => pairLine p

/-- Up to `fuel` lines. -/
def lines (p : Progress) : (fuel : Nat) → Reader Progress
  | 0 => return p
  | fuel + 1 => do
    if (← peek).isNone then return p
    else do
      let p ← line p
      blanks
      lines p fuel

/-- A document. A byte order mark before it is left out. -/
def document : Reader Entries := do
  discard (maybe (literal "\uFEFF"))
  blanks
  let p ← fun c => lines Progress.empty c.rest.length c
  match p.finished? with
  | some root => return root
  | none => stop

/-! ## Places -/

/-- The line and the column of a place, both counted from one. At a character beyond ASCII the
column counts bytes, and the place behind the last character is on the line of that character. -/
def lineAndColumn (text : List Char) (offset : Nat) : Nat × Nat :=
  let onLine (before : List Char) : List Char := (before.reverse.takeWhile (· != '\n')).reverse
  match text.drop offset with
  | c :: _ =>
    let before := text.take offset
    let column := if c.toNat < 0x80 then (onLine before).length else Text.byteLength (onLine before)
    (before.count '\n' + 1, column + 1)
  | [] =>
    let before := text.dropLast
    (before.count '\n' + 1, (onLine before).length + if text.isEmpty then 1 else 2)

/-- The entries of a document, or the offset at which it stops making sense. -/
def read (text : String) : Except Nat Entries :=
  match document ⟨0, text.toList⟩ with
  | .ok (entries, _) => .ok entries
  | .error e => .error e.offset

end DataClient.Toml
