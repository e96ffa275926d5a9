/-!
# Documents of settings

A document is a tree of tables. A table is made by its own header, by the header of a table inside
it, by a dotted key, or inline; how it was made decides what may still be added to it. All values
remember where they begin, so that one of the wrong kind can be pointed at.
-/

set_option autoImplicit false

namespace DataClient.Toml

/-- A name and the number of characters before it. -/
structure Key where
  name : String
  start : Nat
  deriving DecidableEq, Repr

/-- A value without parts. Floats and dates are kept as written. -/
inductive Scalar
  | string (s : String)
  | integer (n : Int)
  | float (text : String)
  | boolean (b : Bool)
  | date (text : String)
  deriving DecidableEq, Repr

/-- What a table was made by. -/
inductive Origin
  | header
  /-- The header of a table inside it. -/
  | implied
  | dotted
  | inlined
  deriving DecidableEq, Repr

/-- A value. -/
inductive Node
  | scalar (start : Nat) (v : Scalar)
  | array (start : Nat) (items : List Node)
  | table (origin : Origin) (start : Option Nat) (entries : List (Key × Node))
  /-- Tables with one header each. -/
  | tables (items : List Node)
  deriving Repr

/-- What a table holds, in order. -/
abbrev Entries := List (Key × Node)

/-- Where a value begins; a table that was made by the way begins nowhere. -/
def Node.start? : Node → Option Nat
  | .scalar start _ => some start
  | .array start _ => some start
  | .table _ start _ => start
  | .tables [] => none
  | .tables (item :: _) => item.start?

namespace Entries

/-- The value of a name. -/
def find? (entries : Entries) (name : String) : Option Node :=
  (List.find? (fun e : Key × Node => e.1.name == name) entries).map (·.2)

/-- Entries without a name. -/
def erase (entries : Entries) (name : String) : Entries :=
  List.filter (fun e : Key × Node => e.1.name != name) entries

/-- Changes the value of a name, or puts one behind the others; `change` may refuse. -/
def alter {β : Type} (key : Key) (change : Option Node → Option (β × Node)) :
    Entries → Option (β × Entries)
  | [] => (change none).map fun (b, n) => (b, [(key, n)])
  | (k, n) :: rest =>
    if k.name = key.name then (change (some n)).map fun (b, n) => (b, (k, n) :: rest)
    else (alter key change rest).map fun (b, rest) => (b, (k, n) :: rest)

/-- Changes the table that a path leads to. Tables missing on the way are made; a dotted path may
not go through a table that has its own header, nor any path through an inline table. A path through
tables with one header each goes through the last of them. -/
def within {β : Type} (dotted : Bool) (change : Origin → Entries → Option (β × Entries)) :
    List Key → Origin → Entries → Option (β × Entries)
  | [], origin, entries => change origin entries
  | key :: path, _, entries => alter key (fun
      | none =>
        let made := if dotted then Origin.dotted else .implied
        (within dotted change path made []).map fun (b, es) => (b, .table made none es)
      | some (.table origin start es) =>
        if origin = .inlined ∨ (dotted ∧ origin = .header) then none
        else (within dotted change path origin es).map fun (b, es) => (b, .table origin start es)
      | some (.tables items) =>
        match items.getLast? with
        | some (.table origin start es) =>
          (within dotted change path origin es).map fun (b, es) =>
            (b, .tables (items.dropLast ++ [.table origin start es]))
        | _ => none
      | some _ => none) entries

/-- Adds a value under a dotted key. The table it comes into must have been made by dotted keys,
unless it is the one at hand, and must not have the name yet. -/
def insert? (entries : Entries) (path : List Key) (key : Key) (n : Node) : Option Entries :=
  (within true (fun origin es =>
    if decide (origin = .dotted) = path.isEmpty ∨ (es.find? key.name).isSome then none
    else some ((), es ++ [(key, n)])) path .header entries).map (·.2)

end Entries

end DataClient.Toml
