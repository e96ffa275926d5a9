import DataClient.Error

/-!
# Texts that may stop early

The text of a slot is put together from the texts of what is in it. Where a value has no text, the
text stops there: what was written before remains, and nothing follows but a note. Fragments form
a monoid under this rule.
-/

set_option autoImplicit false

namespace DataClient.Arrow

/-- Why a text stops before its end. -/
inductive Stop
  /-- A value has no text. -/
  | unwritable (why : String)
  | crash (c : Crash)
  deriving DecidableEq, Repr

/-- A text, and why it stops if it does. -/
structure Fragment where
  text : String
  stop : Option Stop
  deriving DecidableEq, Repr

namespace Fragment

/-- A text that is complete. -/
def of (text : String) : Fragment := ⟨text, none⟩

/-- A value without a text. -/
def unwritable (why : String) : Fragment := ⟨"", some (.unwritable why)⟩

/-- A step that has no result. -/
def crash (c : Crash) : Fragment := ⟨"", some (.crash c)⟩

/-- The second follows the first, unless that stops. -/
def append (a b : Fragment) : Fragment :=
  match a.stop with
  | none => ⟨a.text ++ b.text, b.stop⟩
  | some _ => a

instance : Append Fragment := ⟨append⟩

instance : Inhabited Fragment := ⟨of ""⟩

/-- Fragments one behind the other, with a text between each two. -/
def join (between : String) : List Fragment → Fragment
  | [] => of ""
  | [x] => x
  | x :: y :: rest => x ++ of between ++ join between (y :: rest)

/-- The whole text; where it stops, a note says why. -/
def finish (f : Fragment) : Except Crash String :=
  match f.stop with
  | none => .ok f.text
  | some (.unwritable why) => .ok (f.text ++ "ERROR: " ++ why)
  | some (.crash c) => .error c

theorem append_eq (a b : Fragment) : a ++ b = append a b := rfl

end Fragment

end DataClient.Arrow
