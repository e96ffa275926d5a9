import DataClient.Text.LetterCase
import DataClient.Web.Percent
import DataClient.Web.Punycode

/-!
# Domains

A domain is written in ASCII. Which one a text stands for, if any, follows from tables of Unicode,
which belong to a reader and not to the program (`DomainReader`).

A reader for the common domains is given as well: letters in lower case, full-width forms as their
plain counterparts, characters that leave no mark left out, and a label beyond ASCII in its encoded
form behind `xn--`. It has no table of forms beyond these, does not compose characters, and does not
look at joiners, combining marks and directions, so it passes some texts that are no domains.
-/

set_option autoImplicit false

namespace DataClient.Web

/-- Whether a character stands in a domain: the visible ones of ASCII but for those that delimit or
encode something. -/
def isDomainChar (c : Char) : Bool :=
  0x20 < c.toNat && c.toNat < 0x7F && !"%#/:<>?@[\\]^|".toList.contains c

/-- What reads domains. -/
class DomainReader where
  /-- The domain in ASCII that a text stands for, if it is one. -/
  domain? : String → Option String
  /-- A domain has no characters but its own. -/
  isDomainChar_of_domain? : ∀ {s name : String}, domain? s = some name →
    ∀ c ∈ name.toList, isDomainChar c = true

namespace Domain

/-- Characters that leave no mark. -/
def isIgnored (c : Char) : Bool :=
  let n := c.toNat
  n = 0xAD || n = 0x200B || n = 0x2060 || n = 0xFEFF || (0xFE00 ≤ n && n ≤ 0xFE0F)

/-- Blanks beyond ASCII. -/
def isBlank (c : Char) : Bool :=
  let n := c.toNat
  n = 0xA0 || (0x2000 ≤ n && n ≤ 0x200A) || n = 0x202F || n = 0x205F || n = 0x3000

/-- The character that one in a domain counts as. -/
def mapped (c : Char) : Char :=
  let n := c.toNat
  if n = 0x3002 ∨ n = 0xFF0E ∨ n = 0xFF61 then '.'
  else if isBlank c then ' '
  else if 0xFF01 ≤ n ∧ n ≤ 0xFF5E then (Char.ofNat (n - 0xFEE0)).toLower
  else Text.lowerCase c

/-- Controls, joiners, marks of direction, separators, private characters, and numbers that are no
characters. -/
def isNoLetter (c : Char) : Bool :=
  let n := c.toNat
  n ≤ 0x20 || (0x7F ≤ n && n ≤ 0x9F) || n = 0x1680 || n = 0x180E
    || (0x200C ≤ n && n ≤ 0x200F) || (0x2028 ≤ n && n ≤ 0x202E) || (0x2066 ≤ n && n ≤ 0x206F)
    || (0xE000 ≤ n && n ≤ 0xF8FF) || (0xFDD0 ≤ n && n ≤ 0xFDEF) || (0xFFF0 ≤ n && n ≤ 0xFFFD)
    || 0xFFFE ≤ n % 0x10000 || 0xF0000 ≤ n

/-- The characters that no domain has. -/
def isForbidden (c : Char) : Bool := isNoLetter c || "%#/:<>?@[\\]^|".toList.contains c

/-- Whether all characters are ASCII. -/
def isAscii (cs : List Char) : Bool := cs.all (·.toNat < 0x80)

/-- Whether what stands behind `xn--` is the encoded form of a label in its final form. -/
def isEncoded (cs : List Char) : Bool :=
  match Punycode.decode? cs with
  | none => false
  | some label => !isAscii label && label.map mapped = label && !label.any isIgnored
      && !label.any isForbidden && Punycode.encode label = cs

/-- A label in ASCII. -/
def label? (cs : List Char) : Option (List Char) :=
  if cs.any isForbidden then none
  else if !isAscii cs then some ("xn--".toList ++ Punycode.encode cs)
  else if Text.startsWith "xn--".toList cs then
    if isEncoded (cs.drop 4) then some cs else none
  else some cs

/-- A domain in ASCII, if the text is one. -/
def ofText? (s : String) : Option String := do
  let cs := (s.toList.filter (!isIgnored ·)).map mapped
  let labels ← (Text.splitChars '.' cs).mapM label?
  let name := Text.joinWith "." (labels.map String.ofList)
  if name.toList.all isDomainChar then some name else none

/-- The reader for the common domains. -/
scoped instance common : DomainReader where
  domain? := ofText?
  isDomainChar_of_domain? h := by
    obtain ⟨_, -, h⟩ := Option.bind_eq_some_iff.1 h
    dsimp only at h
    split at h
    · cases h
      exact List.all_eq_true.1 ‹_›
    · cases h

end Domain

end DataClient.Web
