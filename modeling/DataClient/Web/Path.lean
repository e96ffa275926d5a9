import DataClient.Web.Percent

/-!
# Paths

The path of an address is a list of segments, each written behind a slash. A segment of one dot
stays where it is and one of two dots leaves the segment before; both are resolved when a path is
read, and a path that is read has none of them.
-/

set_option autoImplicit false

namespace DataClient.Web

inductive Path
  /-- A text without structure, in an address that names no place in a hierarchy. -/
  | plain (text : String)
  /-- Encoded segments, from the outermost inwards. -/
  | segments (parts : List String)
  deriving DecidableEq, Repr

namespace Path

/-- A path as it stands in an address. -/
def write : Path → String
  | .plain text => text
  | .segments parts => String.join (parts.map ("/" ++ ·))

/-- Whether a segment stays where it is. -/
def isSingleDot (s : String) : Bool := [".", "%2e"].contains (Text.lowerAscii s)

/-- Whether a segment leaves the one before. -/
def isDoubleDot (s : String) : Bool := ["..", "%2e%2e", "%2e.", ".%2e"].contains (Text.lowerAscii s)

/-- Whether a segment names a drive, which is never left. -/
def isDrive (s : String) : Bool :=
  match s.toList with
  | [c, ':'] => c.isAlpha
  | [c, '|'] => c.isAlpha
  | _ => false

/-- Leaves the last segment. -/
def climb (parts : List String) : List String :=
  if parts.getLast?.any isDrive then parts else parts.dropLast

/-- Goes on by a segment; a dot segment at the end leaves an empty one. -/
def enter (parts : List String) (isLast : Bool) (s : String) : List String :=
  let rest := if isLast then [""] else []
  if isDoubleDot s then climb parts ++ rest
  else if isSingleDot s then parts ++ rest
  else parts ++ [s]

/-- Goes on by segments, from a place in a path. -/
def follow (parts : List String) : List String → List String
  | [] => parts
  | [s] => enter parts true s
  | s :: rest => follow (enter parts false s) rest

/-- Tabs and line breaks, which are left out of every address. -/
def isBreak (c : Char) : Bool := c = '\t' || c = '\n' || c = '\r'

/-- A segment as it is written behind a path. -/
def encodeSegment (s : String) : String :=
  percentEncode segmentSet (String.ofList (s.toList.filter (!isBreak ·)))

/-- Adds a segment given as a text. A text of one or two dots adds nothing, and the path that has
only an empty segment takes the new one in its place. -/
def appendSegment (parts : List String) (s : String) : List String :=
  if s = "." ∨ s = ".." then parts
  else enter (if parts = [""] then [] else parts) true (encodeSegment s)

/-- A path without the empty segment at its end; the shortest path keeps it. -/
def withoutTrailingSlash (parts : List String) : List String :=
  if 1 < parts.length ∧ parts.getLast? = some "" then parts.dropLast else parts

/-- Adds segments given as texts behind a path, whether or not it ends in a slash. -/
def appendSegments (parts : List String) (texts : List String) : List String :=
  texts.foldl appendSegment (withoutTrailingSlash parts)

end Path

end DataClient.Web
