import DataClient.Web.Host
import DataClient.Web.Path

/-!
# Addresses

An address is a scheme, an authority (who, on which machine, at which port), a path, a query and a
fragment. Reading one brings it to its normal form: scheme and host in lower case, the port of the
scheme left out, dot segments resolved, and what cannot stand for itself encoded.
-/

set_option autoImplicit false

namespace DataClient.Web

/-- What a scheme says about the form of an address. -/
inductive SchemeKind
  /-- The address names a machine. -/
  | special
  | file
  | other
  deriving DecidableEq, Repr

def SchemeKind.of (scheme : String) : SchemeKind :=
  if ["http", "https", "ws", "wss", "ftp"].contains scheme then .special
  else if scheme = "file" then .file
  else .other

/-- Whether addresses of this kind have backslashes for slashes and a path at all times. -/
def SchemeKind.isSpecial (k : SchemeKind) : Bool := k != .other

/-- The port that a scheme implies. -/
def defaultPort? (scheme : String) : Option Nat :=
  if scheme = "http" ∨ scheme = "ws" then some 80
  else if scheme = "https" ∨ scheme = "wss" then some 443
  else if scheme = "ftp" then some 21
  else none

/-- Who, on which machine, at which port. -/
structure Authority where
  /-- The name of the user, encoded. -/
  user : String
  /-- The password, encoded. -/
  password : Option String
  host : Host
  port : Option Nat
  deriving DecidableEq, Repr

/-- An address. -/
structure Url where
  scheme : String
  authority : Option Authority
  path : Path
  query : Option String
  fragment : Option String
  deriving DecidableEq, Repr

/-! ## Writing -/

/-- The user and the password as they stand before the host. -/
def Authority.writeUser (a : Authority) : String :=
  match a.password with
  | none => if a.user = "" then "" else a.user ++ "@"
  | some password => a.user ++ ":" ++ password ++ "@"

/-- The host and the port. -/
def Authority.writePlace (a : Authority) : String :=
  a.host.write ++ a.port.elim "" fun n => ":" ++ toString n

/-- An authority as it stands in an address. -/
def Authority.write (a : Authority) : String := a.writeUser ++ a.writePlace

def Url.writeTarget (u : Url) : String := u.path.write ++ u.query.elim "" ("?" ++ ·)

/-- An address as a text. -/
def Url.write (u : Url) : String :=
  u.scheme ++ ":" ++ u.authority.elim "" ("//" ++ ·.write) ++ u.writeTarget
    ++ u.fragment.elim "" ("#" ++ ·)

/-! ## Reading -/

namespace Url

variable [DomainReader]

/-- A text without control characters and spaces at its ends, and without tabs and line breaks. -/
def clean (s : String) : List Char :=
  let isEdge (c : Char) : Bool := c.toNat ≤ 0x20
  ((((s.toList.dropWhile isEdge).reverse.dropWhile isEdge).reverse).filter (!Path.isBreak ·))

/-- Whether a character stands in a scheme. -/
def isSchemeChar (c : Char) : Bool := c.isAlphanum || c = '+' || c = '-' || c = '.'

/-- The scheme and what follows its colon, if the text begins with a scheme. -/
def splitScheme? (cs : List Char) : Option (String × List Char) :=
  match cs.takeWhile isSchemeChar, cs.dropWhile isSchemeChar with
  | c :: name, ':' :: rest =>
    if c.isAlpha then some (String.ofList ((c :: name).map Char.toLower), rest) else none
  | _, _ => none

/-- What stands before the first `mark`, and what stands behind it. -/
def cutAt (mark : Char) (cs : List Char) : List Char × Option (List Char) :=
  (cs.takeWhile (· != mark), (cs.dropWhile (· != mark)).tail?)

def encodeChars (set : EncodeSet) (cs : List Char) : String := percentEncode set (String.ofList cs)

/-- Whether a character is a slash in an address of this kind. -/
def isSlash (kind : SchemeKind) (c : Char) : Bool := c = '/' || (kind.isSpecial && c = '\\')

/-- The parts of a text between slashes. -/
def splitSlashes (kind : SchemeKind) (cs : List Char) : List (List Char) :=
  Text.splitChars '/' (cs.map fun c => if isSlash kind c then '/' else c)

/-- Goes on by the segments of a text, from a place in a path. -/
def followText (kind : SchemeKind) (parts : List String) (cs : List Char) : List String :=
  Path.follow parts ((splitSlashes kind cs).map (encodeChars pathSet))

/-- The path of a text that may begin with a slash. -/
def readPath (kind : SchemeKind) (cs : List Char) : Path :=
  match cs with
  | [] => .segments (if kind.isSpecial then [""] else [])
  | c :: rest => .segments (followText kind [] (if isSlash kind c then rest else cs))

/-- The user and the password before the last `@`, and what follows it. -/
def splitUser (cs : List Char) : Option (List Char) × List Char :=
  if cs.contains '@' then
    let behind := (cs.reverse.takeWhile (· != '@')).reverse
    (some (cs.take (cs.length - behind.length - 1)), behind)
  else (none, cs)

/-- The name of a user and a password, which is absent if it is empty. -/
def readUser (cs : List Char) : String × Option String :=
  let (user, password) := cutAt ':' cs
  (encodeChars userInfoSet user,
    (password.filter (!·.isEmpty)).map (encodeChars userInfoSet))

/-- The text of a host and what follows it; a colon between brackets belongs to the host. -/
def splitHost (inBrackets : Bool) : List Char → List Char × List Char
  | [] => ([], [])
  | c :: cs =>
    if c = ':' ∧ !inBrackets then ([], c :: cs)
    else
      let (host, rest) := splitHost (if c = '[' then true else if c = ']' then false else inBrackets) cs
      (c :: host, rest)

/-- Reads a port: its digits end at a slash or with the text. -/
def readPort (scheme : String) (cs : List Char) : Except UrlFault (Option Nat × List Char) :=
  let digits := cs.takeWhile Text.isDigit
  let rest := cs.dropWhile Text.isDigit
  let port := digits.foldl (fun n c => n * 10 + Text.digitValue c) 0
  if 65535 < port then .error .invalidPort
  else if rest.head?.any (fun c => c != '/' && c != '\\') then .error .invalidPort
  else .ok (if digits.isEmpty ∨ some port = defaultPort? scheme then none else some port, rest)

/-- Reads an authority and the path behind it. `hasMore` says whether a query or a fragment
follows. -/
def readAuthority (scheme : String) (hasMore : Bool) (cs : List Char) :
    Except UrlFault (Authority × Path) := do
  let kind := SchemeKind.of scheme
  let text := cs.takeWhile (!isSlash kind ·)
  let pathText := cs.dropWhile (!isSlash kind ·)
  let (user?, place) := splitUser text
  if user? = some [] ∧ place.isEmpty ∧ (hasMore ∨ !pathText.isEmpty) then throw .emptyHost
  let (user, password) := (user?.map readUser).getD ("", none)
  let (hostText, rest) := splitHost false place
  if kind = .special ∧ hostText.isEmpty then throw .emptyHost
  let host ← if kind = .other then readOpaqueHost hostText else readHost hostText
  if hostText.isEmpty ∧ (!rest.isEmpty ∨ user != "" ∨ password.isSome) then throw .emptyHost
  let (port, rest) ← match rest with
    | ':' :: digits => readPort scheme digits
    | rest => .ok (none, rest)
  return (⟨user, password, host, port⟩, readPath kind (rest ++ pathText))

/-- Reads what follows `file:`. The machine that is at hand has an empty name. -/
def readFile (cs : List Char) : Except UrlFault (Authority × Path) := do
  let here : Authority := ⟨"", none, .domain "", none⟩
  match cs with
  | a :: b :: rest =>
    if isSlash .file a ∧ isSlash .file b then
      let name := rest.takeWhile (!isSlash .file ·)
      let pathText := rest.dropWhile (!isSlash .file ·)
      if Path.isDrive (String.ofList name) then return (here, readPath .file rest)
      else if name.isEmpty then return (here, readPath .file pathText)
      else
        let host ← readHost name
        return ({ here with host := if host = .domain "localhost" then .domain "" else host },
          readPath .file pathText)
    else return (here, readPath .file cs)
  | _ => return (here, readPath .file cs)

/-- Reads what follows the scheme and stands before the query. -/
def readPlace (scheme : String) (hasMore : Bool) (cs : List Char) :
    Except UrlFault (Option Authority × Path) := do
  match SchemeKind.of scheme with
  | .special =>
    let (authority, path) ← readAuthority scheme hasMore (cs.dropWhile (isSlash .special))
    return (some authority, path)
  | .file =>
    let (authority, path) ← readFile cs
    return (some authority, path)
  | .other =>
    match cs with
    | '/' :: '/' :: rest =>
      let (authority, path) ← readAuthority scheme hasMore rest
      return (some authority, path)
    | '/' :: _ => return (none, readPath .other cs)
    | _ => return (none, .plain (encodeChars controls cs))

/-- The set that a query of an address of this kind is encoded by. -/
def queryEncoding (kind : SchemeKind) : EncodeSet :=
  if kind.isSpecial then specialQuerySet else querySet

/-- Reads what follows the scheme. -/
def readRest (scheme : String) (cs : List Char) : Except UrlFault Url := do
  let (cs, fragment) := cutAt '#' cs
  let (cs, query) := cutAt '?' cs
  let (authority, path) ← readPlace scheme (query.isSome || fragment.isSome) cs
  return ⟨scheme, authority, path,
    query.map (encodeChars (queryEncoding (SchemeKind.of scheme))),
    fragment.map (encodeChars fragmentSet)⟩

/-- Reads an address that stands for itself. -/
def read (s : String) : Except UrlFault Url :=
  match splitScheme? (clean s) with
  | none => .error .relative
  | some (scheme, rest) => readRest scheme rest

/-- Reads an address that may leave out what it shares with the one it stands in. -/
def readWithin (base : Url) (cs : List Char) : Except UrlFault Url := do
  let kind := SchemeKind.of base.scheme
  let (cs, fragment) := cutAt '#' cs
  let (cs, query) := cutAt '?' cs
  let (authority, path) ← match cs with
    | a :: b :: _ =>
      if isSlash kind a ∧ isSlash kind b then do
        let (authority, path) ← readAuthority base.scheme (query.isSome || fragment.isSome)
          (cs.dropWhile (isSlash kind))
        pure (some authority, path)
      else pure (base.authority, pathWithin kind base.path cs)
    | cs => pure (base.authority, pathWithin kind base.path cs)
  return {
    scheme := base.scheme
    authority
    path
    query := if cs.isEmpty ∧ query.isNone then base.query
      else query.map (encodeChars (queryEncoding kind))
    fragment := fragment.map (encodeChars fragmentSet) }
where
  /-- A path that begins at the root or where the other path ends. -/
  pathWithin (kind : SchemeKind) (path : Path) (cs : List Char) : Path :=
    match cs, path with
    | [], path => path
    | c :: rest, .segments parts =>
      if isSlash kind c then .segments (followText kind [] rest)
      else .segments (followText kind parts.dropLast cs)
    | _, path => path

/-- Reads an address as it stands in an answer to a message that went to `base`. -/
def join (base : Url) (s : String) : Except UrlFault Url :=
  let cs := clean s
  match splitScheme? cs with
  | some (scheme, rest) =>
    let slashes := (rest.takeWhile (isSlash .special)).length
    if SchemeKind.of scheme = .special ∧ scheme = base.scheme ∧ slashes < 2 then readWithin base rest
    else readRest scheme rest
  | none => readWithin base cs

/-! ## Parts -/

/-- Whether the address names a place in a hierarchy, so that segments can be added. -/
def isHierarchical (u : Url) : Bool :=
  match u.path with
  | .plain _ => false
  | .segments _ => true

/-- Adds segments behind the path, and parameters behind those of the query. No parameters leave
the query as it is. -/
def append? (u : Url) (segments : List String) (parameters : List (String × String)) : Option Url :=
  match u.path with
  | .plain _ => none
  | .segments parts => some { u with
      path := .segments (Path.appendSegments parts segments)
      query := if parameters.isEmpty then u.query else some (appendPairs (u.query.getD "") parameters) }

/-- The machine and the port that the address leads to. -/
def place (u : Url) : Option (Host × Option Nat) :=
  u.authority.map fun a => (a.host, a.port.or (defaultPort? u.scheme))

/-- The user and the password, decoded, if they are there and the user is a text. -/
def credentials? (u : Url) : Option (String × Option String) := do
  let a ← u.authority
  let user ← String.fromUTF8? (percentDecode a.user)
  let password := a.password.bind fun p => String.fromUTF8? (percentDecode p)
  if user = "" ∧ password.isNone then none else some (user, password)

/-- An address without its user and password. -/
def withoutCredentials (u : Url) : Url :=
  { u with authority := u.authority.map fun a => { a with user := "", password := none } }

end Url

end DataClient.Web
