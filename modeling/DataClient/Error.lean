import DataClient.Json.Error

/-!
# Errors

What can go wrong, as causes; the wording of each stands in its `message`. A query has an error
type of its own, which every caller receives as a value, tagged by the stage that failed.
-/

set_option autoImplicit false

namespace DataClient

/-- The part of a payload that a declared length or position was about. -/
inductive PayloadPart
  | metadata
  | body
  | buffer
  | blockMetadata
  | blockBody
  deriving DecidableEq, Repr

/-- The name of a part in a message. -/
def PayloadPart.describe : PayloadPart → String
  | .metadata => "message metadata"
  | .body => "message body"
  | .buffer => "array buffer"
  | .blockMetadata => "block metadata"
  | .blockBody => "block body"

/-- A number in a payload that must not be negative. -/
inductive DeclaredNumber
  | bodyLength
  | bufferOffset
  | bufferLength
  | blockOffset
  | blockMetadataLength
  | blockBodyLength
  deriving DecidableEq, Repr

/-- The name of the number in a message. -/
def DeclaredNumber.describe : DeclaredNumber → String
  | .bodyLength => "message body length"
  | .bufferOffset => "buffer offset"
  | .bufferLength => "buffer length"
  | .blockOffset => "block offset"
  | .blockMetadataLength => "block metadata length"
  | .blockBodyLength => "block body length"

/-- Why a columnar payload is refused. -/
inductive PayloadFault
  | truncatedLength (offset : Nat)
  | lengthOutOfRange (length : Nat)
  | overrun (part : PayloadPart) (length start limit : Nat)
  | negative (number : DeclaredNumber) (value : Int)
  | unreadableMessage (why : String)
  | fileTooShort
  | footerTooLong (length : Nat)
  | unreadableFooter (why : String)
  | footerWithoutSchema
  | shortBlockMetadata (length : Nat)
  /-- The framing is in order, but what it holds is not. -/
  | unreadable (why : String)
  deriving DecidableEq, Repr

/-- The wording of a fault. -/
def PayloadFault.message : PayloadFault → String
  | .truncatedLength offset => "truncated message length at offset " ++ toString offset
  | .lengthOutOfRange length => "invalid message length " ++ toString length
  | .overrun part length start limit =>
    part.describe ++ " of " ++ toString length ++ " bytes at offset " ++ toString start
      ++ " runs past the " ++ toString limit ++ " bytes available"
  | .negative number value => "invalid " ++ number.describe ++ " " ++ toString value
  | .unreadableMessage why => "unable to read message: " ++ why
  | .fileTooShort => "file is too short to hold a footer"
  | .footerTooLong length => "footer of " ++ toString length ++ " bytes exceeds the file"
  | .unreadableFooter why => "unable to read file footer: " ++ why
  | .footerWithoutSchema => "file footer has no schema"
  | .shortBlockMetadata length => "block metadata of " ++ toString length ++ " bytes"
  | .unreadable why => why

/-- Why a JSON result is refused. -/
inductive RecordsFault
  | malformed (e : Json.Error)
  | rowCount (declared actual : Nat)
  | fieldCount (row actual expected : Nat)
  | missingColumn (row : Nat) (name : String)
  | other (why : String)
  deriving DecidableEq, Repr

/-- The wording of a fault. -/
def RecordsFault.message : RecordsFault → String
  | .malformed e => e.message
  | .rowCount declared actual =>
    "rowCount is " ++ toString declared ++ " but data holds " ++ toString actual ++ " rows"
  | .fieldCount row actual expected =>
    "row " ++ toString row ++ " has " ++ toString actual ++ " fields, expected " ++ toString expected
  | .missingColumn row name => "row " ++ toString row ++ " is missing column '" ++ name ++ "'"
  | .other why => why

/-- Why a column has no cells. -/
inductive ColumnFault
  /-- An unsigned integer of a columnar payload is too large for a cell. -/
  | uncastable (n : Nat)
  /-- An unsigned integer of a JSON result is too large for a cell. -/
  | unsigned (n : Nat)
  /-- Only zones given by their offset from UTC are known. -/
  | namedZone (zone : String)
  | other (why : String)
  deriving DecidableEq, Repr

/-- The wording of a fault. -/
def ColumnFault.message : ColumnFault → String
  | .uncastable n => "Cast error: Can't cast value " ++ toString n ++ " to type Int64"
  | .unsigned n => toString n ++ " does not fit in a signed 64-bit integer"
  | .namedZone zone =>
    "Parser error: Invalid timezone \"" ++ zone
      ++ "\": only offset based timezones supported without chrono-tz feature"
  | .other why => why

/-- Why bytes or a text are no table. -/
inductive DecodeError
  | empty
  | arrow (fault : PayloadFault)
  | json (fault : RecordsFault)
  | columnCount (declared actual : Nat)
  | rowCount (column : String) (declared actual : Nat)
  | duplicateColumn (name : String)
  | value (column : String) (fault : ColumnFault)
  | tooLarge (rows : Nat)
  deriving DecidableEq, Repr

/-- The wording of an error. -/
def DecodeError.message : DecodeError → String
  | .empty => "payload is empty"
  | .arrow fault => "invalid Arrow IPC payload: " ++ fault.message
  | .json fault => "invalid JSON result: " ++ fault.message
  | .columnCount declared actual =>
    "schema declares " ++ toString declared ++ " columns but the batch carries " ++ toString actual
  | .rowCount column declared actual =>
    "column '" ++ column ++ "' has " ++ toString actual ++ " values but the batch declares "
      ++ toString declared ++ " rows"
  | .duplicateColumn name => "duplicate column name '" ++ name ++ "'"
  | .value column fault => "column '" ++ column ++ "': " ++ fault.message
  | .tooLarge rows =>
    "batch declares " ++ toString rows ++ " rows, more than can be held in memory"

/-- A step that no answer can follow: it ends the program and not only the request at hand. -/
inductive Crash
  /-- A slot is read that its vector does not have. -/
  | slotOutOfRange
  /-- A part of a payload is taken that does not lie inside it. -/
  | sliceOutOfRange (start stop : Nat)
  /-- A decimal point belongs before the first digit of a decimal that was cut to its precision. -/
  | decimalCut
  /-- A duration is longer than can be represented. -/
  | durationOutOfRange
  /-- More cells are collected than a single claim for storage can be for. -/
  | capacityOverflow (cells : Nat)
  /-- Storage for the cells that are collected is not granted. -/
  | outOfMemory (cells : Nat)
  deriving DecidableEq, Repr

/-- Whether a crash is a panic. What is not ends the program on the spot, and nothing that surrounds
the step gets to know of it. -/
def Crash.isPanic : Crash → Bool
  | .outOfMemory _ => false
  | _ => true

/-- Why a file or the standard input has no text. -/
inductive ReadFault
  | notFound
  | isDirectory
  /-- A part of the path that should be a directory is a file. -/
  | notDirectory
  | denied
  | notText
  | other (why : String)
  deriving DecidableEq, Repr

/-- The wording of a fault. -/
def ReadFault.message : ReadFault → String
  | .notFound => "No such file or directory (os error 2)"
  | .isDirectory => "Is a directory (os error 21)"
  | .notDirectory => "Not a directory (os error 20)"
  | .denied => "Permission denied (os error 13)"
  | .notText => "stream did not contain valid UTF-8"
  | .other why => why

/-- The wording of a crash. -/
def Crash.message : Crash → String
  | .slotOutOfRange => "a slot is read that its vector does not have"
  | .sliceOutOfRange start stop =>
    "bytes " ++ toString start ++ " to " ++ toString stop ++ " are taken from outside a payload"
  | .decimalCut => "a decimal was cut before its point"
  | .durationOutOfRange => "a duration is longer than can be represented"
  | .capacityOverflow cells => toString cells ++ " cells are more than storage can be claimed for"
  | .outOfMemory cells => "no storage is granted for " ++ toString cells ++ " cells"

/-- Why a request has no response. -/
inductive TransportError
  | timeout
  | cancelled
  | connect (why : String)
  | request (why : String)
  deriving DecidableEq, Repr

/-- The wording of an error. -/
def TransportError.message : TransportError → String
  | .timeout => "request timed out"
  | .cancelled => "request was cancelled"
  | .connect why => "failed to connect: " ++ why
  | .request why => "request failed: " ++ why

/-- How a query fails. -/
inductive QueryError
  | transport (e : TransportError)
  | server (status : Nat) (text : String)
  | decode (e : DecodeError)
  deriving DecidableEq, Repr

/-- The wording of an error. -/
def QueryError.message : QueryError → String
  | .transport e => "transport failure: " ++ e.message
  | .server status text => "server error (" ++ toString status ++ "): " ++ text
  | .decode e => "malformed payload: " ++ e.message

/-- The stage that failed. -/
def QueryError.tag : QueryError → String
  | .transport _ => "transport"
  | .server _ _ => "server"
  | .decode _ => "decode"

/-- The status, if the server answered with one that failed the query. -/
def QueryError.status? : QueryError → Option Nat
  | .server status _ => some status
  | _ => none

/-- How a run of the client fails. -/
inductive ClientError
  | config (why : String)
  | input (why : String)
  | transport (e : TransportError)
  | server (status : Nat) (text : String)
  | decode (why : String)
  | query (e : QueryError)
  | internal (why : String)
  deriving DecidableEq, Repr

/-- The wording of an error. -/
def ClientError.message : ClientError → String
  | .config why => "Configuration error: " ++ why
  | .input why => "Invalid input: " ++ why
  | .transport e => "Transport error: " ++ e.message
  | .server status text => "Server error (" ++ toString status ++ "): " ++ text
  | .decode why => "Decode error: " ++ why
  | .query e => "Query error: " ++ e.message
  | .internal why => "Internal error: " ++ why

/-- The heading under which an error is reported. -/
def ClientError.category : ClientError → String
  | .config _ => "Configuration Error"
  | .input _ => "Input Error"
  | .transport _ => "Transport Error"
  | .server _ _ => "Server Error"
  | .decode _ => "Decode Error"
  | .query _ => "Query Error"
  | .internal _ => "Internal Error"

end DataClient
