import DataClient.Exchange.Message
import DataClient.Table.Columnar
import DataClient.Table.Records

/-!
# Submitting a query

The text of a query is sent as it is, in the body of a POST request or as a parameter of a GET
request, and the response is classified: by its status first, then by whether its body decodes to
a table in the format that was asked for.
-/

set_option autoImplicit false

namespace DataClient

inductive ResultFormat
  | arrow
  | json
  deriving DecidableEq, Repr

def ResultFormat.name : ResultFormat → String
  | .arrow => "arrow"
  | .json => "json"

/-- Reads the name of a format, in any case of letters. -/
def ResultFormat.ofString? (s : String) : Except String ResultFormat :=
  match Text.lowerAscii s with
  | "arrow" => .ok .arrow
  | "json" => .ok .json
  | _ => .error ("Invalid result format: " ++ s ++ ". Expected: arrow or json")

/-- How the text of a query reaches the service. -/
inductive Submission
  | post
  | get (format : ResultFormat)
  deriving DecidableEq, Repr

def Submission.format : Submission → ResultFormat
  | .post => .arrow
  | .get format => format

namespace Query

/-- Where queries are sent. -/
def path : List String := ["api", "query"]

/-- The media types of columnar results. -/
def arrowTypes : String := "application/vnd.apache.arrow.stream, application/octet-stream"

/-- The media type of JSON results. -/
def jsonType : String := "application/json"

/-- The request that carries the text of a query. -/
def sending (sql : String) : Submission → Request
  | .post => (Request.of .post path).withBody (.text sql)
  | .get format =>
    ((Request.of .get path).withParameter "sql" sql).withParameter "format" format.name

/-- The request for a query. Columnar results are asked for as bytes. -/
def request (sql : String) (submission : Submission) (timeout : Option Nat) : Request :=
  let r := sending sql submission
  (match submission.format with
    | .arrow => (r.withAccept arrowTypes).binary
    | .json => r.withAccept jsonType).withTimeout timeout

/-- An answer to a query: a table, an error that the caller handles, or a crash. -/
abbrev Answer := Except Crash (Except QueryError Table)

variable [Allocator]

/-- The table in the body of a response. -/
def decode (r : Response) : ResultFormat → Except Crash (Except DecodeError Table)
  | .arrow => (Columnar.decode r.bytes).run
  | .json => .ok (Records.decode r.text)

/-- The answer that a response gives. -/
def classify (format : ResultFormat) (r : Response) : Answer :=
  if r.isSuccess then (decode r format).map (·.mapError .decode)
  else .ok (.error (.server r.status (Text.trim r.text)))

/-- The answer that an exchange gives. -/
def answer (format : ResultFormat) : Except TransportError Response → Answer
  | .ok r => classify format r
  | .error e => .ok (.error (.transport e))

end Query

end DataClient
