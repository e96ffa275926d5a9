import DataClient.Error
import DataClient.Exchange.Message
import DataClient.Resource.Listing

/-!
# Resources on the service

All kinds of resources are served in the same way: a collection under a fixed path, with its members
below it by their identifiers. What differs between kinds is one record.
-/

set_option autoImplicit false

namespace DataClient

namespace Resource

/-- A kind of resource. -/
structure Kind (α : Type) where
  /-- The path of the collection. -/
  path : List String
  /-- What one of the kind is called in a message. -/
  noun : String
  reader : Json.Reader α
  toJson : α → Json
  render : List α → OutputFormat → String

def metrics : Kind Metric :=
  ⟨["api", "metrics"], "metric", Metric.reader, Metric.toJson, Metric.render⟩

def tables : Kind TableDefinition :=
  ⟨["api", "tables"], "table", TableDefinition.reader, TableDefinition.toJson, TableDefinition.render⟩

/-- Configuration entries. -/
def configurations : Kind Configuration :=
  ⟨["api", "configurations"], "configuration", Configuration.reader, Configuration.toJson,
    Configuration.render⟩

/-- The text of an identifier. -/
def idText (id : Int64) : String := toString id.toInt

namespace Kind

variable {α : Type} (k : Kind α)

def collection (method : Method) : Request := .of method k.path

/-- A request below the collection. -/
def below (method : Method) (tail : List String) : Request := .of method (k.path ++ tail)

def member (method : Method) (id : Int64) : Request := k.below method [idText id]

def carrying (r : Request) (item : α) : Request := r.withBody (.json (k.toJson item).sorted)

/-- Reads an item given on the command line. -/
def ofPayload (text : String) : Except ClientError α :=
  match Json.read k.reader text with
  | .ok item => .ok item
  | .error e => .error (.input ("Invalid JSON payload: " ++ e.message))

end Kind

/-- A response whose status says that the request was carried out. -/
def accepted : Except TransportError Response → Except ClientError Response
  | .error e => .error (.transport e)
  | .ok r =>
    if r.isSuccess then .ok r else .error (.server r.status (Text.trim r.text))

/-- Reads the body of a response. -/
def ofResponse {α : Type} (reader : Json.Reader α) (r : Response) : Except ClientError α :=
  match Json.read reader r.text with
  | .ok a => .ok a
  | .error e => .error (.decode ("Failed to parse response: " ++ e.message))

end Resource

end DataClient
