import DataClient.Json.Shape
import DataClient.Json.Writer

/-!
# Resources

What the service stores besides data: metrics, tables and configuration entries. Each is a record
with a fixed JSON form. Optional fields are left out when they have no value, and fields that hold
lists or dictionaries read `null` as empty.
-/

set_option autoImplicit false

namespace DataClient

/-- Where the data of a metric comes from. -/
inductive DataSource
  | httpJson
  | fileCsv
  deriving DecidableEq, Repr

def DataSource.name : DataSource → String
  | .httpJson => "HTTP_JSON"
  | .fileCsv => "FILE_CSV"

/-- The type of a field of a metric or table. -/
inductive FieldType
  | string
  | long
  | double
  | boolean
  | timestamp
  deriving DecidableEq, Repr

def FieldType.name : FieldType → String
  | .string => "STRING"
  | .long => "LONG"
  | .double => "DOUBLE"
  | .boolean => "BOOLEAN"
  | .timestamp => "TIMESTAMP"

/-- The step of the time axis of a table. -/
inductive Granularity
  | minute
  | daily
  | weekly
  | monthly
  deriving DecidableEq, Repr

/-- The name of a step. -/
def Granularity.name : Granularity → String
  | .minute => "MINUTE"
  | .daily => "DAILY"
  | .weekly => "WEEKLY"
  | .monthly => "MONTHLY"

/-- A metric and the source it is loaded from. The identifier is given by the server. -/
structure Metric where
  id : Option Int64
  name : String
  dataSource : DataSource
  sourceUrl : String
  /-- Where the data stands inside a JSON source. -/
  dataPath : Option String
  /-- The types of the fields of the source, by name. -/
  fieldMappings : List (String × FieldType)
  deriving DecidableEq, Repr

/-- A table: metrics by the names of its fields. -/
structure TableDefinition where
  id : Option Int64
  tableName : String
  primaryKeys : List String
  /-- The metric of each field. -/
  metricFields : List (String × String)
  /-- The physical name of each field. -/
  fieldMapping : List (String × String)
  /-- The type of each field. -/
  fieldTypes : List (String × FieldType)
  granularity : Option Granularity
  deriving DecidableEq, Repr

/-- A configuration entry. -/
structure Configuration where
  id : Option Int64
  name : String
  configType : Option String
  configValue : Option String
  description : Option String
  deriving DecidableEq, Repr

namespace Resource

open Json Json.Reader

/-- Variants with their names. -/
def named {α : Type} (name : α → String) (all : List α) : List (String × α) :=
  all.map fun a => (name a, a)

def readDataSource : Reader DataSource := variant (named DataSource.name [.httpJson, .fileCsv])

def readFieldType : Reader FieldType :=
  variant (named FieldType.name [.string, .long, .double, .boolean, .timestamp])

def readGranularity : Reader Granularity :=
  variant (named Granularity.name [.minute, .daily, .weekly, .monthly])

/-- A field that has to be there, kept in one component of the state. -/
def required {σ α : Type} (name : String) (r : Reader α) (get : σ → Option α)
    (set : σ → α → σ) : FieldReader σ :=
  ⟨name, fun s => (get s).isSome, fun s => do return set s (← r), false⟩

/-- A field that may be left out or be null. -/
def optionalField {σ α : Type} (name : String) (r : Reader α) (get : σ → Option (Option α))
    (set : σ → Option α → σ) : FieldReader σ :=
  ⟨name, fun s => (get s).isSome, fun s => do return set s (← optional r), true⟩

/-- A field that is empty when it is left out or null. -/
def emptiable {σ α : Type} (name : String) (r : Reader (List α)) (get : σ → Option (List α))
    (set : σ → List α → σ) : FieldReader σ :=
  ⟨name, fun s => (get s).isSome, fun s => do return set s ((← optional r).getD []), true⟩

/-- A member that is written only if it has a value. -/
def optionalMember {α : Type} (name : String) (toJson : α → Json) : Option α → List (String × Json)
  | some a => [(name, toJson a)]
  | none => []

/-- A dictionary as an object. -/
def dictionaryJson {α : Type} (toJson : α → Json) (ms : List (String × α)) : Json :=
  .object (ms.map fun (k, v) => (k, toJson v))

end Resource

end DataClient
