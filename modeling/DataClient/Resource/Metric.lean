import DataClient.Resource.Basic

/-!
# Metrics as JSON
-/

set_option autoImplicit false

namespace DataClient.Metric

open Json Json.Reader Resource

/-- A metric of which some fields have been read. -/
structure Partial where
  id : Option (Option Int64) := none
  name : Option String := none
  dataSource : Option DataSource := none
  sourceUrl : Option String := none
  dataPath : Option (Option String) := none
  fieldMappings : Option (List (String × FieldType)) := none

/-- The fields of a metric, in order. -/
def fields : List (FieldReader Partial) := [
  optionalField "id" int64 (·.id) (fun p v => { p with id := some v }),
  required "name" string (·.name) (fun p v => { p with name := some v }),
  required "dataSourceType" readDataSource (·.dataSource) (fun p v => { p with dataSource := some v }),
  required "sourceUrl" string (·.sourceUrl) (fun p v => { p with sourceUrl := some v }),
  optionalField "dataPath" string (·.dataPath) (fun p v => { p with dataPath := some v }),
  emptiable "fieldMappings" (dictionary readFieldType) (·.fieldMappings)
    (fun p v => { p with fieldMappings := some v })]

/-- The metric, or the name of the first field that is missing. -/
def Partial.finish (p : Partial) : Except String Metric := do
  let name ← p.name.elim (.error "name") .ok
  let dataSource ← p.dataSource.elim (.error "dataSourceType") .ok
  let sourceUrl ← p.sourceUrl.elim (.error "sourceUrl") .ok
  return {
    id := p.id.getD none
    name, dataSource, sourceUrl
    dataPath := p.dataPath.getD none
    fieldMappings := p.fieldMappings.getD [] }

def reader : Reader Metric := record "MetricInfo" fields {} Partial.finish

/-- A metric as JSON, its members in the order of its fields. -/
def toJson (m : Metric) : Json :=
  .object (optionalMember "id" ofInt64 m.id
    ++ [("name", .string m.name), ("dataSourceType", .string m.dataSource.name),
      ("sourceUrl", .string m.sourceUrl)]
    ++ optionalMember "dataPath" .string m.dataPath
    ++ [("fieldMappings", dictionaryJson (fun t => .string (FieldType.name t)) m.fieldMappings)])

end DataClient.Metric
