import DataClient.Resource.Basic

/-!
# Table definitions as JSON
-/

set_option autoImplicit false

namespace DataClient.TableDefinition

open Json Json.Reader Resource

/-- A table definition of which some fields have been read. -/
structure Partial where
  id : Option (Option Int64) := none
  tableName : Option String := none
  primaryKeys : Option (List String) := none
  metricFields : Option (List (String × String)) := none
  fieldMapping : Option (List (String × String)) := none
  fieldTypes : Option (List (String × FieldType)) := none
  granularity : Option (Option Granularity) := none

/-- The fields of a table definition, in order. -/
def fields : List (FieldReader Partial) := [
  optionalField "id" int64 (·.id) (fun p v => { p with id := some v }),
  required "tableName" string (·.tableName) (fun p v => { p with tableName := some v }),
  emptiable "primaryKeys" (list string) (·.primaryKeys) (fun p v => { p with primaryKeys := some v }),
  emptiable "metricFields" (dictionary string) (·.metricFields)
    (fun p v => { p with metricFields := some v }),
  emptiable "fieldMapping" (dictionary string) (·.fieldMapping)
    (fun p v => { p with fieldMapping := some v }),
  emptiable "fieldTypes" (dictionary readFieldType) (·.fieldTypes)
    (fun p v => { p with fieldTypes := some v }),
  optionalField "timeGranularity" readGranularity (·.granularity)
    (fun p v => { p with granularity := some v })]

/-- The table definition, or the name of the first field that is missing. -/
def Partial.finish (p : Partial) : Except String TableDefinition := do
  let tableName ← p.tableName.elim (.error "tableName") .ok
  return {
    id := p.id.getD none
    tableName
    primaryKeys := p.primaryKeys.getD []
    metricFields := p.metricFields.getD []
    fieldMapping := p.fieldMapping.getD []
    fieldTypes := p.fieldTypes.getD []
    granularity := p.granularity.getD none }

def reader : Reader TableDefinition := record "TableDefinition" fields {} Partial.finish

/-- A table definition as JSON, its members in the order of its fields. -/
def toJson (t : TableDefinition) : Json :=
  .object (optionalMember "id" ofInt64 t.id
    ++ [("tableName", .string t.tableName), ("primaryKeys", .array (t.primaryKeys.map .string)),
      ("metricFields", dictionaryJson .string t.metricFields),
      ("fieldMapping", dictionaryJson .string t.fieldMapping),
      ("fieldTypes", dictionaryJson (fun f => .string (FieldType.name f)) t.fieldTypes)]
    ++ optionalMember "timeGranularity" (fun g => .string (Granularity.name g)) t.granularity)

end DataClient.TableDefinition
