import DataClient.Resource.Basic

/-!
# Configuration entries as JSON
-/

set_option autoImplicit false

namespace DataClient.Configuration

open Json Json.Reader Resource

/-- A configuration entry of which some fields have been read. -/
structure Partial where
  id : Option (Option Int64) := none
  name : Option String := none
  configType : Option (Option String) := none
  configValue : Option (Option String) := none
  description : Option (Option String) := none

/-- The fields of a configuration entry, in order. -/
def fields : List (FieldReader Partial) := [
  optionalField "id" int64 (·.id) (fun p v => { p with id := some v }),
  required "name" string (·.name) (fun p v => { p with name := some v }),
  optionalField "configType" string (·.configType) (fun p v => { p with configType := some v }),
  optionalField "configValue" string (·.configValue) (fun p v => { p with configValue := some v }),
  optionalField "description" string (·.description) (fun p v => { p with description := some v })]

/-- The entry, or the name of the first field that is missing. -/
def Partial.finish (p : Partial) : Except String Configuration := do
  let name ← p.name.elim (.error "name") .ok
  return {
    id := p.id.getD none
    name
    configType := p.configType.getD none
    configValue := p.configValue.getD none
    description := p.description.getD none }

/-- Reads a configuration entry. -/
def reader : Reader Configuration := record "Configuration" fields {} Partial.finish

/-- A configuration entry as JSON, its members in the order of its fields. -/
def toJson (c : Configuration) : Json :=
  .object (optionalMember "id" ofInt64 c.id ++ [("name", .string c.name)]
    ++ optionalMember "configType" .string c.configType
    ++ optionalMember "configValue" .string c.configValue
    ++ optionalMember "description" .string c.description)

end DataClient.Configuration
