import DataClient.Output
import DataClient.Resource.Configuration
import DataClient.Resource.Metric
import DataClient.Resource.TableDefinition

/-!
# Listings

How lists of resources are shown: as a text table with one row for each, or as JSON.
-/

set_option autoImplicit false

namespace DataClient

/-- An identifier, or nothing. -/
def showId (id : Option Int64) : String :=
  match id with
  | some n => toString n.toInt
  | none => ""

/-- A text table of the given rows. -/
def listing (headers : List String) (rows : List (List String)) : String :=
  ((TextTable.ofHeaders headers).append rows).render

def Metric.render (metrics : List Metric) : OutputFormat → String
  | .json => renderJson (.array (metrics.map Metric.toJson))
  | .text =>
    listing ["id", "name", "source", "url", "fields"] (metrics.map fun m =>
      [showId m.id, m.name, m.dataSource.name, m.sourceUrl,
        Text.joinWith ", " (m.fieldMappings.map fun (name, type) => name ++ ":" ++ type.name)])

def TableDefinition.render (tables : List TableDefinition) : OutputFormat → String
  | .json => renderJson (.array (tables.map TableDefinition.toJson))
  | .text =>
    listing ["id", "table", "keys", "metrics", "granularity"] (tables.map fun t =>
      [showId t.id, t.tableName, Text.joinWith ", " t.primaryKeys, toString t.metricFields.length,
        (t.granularity.map Granularity.name).getD ""])

/-- A listing of configuration entries. -/
def Configuration.render (configs : List Configuration) : OutputFormat → String
  | .json => renderJson (.array (configs.map Configuration.toJson))
  | .text =>
    listing ["id", "name", "type", "value", "description"] (configs.map fun c =>
      [showId c.id, c.name, c.configType.getD "", c.configValue.getD "", c.description.getD ""])

end DataClient
