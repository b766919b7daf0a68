import RelationalAvro.Json.Value
import RelationalAvro.Model.Database

/-!
# Writing models

A model is written as one document. Absent aliases and notes and empty sets of settings are left
out; everything else is always written, in a fixed order.
-/

namespace RelationalAvro.Model

open Json (Value)
open Json.Value (member text)

/-- How a setting is written. -/
def Setting.name : Setting → String
  | .notNull => "not_null"
  | .null => "null"
  | .primaryKey => "primary_key"
  | .unique => "unique"
  | .increment => "increment"

/-- A member for a text that may be absent. -/
def optionalMember (key : String) (value : Option String) : List (Option String × Value) :=
  value.toList.map fun s => member key (text s)

/-- The member for a set of settings, left out if it is empty. -/
def settingsMember (settings : Settings) : List (Option String × Value) :=
  match settings.toList with
  | [] => []
  | names => [member "settings" (.array (names.map fun s => text s.name))]

/-- The value of a column. -/
def Column.toValue (column : Column) : Value :=
  .object ([member "name" (text column.name), member "type" (text column.columnType)]
    ++ optionalMember "note" column.note ++ settingsMember column.settings)

/-- The value of a table. -/
def Table.toValue (table : Table) : Value :=
  .object ([member "name" (text table.name)]
    ++ optionalMember "alias" table.otherName ++ optionalMember "note" table.note
    ++ [member "columns" (.array (table.columns.map Column.toValue))])

/-- The value of one of the values of an enum. -/
def EnumValue.toValue (value : EnumValue) : Value :=
  .object ([member "name" (text value.name)] ++ optionalMember "note" value.note)

/-- The value of an enum. -/
def Enum.toValue (e : Enum) : Value :=
  .object [member "name" (text e.name), member "values" (.array (e.values.map EnumValue.toValue))]

/-- The value of a schema. -/
def Schema.toValue (schema : Schema) : Value :=
  .object [member "name" (text schema.name),
    member "tables" (.array (schema.tables.map Table.toValue)),
    member "enums" (.array (schema.enums.map Enum.toValue))]

/-- The value of a database. -/
def Database.toValue (database : Database) : Value :=
  .object [member "schemas" (.array (database.schemas.map Schema.toValue))]

/-- The document of a database, without blanks. -/
def Database.write (database : Database) : String :=
  String.ofList database.toValue.compact

end RelationalAvro.Model
