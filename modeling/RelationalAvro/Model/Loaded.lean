import RelationalAvro.Json.Progress
import RelationalAvro.Json.Fields
import RelationalAvro.Model.Written

/-!
# Reading models

A model is read from any document that gives each record its fields, under their names or in order.
Only names and column types have to be given. A setting is given by its name, or by an object with
that name as its one key and null as its value.
-/

namespace RelationalAvro.Model

open Json (Value)

/-- The setting of that name. -/
def Setting.ofName? (name : String) : Option Setting :=
  Setting.all.find? fun s => s.name = name

/-- The setting that a value gives. -/
def Setting.ofValue? : Value → Option Setting
  | .string text => text.bind ofName?
  | .object [(key, .null)] => key.bind ofName?
  | _ => none

/-- The settings that a value gives. -/
def Settings.ofValue? (value : Value) : Option Settings :=
  (value.list? Setting.ofValue?).map Settings.ofList

/-- The column that a value gives. -/
def Column.ofValue? (value : Value) : Option Column := do
  let fields ← value.fields? ["name", "type", "note", "settings"]
  let name ← fields.required "name" Value.text?
  let columnType ← fields.required "type" Value.text?
  let note ← fields.orElse "note" none Value.optionalText?
  let settings ← fields.orElse "settings" {} Settings.ofValue?
  return { name, columnType, note, settings }

/-- The table that a value gives. -/
def Table.ofValue? (value : Value) : Option Table := do
  let fields ← value.fields? ["name", "alias", "note", "columns"]
  let name ← fields.required "name" Value.text?
  let otherName ← fields.orElse "alias" none Value.optionalText?
  let note ← fields.orElse "note" none Value.optionalText?
  let columns ← fields.orElse "columns" [] (Value.list? Column.ofValue?)
  return { name, otherName, note, columns }

/-- The value of an enum that a value gives. -/
def EnumValue.ofValue? (value : Value) : Option EnumValue := do
  let fields ← value.fields? ["name", "note"]
  let name ← fields.required "name" Value.text?
  let note ← fields.orElse "note" none Value.optionalText?
  return { name, note }

/-- The enum that a value gives. -/
def Enum.ofValue? (value : Value) : Option Enum := do
  let fields ← value.fields? ["name", "values"]
  let name ← fields.required "name" Value.text?
  let values ← fields.orElse "values" [] (Value.list? EnumValue.ofValue?)
  return { name, values }

/-- The schema that a value gives. -/
def Schema.ofValue? (value : Value) : Option Schema := do
  let fields ← value.fields? ["name", "tables", "enums"]
  let name ← fields.orElse "name" defaultSchemaName Value.text?
  let tables ← fields.orElse "tables" [] (Value.list? Table.ofValue?)
  let enums ← fields.orElse "enums" [] (Value.list? Enum.ofValue?)
  return { name, tables, enums }

/-- The database that a value gives. -/
def Database.ofValue? (value : Value) : Option Database := do
  let fields ← value.fields? ["schemas"]
  let schemas ← fields.orElse "schemas" [] (Value.list? Schema.ofValue?)
  return { schemas }

/-- The database that a text gives, if it is a document that gives one. -/
def Database.parse? (text : String) : Option Database :=
  (Value.parse? text.toList).bind Database.ofValue?

end RelationalAvro.Model
