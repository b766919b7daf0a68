import RelationalAvro.Avro.Layout
import RelationalAvro.EnumPool.Basic
import RelationalAvro.Mapping.ColumnType
import RelationalAvro.Model.Database
import RelationalAvro.Name

/-!
# Converting models to schemas

Every enum becomes an enum schema and every table a record schema with a field for each column. A
column whose raw type is the name of an enum refers to that enum, and the pool says whether the
definition or the bare name is due; every other column has the type that the type table gives it.
Enums are converted before tables, and the results list tables before enums.
-/

namespace RelationalAvro

open Avro (AvroType RecordField)
open Model (Column Database Table)

/-- What converts a model: the settings, and the configuration whose type table maps columns, which
is as a rule the same. -/
structure Converter where
  config : Config
  mapping : Config := config

/-- A conversion step that refers to enums of a pool. -/
abbrev Pooled := StateT EnumPool (Except Fault)

/-- Refuses a text that is no name. -/
def checkName (name : String) : Except Fault Unit :=
  if isName name then .ok () else .error (.invalidName name)

/-- The namespace of the schemas: none if it is blank. -/
def Config.space? (config : Config) : Except Fault (Option String) :=
  if Text.isAllBlank config.space then .ok none
  else if isNamespace config.space then .ok (some config.space)
  else .error (.invalidNamespace config.space)

namespace Converter

/-- The schema of an enum. -/
def enumSchema (converter : Converter) (e : Model.Enum) : Except Fault AvroType := do
  checkName e.name
  let space ← converter.config.space?
  let symbols ← e.values.mapM fun value => do
    checkName value.name
    return value.name
  return .ofSymbols e.name space symbols

/-- The type of a column of the raw type `columnType`, null aside. -/
def baseType (converter : Converter) (columnType : String) : Pooled AvroType := fun pool =>
  match pool.resolve columnType with
  | (some type, next) => .ok (type, next)
  | (none, next) => (converter.mapping.typeOf columnType).map fun type => (type, next)

/-- The field of a column. -/
def field (converter : Converter) (column : Column) : Pooled (RecordField AvroType) := do
  checkName column.name
  let type ← converter.baseType column.columnType
  return {
    name := column.name
    doc := column.note
    type := if column.isNotNull then type else type.nullable }

/-- The schema of a table. -/
def recordSchema (converter : Converter) (table : Table) : Pooled AvroType := do
  checkName table.name
  let space ← converter.config.space?
  let fields ← table.columns.mapM converter.field
  return .ofFields table.name space table.note table.otherName fields

/-- The schemas of enums, each with its name. -/
def enumSchemas (converter : Converter) (enums : List Model.Enum) :
    Except Fault (List (String × AvroType)) :=
  enums.mapM fun e => do return (e.name, ← converter.enumSchema e)

/-- The schemas of tables, each with its name: one pool serves them all, or each table starts from
the same fresh one. -/
def recordSchemas (converter : Converter) (pool : EnumPool) (tables : List Table) :
    Except Fault (List (String × AvroType)) :=
  match converter.config.inlining with
  | .perRun =>
    StateT.run' (tables.mapM fun table => do
      return (table.name, ← converter.recordSchema table)) pool
  | .perRecord =>
    tables.mapM fun table => do
      return (table.name, ← StateT.run' (converter.recordSchema table) pool)

/-- The schemas of a database, each with the name of its table or enum: tables first, both in the
order of the database. The first fault in the order enums, repeated enum names, tables ends the
conversion. -/
def schemas (converter : Converter) (database : Database) :
    Except Fault (List (String × AvroType)) := do
  let enums ← converter.enumSchemas database.enums
  let pool ← EnumPool.ofDefinitions enums
  let records ← converter.recordSchemas pool database.tables
  return records ++ enums

end Converter

end RelationalAvro
