import RelationalAvro.Export
import RelationalAvro.Proofs.Json.Document

/-!
# Models read back

The value written for a database gives that database again. This goes record by record: a record of
each kind is read back from the fields that are written for it, those that are left out being at
their defaults (`Column.ofValue?_toValue` and its like). Together with `Value.parse?_compact` it
follows for texts (`Database.parse?_write`) and for their bytes (`Database.ofBytes_write`).
-/

namespace RelationalAvro.Json

/-- A list is read back if each of its items is. -/
theorem Value.list?_map {α : Type} {read : Value → Option α} {write : α → Value}
    (h : ∀ a, read (write a) = some a) (list : List α) :
    Value.list? read (.array (list.map write)) = some list := by
  have hread : read ∘ write = fun a => pure a := funext h
  rw [list?, List.mapM_map, hread, List.mapM_pure, List.map_id']
  rfl

end RelationalAvro.Json

namespace RelationalAvro.Model

open Json (Fields Value)
open Json.Value (text)

/-! ## Settings and columns -/

/-- A setting is read back from its name. -/
theorem Setting.ofValue?_name (s : Setting) : Setting.ofValue? (text s.name) = some s := by
  cases s <;> rfl

/-- A set of settings is read back from the names of its members. -/
theorem Settings.ofValue?_names (settings : Settings) :
    Settings.ofValue? (.array (settings.toList.map fun s => text s.name)) = some settings := by
  rw [ofValue?, Value.list?_map Setting.ofValue?_name, Option.map_some, ofList_toList]

/-- A column is read back. -/
theorem Column.ofValue?_toValue (column : Column) :
    Column.ofValue? column.toValue = some column := by
  obtain ⟨name, columnType, note, settings⟩ := column
  have hread := Settings.ofValue?_names settings
  unfold toValue settingsMember
  cases hnames : settings.toList with
  | nil =>
    -- settings that are left out are read as none
    have hempty : settings = {} := by
      rw [← Settings.ofList_toList settings, hnames]
      rfl
    subst hempty
    cases note <;> rfl
  | cons s rest =>
    rw [hnames] at hread
    have hcolumn := congrArg (fun read : Option Settings =>
      read.bind fun settings => some (⟨name, columnType, note, settings⟩ : Column)) hread
    cases note <;> exact hcolumn

/-! ## Tables and enums -/

/-- A table is read back. -/
theorem Table.ofValue?_toValue (table : Table) : Table.ofValue? table.toValue = some table := by
  obtain ⟨name, otherName, note, columns⟩ := table
  have htable := congrArg (fun read : Option (List Column) =>
    read.bind fun columns => some (⟨name, otherName, note, columns⟩ : Table))
    (Value.list?_map Column.ofValue?_toValue columns)
  cases otherName <;> cases note <;> exact htable

/-- A value of an enum is read back. -/
theorem EnumValue.ofValue?_toValue (value : EnumValue) :
    EnumValue.ofValue? value.toValue = some value := by
  obtain ⟨name, note⟩ := value
  cases note <;> rfl

/-- An enum is read back. -/
theorem Enum.ofValue?_toValue (e : Enum) : Enum.ofValue? e.toValue = some e :=
  congrArg (fun read : Option (List EnumValue) =>
    read.bind fun values => some (⟨e.name, values⟩ : Enum))
    (Value.list?_map EnumValue.ofValue?_toValue e.values)

/-! ## Schemas and databases -/

/-- A schema is read back. -/
theorem Schema.ofValue?_toValue (schema : Schema) :
    Schema.ofValue? schema.toValue = some schema := by
  have htables := Value.list?_map Table.ofValue?_toValue schema.tables
  have henums := Value.list?_map Enum.ofValue?_toValue schema.enums
  have hfields : schema.toValue.fields? ["name", "tables", "enums"] = some [
      ("name", text schema.name), ("tables", .array (schema.tables.map Table.toValue)),
      ("enums", .array (schema.enums.map Enum.toValue))] := rfl
  rw [ofValue?, hfields]
  simp [Fields.orElse, List.lookup_cons, Value.text?, text, htables, henums]

/-- The value written for a database gives it again. -/
theorem Database.ofValue?_toValue (database : Database) :
    Database.ofValue? database.toValue = some database :=
  congrArg (fun read : Option (List Schema) => read.bind fun schemas => some (⟨schemas⟩ : Database))
    (Value.list?_map Schema.ofValue?_toValue database.schemas)

/-! ## Texts and bytes -/

/-- A text that may be left out is sound if it is there. -/
private theorem isSound_optionalMember (key : String) (value : Option String) :
    ∀ m ∈ optionalMember key value, m.2.IsSound := by
  cases value <;> simp [optionalMember, Value.member, text]

/-- Columns are written with sound tokens. -/
theorem Column.isSound_toValue (column : Column) : column.toValue.IsSound := by
  have hsettings : ∀ m ∈ settingsMember column.settings, m.2.IsSound := by
    unfold settingsMember
    split <;> simp [Value.member, text]
  simp only [toValue, Value.isSound_object, List.forall_mem_append]
  refine ⟨⟨?_, isSound_optionalMember _ _⟩, hsettings⟩
  simp [Value.member, text]

theorem Table.isSound_toValue (table : Table) : table.toValue.IsSound := by
  simp only [toValue, Value.isSound_object, List.forall_mem_append]
  refine ⟨⟨⟨?_, isSound_optionalMember _ _⟩, isSound_optionalMember _ _⟩, ?_⟩
  · simp [Value.member, text]
  · simp [Value.member, Column.isSound_toValue]

theorem EnumValue.isSound_toValue (value : EnumValue) : value.toValue.IsSound := by
  simp only [toValue, Value.isSound_object, List.forall_mem_append]
  refine ⟨?_, isSound_optionalMember _ _⟩
  simp [Value.member, text]

theorem Enum.isSound_toValue (e : Enum) : e.toValue.IsSound := by
  simp [toValue, Value.member, text, EnumValue.isSound_toValue]

theorem Schema.isSound_toValue (schema : Schema) : schema.toValue.IsSound := by
  simp [toValue, Value.member, text, Table.isSound_toValue, Enum.isSound_toValue]

namespace Database

/-- A database is written without numbers. -/
theorem isSound_toValue (database : Database) : database.toValue.IsSound := by
  simp [toValue, Value.member, Schema.isSound_toValue]

/-- The text written for a database gives it again. -/
theorem parse?_write (database : Database) : parse? database.write = some database := by
  rw [parse?, write, String.toList_ofList, Value.parse?_compact (isSound_toValue database),
    Option.bind_some, ofValue?_toValue]

/-- The bytes of a text give the database that the text gives. -/
theorem ofBytes_toUTF8 (text : String) : ofBytes text.toUTF8 = match parse? text with
    | none => .error .malformedModel
    | some database => .ok database := by
  have hbytes : String.fromUTF8? text.toUTF8 = some text := dif_pos text.isValidUTF8
  cases hread : parse? text <;> simp only [ofBytes, hbytes, hread]

/-- The bytes of the text written for a database give it again. -/
theorem ofBytes_write (database : Database) : ofBytes database.write.toUTF8 = .ok database := by
  rw [ofBytes_toUTF8, parse?_write]

end Database

end RelationalAvro.Model
