import Mathlib.Tactic.MkIffOfInductiveProp
import RelationalAvro.Model.Loaded
import RelationalAvro.Proofs.Json.Records

/-!
# What gives a model

Which values give a certain model, said without reading them. Every record may be an object, with
its keys in any order and with any members under unknown keys, or an array of its fields in order. A
field may be left out if it is at its default. Settings are given in any order, with any
repetitions.

For each kind of record, reading a value gives the records that the value gives, and none otherwise
(`Column.ofValue?_eq_some_iff` and its like, up to `Database.ofValue?_eq_some_iff`).
-/

namespace RelationalAvro.Model

open Json (Fields Value)
open Json.Value (text)

/-! ## Kinds of records -/

/-- The kinds of records in a model. -/
inductive Kind where
  | database
  | schema
  | table
  | column
  | enum
  | enumValue
  deriving DecidableEq, Repr

/-- What a field holds. -/
inductive Form where
  | text
  | optionalText
  | settings
  | records (kind : Kind)
  deriving DecidableEq, Repr

/-- A field of a record. -/
structure Field where
  name : String
  isRequired : Bool
  form : Form
  deriving DecidableEq, Repr

/-- The fields of a kind of records, in order. -/
def Kind.fields : Kind → List Field
  | .database => [⟨"schemas", false, .records .schema⟩]
  | .schema => [⟨"name", false, .text⟩, ⟨"tables", false, .records .table⟩,
    ⟨"enums", false, .records .enum⟩]
  | .table => [⟨"name", true, .text⟩, ⟨"alias", false, .optionalText⟩,
    ⟨"note", false, .optionalText⟩, ⟨"columns", false, .records .column⟩]
  | .column => [⟨"name", true, .text⟩, ⟨"type", true, .text⟩, ⟨"note", false, .optionalText⟩,
    ⟨"settings", false, .settings⟩]
  | .enum => [⟨"name", true, .text⟩, ⟨"values", false, .records .enumValue⟩]
  | .enumValue => [⟨"name", true, .text⟩, ⟨"note", false, .optionalText⟩]

/-- The names of the fields of a kind of records. -/
def Kind.names (kind : Kind) : List String :=
  kind.fields.map Field.name

/-- The fields of a record have different names. -/
theorem Kind.nodup_names (kind : Kind) : kind.names.Nodup := by
  cases kind <;> decide

/-! ## What gives a field -/

/-- The value is the text, or null if there is none. -/
def IsOptionalText : Option String → Value → Prop
  | none, value => value = .null
  | some s, value => value = text s

/-- The value is an array whose items give the entries of the list, one by one. -/
def IsListOf {α : Type} (gives : α → Value → Prop) (list : List α) (value : Value) : Prop :=
  ∃ items, value = .array items ∧ List.Forall₂ gives list items

/-- The value is the name of the setting, or an object with that one key and null. -/
def Setting.GivenBy (s : Setting) (value : Value) : Prop :=
  value = text s.name ∨ value = .object [(some s.name, .null)]

/-- The value is an array of the settings in the set, in any order and with any repetitions. -/
def Settings.GivenBy (settings : Settings) (value : Value) : Prop :=
  ∃ list : List Setting, IsListOf Setting.GivenBy list value ∧
    ∀ s, s ∈ list ↔ settings.contains s = true

/-! ## What gives a record -/

section

open Kind

/-- The value gives the column. -/
@[mk_iff]
structure Column.GivenBy (c : Column) (value : Value) : Prop where
  isRecord : value.IsRecord column.names
  name : value.GivesSome column.names "name" (· = text c.name)
  columnType : value.GivesSome column.names "type" (· = text c.columnType)
  note : value.GivesOr column.names "note" (c.note = none) (IsOptionalText c.note)
  settings : value.GivesOr column.names "settings" (c.settings = {}) c.settings.GivenBy

/-- The value gives the table. -/
@[mk_iff]
structure Table.GivenBy (t : Table) (value : Value) : Prop where
  isRecord : value.IsRecord table.names
  name : value.GivesSome table.names "name" (· = text t.name)
  otherName : value.GivesOr table.names "alias" (t.otherName = none) (IsOptionalText t.otherName)
  note : value.GivesOr table.names "note" (t.note = none) (IsOptionalText t.note)
  columns : value.GivesOr table.names "columns" (t.columns = [])
    (IsListOf Column.GivenBy t.columns)

/-- The value gives the value of an enum. -/
@[mk_iff]
structure EnumValue.GivenBy (v : EnumValue) (value : Value) : Prop where
  isRecord : value.IsRecord enumValue.names
  name : value.GivesSome enumValue.names "name" (· = text v.name)
  note : value.GivesOr enumValue.names "note" (v.note = none) (IsOptionalText v.note)

/-- The value gives the enum. -/
@[mk_iff]
structure Enum.GivenBy (e : Enum) (value : Value) : Prop where
  isRecord : value.IsRecord enum.names
  name : value.GivesSome enum.names "name" (· = text e.name)
  values : value.GivesOr enum.names "values" (e.values = []) (IsListOf EnumValue.GivenBy e.values)

/-- The value gives the schema. -/
@[mk_iff]
structure Schema.GivenBy (s : Schema) (value : Value) : Prop where
  isRecord : value.IsRecord schema.names
  name : value.GivesOr schema.names "name" (s.name = defaultSchemaName) (· = text s.name)
  tables : value.GivesOr schema.names "tables" (s.tables = []) (IsListOf Table.GivenBy s.tables)
  enums : value.GivesOr schema.names "enums" (s.enums = []) (IsListOf Enum.GivenBy s.enums)

/-- The value gives the database. -/
@[mk_iff]
structure Database.GivenBy (d : Database) (value : Value) : Prop where
  isRecord : value.IsRecord database.names
  schemas : value.GivesOr database.names "schemas" (d.schemas = [])
    (IsListOf Schema.GivenBy d.schemas)

end

/-! ## Reading fields -/

section

variable {value : Value}

/-- A text is given by itself. -/
theorem text?_eq_some_iff {s : String} : value.text? = some s ↔ value = text s := by
  cases value <;> simp [Value.text?, text]

/-- A text that may be left out is given by itself or by null. -/
theorem optionalText?_eq_some_iff {s : Option String} :
    value.optionalText? = some s ↔ IsOptionalText s value := by
  cases s <;> cases value <;> simp [Value.optionalText?, IsOptionalText, text]

/-- A list is given by an array of values that give its members. -/
theorem list?_eq_some_iff {α : Type} {read : Value → Option α} {gives : α → Value → Prop}
    (h : ∀ value a, read value = some a ↔ gives a value) {list : List α} :
    value.list? read = some list ↔ IsListOf gives list value := by
  cases value with
  | array items =>
    simp only [Value.list?, Json.mapM_eq_some_iff, h, IsListOf, Value.array.injEq]
    exact ⟨fun hitems => ⟨items, rfl, hitems⟩, fun ⟨_, heq, hitems⟩ => heq ▸ hitems⟩
  | _ => simp [Value.list?, IsListOf]

/-- A setting is found by its name alone. -/
theorem Setting.ofName?_eq_some_iff {name : String} {s : Setting} :
    ofName? name = some s ↔ name = s.name := by
  constructor
  · intro h
    simpa [eq_comm] using List.find?_some h
  · rintro rfl
    cases s <;> rfl

/-- A value is read as the setting that it gives. -/
theorem Setting.ofValue?_eq_some_iff {s : Setting} : ofValue? value = some s ↔ s.GivenBy value := by
  unfold ofValue? GivenBy
  split
  · simp [Option.bind_eq_some_iff, ofName?_eq_some_iff, text]
  · simp [Option.bind_eq_some_iff, ofName?_eq_some_iff, text]
  · rename_i hstring hobject
    constructor
    · intro h
      cases h
    · rintro (rfl | rfl)
      · exact absurd rfl (hstring _)
      · exact absurd rfl (hobject _)

/-- A value is read as the settings that it gives, in whatever order. -/
theorem Settings.ofValue?_eq_some_iff {settings : Settings} :
    ofValue? value = some settings ↔ settings.GivenBy value := by
  simp only [ofValue?, Option.map_eq_some_iff, GivenBy,
    list?_eq_some_iff fun _ _ => Setting.ofValue?_eq_some_iff]
  refine exists_congr fun list => and_congr_right fun _ => ?_
  constructor
  · rintro rfl s
    simp [contains_ofList]
  · intro h
    refine ext_contains fun s => ?_
    rw [contains_ofList, Bool.eq_iff_iff, decide_eq_true_eq]
    exact h s

/-- A value that must give a record, and what is read from its fields. -/
theorem exists_fields_and_iff {names : List String} {p : Fields → Prop} {q : Prop}
    (h : ∀ fields, value.fields? names = some fields → (p fields ↔ q)) :
    (∃ fields, value.fields? names = some fields ∧ p fields) ↔ value.IsRecord names ∧ q := by
  rw [← Value.exists_fields?_iff]
  constructor
  · rintro ⟨fields, hfields, hp⟩
    exact ⟨⟨fields, hfields⟩, (h fields hfields).1 hp⟩
  · rintro ⟨⟨fields, hfields⟩, hq⟩
    exact ⟨fields, hfields, (h fields hfields).2 hq⟩

end

/-! ## Reading records -/

section

variable {value : Value} {kind : Kind} {fields : Fields} {name : String}

/-- A required text is there exactly if the record gives it. -/
theorem required_text?_iff {s : String} (h : value.fields? kind.names = some fields)
    (hname : name ∈ kind.names) : fields.required name Value.text? = some s ↔
      value.GivesSome kind.names name (· = text s) :=
  Fields.required_eq_some_iff kind.nodup_names h hname fun _ => text?_eq_some_iff

/-- A field with a default is what the record gives, or the default if it gives none. -/
theorem orElse_eq_some_iff {α : Type} {read : Value → Option α} {default a : α} {p : Value → Prop}
    (h : value.fields? kind.names = some fields) (hname : name ∈ kind.names)
    (hread : ∀ given, read given = some a ↔ p given) : fields.orElse name default read = some a ↔
      value.GivesOr kind.names name (a = default) p :=
  Fields.orElse_eq_some_iff kind.nodup_names h hname hread

/-- A text that may be left out is what the record gives, or nothing. -/
theorem orElse_optionalText?_iff {s : Option String} (h : value.fields? kind.names = some fields)
    (hname : name ∈ kind.names) : fields.orElse name none Value.optionalText? = some s ↔
      value.GivesOr kind.names name (s = none) (IsOptionalText s) :=
  orElse_eq_some_iff h hname fun _ => optionalText?_eq_some_iff

/-- A list is what the record gives, or empty. -/
theorem orElse_list?_iff {α : Type} {read : Value → Option α} {gives : α → Value → Prop}
    {list : List α} (h : value.fields? kind.names = some fields) (hname : name ∈ kind.names)
    (hread : ∀ value a, read value = some a ↔ gives a value) :
    fields.orElse name [] (Value.list? read) = some list ↔
      value.GivesOr kind.names name (list = []) (IsListOf gives list) :=
  orElse_eq_some_iff h hname fun _ => list?_eq_some_iff hread

/-- A value is read as the column that it gives, and refused if it gives none. -/
theorem Column.ofValue?_eq_some_iff {c : Column} : ofValue? value = some c ↔ c.GivenBy value := by
  have hread : ofValue? value = some c ↔ ∃ fields, value.fields? Kind.column.names = some fields ∧
      fields.required "name" Value.text? = some c.name ∧
      fields.required "type" Value.text? = some c.columnType ∧
      fields.orElse "note" none Value.optionalText? = some c.note ∧
      fields.orElse "settings" {} Settings.ofValue? = some c.settings := by
    obtain ⟨name, columnType, note, settings⟩ := c
    simp [ofValue?, Option.bind_eq_some_iff, Kind.names, Kind.fields]
  rw [hread, givenBy_iff]
  refine exists_fields_and_iff fun fields hfields => ?_
  rw [required_text?_iff hfields (by decide),
    required_text?_iff hfields (by decide),
    orElse_optionalText?_iff hfields (by decide),
    orElse_eq_some_iff hfields (by decide) fun _ => Settings.ofValue?_eq_some_iff]

/-- A value is read as the table that it gives. -/
theorem Table.ofValue?_eq_some_iff {t : Table} : ofValue? value = some t ↔ t.GivenBy value := by
  have hread : ofValue? value = some t ↔ ∃ fields, value.fields? Kind.table.names = some fields ∧
      fields.required "name" Value.text? = some t.name ∧
      fields.orElse "alias" none Value.optionalText? = some t.otherName ∧
      fields.orElse "note" none Value.optionalText? = some t.note ∧
      fields.orElse "columns" [] (Value.list? Column.ofValue?) = some t.columns := by
    obtain ⟨name, otherName, note, columns⟩ := t
    simp [ofValue?, Option.bind_eq_some_iff, Kind.names, Kind.fields]
  rw [hread, givenBy_iff]
  refine exists_fields_and_iff fun fields hfields => ?_
  rw [required_text?_iff hfields (by decide),
    orElse_optionalText?_iff hfields (by decide),
    orElse_optionalText?_iff hfields (by decide),
    orElse_list?_iff hfields (by decide) fun _ _ => Column.ofValue?_eq_some_iff]

/-- A value is read as the value of an enum that it gives. -/
theorem EnumValue.ofValue?_eq_some_iff {v : EnumValue} :
    ofValue? value = some v ↔ v.GivenBy value := by
  have hread : ofValue? value = some v ↔ ∃ fields,
      value.fields? Kind.enumValue.names = some fields ∧
      fields.required "name" Value.text? = some v.name ∧
      fields.orElse "note" none Value.optionalText? = some v.note := by
    obtain ⟨name, note⟩ := v
    simp [ofValue?, Option.bind_eq_some_iff, Kind.names, Kind.fields]
  rw [hread, givenBy_iff]
  refine exists_fields_and_iff fun fields hfields => ?_
  rw [required_text?_iff hfields (by decide),
    orElse_optionalText?_iff hfields (by decide)]

/-- A value is read as the enum that it gives. -/
theorem Enum.ofValue?_eq_some_iff {e : Enum} : ofValue? value = some e ↔ e.GivenBy value := by
  have hread : ofValue? value = some e ↔ ∃ fields, value.fields? Kind.enum.names = some fields ∧
      fields.required "name" Value.text? = some e.name ∧
      fields.orElse "values" [] (Value.list? EnumValue.ofValue?) = some e.values := by
    obtain ⟨name, values⟩ := e
    simp [ofValue?, Option.bind_eq_some_iff, Kind.names, Kind.fields]
  rw [hread, givenBy_iff]
  refine exists_fields_and_iff fun fields hfields => ?_
  rw [required_text?_iff hfields (by decide),
    orElse_list?_iff hfields (by decide) fun _ _ => EnumValue.ofValue?_eq_some_iff]

/-- A value is read as the schema that it gives. -/
theorem Schema.ofValue?_eq_some_iff {s : Schema} : ofValue? value = some s ↔ s.GivenBy value := by
  have hread : ofValue? value = some s ↔ ∃ fields, value.fields? Kind.schema.names = some fields ∧
      fields.orElse "name" defaultSchemaName Value.text? = some s.name ∧
      fields.orElse "tables" [] (Value.list? Table.ofValue?) = some s.tables ∧
      fields.orElse "enums" [] (Value.list? Enum.ofValue?) = some s.enums := by
    obtain ⟨name, tables, enums⟩ := s
    simp [ofValue?, Option.bind_eq_some_iff, Kind.names, Kind.fields]
  rw [hread, givenBy_iff]
  refine exists_fields_and_iff fun fields hfields => ?_
  rw [orElse_eq_some_iff hfields (by decide) fun _ => text?_eq_some_iff,
    orElse_list?_iff hfields (by decide) fun _ _ => Table.ofValue?_eq_some_iff,
    orElse_list?_iff hfields (by decide) fun _ _ => Enum.ofValue?_eq_some_iff]

/-- **Reading a value gives the database that the value gives**, and none if it gives none. -/
theorem Database.ofValue?_eq_some_iff {d : Database} :
    ofValue? value = some d ↔ d.GivenBy value := by
  have hread : ofValue? value = some d ↔ ∃ fields, value.fields? Kind.database.names = some fields ∧
      fields.orElse "schemas" [] (Value.list? Schema.ofValue?) = some d.schemas := by
    obtain ⟨schemas⟩ := d
    simp [ofValue?, Option.bind_eq_some_iff, Kind.names, Kind.fields]
  rw [hread, givenBy_iff]
  refine exists_fields_and_iff fun fields hfields => ?_
  rw [orElse_list?_iff hfields (by decide) fun _ _ => Schema.ofValue?_eq_some_iff]

end

end RelationalAvro.Model
