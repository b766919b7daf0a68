/-!
# Relational models

A database is a list of schemas, each with tables and enums. Tables have columns with a raw column
type and settings; enums have named values. Aliases and notes may be absent, which differs from
empty.
-/

namespace RelationalAvro.Model

/-- A setting that a column may carry. -/
inductive Setting where
  | notNull
  | null
  | primaryKey
  | unique
  | increment
  deriving DecidableEq, Repr

/-- All settings, in the order in which they are written. -/
def Setting.all : List Setting :=
  [.notNull, .null, .primaryKey, .unique, .increment]

/-- The settings of a column: a set, whatever the order in which they were given. -/
structure Settings where
  notNull : Bool := false
  null : Bool := false
  primaryKey : Bool := false
  unique : Bool := false
  increment : Bool := false
  deriving DecidableEq, Repr

namespace Settings

/-- Is the setting in the set? -/
def contains (settings : Settings) : Setting → Bool
  | .notNull => settings.notNull
  | .null => settings.null
  | .primaryKey => settings.primaryKey
  | .unique => settings.unique
  | .increment => settings.increment

/-- The set with the setting in it. -/
def insert (settings : Settings) : Setting → Settings
  | .notNull => { settings with notNull := true }
  | .null => { settings with null := true }
  | .primaryKey => { settings with primaryKey := true }
  | .unique => { settings with unique := true }
  | .increment => { settings with increment := true }

/-- The settings of the list, in any order and with any repetitions. -/
def ofList (list : List Setting) : Settings :=
  list.foldl insert {}

/-- The settings in the order in which they are written, each once. -/
def toList (settings : Settings) : List Setting :=
  Setting.all.filter settings.contains

/-- A setting is there after another was inserted if it is that one or was there before. -/
@[simp] theorem contains_insert (settings : Settings) (s t : Setting) :
    (settings.insert s).contains t = (decide (s = t) || settings.contains t) := by
  cases s <;> cases t <;> rfl

/-- The list of settings holds those that are there. -/
theorem mem_toList {settings : Settings} {s : Setting} :
    s ∈ settings.toList ↔ settings.contains s = true := by
  cases s <;> simp [toList, Setting.all]

/-- Sets with the same settings are equal. -/
theorem ext_contains {a b : Settings} (h : ∀ s, a.contains s = b.contains s) : a = b := by
  cases a
  cases b
  simp only [mk.injEq]
  exact ⟨h .notNull, h .null, h .primaryKey, h .unique, h .increment⟩

/-- What is there after a list was inserted. -/
private theorem contains_foldl_insert (list : List Setting) (settings : Settings) (s : Setting) :
    (list.foldl insert settings).contains s = (decide (s ∈ list) || settings.contains s) := by
  induction list generalizing settings with
  | nil => simp
  | cons t rest ih =>
    rw [List.foldl_cons, ih, contains_insert]
    by_cases h : t = s
    · simp [h]
    · simp [h, Ne.symm h]

/-- The settings of a list are its members. -/
theorem contains_ofList (list : List Setting) (s : Setting) :
    (ofList list).contains s = decide (s ∈ list) := by
  rw [ofList, contains_foldl_insert]
  cases s <;> simp [contains]

/-- Settings are told by their list. -/
@[simp] theorem ofList_toList (settings : Settings) : ofList settings.toList = settings :=
  ext_contains fun s => by simp [contains_ofList, mem_toList]

end Settings

/-- A column: its name, its raw type, which may have arguments as in `decimal(9,2)`, a note and
settings. -/
structure Column where
  name : String
  columnType : String
  note : Option String := none
  settings : Settings := {}
  deriving DecidableEq, Repr

/-- Is the column declared as never null? -/
def Column.isNotNull (column : Column) : Bool :=
  column.settings.contains .notNull

/-- A table: its name, another name as an alias, a note and its columns. -/
structure Table where
  name : String
  otherName : Option String := none
  note : Option String := none
  columns : List Column := []
  deriving DecidableEq, Repr

/-- A value of an enum. -/
structure EnumValue where
  name : String
  note : Option String := none
  deriving DecidableEq, Repr

/-- An enum: its name and its values in order. -/
structure Enum where
  name : String
  values : List EnumValue := []
  deriving DecidableEq, Repr

/-- The enum with values of the given names. -/
def Enum.ofNames (name : String) (values : List String) : Enum :=
  { name, values := values.map fun value => { name := value } }

/-- The name of a schema that is given none. -/
def defaultSchemaName : String :=
  "public"

/-- A schema: tables and enums under a name. -/
structure Schema where
  name : String := defaultSchemaName
  tables : List Table := []
  enums : List Enum := []
  deriving DecidableEq, Repr

/-- A database: its schemas in order. -/
structure Database where
  schemas : List Schema := []
  deriving DecidableEq, Repr

namespace Database

/-- The database with a single schema of the default name. -/
def ofTables (tables : List Table) (enums : List Enum) : Database :=
  { schemas := [{ tables, enums }] }

/-- The tables of all schemas, in order. -/
def tables (database : Database) : List Table :=
  database.schemas.flatMap Schema.tables

/-- The enums of all schemas, in order. -/
def enums (database : Database) : List Enum :=
  database.schemas.flatMap Schema.enums

end Database

end RelationalAvro.Model
