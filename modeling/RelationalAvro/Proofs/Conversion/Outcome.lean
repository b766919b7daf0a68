import RelationalAvro.Conversion.Converter
import RelationalAvro.Proofs.EnumPool.History

/-!
# The outcome of a conversion

`Converter.schemas` passes a pool of enum definitions through all tables, or gives each table the
same fresh one. This module says what comes of it without a pool. A conversion has a list of faults,
in the order in which it meets them (`Converter.faults`), and a list of schemas that it gives where
there are none (`Converter.described`). In the latter the type of a column depends on the raw types
of the columns before it in scope, its *history*, and on nothing else.

The main statement is `Converter.schemas_eq`: a conversion ends with its first fault or gives the
described schemas. Each step of the conversion has a lemma of the same form, and a pool is known
through the history that it follows.
-/

namespace RelationalAvro

open Avro (AvroType RecordField)
open EnumPool (Follows)
open Model (Column Database Table)

/-- The field of a column of the given type, null aside. -/
def Model.Column.fieldOf (column : Column) (type : AvroType) : RecordField AvroType :=
  { name := column.name, doc := column.note,
    type := if column.isNotNull then type else .union [type, .named "null"] }

/-- A field tells the type of its column, null or not. -/
theorem Model.Column.fieldOf_injective (column : Column) : Function.Injective column.fieldOf := by
  intro first second h
  have htype := congrArg RecordField.type h
  by_cases hnull : column.isNotNull = true
  · simpa [fieldOf, hnull] using htype
  · simpa [fieldOf, hnull] using htype

/-- The raw types of the columns of a table, in order. -/
def Model.Table.rawTypes (table : Table) : List String :=
  table.columns.map Column.columnType

/-- The namespace that schemas show where it is not refused: none if it is blank. -/
def Config.shownSpace (config : Config) : Option String :=
  if Text.isAllBlank config.space then none else some config.space

/-! ## Faults in order -/

/-- The faults of a text that should be a name. -/
def nameFaults (name : String) : List Fault :=
  if isName name then [] else [.invalidName name]

/-- The faults of the namespace. -/
def Config.spaceFaults (config : Config) : List Fault :=
  if Text.isAllBlank config.space || isNamespace config.space then []
  else [.invalidNamespace config.space]

/-- The faults of the type table at a column type. -/
def Config.typeFaults (config : Config) (columnType : String) : List Fault :=
  match config.typeOf columnType with
  | .ok _ => []
  | .error fault => [fault]

namespace Converter

/-- The converter that defines enums as often as `inlining` says. -/
def withInlining (converter : Converter) (inlining : Inlining) : Converter where
  config := { converter.config with inlining }
  mapping := { converter.mapping with inlining }

variable (converter : Converter) (enums : List Model.Enum)

/-- The faults of an enum: its name, the namespace, the names of its values. -/
def enumFaults (e : Model.Enum) : List Fault :=
  nameFaults e.name ++ converter.config.spaceFaults ++ e.values.flatMap fun v => nameFaults v.name

/-- The faults of a column: its name, and its type if that is no enum's name. -/
def columnFaults (column : Column) : List Fault :=
  nameFaults column.name ++
    if column.columnType ∈ enums.map Model.Enum.name then []
    else converter.mapping.typeFaults column.columnType

/-- The faults of a table: its name, the namespace, its columns. -/
def tableFaults (table : Table) : List Fault :=
  nameFaults table.name ++ converter.config.spaceFaults ++
    table.columns.flatMap (converter.columnFaults enums)

/-- All that is wrong with a database, in the order in which a conversion comes upon it: the enums,
their repeated names, the tables. -/
def faults (database : Database) : List Fault :=
  database.enums.flatMap converter.enumFaults ++
    (repetitions (database.enums.map Model.Enum.name)).map .duplicateEnum ++
    database.tables.flatMap (converter.tableFaults database.enums)

/-! ## Schemas by position -/

/-- The schema of an enum, all its names taken as they are. -/
def definition (e : Model.Enum) : AvroType :=
  .enum "enum" e.name converter.config.shownSpace (e.values.map Model.EnumValue.name)

/-- The definitions of enums, by name. -/
def definitions : List (String × AvroType) :=
  enums.map fun e => (e.name, converter.definition e)

/-- The type of a column, null aside, after columns of the raw types `history`. A column without a
type, which has a fault, stands here for the bare name of its raw type. -/
def typeAfter (history : List String) (columnType : String) : AvroType :=
  match enums.find? (·.name = columnType) with
  | some e => if columnType ∈ history then .named columnType else converter.definition e
  | none => (converter.mapping.typeOf columnType).toOption.getD (.named columnType)

/-- The fields of columns after columns of the raw types `history`. -/
def fieldsAfter (history : List String) (columns : List Column) : List (RecordField AvroType) :=
  columns.mapIdx fun i column => column.fieldOf <|
    converter.typeAfter enums (history ++ (columns.take i).map Column.columnType) column.columnType

/-- The schema of a table after columns of the raw types `history`. -/
def recordAfter (history : List String) (table : Table) : AvroType :=
  .record "record" table.name converter.config.shownSpace table.note
    (table.otherName.map fun a => [a]) (converter.fieldsAfter enums history table.columns)

/-- The tables in scope after the tables `before`: all of them, or none. -/
def inScope (before : List Table) : List Table :=
  match converter.config.inlining with
  | .perRun => before
  | .perRecord => []

/-- The raw types of the columns in scope before the table at place `j`. -/
def historyBefore (tables : List Table) (j : Nat) : List String :=
  (converter.inScope (tables.take j)).flatMap Table.rawTypes

/-- The schemas of a database, tables first. -/
def described (database : Database) : List (String × AvroType) :=
  (database.tables.mapIdx fun j table => (table.name,
    converter.recordAfter database.enums (converter.historyBefore database.tables j) table)) ++
    converter.definitions database.enums

/-- No enum is found under a name that none has. -/
theorem find?_eq_none_iff {name : String} :
    enums.find? (·.name = name) = none ↔ name ∉ enums.map Model.Enum.name := by
  simp

section

variable {enums} {columnType : String}

/-- The first reference to an enum is its definition, and every later one its bare name. -/
theorem exists_typeAfter_eq (h : columnType ∈ enums.map Model.Enum.name) :
    ∃ e ∈ enums, e.name = columnType ∧ ∀ history, converter.typeAfter enums history columnType =
      if columnType ∈ history then .named columnType else converter.definition e := by
  cases hfind : enums.find? (·.name = columnType) with
  | none => exact absurd h ((find?_eq_none_iff enums).1 hfind)
  | some e =>
    refine ⟨e, List.mem_of_find?_eq_some hfind, by simpa using List.find?_some hfind, ?_⟩
    intro history
    simp only [typeAfter, hfind]

/-- A column that is of no enum has the type that the type table gives it. -/
theorem typeAfter_eq_of_typeOf {type : AvroType} (h : columnType ∉ enums.map Model.Enum.name)
    (htype : converter.mapping.typeOf columnType = .ok type) (history : List String) :
    converter.typeAfter enums history columnType = type := by
  rw [typeAfter, (find?_eq_none_iff enums).2 h, htype]
  rfl

/-- The type of a column depends on no more than whether the history holds its enum. -/
theorem typeAfter_congr {first second : List String}
    (h : columnType ∈ enums.map Model.Enum.name → (columnType ∈ first ↔ columnType ∈ second)) :
    converter.typeAfter enums first columnType = converter.typeAfter enums second columnType := by
  by_cases hname : columnType ∈ enums.map Model.Enum.name
  · obtain ⟨e, -, -, htype⟩ := converter.exists_typeAfter_eq hname
    simp only [htype, h hname]
  · unfold typeAfter
    rw [(find?_eq_none_iff enums).2 hname]

end

@[simp] theorem length_fieldsAfter (history : List String) (columns : List Column) :
    (converter.fieldsAfter enums history columns).length = columns.length :=
  List.length_mapIdx

/-- The field of a column has the type that the columns before it leave it. -/
theorem fieldsAfter_getElem? (history : List String) {columns : List Column} {i : Nat}
    {column : Column} (h : columns[i]? = some column) :
    (converter.fieldsAfter enums history columns)[i]? =
      some (column.fieldOf <| converter.typeAfter enums
        (history ++ (columns.take i).map Column.columnType) column.columnType) := by
  rw [fieldsAfter, List.getElem?_mapIdx, h]
  rfl

/-- There is one schema for each table and each enum. -/
@[simp] theorem length_described (database : Database) :
    (converter.described database).length = database.tables.length + database.enums.length := by
  simp [described, definitions]

/-- The schema of a table stands at the place of the table. -/
theorem described_getElem?_table {database : Database} {j : Nat} {table : Table}
    (h : database.tables[j]? = some table) :
    (converter.described database)[j]? = some (table.name,
      converter.recordAfter database.enums (converter.historyBefore database.tables j) table) := by
  have hlt : j < database.tables.length := (List.getElem?_eq_some_iff.1 h).1
  rw [described, List.getElem?_append_left (by simpa using hlt), List.getElem?_mapIdx, h]
  rfl

/-- The definitions of enums stand behind the tables. -/
theorem described_getElem?_enum {database : Database} (i : Nat) :
    (converter.described database)[database.tables.length + i]? =
      (converter.definitions database.enums)[i]? := by
  rw [described, List.getElem?_append_right (by simp), List.length_mapIdx,
    Nat.add_sub_cancel_left]

/-- Schemas have the names of the tables and enums. -/
theorem map_fst_described (database : Database) :
    (converter.described database).map Prod.fst =
      database.tables.map Table.name ++ database.enums.map Model.Enum.name := by
  rw [described, List.map_append, definitions, List.map_map]
  exact congrArg (· ++ _) (List.ext_getElem? fun j => by simp [Function.comp_def])

/-! ## The outcome of each step -/

/-- Checking a name finds its faults. -/
theorem checkName_eq (name : String) : checkName name = firstFaultOr (nameFaults name) () := by
  unfold checkName nameFaults
  split <;> rfl

/-- The namespace is refused for its faults, or shown. -/
theorem space?_eq (config : Config) :
    config.space? = firstFaultOr config.spaceFaults config.shownSpace := by
  unfold Config.space? Config.spaceFaults Config.shownSpace
  by_cases hblank : Text.isAllBlank config.space = true
  · simp [hblank]
  · by_cases hspace : isNamespace config.space = true <;> simp [hblank, hspace]

/-- The type table finds the faults of a column type, or gives a type. -/
theorem typeOf_eq (config : Config) (columnType : String) :
    config.typeOf columnType = firstFaultOr (config.typeFaults columnType)
      ((config.typeOf columnType).toOption.getD (.named columnType)) := by
  unfold Config.typeFaults
  cases config.typeOf columnType <;> rfl

/-- An enum is refused for its first fault, or defined. -/
theorem enumSchema_eq (e : Model.Enum) :
    converter.enumSchema e = firstFaultOr (converter.enumFaults e) (converter.definition e) := by
  unfold enumSchema enumFaults
  rw [checkName_eq, space?_eq, List.append_assoc]
  refine firstFaultOr_bind (firstFaultOr_bind ?_)
  have hvalue : ∀ value : Model.EnumValue, (do checkName value.name; return value.name) =
      firstFaultOr (nameFaults value.name) value.name := by
    intro value
    rw [checkName_eq]
    exact firstFaultOr_bind_ok rfl
  rw [mapM_firstFaultOr hvalue]
  exact firstFaultOr_bind_ok rfl

/-- Enums are refused for the first fault of all, or defined. -/
theorem enumSchemas_eq :
    converter.enumSchemas enums =
      firstFaultOr (enums.flatMap converter.enumFaults) (converter.definitions enums) := by
  refine mapM_firstFaultOr (fun e => ?_) enums
  rw [enumSchema_eq]
  exact firstFaultOr_bind_ok rfl

/-- The definition under a name is that of the first enum of the name. -/
theorem lookup_definitions (name : String) :
    (converter.definitions enums).lookup name =
      (enums.find? (·.name = name)).map converter.definition := by
  unfold definitions
  induction enums with
  | nil => rfl
  | cons e rest ih =>
    rw [List.map_cons, List.lookup_cons, List.find?_cons, ih]
    by_cases h : e.name = name
    · simp [h]
    · simp [h, beq_eq_false_iff_ne.2 (Ne.symm h)]

variable {enums} {history : List String} {pool : EnumPool}

/-- A pool that follows the history answers a column with its type after that history. -/
theorem baseType_eq (h : Follows (converter.definitions enums) history pool) (columnType : String) :
    converter.baseType columnType pool =
      firstFaultOr
        (if columnType ∈ enums.map Model.Enum.name then []
          else converter.mapping.typeFaults columnType)
        (converter.typeAfter enums history columnType, (pool.resolve columnType).2) := by
  have hfound := h.resolve_fst columnType
  rw [lookup_definitions] at hfound
  unfold baseType typeAfter
  rcases hresolve : pool.resolve columnType with ⟨found, next⟩
  rw [hresolve] at hfound
  cases hfind : enums.find? (·.name = columnType) with
  | none =>
    -- no enum of that name: the pool answers nothing and the type table decides
    obtain rfl : found = none := by simpa [hfind] using hfound
    rw [if_neg ((find?_eq_none_iff enums).1 hfind)]
    exact (congrArg (Except.map _) (typeOf_eq converter.mapping columnType)).trans
      (map_firstFaultOr ..)
  | some e =>
    have hname : columnType ∈ enums.map Model.Enum.name :=
      Decidable.not_not.1 (mt (find?_eq_none_iff enums).2 (by simp [hfind]))
    rw [hfind] at hfound
    subst hfound
    rw [if_pos hname]
    rfl

/-- The field of a column, and the pool after it. -/
theorem field_eq (h : Follows (converter.definitions enums) history pool) (column : Column) :
    (converter.field column).run pool =
      firstFaultOr (converter.columnFaults enums column)
        (column.fieldOf (converter.typeAfter enums history column.columnType),
          (pool.resolve column.columnType).2) := by
  unfold field columnFaults
  rw [checkName_eq]
  refine run_firstFaultOr_bind ?_
  rw [StateT.run_bind, StateT.run, baseType_eq converter h]
  exact firstFaultOr_bind_ok rfl

/-- A table has the faults of its columns in order, and its pool follows the history on. -/
theorem recordSchema_eq (h : Follows (converter.definitions enums) history pool) (table : Table) :
    ∃ next, Follows (converter.definitions enums) (history ++ table.rawTypes) next ∧
      (converter.recordSchema table).run pool =
        firstFaultOr (converter.tableFaults enums table)
          (converter.recordAfter enums history table, next) := by
  obtain ⟨next, hnext, hfields⟩ := run_mapM_firstFaultOr
    (Follows (converter.definitions enums)) (fun column : Column => [column.columnType])
    (fun _ column pool hpool =>
      ⟨_, hpool.resolve column.columnType, converter.field_eq hpool column⟩)
    table.columns h
  simp only [← List.map_eq_flatMap] at hnext hfields
  refine ⟨next, hnext, ?_⟩
  unfold recordSchema tableFaults
  rw [checkName_eq, space?_eq, List.append_assoc]
  refine run_firstFaultOr_bind (run_firstFaultOr_bind ?_)
  rw [StateT.run_bind, hfields]
  exact firstFaultOr_bind_ok rfl

/-- The same with the name of the table beside its schema. -/
private theorem named_recordSchema_eq (h : Follows (converter.definitions enums) history pool)
    (table : Table) :
    ∃ next, Follows (converter.definitions enums) (history ++ table.rawTypes) next ∧
      (do return (table.name, ← converter.recordSchema table) :
        Pooled (String × AvroType)).run pool =
        firstFaultOr (converter.tableFaults enums table)
          ((table.name, converter.recordAfter enums history table), next) := by
  obtain ⟨next, hnext, hrecord⟩ := converter.recordSchema_eq h table
  refine ⟨next, hnext, ?_⟩
  rw [StateT.run_bind, hrecord]
  exact firstFaultOr_bind_ok rfl

/-- One pool for all tables, or the same fresh one for each: either way a table starts from the
history before it. -/
theorem recordSchemas_eq (h : Follows (converter.definitions enums) [] pool) (tables : List Table) :
    converter.recordSchemas pool tables =
      firstFaultOr (tables.flatMap (converter.tableFaults enums))
        (tables.mapIdx fun j table => (table.name,
          converter.recordAfter enums (converter.historyBefore tables j) table)) := by
  unfold recordSchemas historyBefore inScope
  cases converter.config.inlining with
  | perRun =>
    -- the run over tables keeps the pool in step with all columns so far
    obtain ⟨next, -, hrun⟩ := run_mapM_firstFaultOr (Follows (converter.definitions enums))
      Table.rawTypes (fun _ table _ hpool => converter.named_recordSchema_eq hpool table) tables h
    rw [StateT.run'_eq, hrun]
    simp only [List.nil_append]
    exact map_firstFaultOr ..
  | perRecord =>
    -- each table forgets what its pool became
    have hrecord : ∀ table, StateT.run' (converter.recordSchema table) pool =
        firstFaultOr (converter.tableFaults enums table)
          (converter.recordAfter enums [] table) := by
      intro table
      obtain ⟨next, -, hrun⟩ := converter.recordSchema_eq h table
      rw [StateT.run'_eq, hrun]
      exact map_firstFaultOr ..
    have hnamed : ∀ table : Table,
        (do return (table.name, ← StateT.run' (converter.recordSchema table) pool)) =
          firstFaultOr (converter.tableFaults enums table)
            (table.name, converter.recordAfter enums [] table) := by
      intro table
      rw [hrecord]
      exact firstFaultOr_bind_ok rfl
    rw [mapM_firstFaultOr hnamed]
    refine congrArg (firstFaultOr _) (List.ext_getElem? fun j => ?_)
    rw [List.getElem?_map, List.getElem?_mapIdx]
    rfl

/-- **The outcome of a conversion**: its first fault, or else the described schemas. -/
theorem schemas_eq (database : Database) :
    converter.schemas database =
      firstFaultOr (converter.faults database) (converter.described database) := by
  have hnames : (converter.definitions database.enums).map Prod.fst =
      database.enums.map Model.Enum.name := by
    rw [definitions, List.map_map]
    rfl
  unfold schemas faults
  rw [enumSchemas_eq, ← hnames, List.append_assoc]
  refine firstFaultOr_bind (EnumPool.ofDefinitions_bind fun pool hpool => ?_)
  rw [recordSchemas_eq converter hpool]
  exact firstFaultOr_bind_ok rfl

end Converter

end RelationalAvro
