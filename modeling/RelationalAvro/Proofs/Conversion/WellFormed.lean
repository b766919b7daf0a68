import RelationalAvro.Proofs.Avro.WellFormed
import RelationalAvro.Proofs.Conversion.ReadBack

/-!
# When converted schemas are well formed

A conversion checks names one by one, and compares the names of enums with each other. It does not
compare the columns of a table, the values of an enum, or a table with the enums that its schema
defines, and it takes the other name of a table as it is. So a schema is well formed exactly if

* the columns of its table have distinct names,
* the other name of its table is a name,
* the enums defined in it have values of distinct names, and
* no enum defined in it has the name of its table.

Nothing else can be wrong with it, whatever the type table is: `Converter.convert_wellFormed`.
-/

namespace RelationalAvro

open Avro (AvroType RecordField)
open Model (Column Database Table)

/-! ## Types without definitions -/

/-- A bare name, or a logical type. -/
def Avro.AvroType.IsBare : AvroType → Prop
  | .named _ => True
  | .logical .. => True
  | _ => False

/-- The types of a type table are bare. -/
theorem Config.isBare_of_typeOf {config : Config} {columnType : String} {type : AvroType}
    (h : config.typeOf columnType = .ok type) : type.IsBare := by
  obtain ⟨category, -, htype⟩ := exists_typeIn_of_typeOf h
  obtain ⟨-, rfl⟩ | ⟨base, precision, scale, size, -, rfl⟩ := typeIn_cases htype <;> trivial

/-- A property of types that those without fields, symbols and aliases have. -/
def Avro.AvroType.IsLocal (property : AvroType → Prop) : Prop :=
  ∀ type, type.fieldNames = [] → type.symbols = [] → type.aliases = [] → property type

namespace Converter

variable {converter : Converter} {enums : List Model.Enum} {history : List String}
  {property : AvroType → Prop}

/-- A bare type is its only part, and keeps every rule. -/
theorem forall_parts_of_isBare (hlocal : AvroType.IsLocal property) {type : AvroType}
    (h : type.IsBare) : ∀ part ∈ type.parts, property part := by
  cases type with
  | named | logical => simpa [AvroType.parts] using hlocal _ rfl rfl rfl
  | record | enum | union => exact h.elim

/-- Null adds nothing to the type of a column. -/
theorem forall_parts_fieldOf (hlocal : AvroType.IsLocal property) (column : Column)
    (type : AvroType) :
    (∀ part ∈ (column.fieldOf type).type.parts, property part) ↔
      ∀ part ∈ type.parts, property part := by
  by_cases hnull : column.isNotNull = true
  · simp [Model.Column.fieldOf, hnull]
  · have hunion : property (.union [type, .named "null"]) := hlocal _ rfl rfl rfl
    have hname : property (.named "null") := hlocal _ rfl rfl rfl
    simp [Model.Column.fieldOf, hnull, AvroType.parts_union_null, or_imp, forall_and, hunion, hname]

/-- Null defines no name. -/
theorem definedNames_fieldOf (space : Option String) (column : Column) (type : AvroType) :
    (column.fieldOf type).type.definedNames space = type.definedNames space := by
  by_cases hnull : column.isNotNull = true <;> simp [Model.Column.fieldOf, hnull]

/-! ## Enums defined by columns -/

/-- The enum that a column of the raw type `columnType` is the first to refer to, after columns of
the raw types `history`. -/
def newEnum? (enums : List Model.Enum) (history : List String) (columnType : String) :
    Option Model.Enum :=
  if columnType ∈ history then none else enums.find? (·.name = columnType)

/-- The enums that columns are the first to refer to, in order. -/
def newEnums (enums : List Model.Enum) (history : List String) : List Column → List Model.Enum
  | [] => []
  | column :: rest =>
    (newEnum? enums history column.columnType).toList ++
      newEnums enums (history ++ [column.columnType]) rest

/-- A column defines an enum if it refers to it and no column before it did. -/
theorem newEnum?_eq_some_iff (hdistinct : (enums.map Model.Enum.name).Nodup) {columnType : String}
    {e : Model.Enum} :
    newEnum? enums history columnType = some e ↔
      e ∈ enums ∧ e.name = columnType ∧ e.name ∉ history := by
  constructor
  · intro h
    by_cases hmem : columnType ∈ history
    · simp [newEnum?, hmem] at h
    · rw [newEnum?, if_neg hmem] at h
      obtain rfl : e.name = columnType := by simpa using List.find?_some h
      exact ⟨List.mem_of_find?_eq_some h, rfl, hmem⟩
  · rintro ⟨he, rfl, hmem⟩
    rw [newEnum?, if_neg hmem]
    cases hfind : enums.find? (·.name = e.name) with
    | none => exact absurd (List.mem_map_of_mem he) ((find?_eq_none_iff enums).1 hfind)
    | some other =>
      have hname : other.name = e.name := by simpa using List.find?_some hfind
      rw [List.inj_on_of_nodup_map hdistinct (List.mem_of_find?_eq_some hfind) he hname]

/-- The type of a column that defines an enum is the definition. -/
theorem typeAfter_eq_definition {columnType : String} {e : Model.Enum}
    (h : newEnum? enums history columnType = some e) :
    converter.typeAfter enums history columnType = converter.definition e := by
  by_cases hmem : columnType ∈ history
  · simp [newEnum?, hmem] at h
  · rw [newEnum?, if_neg hmem] at h
    simp [typeAfter, h, hmem]

/-- The type of any other column is bare. -/
theorem isBare_typeAfter {columnType : String} (h : newEnum? enums history columnType = none) :
    (converter.typeAfter enums history columnType).IsBare := by
  unfold typeAfter
  cases hfind : enums.find? (·.name = columnType) with
  | some e =>
    have hmem : columnType ∈ history := by
      by_contra hmem
      simp [newEnum?, hmem, hfind] at h
    simp [hmem, AvroType.IsBare]
  | none =>
    cases htype : converter.mapping.typeOf columnType with
    | error fault => trivial
    | ok type => exact Config.isBare_of_typeOf htype

/-- An enum is defined by columns if one of them refers to it and none did so before. -/
theorem mem_newEnums (hdistinct : (enums.map Model.Enum.name).Nodup) {columns : List Column}
    {e : Model.Enum} :
    e ∈ newEnums enums history columns ↔
      e ∈ enums ∧ e.name ∈ columns.map Column.columnType ∧ e.name ∉ history := by
  induction columns generalizing history with
  | nil => simp [newEnums]
  | cons column rest ih =>
    rw [newEnums, List.mem_append, ih, Option.mem_toList,
      newEnum?_eq_some_iff hdistinct, List.map_cons, List.mem_cons, List.mem_append,
      List.mem_singleton]
    tauto

/-- No enum is defined twice. -/
theorem nodup_newEnums (hdistinct : (enums.map Model.Enum.name).Nodup) (history : List String)
    (columns : List Column) :
    ((newEnums enums history columns).map Model.Enum.name).Nodup := by
  induction columns generalizing history with
  | nil => exact .nil
  | cons column rest ih =>
    rw [newEnums, List.map_append, List.nodup_append]
    refine ⟨?_, ih _, ?_⟩
    · cases newEnum? enums history column.columnType <;> simp
    · rintro name hname _ hother rfl
      obtain ⟨e, he, rfl⟩ := List.mem_map.1 hname
      obtain ⟨other, hother, heq⟩ := List.mem_map.1 hother
      have hcolumn := ((newEnum?_eq_some_iff hdistinct).1 (Option.mem_toList.1 he)).2.1
      have hnew := ((mem_newEnums hdistinct).1 hother).2.2
      exact hnew (by simp [heq, hcolumn])

/-- The first field adds its raw type to the history of the rest. -/
theorem fieldsAfter_cons (column : Column) (rest : List Column) :
    converter.fieldsAfter enums history (column :: rest) =
      column.fieldOf (converter.typeAfter enums history column.columnType) ::
        converter.fieldsAfter enums (history ++ [column.columnType]) rest := by
  simp [fieldsAfter, List.mapIdx_cons]

/-- The fields of a table hold the definitions of the enums that its columns are the first to refer
to, and nothing else that could break a rule. -/
theorem forall_parts_fieldsAfter (hlocal : AvroType.IsLocal property) (columns : List Column) :
    (∀ part ∈ (converter.fieldsAfter enums history columns).flatMap fun field => field.type.parts,
      property part) ↔
      ∀ e ∈ newEnums enums history columns, property (converter.definition e) := by
  induction columns generalizing history with
  | nil => simp [fieldsAfter, newEnums]
  | cons column rest ih =>
    rw [fieldsAfter_cons, List.flatMap_cons, List.forall_mem_append, ih, newEnums,
      List.forall_mem_append, forall_parts_fieldOf hlocal]
    refine and_congr_left' ?_
    cases hnew : newEnum? enums history column.columnType with
    | none => simpa using forall_parts_of_isBare hlocal (isBare_typeAfter hnew)
    | some e =>
      simp [typeAfter_eq_definition hnew, definition, AvroType.parts]

/-- Fields define the enums that their columns are the first to refer to. -/
theorem definedNames_fieldsAfter (columns : List Column) :
    ((converter.fieldsAfter enums history columns).flatMap fun field =>
      field.type.definedNames converter.config.shownSpace) =
      (newEnums enums history columns).map fun e => (converter.config.shownSpace, e.name) := by
  induction columns generalizing history with
  | nil => rfl
  | cons column rest ih =>
    rw [fieldsAfter_cons, List.flatMap_cons, ih, newEnums, List.map_append, definedNames_fieldOf]
    refine congrArg (· ++ _) ?_
    cases hnew : newEnum? enums history column.columnType with
    | none =>
      have hbare : (converter.typeAfter enums history column.columnType).IsBare :=
        isBare_typeAfter hnew
      revert hbare
      cases converter.typeAfter enums history column.columnType <;>
        simp [AvroType.IsBare, AvroType.definedNames]
    | some e =>
      simp [typeAfter_eq_definition hnew, definition, AvroType.definedNames]

/-! ## Well-formed records -/

/-- The schema of the table at place `j` has the definition of the enum inside it: a column refers
to the enum, and no column in scope does so before the table. -/
def Defines (converter : Converter) (database : Database) (j : Nat) (table : Table)
    (e : Model.Enum) : Prop :=
  e ∈ database.enums ∧ e.name ∈ table.rawTypes ∧ e.name ∉ converter.historyBefore database.tables j

/-- Whether a schema is well formed is read off the table at place `j`, rule by rule. -/
structure IsJudgedBy (converter : Converter) (database : Database) (j : Nat) (table : Table)
    (type : AvroType) : Prop where
  fields_distinct_iff : (∀ part ∈ type.parts, part.fieldNames.Nodup) ↔
    (table.columns.map Column.name).Nodup
  symbols_distinct_iff : (∀ part ∈ type.parts, part.symbols.Nodup) ↔
    ∀ e, converter.Defines database j table e → (e.values.map Model.EnumValue.name).Nodup
  aliases_named_iff : (∀ part ∈ type.parts, ∀ text ∈ part.aliases, isName text = true) ↔
    ∀ text ∈ table.otherName, isName text = true
  defined_once_iff : (type.definedNames none).Nodup ↔
    ∀ e, converter.Defines database j table e → e.name ≠ table.name

/-- A rule is kept by the parts of a record if the record and the enums that it defines keep it. -/
theorem forall_parts_recordAfter (hlocal : AvroType.IsLocal property) (table : Table) :
    (∀ part ∈ (converter.recordAfter enums history table).parts, property part) ↔
      property (converter.recordAfter enums history table) ∧
        ∀ e ∈ newEnums enums history table.columns, property (converter.definition e) := by
  rw [← forall_parts_fieldsAfter hlocal, recordAfter, AvroType.parts_record, List.forall_mem_cons]

/-- Fields have the names of their columns. -/
theorem map_name_fieldsAfter (columns : List Column) :
    (converter.fieldsAfter enums history columns).map RecordField.name =
      columns.map Column.name := by
  induction columns generalizing history with
  | nil => rfl
  | cons column rest ih => rw [fieldsAfter_cons, List.map_cons, ih, List.map_cons]; rfl

/-- The schema of a table is well formed as far as the table is. -/
theorem isJudgedBy_recordAfter {database : Database}
    (hdistinct : (database.enums.map Model.Enum.name).Nodup) (j : Nat) (table : Table) :
    converter.IsJudgedBy database j table
      (converter.recordAfter database.enums (converter.historyBefore database.tables j) table) := by
  have hdefines : ∀ e, e ∈ newEnums database.enums (converter.historyBefore database.tables j)
      table.columns ↔ converter.Defines database j table e := fun e => mem_newEnums hdistinct
  constructor
  · rw [forall_parts_recordAfter fun part hfields _ _ => by rw [hfields]; exact .nil]
    simp [recordAfter, AvroType.fieldNames, definition, map_name_fieldsAfter]
  · rw [forall_parts_recordAfter fun part _ hsymbols _ => by rw [hsymbols]; exact .nil]
    simp [recordAfter, AvroType.symbols, definition, hdefines]
  · rw [forall_parts_recordAfter fun part _ _ haliases => by simp [haliases]]
    cases hother : table.otherName <;>
      simp [recordAfter, AvroType.aliases, definition, hother]
  · rw [recordAfter, AvroType.definedNames_record, definedNames_fieldsAfter, List.nodup_cons]
    have hnodup : ((newEnums database.enums (converter.historyBefore database.tables j)
        table.columns).map fun e => (converter.config.shownSpace, e.name)).Nodup := by
      have h := (nodup_newEnums hdistinct (converter.historyBefore database.tables j)
        table.columns).map (Prod.mk_right_injective converter.config.shownSpace)
      rwa [List.map_map] at h
    simp [hnodup, hdefines]

/-- The schema of an enum is well formed as far as its values are distinct. -/
theorem isWellFormed_definition_iff {e : Model.Enum} :
    (converter.definition e).IsWellFormed ↔ (e.values.map Model.EnumValue.name).Nodup := by
  constructor
  · intro h
    have hpart : converter.definition e ∈ (converter.definition e).parts := by
      simp [definition, AvroType.parts]
    exact h.symbols_distinct _ hpart
  · intro h
    constructor <;> simp [definition, AvroType.parts, AvroType.fieldNames,
      AvroType.symbols, AvroType.aliases, AvroType.definedNames, h]

/-! ## Well-formed results -/

/-- All that a conversion leaves unchecked is in order. -/
structure KeepsRules (converter : Converter) (database : Database) : Prop where
  columns_distinct : ∀ table ∈ database.tables, (table.columns.map Column.name).Nodup
  values_distinct : ∀ e ∈ database.enums, (e.values.map Model.EnumValue.name).Nodup
  otherName_named : ∀ table ∈ database.tables, ∀ text ∈ table.otherName, isName text = true
  names_distinct : ∀ j table e, database.tables[j]? = some table →
    converter.Defines database j table e → e.name ≠ table.name

/-- All described schemas are well formed exactly if the database keeps the rules. -/
theorem forall_described_isWellFormed_iff {database : Database}
    (hdistinct : (database.enums.map Model.Enum.name).Nodup) :
    (∀ schema ∈ converter.described database, schema.2.IsWellFormed) ↔
      converter.KeepsRules database := by
  constructor
  · -- a schema stands at the place of each table and enum, and keeps the rules there
    intro h
    have htable : ∀ j table, database.tables[j]? = some table → _ := fun j table hj =>
      h _ (List.mem_of_getElem? (described_getElem?_table converter hj))
    have henum : ∀ e ∈ database.enums, (converter.definition e).IsWellFormed := fun e he =>
      h (e.name, converter.definition e) (List.mem_append_right _ (List.mem_map_of_mem he))
    refine ⟨fun table hmem => ?_, fun e he => isWellFormed_definition_iff.1 (henum e he),
      fun table hmem => ?_, fun j table e hj => ?_⟩
    · obtain ⟨j, hj⟩ := List.mem_iff_getElem?.1 hmem
      exact (isJudgedBy_recordAfter hdistinct j table).fields_distinct_iff.1
        (htable j table hj).fields_distinct
    · obtain ⟨j, hj⟩ := List.mem_iff_getElem?.1 hmem
      exact (isJudgedBy_recordAfter hdistinct j table).aliases_named_iff.1
        (htable j table hj).aliases_named
    · exact (isJudgedBy_recordAfter hdistinct j table).defined_once_iff.1
        (htable j table hj).defined_once e
  · -- conversely each schema is that of a table or an enum
    intro h schema hmem
    rw [described, List.mem_append, List.mem_mapIdx] at hmem
    rcases hmem with ⟨j, hlt, rfl⟩ | hmem
    · have hjudged : converter.IsJudgedBy database j database.tables[j] _ :=
        isJudgedBy_recordAfter hdistinct j database.tables[j]
      have htable : database.tables[j] ∈ database.tables := List.getElem_mem hlt
      refine ⟨hjudged.fields_distinct_iff.2 (h.columns_distinct _ htable),
        hjudged.symbols_distinct_iff.2 fun e he => h.values_distinct e he.1,
        hjudged.aliases_named_iff.2 (h.otherName_named _ htable),
        hjudged.defined_once_iff.2 fun e => h.names_distinct j _ e ?_⟩
      exact List.getElem?_eq_getElem hlt
    · obtain ⟨e, he, rfl⟩ := List.mem_map.1 hmem
      exact isWellFormed_definition_iff.2 (h.values_distinct e he)

/-- **When converted schemas are well formed.** For the schema of each table, each rule holds
exactly if the table is in order; for that of each enum, exactly if its values are distinct. -/
theorem convert_wellFormed {converter : Converter} {database : Database} {documents : List Document}
    (h : converter.convert database = .ok documents) :
    ∃ schemas, converter.schemas database = .ok schemas ∧
      documents = schemas.map Document.ofSchema ∧
      schemas.length = database.tables.length + database.enums.length ∧
      (∀ j table, database.tables[j]? = some table → ∃ type,
        schemas[j]? = some (table.name, type) ∧ converter.IsJudgedBy database j table type) ∧
      (∀ i e, database.enums[i]? = some e → ∃ type,
        schemas[database.tables.length + i]? = some (e.name, type) ∧
          (type.IsWellFormed ↔ (e.values.map Model.EnumValue.name).Nodup)) ∧
      ((∀ schema ∈ schemas, schema.2.IsWellFormed) ↔ converter.KeepsRules database) := by
  rw [convert_eq, firstFaultOr_eq_ok_iff] at h
  obtain ⟨hfaults, rfl⟩ := h
  have hdistinct := (faults_eq_nil_iff.1 hfaults).distinct
  refine ⟨converter.described database, ?_, rfl, converter.length_described database, ?_, ?_,
    forall_described_isWellFormed_iff hdistinct⟩
  · rw [schemas_eq, hfaults, firstFaultOr_nil]
  · intro j table hj
    exact ⟨_, described_getElem?_table converter hj, isJudgedBy_recordAfter hdistinct j table⟩
  · intro i e hi
    refine ⟨converter.definition e, ?_, isWellFormed_definition_iff⟩
    rw [described_getElem?_enum, definitions, List.getElem?_map, hi, Option.map_some]

/-- The schemas of a game of cards are well formed. -/
theorem convert_wellFormed_cards :
    ∃ documents schemas, cardsConverter.convert cards = .ok documents ∧
      cardsConverter.schemas cards = .ok schemas ∧ documents = schemas.map Document.ofSchema ∧
      ∀ schema ∈ schemas, schema.2.IsWellFormed := by
  have h : cardsConverter.convert cards =
      .ok ((cardsConverter.described cards).map Document.ofSchema) := rfl
  obtain ⟨schemas, hschemas, hdocuments, -, -, -, hrules⟩ := convert_wellFormed h
  have hnames : ∀ table ∈ cards.tables, ∀ e ∈ cards.enums, e.name ≠ table.name := by decide
  refine ⟨_, schemas, h, hschemas, hdocuments, hrules.2 ⟨by decide, by decide, by decide, ?_⟩⟩
  exact fun j table e hj he => hnames table (List.mem_of_getElem? hj) e he.1

/-! ## Schemas that are not well formed -/

/-- A table with two columns of one name. -/
def repeatedColumn : Database :=
  .ofTables [{ name := "A", columns := [{ name := "x", columnType := "E" },
    { name := "x", columnType := "E" }] }] [.ofNames "E" ["U"]]

/-- An enum with two values of one name. -/
def repeatedValue : Database :=
  .ofTables [] [.ofNames "E" ["U", "U"]]

/-- A table whose other name is no name. -/
def oddAlias : Database :=
  .ofTables [{ name := "A", otherName := some "1 x" }] []

/-- A table with a column of an enum of the same name. -/
def namesake : Database :=
  .ofTables [{ name := "E", columns := [{ name := "x", columnType := "E" }] }] [.ofNames "E" ["U"]]

/-- The categories of the default type table that have stems are primitive types other than null,
and logical types. -/
theorem standard_category {c s : String} (h : standard.mapping.table.Owns c s) :
    (c ∈ Avro.primitiveNames ∧ c ≠ "null") ∨ (logicalBase? c).isSome := by
  obtain ⟨category, stem, howns, rfl, -⟩ := TypeTable.owns_map.1 h
  obtain ⟨row, hrow, rfl, hstem⟩ := TypeTable.exists_mem_of_owns_ofList howns
  have hplain : row.1.toList.all Text.isSmallAscii = true ∧
      ((row.1 ∈ Avro.primitiveNames ∧ row.1 ≠ "null") ∨ (logicalBase? row.1).isSome) := by
    clear h howns
    revert stem
    revert row
    decide
  rw [Text.lowercase_eq_self hplain.1]
  exact hplain.2

/-- With the default type table, each of the rules can be broken. -/
theorem not_wellFormed_standard :
    (∀ c s, standard.mapping.table.Owns c s →
      (c ∈ Avro.primitiveNames ∧ c ≠ "null") ∨ (logicalBase? c).isSome) ∧
    (∃ schemas : List (String × AvroType),
      standard.convert repeatedColumn = .ok (schemas.map Document.ofSchema) ∧
      ∃ schema ∈ schemas, ¬∀ part ∈ schema.2.parts, part.fieldNames.Nodup) ∧
    (∃ schemas : List (String × AvroType),
      standard.convert repeatedValue = .ok (schemas.map Document.ofSchema) ∧
      ∃ schema ∈ schemas, ¬∀ part ∈ schema.2.parts, part.symbols.Nodup) ∧
    (∃ schemas : List (String × AvroType),
      standard.convert oddAlias = .ok (schemas.map Document.ofSchema) ∧
      ∃ schema ∈ schemas, ¬∀ part ∈ schema.2.parts, ∀ text ∈ part.aliases, isName text = true) ∧
    ∃ schemas : List (String × AvroType),
      standard.convert namesake = .ok (schemas.map Document.ofSchema) ∧
      ∃ schema ∈ schemas, ¬(schema.2.definedNames none).Nodup := by
  refine ⟨?_, ⟨standard.described repeatedColumn, rfl, _, List.mem_cons_self, fun h => ?_⟩,
    ⟨standard.described repeatedValue, rfl, _, List.mem_cons_self, fun h => ?_⟩,
    ⟨standard.described oddAlias, rfl, _, List.mem_cons_self, fun h => ?_⟩,
    ⟨standard.described namesake, rfl, _, List.mem_cons_self, fun h => ?_⟩⟩
  · exact fun c s => standard_category
  · exact absurd (h _ List.mem_cons_self) (by decide)
  · exact absurd (h _ List.mem_cons_self) (by decide)
  · exact absurd (h _ List.mem_cons_self "1 x" (by decide)) (by decide)
  · exact absurd h (by decide)

end Converter

end RelationalAvro
