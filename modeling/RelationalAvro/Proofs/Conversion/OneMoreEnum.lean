import RelationalAvro.Proofs.Conversion.TableOrder

/-!
# What one more enum changes

An enum of a new name is put among the enums of a schema. If the names that it brings are names, and
the namespace can be shown, the conversion still succeeds. It gives one document more, that of the
enum, and leaves alone all columns but those whose raw type is the name of the enum: these had a
type from the type table, and now refer to the enum. References to other enums do not notice: which
of them are definitions depends on the raw types of the columns before them, and these are what they
were. The main statement is `Converter.convert_withEnum`.
-/

namespace RelationalAvro

open Avro (AvroType RecordField)
open Model (Column Database Schema Table)

/-! ## Databases with one more enum -/

/-- The schema with an enum put before the one at place `i`, or behind all. -/
def Model.Schema.withEnum (schema : Schema) (i : Nat) (e : Model.Enum) : Schema :=
  { schema with enums := schema.enums.insertIdx i e }

namespace Model.Database

/-- The database with an enum put at place `i` of the schema at place `k`. -/
def withEnum (database : Database) (k i : Nat) (e : Model.Enum) : Database :=
  { schemas := database.schemas.modify k (·.withEnum i e) }

/-- How many enums of the database come before place `i` of the schema at place `k`. -/
def enumsBefore (database : Database) (k i : Nat) : Nat :=
  ((database.schemas.take k).flatMap Schema.enums).length + i

variable {database : Database} {k i : Nat} {schema : Schema}

/-- One more enum leaves the tables alone. -/
@[simp] theorem tables_withEnum (database : Database) (k i : Nat) (e : Model.Enum) :
    (database.withEnum k i e).tables = database.tables := by
  by_cases hk : k < database.schemas.length
  · obtain ⟨before, schema, after, hschemas, -, hmodify⟩ :=
      List.exists_of_modify (·.withEnum i e) hk
    rw [tables, withEnum, hmodify, tables, hschemas]
    simp [Schema.withEnum]
  · rw [withEnum, List.modify_eq_self (Nat.not_lt.1 hk)]

/-- The enum stands between those before its place and those behind. -/
theorem enums_withEnum (hschema : database.schemas[k]? = some schema)
    (hplace : i ≤ schema.enums.length) (e : Model.Enum) :
    ∃ first rest, database.enums = first ++ rest ∧ first.length = database.enumsBefore k i ∧
      (database.withEnum k i e).enums = first ++ e :: rest := by
  obtain ⟨hk, hget⟩ := List.getElem?_eq_some_iff.1 hschema
  obtain ⟨before, other, after, hschemas, hlength, hmodify⟩ :=
    List.exists_of_modify (·.withEnum i e) hk
  obtain rfl : other = schema := by simpa [hschemas, ← hlength] using hget
  obtain ⟨first, rest, henums, hfirst, hinsert⟩ :=
    List.exists_of_modifyTailIdx (List.cons e) hplace
  refine ⟨before.flatMap Schema.enums ++ first, rest ++ after.flatMap Schema.enums, ?_, ?_, ?_⟩
  · simp [enums, hschemas, henums]
  · simp [enumsBefore, hschemas, ← hlength, hfirst]
  · rw [enums, withEnum, hmodify]
    simp [Schema.withEnum, List.insertIdx, hinsert]

end Model.Database

namespace Converter

variable {converter : Converter} {database larger : Database} {first rest : List Model.Enum}
  {e : Model.Enum}

/-! ## Acceptance and types -/

/-- The larger database is accepted if the enum has a new name and nothing is wrong with it. -/
theorem Accepts.of_insert (h : converter.Accepts database) (henums : database.enums = first ++ rest)
    (hlarger : larger.enums = first ++ e :: rest) (htables : larger.tables = database.tables)
    (hspace : Text.isAllBlank converter.config.space = true ∨
      isNamespace converter.config.space = true)
    (hname : isName e.name = true) (hvalues : ∀ v ∈ e.values, isName v.name = true)
    (hnew : e.name ∉ database.enums.map Model.Enum.name) : converter.Accepts larger := by
  have hperm : larger.enums.Perm (e :: database.enums) := by
    rw [hlarger, henums]
    exact List.perm_middle
  have hnames := hperm.map Model.Enum.name
  refine ⟨fun other hother => ?_, fun _ => hspace, ?_, ?_, ?_⟩
  · rcases List.mem_cons.1 (hperm.subset hother) with rfl | hother
    · exact ⟨hname, hvalues⟩
    · exact h.enum_names other hother
  · rw [hnames.nodup_iff, List.map_cons, List.nodup_cons]
    exact ⟨hnew, h.distinct⟩
  · exact htables ▸ h.table_names
  · intro table htable column hcolumn hnot
    refine h.mapped table (htables ▸ htable) column hcolumn fun hmem => hnot ?_
    exact hnames.symm.subset (List.mem_cons_of_mem _ hmem)

/-- A column whose raw type is not the name of the new enum has the type that it had. -/
theorem typeAfter_insert_of_ne {columnType : String} (h : columnType ≠ e.name)
    (history : List String) :
    converter.typeAfter (first ++ e :: rest) history columnType =
      converter.typeAfter (first ++ rest) history columnType := by
  have hfind : (first ++ e :: rest).find? (·.name = columnType) =
      (first ++ rest).find? (·.name = columnType) := by
    simp [List.find?_append, h.symm]
  rw [typeAfter, hfind, typeAfter]

/-- A column whose raw type is the name of the new enum refers to it. -/
theorem typeAfter_insert_self (h : e.name ∉ (first ++ rest).map Model.Enum.name)
    (history : List String) :
    converter.typeAfter (first ++ e :: rest) history e.name =
      if e.name ∈ history then .named e.name else converter.definition e := by
  have hfind : (first ++ e :: rest).find? (·.name = e.name) = some e := by
    rw [List.map_append, List.mem_append, not_or] at h
    rw [List.find?_append, (find?_eq_none_iff first).2 h.1]
    simp
  rw [typeAfter, hfind]

/-! ## What changes -/

/-- What one more enum changes in the schemas of tables: no more than the types of the columns whose
raw type is its name. These were mapped by the type table; the first of them in scope becomes the
definition of the enum, and every later one its bare name. -/
structure TablesGain (converter : Converter) (database : Database) (e : Model.Enum)
    (records newRecords : List (String × AvroType)) : Prop where
  length_eq : records.length = database.tables.length ∧ newRecords.length = database.tables.length
  table_eq : ∀ j table, database.tables[j]? = some table →
    ∃ was now : List (RecordField AvroType),
      records[j]? = some (table.name, .record "record" table.name converter.config.shownSpace
        table.note (table.otherName.map fun a => [a]) was) ∧
      newRecords[j]? = some (table.name, .record "record" table.name converter.config.shownSpace
        table.note (table.otherName.map fun a => [a]) now) ∧
      was.length = table.columns.length ∧ now.length = table.columns.length ∧
      ∀ i column, table.columns[i]? = some column → ∃ type newType,
        was[i]? = some (column.fieldOf type) ∧ now[i]? = some (column.fieldOf newType) ∧
        (column.columnType ≠ e.name → newType = type) ∧
        (column.columnType = e.name → converter.mapping.typeOf e.name = .ok type ∧
          newType = if e.name ∈ converter.historyBefore database.tables j ++
              (table.columns.take i).map Column.columnType
            then .named e.name else converter.definition e)

@[simp] theorem definitions_append (converter : Converter) (first rest : List Model.Enum) :
    converter.definitions (first ++ rest) =
      converter.definitions first ++ converter.definitions rest :=
  List.map_append

/-- In the schemas of tables only the columns of the new enum change. -/
theorem tablesGain_recordsAfter (haccepts : converter.Accepts database)
    (henums : database.enums = first ++ rest)
    (hnew : e.name ∉ database.enums.map Model.Enum.name) :
    converter.TablesGain database e (converter.recordsAfter (first ++ rest) [] database.tables)
      (converter.recordsAfter (first ++ e :: rest) [] database.tables) := by
  refine ⟨⟨length_recordsAfter .., length_recordsAfter ..⟩, fun j table htable => ?_⟩
  have hrecord : ∀ enums, (converter.recordsAfter enums [] database.tables)[j]? = some (table.name,
      converter.recordAfter enums (converter.historyBefore database.tables j) table) := by
    intro enums
    rw [recordsAfter, List.getElem?_mapIdx, htable]
    rfl
  refine ⟨_, _, hrecord _, hrecord _, length_fieldsAfter .., length_fieldsAfter ..,
    fun i column hcolumn => ?_⟩
  refine ⟨_, _, fieldsAfter_getElem? _ _ _ hcolumn, fieldsAfter_getElem? _ _ _ hcolumn,
    fun hne => typeAfter_insert_of_ne hne _, fun heq => ?_⟩
  rw [heq]
  refine ⟨?_, typeAfter_insert_self (henums ▸ hnew) _⟩
  -- a column that is of no enum has been accepted because the type table takes it
  obtain ⟨type, htype⟩ := haccepts.mapped table (List.mem_of_getElem? htable) column
    (List.mem_of_getElem? hcolumn) (heq ▸ hnew)
  rw [heq] at htype
  rw [htype, converter.typeAfter_eq_of_typeOf (henums ▸ hnew) htype]

/-- **What one more enum changes.** -/
theorem convert_withEnum {converter : Converter} {database : Database} {documents : List Document}
    {k i : Nat} {schema : Schema} {e : Model.Enum}
    (hspace : Text.isAllBlank converter.config.space = true ∨
      isNamespace converter.config.space = true)
    (hconvert : converter.convert database = .ok documents)
    (hschema : database.schemas[k]? = some schema) (hplace : i ≤ schema.enums.length)
    (hname : isName e.name = true) (hvalues : ∀ v ∈ e.values, isName v.name = true)
    (hnew : e.name ∉ database.enums.map Model.Enum.name) :
    ∃ records newRecords first rest : List (String × AvroType),
      documents = (records ++ (first ++ rest)).map Document.ofSchema ∧
      converter.convert (database.withEnum k i e) =
        .ok ((newRecords ++ (first ++ (e.name, converter.definition e) :: rest)).map
          Document.ofSchema) ∧
      first.length = database.enumsBefore k i ∧
      converter.TablesGain database e records newRecords := by
  obtain ⟨haccepts, rfl⟩ := convert_eq_ok_iff.1 hconvert
  -- what stands before and behind the new enum is the same in both databases
  obtain ⟨first, rest, henums, hlength, hlarger⟩ :=
    Model.Database.enums_withEnum hschema hplace e
  have htables := Model.Database.tables_withEnum database k i e
  refine ⟨_, _, converter.definitions first, converter.definitions rest, ?_, ?_, ?_,
    tablesGain_recordsAfter haccepts henums hnew⟩
  · rw [described_eq, henums, definitions_append]
  · refine convert_eq_ok_iff.2
      ⟨haccepts.of_insert henums hlarger htables hspace hname hvalues hnew, ?_⟩
    rw [described_eq, hlarger, htables, definitions_append]
    rfl
  · rw [definitions, List.length_map, hlength]

/-- Points become an enum, so a column that was a number refers to it. -/
theorem convert_withEnum_points :
    ∃ records newRecords first rest : List (String × AvroType),
      cardsConverter.convert cards = .ok ((records ++ (first ++ rest)).map Document.ofSchema) ∧
      cardsConverter.convert (cards.withEnum 0 0 (.ofNames "points" ["NONE", "SOME"])) =
        .ok ((newRecords ++ (first ++ ("points",
          cardsConverter.definition (.ofNames "points" ["NONE", "SOME"])) :: rest)).map
            Document.ofSchema) ∧
      first.length = 0 ∧
      cardsConverter.TablesGain cards (.ofNames "points" ["NONE", "SOME"]) records newRecords := by
  have h : cardsConverter.convert cards = .ok ((cardsConverter.described cards).map .ofSchema) :=
    rfl
  obtain ⟨records, newRecords, first, rest, hdocuments, hlarger, hlength, hgain⟩ :=
    convert_withEnum (e := .ofNames "points" ["NONE", "SOME"]) (k := 0) (i := 0) (by decide) h rfl
      (by decide) (by decide) (by decide) (by decide)
  exact ⟨records, newRecords, first, rest, by rw [h, hdocuments], hlarger, hlength, hgain⟩

end Converter

end RelationalAvro
