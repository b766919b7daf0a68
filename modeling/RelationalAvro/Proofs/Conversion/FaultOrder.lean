import RelationalAvro.Conversion.Document
import RelationalAvro.Proofs.Conversion.Outcome

/-!
# When a conversion succeeds, and how it fails

A conversion succeeds exactly on the databases that the converter accepts: their names are names, no
two enums have one name, the namespace is fit to be shown if anything shows it, and the type table
takes every column type that is no enum's name. On any other database it ends with the first of the
faults, which `Converter.faults` lists in this order:

* for each enum its name, the namespace, the names of its values;
* each name of an enum that an earlier enum has;
* for each table its name, the namespace, and for each column its name and its type.

How often enums are defined makes no difference to any of this. The main statement is
`Converter.convert_outcome`.
-/

namespace RelationalAvro

open Model (Column Database Table)

/-! ## Where there are no faults -/

/-- Only names have no fault. -/
theorem nameFaults_eq_nil_iff {name : String} : nameFaults name = [] ↔ isName name = true := by
  simp [nameFaults]

/-- A namespace has no fault if it is blank or a namespace. -/
theorem spaceFaults_eq_nil_iff {config : Config} :
    config.spaceFaults = [] ↔
      Text.isAllBlank config.space = true ∨ isNamespace config.space = true := by
  unfold Config.spaceFaults
  by_cases h : Text.isAllBlank config.space = true <;> simp [h]

/-- A column type has no fault if the type table takes it. -/
theorem typeFaults_eq_nil_iff {config : Config} {columnType : String} :
    config.typeFaults columnType = [] ↔ ∃ type, config.typeOf columnType = .ok type := by
  unfold Config.typeFaults
  cases config.typeOf columnType <;> simp

namespace Converter

variable {converter : Converter}

/-- Nothing is wrong with the database. -/
structure Accepts (converter : Converter) (database : Database) : Prop where
  enum_names : ∀ e ∈ database.enums, isName e.name = true ∧ ∀ v ∈ e.values, isName v.name = true
  space : database.enums ≠ [] ∨ database.tables ≠ [] →
    Text.isAllBlank converter.config.space = true ∨ isNamespace converter.config.space = true
  distinct : (database.enums.map Model.Enum.name).Nodup
  table_names : ∀ table ∈ database.tables,
    isName table.name = true ∧ ∀ column ∈ table.columns, isName column.name = true
  mapped : ∀ table ∈ database.tables, ∀ column ∈ table.columns,
    column.columnType ∉ database.enums.map Model.Enum.name →
      ∃ type, converter.mapping.typeOf column.columnType = .ok type

/-- An enum has no fault if its texts are names and the namespace has none. -/
theorem enumFaults_eq_nil_iff {e : Model.Enum} :
    converter.enumFaults e = [] ↔ isName e.name = true ∧ converter.config.spaceFaults = [] ∧
      ∀ v ∈ e.values, isName v.name = true := by
  simp [enumFaults, nameFaults_eq_nil_iff]

/-- A column has no fault if its name is one and it is of an enum or of a mapped type. -/
theorem columnFaults_eq_nil_iff {enums : List Model.Enum} {column : Column} :
    converter.columnFaults enums column = [] ↔ isName column.name = true ∧
      (column.columnType ∉ enums.map Model.Enum.name →
        ∃ type, converter.mapping.typeOf column.columnType = .ok type) := by
  rw [columnFaults, List.append_eq_nil_iff, nameFaults_eq_nil_iff, ← typeFaults_eq_nil_iff]
  refine and_congr_right fun _ => ?_
  by_cases h : column.columnType ∈ enums.map Model.Enum.name <;> simp [h]

/-- A table has no fault if its name, the namespace and its columns have none. -/
theorem tableFaults_eq_nil_iff {enums : List Model.Enum} {table : Table} :
    converter.tableFaults enums table = [] ↔
      isName table.name = true ∧ converter.config.spaceFaults = [] ∧
        ∀ column ∈ table.columns, converter.columnFaults enums column = [] := by
  simp [tableFaults, nameFaults_eq_nil_iff]

/-- A database has no faults exactly if nothing is wrong with it. -/
theorem faults_eq_nil_iff {database : Database} :
    converter.faults database = [] ↔ converter.Accepts database := by
  simp only [faults, List.append_eq_nil_iff, List.flatMap_eq_nil_iff, List.map_eq_nil_iff,
    repetitions_eq_nil_iff, enumFaults_eq_nil_iff, tableFaults_eq_nil_iff, columnFaults_eq_nil_iff]
  constructor
  · rintro ⟨⟨henums, hdistinct⟩, htables⟩
    refine ⟨?_, ?_, hdistinct, ?_, ?_⟩
    · intro e he
      exact ⟨(henums e he).1, (henums e he).2.2⟩
    · -- any enum and any table has the faults of the namespace
      intro hany
      rw [← spaceFaults_eq_nil_iff]
      rcases hany with hany | hany
      · obtain ⟨e, he⟩ := List.exists_mem_of_ne_nil _ hany
        exact (henums e he).2.1
      · obtain ⟨table, htable⟩ := List.exists_mem_of_ne_nil _ hany
        exact (htables table htable).2.1
    · intro table htable
      have hcolumns := (htables table htable).2.2
      exact ⟨(htables table htable).1, fun column hcolumn => (hcolumns column hcolumn).1⟩
    · intro table htable column hcolumn
      exact ((htables table htable).2.2 column hcolumn).2
  · intro h
    have hspace : database.enums ≠ [] ∨ database.tables ≠ [] → converter.config.spaceFaults = [] :=
      fun hany => spaceFaults_eq_nil_iff.2 (h.space hany)
    refine ⟨⟨?_, h.distinct⟩, ?_⟩
    · intro e he
      obtain ⟨hname, hvalues⟩ := h.enum_names e he
      exact ⟨hname, hspace (.inl (List.ne_nil_of_mem he)), hvalues⟩
    · intro table htable
      obtain ⟨hname, hcolumns⟩ := h.table_names table htable
      refine ⟨hname, hspace (.inr (List.ne_nil_of_mem htable)), fun column hcolumn => ?_⟩
      exact ⟨hcolumns column hcolumn, h.mapped table htable column hcolumn⟩

theorem faults_withInlining (inlining : Inlining) (database : Database) :
    (converter.withInlining inlining).faults database = converter.faults database := rfl

/-! ## The outcome -/

/-- A conversion ends with its first fault, or gives the documents of the described schemas. -/
theorem convert_eq (converter : Converter) (database : Database) :
    converter.convert database = firstFaultOr (converter.faults database)
      ((converter.described database).map Document.ofSchema) := by
  rw [convert, schemas_eq, map_firstFaultOr]

/-- A conversion that succeeds gives the described schemas of a database that the converter accepts.
-/
theorem convert_eq_ok_iff {database : Database} {documents : List Document} :
    converter.convert database = .ok documents ↔ converter.Accepts database ∧
      (converter.described database).map Document.ofSchema = documents := by
  rw [convert_eq, firstFaultOr_eq_ok_iff, faults_eq_nil_iff]

/-- **When a conversion succeeds, and how it fails.** -/
theorem convert_outcome (converter : Converter) (database : Database) :
    ((∃ documents, converter.convert database = .ok documents) ↔ converter.Accepts database) ∧
      (∀ fault, converter.convert database = .error fault ↔
        (converter.faults database).head? = some fault) ∧
      ∀ inlining fault, (converter.withInlining inlining).convert database = .error fault ↔
        converter.convert database = .error fault := by
  refine ⟨?_, fun fault => ?_, fun inlining fault => ?_⟩
  · rw [← faults_eq_nil_iff]
    simp [convert_eq, firstFaultOr_eq_ok_iff]
  · rw [convert_eq, firstFaultOr_eq_error_iff]
  · rw [convert_eq, convert_eq, firstFaultOr_eq_error_iff, firstFaultOr_eq_error_iff,
      faults_withInlining]

end Converter

end RelationalAvro
