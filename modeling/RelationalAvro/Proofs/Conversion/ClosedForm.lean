import RelationalAvro.Config.Draft
import RelationalAvro.Proofs.Conversion.FaultOrder

/-!
# What a conversion gives, by position

The documents of a conversion that succeeds are read off the database: one for each table, then one
for each enum, in the order of the database. Only the type of a column needs more than the column
itself. `Converter.HasType` says which type position makes of it, and `Converter.Describes` gathers
what all documents are. The main statement is `Converter.describes_of_convert`.

The settings and the configuration with the type table are two parts of a converter, and they need
not agree: names, namespace and scope come from the former, mapped types from the latter.
-/

namespace RelationalAvro

open Avro (AvroType RecordField)
open Model (Column Database Table)

namespace Converter

variable {converter : Converter} {enums : List Model.Enum}

/-- The type, null aside, of a column after columns of the raw types `history`. If its raw type is
the name of an enum, it is the definition of that enum, or the bare name once the history holds it.
If not, it is what the type table makes of the raw type. -/
def HasType (converter : Converter) (enums : List Model.Enum) (history : List String)
    (columnType : String) (type : AvroType) : Prop :=
  (∃ e ∈ enums, e.name = columnType ∧
    type = if columnType ∈ history then .named columnType else converter.definition e) ∨
  (columnType ∉ enums.map Model.Enum.name ∧ converter.mapping.typeOf columnType = .ok type)

/-- The documents are those of the database: tables before enums, each in place. -/
structure Describes (converter : Converter) (database : Database) (documents : List Document) :
    Prop where
  length_eq : documents.length = database.tables.length + database.enums.length
  /-- An enum's document is the text of its definition, with its values in order. -/
  enum_eq : ∀ i e, database.enums[i]? = some e →
    documents[database.tables.length + i]? = some ⟨e.name,
      (AvroType.enum "enum" e.name converter.config.shownSpace
        (e.values.map Model.EnumValue.name)).text⟩
  /-- A table's document is the text of a record with one field for each column in order. What comes
  before a column in scope is what comes before the table and the columns before it in the table. -/
  table_eq : ∀ j table, database.tables[j]? = some table →
    ∃ fields : List (RecordField AvroType),
      documents[j]? = some ⟨table.name,
        (AvroType.record "record" table.name converter.config.shownSpace table.note
          (table.otherName.map fun a => [a]) fields).text⟩ ∧
      fields.length = table.columns.length ∧
      ∀ i column, table.columns[i]? = some column → ∃ type,
        fields[i]? = some (column.fieldOf type) ∧
        converter.HasType database.enums
          (converter.historyBefore database.tables j ++
            (table.columns.take i).map Column.columnType)
          column.columnType type

/-- A column has the type that position gives it, if the type table takes it where it must. -/
theorem hasType_typeAfter {columnType : String}
    (h : columnType ∉ enums.map Model.Enum.name →
      ∃ type, converter.mapping.typeOf columnType = .ok type)
    (history : List String) :
    converter.HasType enums history columnType
      (converter.typeAfter enums history columnType) := by
  by_cases hname : columnType ∈ enums.map Model.Enum.name
  · obtain ⟨e, he, hcolumn, htype⟩ := converter.exists_typeAfter_eq hname
    exact .inl ⟨e, he, hcolumn, htype history⟩
  · obtain ⟨type, htype⟩ := h hname
    rw [converter.typeAfter_eq_of_typeOf hname htype]
    exact .inr ⟨hname, htype⟩

/-- **What a conversion gives, by position.** -/
theorem describes_of_convert {converter : Converter} {database : Database}
    {documents : List Document} (h : converter.convert database = .ok documents) :
    converter.Describes database documents := by
  rw [convert_eq, firstFaultOr_eq_ok_iff, faults_eq_nil_iff] at h
  obtain ⟨haccepts, rfl⟩ := h
  have hdocument : ∀ (k : Nat) schema, (converter.described database)[k]? = some schema →
      ((converter.described database).map Document.ofSchema)[k]? =
        some (Document.ofSchema schema) := by
    intro k schema hk
    rw [List.getElem?_map, hk, Option.map_some]
  refine ⟨by simp, ?_, ?_⟩
  · intro i e he
    refine hdocument _ (e.name, converter.definition e) ?_
    rw [described_getElem?_enum, definitions, List.getElem?_map, he, Option.map_some]
  · intro j table htable
    have hschema := described_getElem?_table converter htable
    refine ⟨converter.fieldsAfter database.enums (converter.historyBefore database.tables j)
      table.columns, hdocument _ _ hschema, length_fieldsAfter .., ?_⟩
    intro i column hcolumn
    -- a column of no enum has a type, since nothing is wrong with the database
    have hmapped := haccepts.mapped table (List.mem_of_getElem? htable) column
      (List.mem_of_getElem? hcolumn)
    exact ⟨_, fieldsAfter_getElem? _ _ _ hcolumn, hasType_typeAfter hmapped _⟩

/-! ## An example -/

/-- A game of cards: both tables have columns of the same enum. -/
def cards : Database :=
  .ofTables
    [{ name := "Hand", note := some "what is held", columns := [
        { name := "lead", columnType := "Suit" },
        { name := "trump", columnType := "Suit", settings := { notNull := true } }] },
      { name := "Player", otherName := some "Person", columns := [
        { name := "score", columnType := "points", note := some "so far" },
        { name := "favourite", columnType := "Suit" }] }]
    [.ofNames "Suit" ["SPADES", "HEARTS"]]

/-- Settings with a namespace, and a type table that knows points. -/
def cardsConverter : Converter where
  config := { Draft.build {} with space := "com.example" }
  mapping := { Draft.build {} with table := TypeTable.ofList [("int", ["points"])] }

/-- A game of cards is converted, and described by its documents. -/
theorem describes_cards :
    ∃ documents, cardsConverter.convert cards = .ok documents ∧
      documents.map Document.name = ["Hand", "Player", "Suit"] ∧
      cardsConverter.Describes cards documents :=
  ⟨_, rfl, rfl, describes_of_convert rfl⟩

end Converter

end RelationalAvro
