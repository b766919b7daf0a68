import RelationalAvro.Proofs.Avro.Nesting
import RelationalAvro.Proofs.Conversion.ClosedForm
import RelationalAvro.Proofs.Conversion.WellFormed

/-!
# Definitions inside documents

The document of an enum shows the enum's definition by itself, and so does the line of the first
column that refers to the enum, inside the document of a table. The two texts are the same up to the
indentation of that line: `Converter.nestedText_eq_indented`.
-/

namespace RelationalAvro

open Avro (AvroType RecordField block entry optionalEntry indented inline lineList textList)
open Json (quoted)
open Model (Column Database Table)

/-- The line of a column in the document of its table, around the text of the type of the column,
null aside. -/
def Model.Column.line (column : Column) (typeText : List Char) : List Char :=
  inline '{' '}' <| [entry "name" (quoted column.name)]
    ++ optionalEntry "doc" column.note quoted
    ++ [entry "type" (if column.isNotNull then typeText
      else inline '[' ']' [typeText, quoted "null"])]

/-- The document of a table with the given lines for its columns. -/
def Model.Table.document (table : Table) (space : Option String) (lines : List (List Char)) :
    Document where
  name := table.name
  text := String.ofList <| block '{' '}' 0 <|
    [entry "type" (quoted "record"), entry "name" (quoted table.name)]
      ++ optionalEntry "namespace" space quoted
      ++ optionalEntry "doc" table.note quoted
      ++ optionalEntry "aliases" (table.otherName.map fun a => [a]) textList
      ++ [entry "fields" (lineList 2 lines)]

/-- The text of a field is the line of its column around the text of its type. -/
theorem fieldText_fieldOf (n : Nat) (column : Column) (type : AvroType) :
    AvroType.fieldText n (column.fieldOf type) = column.line (AvroType.layout n type) := by
  unfold Model.Column.fieldOf Model.Column.line
  rw [AvroType.fieldText]
  cases column.isNotNull with
  | true => rfl
  | false => rfl

/-- The document of a record is that of its table with the texts of the fields for lines. -/
theorem ofSchema_record (table : Table) (space : Option String)
    (fields : List (RecordField AvroType)) :
    Document.ofSchema (table.name, .record "record" table.name space table.note
        (table.otherName.map fun a => [a]) fields) =
      table.document space (AvroType.fieldTexts 4 fields) := by
  rw [Document.ofSchema, AvroType.text, AvroType.layout, Model.Table.document]

/-- The texts of fields, one by one. -/
theorem fieldTexts_eq_map (n : Nat) (fields : List (RecordField AvroType)) :
    AvroType.fieldTexts n fields = fields.map (AvroType.fieldText n) := by
  induction fields with
  | nil => rfl
  | cons field fields ih => rw [AvroType.fieldTexts, List.map_cons, ih]

namespace Converter

variable {converter : Converter} {database : Database}

/-- Of all columns in scope, the one at place `i` of the table at place `j` is the first that refers
to the enum at place `m`. -/
structure RefersFirst (converter : Converter) (database : Database) (j i m : Nat) (table : Table)
    (column : Column) (e : Model.Enum) : Prop where
  table_eq : database.tables[j]? = some table
  column_eq : table.columns[i]? = some column
  enum_eq : database.enums[m]? = some e
  name_eq : e.name = column.columnType
  isFirst : e.name ∉ converter.historyBefore database.tables j ++
    (table.columns.take i).map Column.columnType

/-- The document of the table at place `j` has the document of the enum at place `m` at its column
`i`, indented as the lines of columns are. -/
def ShowsIndented (converter : Converter) (database : Database) (documents : List Document)
    (j i m : Nat) (table : Table) (column : Column) (e : Model.Enum) : Prop :=
  ∃ (text : String) (lines : List (List Char)),
    documents[database.tables.length + m]? = some ⟨e.name, text⟩ ∧
    documents[j]? = some (table.document converter.config.shownSpace lines) ∧
    lines.length = table.columns.length ∧
    lines[i]? = some (column.line (indented 4 text.toList))

/-- The line of the first column in scope that refers to an enum holds the definition. -/
theorem exists_lines_recordAfter (hdistinct : (database.enums.map Model.Enum.name).Nodup)
    {j i m : Nat} {table : Table} {column : Column} {e : Model.Enum}
    (h : converter.RefersFirst database j i m table column e) :
    ∃ lines : List (List Char),
      .ofSchema (table.name, converter.recordAfter database.enums
          (converter.historyBefore database.tables j) table) =
        table.document converter.config.shownSpace lines ∧
      lines.length = table.columns.length ∧
      lines[i]? = some (column.line (AvroType.layout 4 (converter.definition e))) := by
  have hmem : e ∈ database.enums := List.mem_of_getElem? h.enum_eq
  have htype := converter.typeAfter_eq_definition
    ((newEnum?_eq_some_iff hdistinct).2 ⟨hmem, h.name_eq, h.isFirst⟩)
  refine ⟨_, ofSchema_record table _ _, ?_, ?_⟩
  · rw [fieldTexts_eq_map, List.length_map, length_fieldsAfter]
  · rw [fieldTexts_eq_map, List.getElem?_map, fieldsAfter_getElem? _ _ _ h.column_eq, htype,
      Option.map_some, fieldText_fieldOf]

/-- **A nested text is the indented text.** A type at a greater indentation has the text that it has
at a smaller one, indented further. So the definition that stands at the first column of an enum in
the document of a table is the enum's own document, indented as the lines of columns are. -/
theorem nestedText_eq_indented :
    (∀ (type : AvroType) (n k : Nat),
      AvroType.layout (n + k) type = indented k (AvroType.layout n type)) ∧
    ∀ (converter : Converter) (database : Database) (documents : List Document),
      converter.convert database = .ok documents →
      ∀ j i m table column e, converter.RefersFirst database j i m table column e →
        converter.ShowsIndented database documents j i m table column e := by
  refine ⟨AvroType.layout_add, ?_⟩
  intro converter database documents h j i m table column e hfirst
  obtain ⟨haccepts, rfl⟩ := convert_eq_ok_iff.1 h
  obtain ⟨lines, hdocument, hlength, hline⟩ := exists_lines_recordAfter haccepts.distinct hfirst
  refine ⟨(converter.definition e).text, lines, ?_, ?_, hlength, ?_⟩
  · rw [List.getElem?_map, described_getElem?_enum, definitions, List.getElem?_map,
      hfirst.enum_eq]
    rfl
  · rw [List.getElem?_map, described_getElem?_table _ hfirst.table_eq, Option.map_some, hdocument]
  · -- columns stand on lines indented by four spaces, and a document begins without any
    rw [hline, AvroType.text, String.toList_ofList, ← AvroType.layout_add]

/-- The first column of a hand of cards shows the enum as its document does. -/
theorem nestedText_eq_indented_cards :
    ∃ documents table column e, cardsConverter.convert cards = .ok documents ∧
      cardsConverter.RefersFirst cards 0 0 0 table column e ∧
      cardsConverter.ShowsIndented cards documents 0 0 0 table column e := by
  have hfirst : cardsConverter.RefersFirst cards 0 0 0 _ _ _ := ⟨rfl, rfl, rfl, rfl, by decide⟩
  exact ⟨_, _, _, _, rfl, hfirst, nestedText_eq_indented.2 _ _ _ rfl _ _ _ _ _ _ hfirst⟩

end Converter

end RelationalAvro
