import RelationalAvro.Proofs.Avro.Texts
import RelationalAvro.Proofs.Conversion.WellFormed
import RelationalAvro.Proofs.Export.Effect

/-!
# Which texts stand in schemas as they are

Every name that a schema defines has been checked, and so has the namespace that it shows. Neither
holds a character that is escaped, so they stand between quotes as they are, and what is between
quotes is never anything else. Notes, other names of tables and the categories of a type table are
not checked; these are the only texts in which a character can need an escape. The main statement is
`Converter.standsVerbatim_of_convert`.
-/

namespace RelationalAvro

open Avro (AvroType RecordField RoleText TextRole optionalTexts)
open Json (HoldsOutside IsVerbatim escaped escaped_eq_self isVerbatim_of_forall literals)
open Model (Column Database Table)

/-! ## Names and namespaces -/

/-- The text is a list of names, at least one, joined by dots. -/
def IsDotted (text : String) : Prop :=
  ∃ names : List (List Char), names ≠ [] ∧ (∀ name ∈ names, isNameChars name = true) ∧
    text.toList = Text.joined '.' names

/-- A namespace that is not blank is a list of names joined by dots. -/
theorem isDotted_of_isNamespace {text : String} (h : isNamespace text = true)
    (hblank : Text.isAllBlank text ≠ true) : IsDotted text := by
  rw [isNamespace, isNamespaceChars, Bool.or_eq_true, List.all_eq_true] at h
  refine ⟨_, Text.segments_ne_nil '.' text.toList, h.resolve_left fun hempty => hblank ?_,
    (Text.joined_segments '.' text.toList).symm⟩
  rw [Text.isAllBlank, List.isEmpty_iff.1 hempty]
  rfl

/-- The characters of names need no escape. -/
theorem escaped_of_isNameChar {c : Char} (h : isNameChar c = true) : escaped c = [c] := by
  have hcontrol : 0x20 ≤ c.toNat := by
    by_contra hlow
    have hnone : ∀ n : Fin 0x20, isNameChar (Char.ofNat n) = false := by decide
    have hc := hnone ⟨c.toNat, not_le.1 hlow⟩
    rw [Char.ofNat_toNat, h] at hc
    cases hc
  refine escaped_eq_self ?_ ?_ hcontrol <;> rintro rfl <;> exact absurd h (by decide)

/-- A name stands between quotes as it is. -/
theorem isVerbatim_of_isName {text : String} (h : isName text = true) : IsVerbatim text :=
  isVerbatim_of_forall fun _ hc => escaped_of_isNameChar (isNameChar_of_mem h hc)

/-- Dots need no escapes either. -/
theorem isVerbatim_of_isDotted {text : String} (h : IsDotted text) : IsVerbatim text := by
  obtain ⟨names, -, hnames, htext⟩ := h
  have hjoined : ∀ names : List (List Char), (∀ name ∈ names, isNameChars name = true) →
      ∀ c ∈ Text.joined '.' names, escaped c = [c] := by
    intro names hnames
    induction names with
    | nil => simp [Text.joined]
    | cons name names ih =>
      rw [List.forall_mem_cons] at hnames
      have hname : ∀ c ∈ name, escaped c = [c] := fun c hc =>
        escaped_of_isNameChar (isNameChar_of_mem hnames.1 hc)
      cases names with
      | nil => exact hname
      | cons next names =>
        rw [Text.joined, List.forall_mem_append, List.forall_mem_cons]
        exact ⟨hname, rfl, ih hnames.2⟩
  exact isVerbatim_of_forall (htext ▸ hjoined names hnames)

/-! ## What stands verbatim -/

namespace Avro.AvroType

/-- Does the type define a name? -/
def IsDefinition : AvroType → Prop
  | .record .. | .enum .. => True
  | _ => False

/-- The namespace that a definition shows. -/
def space? : AvroType → Option String
  | .record _ _ space .. => space
  | .enum _ _ space _ => space
  | _ => none

end Avro.AvroType

namespace Converter

/-- The text is the category of a column of the database that is of no enum. -/
def IsCategory (converter : Converter) (database : Database) (text : String) : Prop :=
  ∃ table ∈ database.tables, ∃ column ∈ table.columns,
    column.columnType ∉ database.enums.map Model.Enum.name ∧
      converter.mapping.category? column.columnType = some text

/-- What is checked stands in a document as it is, and what has escapes is not checked. -/
structure StandsVerbatim (converter : Converter) (database : Database) (document : Document)
    (type : AvroType) : Prop where
  /-- The names of records, enums and fields, and symbols, are names. -/
  identifier_named : ∀ role s, (role, s) ∈ type.texts → role.IsIdentifier → isName s = true
  /-- A namespace is a list of names joined by dots. -/
  space_dotted : ∀ s, (TextRole.space, s) ∈ type.texts → s = converter.config.space ∧ IsDotted s
  /-- Every definition shows the namespace, unless it is blank. -/
  space_shown : ∀ part ∈ type.parts, part.IsDefinition →
    (part.space?.isSome ↔ Text.isAllBlank converter.config.space ≠ true)
  /-- All of them stand in the document between two quotes, as literals of their own. -/
  verbatim : ∀ role s, (role, s) ∈ type.texts → role.IsIdentifier ∨ role = .space →
    HoldsOutside document.text.toList ('"' :: (s.toList ++ ['"']))
  /-- The document goes by a name, and its file is named without separators. -/
  result_named : isName document.name = true ∧
    '/' ∉ document.fileName.toList ∧ '\\' ∉ document.fileName.toList
  /-- The literals of the document are the texts of the schema, and nothing else. -/
  literals_eq : ∃ tokens, Json.Token.scan? document.text.toList = some tokens ∧
    literals tokens = type.texts.map fun entry => some entry.2
  /-- Nothing but notes, other names and categories can need escapes. -/
  escaped_only : ∀ role s, (role, s) ∈ type.texts → ¬IsVerbatim s →
    role = .doc ∨ role = .otherName ∨
      ((role = .reference ∨ role = .logicalName) ∧ converter.IsCategory database s)

/-! ## Texts by what they are -/

/-- What the texts of converted schemas are. -/
def Admits (converter : Converter) (database : Database) : RoleText → Prop
  | (.key, s) | (.kind, s) | (.typeName, s) | (.fieldName, s) | (.symbol, s) | (.base, s) =>
    isName s = true
  | (.space, s) => s = converter.config.space ∧ IsDotted s
  | (.doc, _) | (.otherName, _) => True
  | (.reference, s) | (.logicalName, s) => isName s = true ∨ converter.IsCategory database s

variable {converter : Converter} {database : Database} {history : List String}

/-- All keys, kinds and bare names that schemas are made with are names. -/
private theorem isName_keys : isName "type" = true ∧ isName "name" = true ∧
    isName "namespace" = true ∧ isName "doc" = true ∧ isName "aliases" = true ∧
    isName "fields" = true ∧ isName "symbols" = true ∧ isName "logicalType" = true ∧
    isName "precision" = true ∧ isName "scale" = true ∧ isName "size" = true ∧
    isName "record" = true ∧ isName "enum" = true ∧ isName "null" = true := by
  decide

/-- The namespace that is shown is one. -/
theorem admits_space (hspace : Text.isAllBlank converter.config.space = true ∨
    isNamespace converter.config.space = true) :
    ∀ entry ∈ optionalTexts "namespace" converter.config.shownSpace (fun s => [(.space, s)]),
      converter.Admits database entry := by
  rw [Avro.forall_mem_optionalTexts]
  intro s hs
  unfold Config.shownSpace at hs
  split at hs
  · cases hs
  · obtain rfl : converter.config.space = s := Option.some.inj hs
    have hdotted : IsDotted converter.config.space :=
      isDotted_of_isNamespace (hspace.resolve_left ‹_›) ‹_›
    simp [Admits, isName_keys, hdotted]

/-- Notes are admitted, whatever they say. -/
theorem admits_doc (note : Option String) :
    ∀ entry ∈ optionalTexts "doc" note (fun s => [(.doc, s)]), converter.Admits database entry := by
  rw [Avro.forall_mem_optionalTexts]
  simp [Admits, isName_keys]

/-- The texts of an enum's definition are admitted. -/
theorem admits_definition (haccepts : converter.Accepts database) {e : Model.Enum}
    (he : e ∈ database.enums) :
    ∀ entry ∈ (converter.definition e).texts, converter.Admits database entry := by
  obtain ⟨hname, hvalues⟩ := haccepts.enum_names e he
  have hspace := haccepts.space (.inl (List.ne_nil_of_mem he))
  simp only [definition, AvroType.texts, List.forall_mem_append]
  refine ⟨⟨?_, admits_space hspace⟩, ?_⟩
  · simp [Admits, isName_keys, hname]
  · simpa [Admits, isName_keys] using hvalues

/-- The type that a type table gives has the category in it, and else only names. -/
theorem admits_typeOf {table : Table} {column : Column} {type : AvroType}
    (htable : table ∈ database.tables) (hcolumn : column ∈ table.columns)
    (hname : column.columnType ∉ database.enums.map Model.Enum.name)
    (htype : converter.mapping.typeOf column.columnType = .ok type) :
    ∀ entry ∈ type.texts, converter.Admits database entry := by
  obtain ⟨category, hcategory, hin⟩ := Config.exists_typeIn_of_typeOf htype
  have hof : converter.IsCategory database category :=
    ⟨table, htable, column, hcolumn, hname, hcategory⟩
  obtain ⟨-, rfl⟩ | ⟨base, precision, scale, size, hbase, rfl⟩ := Config.typeIn_cases hin
  · simp [AvroType.texts, Admits, hof]
  · have hbases : ∀ row ∈ logicalBases, isName row.2 = true := by decide
    obtain ⟨before, after, hrows, -⟩ := List.lookup_eq_some_iff.1 hbase
    have hbase : isName base = true := hbases (category, base) (by simp [hrows])
    simp only [AvroType.texts, List.forall_mem_append, Avro.forall_mem_optionalTexts]
    simp [Admits, isName_keys, hbase, hof]

/-- The texts of a column's type are admitted, wherever the column stands. -/
theorem admits_typeAfter (haccepts : converter.Accepts database) {table : Table} {column : Column}
    (htable : table ∈ database.tables) (hcolumn : column ∈ table.columns) :
    ∀ entry ∈ (converter.typeAfter database.enums history column.columnType).texts,
      converter.Admits database entry := by
  by_cases hname : column.columnType ∈ database.enums.map Model.Enum.name
  · obtain ⟨e, he, heq, htype⟩ := converter.exists_typeAfter_eq hname
    rw [htype]
    split
    · have hnamed : isName column.columnType = true := heq ▸ (haccepts.enum_names e he).1
      simp [AvroType.texts, Admits, hnamed]
    · exact admits_definition haccepts he
  · obtain ⟨type, htype⟩ := haccepts.mapped table htable column hcolumn hname
    rw [converter.typeAfter_eq_of_typeOf hname htype]
    exact admits_typeOf htable hcolumn hname htype

/-- A field adds the name and the note of its column, and null. -/
theorem admits_fieldOf {column : Column} {type : AvroType} (hname : isName column.name = true)
    (htype : ∀ entry ∈ type.texts, converter.Admits database entry) :
    ∀ entry ∈ AvroType.textsOfField (column.fieldOf type), converter.Admits database entry := by
  have hnull : ∀ entry ∈ (AvroType.union [type, .named "null"]).texts,
      converter.Admits database entry := by
    rw [AvroType.texts_union_null, List.forall_mem_append]
    exact ⟨htype, by simp [Admits, isName_keys]⟩
  simp only [Model.Column.fieldOf, AvroType.textsOfField, List.forall_mem_append,
    List.forall_mem_cons]
  refine ⟨⟨?_, admits_doc _⟩, isName_keys.1, ?_⟩
  · simp [Admits, isName_keys, hname]
  · split
    · exact htype
    · exact hnull

/-- The texts of a table's schema are admitted. -/
theorem admits_recordAfter (haccepts : converter.Accepts database) {table : Table}
    (htable : table ∈ database.tables) :
    ∀ entry ∈ (converter.recordAfter database.enums history table).texts,
      converter.Admits database entry := by
  obtain ⟨hname, hcolumns⟩ := haccepts.table_names table htable
  have hspace := haccepts.space (.inr (List.ne_nil_of_mem htable))
  simp only [recordAfter, AvroType.texts, List.forall_mem_append,
    List.forall_mem_cons, AvroType.forall_mem_textsOfFields]
  refine ⟨⟨⟨⟨?_, admits_space hspace⟩, admits_doc _⟩, ?_⟩, by simp [Admits, isName_keys], ?_⟩
  · simp [Admits, isName_keys, hname]
  · rw [Avro.forall_mem_optionalTexts]
    simp [Admits, isName_keys]
  · intro field hfield
    rw [fieldsAfter, List.mem_mapIdx] at hfield
    obtain ⟨i, hlt, rfl⟩ := hfield
    have hcolumn : table.columns[i] ∈ table.columns := List.getElem_mem hlt
    exact admits_fieldOf (hcolumns _ hcolumn) (admits_typeAfter haccepts htable hcolumn)

/-- All texts of the described schemas are admitted. -/
theorem admits_described (haccepts : converter.Accepts database) :
    ∀ schema ∈ converter.described database, ∀ entry ∈ schema.2.texts,
      converter.Admits database entry := by
  intro schema hschema
  rw [described, List.mem_append, List.mem_mapIdx] at hschema
  rcases hschema with ⟨j, hlt, rfl⟩ | hschema
  · exact admits_recordAfter haccepts (List.getElem_mem hlt)
  · obtain ⟨e, he, rfl⟩ := List.mem_map.1 hschema
    exact admits_definition haccepts he

/-! ## Namespaces of definitions -/

/-- A definition shows the namespace of the converter. -/
def ShowsSpace (converter : Converter) (type : AvroType) : Prop :=
  type.IsDefinition → type.space? = converter.config.shownSpace

/-- Null defines nothing. -/
theorem showsSpace_parts_fieldOf {column : Column} {type : AvroType}
    (h : ∀ part ∈ type.parts, converter.ShowsSpace part) :
    ∀ part ∈ (column.fieldOf type).type.parts, converter.ShowsSpace part := by
  unfold Model.Column.fieldOf
  split
  · exact h
  · rw [AvroType.parts_union_null, List.forall_mem_cons, List.forall_mem_append]
    exact ⟨False.elim, h, by simp [ShowsSpace, AvroType.IsDefinition]⟩

/-- A bare type defines nothing. -/
theorem showsSpace_of_isBare {type : AvroType} (h : type.IsBare) :
    ∀ part ∈ type.parts, converter.ShowsSpace part := by
  cases type with
  | named | logical => simp [AvroType.parts, ShowsSpace, AvroType.IsDefinition]
  | record | enum | union => exact h.elim

/-- An enum shows the namespace. -/
theorem showsSpace_definition (e : Model.Enum) :
    ∀ part ∈ (converter.definition e).parts, converter.ShowsSpace part := by
  simp [definition, AvroType.parts, ShowsSpace, AvroType.space?]

/-- The types of columns show the namespace where they define enums. -/
theorem showsSpace_typeAfter (enums : List Model.Enum) (columnType : String) :
    ∀ part ∈ (converter.typeAfter enums history columnType).parts, converter.ShowsSpace part := by
  cases hnew : newEnum? enums history columnType with
  | none => exact showsSpace_of_isBare (isBare_typeAfter hnew)
  | some e =>
    rw [typeAfter_eq_definition hnew]
    exact showsSpace_definition e

/-- All definitions in the described schemas show the namespace. -/
theorem showsSpace_described :
    ∀ schema ∈ converter.described database, ∀ part ∈ schema.2.parts,
      converter.ShowsSpace part := by
  intro schema hschema
  rw [described, List.mem_append, List.mem_mapIdx] at hschema
  rcases hschema with ⟨j, hlt, rfl⟩ | hschema
  · dsimp only
    rw [recordAfter, AvroType.parts_record, List.forall_mem_cons]
    refine ⟨fun _ => rfl, fun part hpart => ?_⟩
    obtain ⟨field, hfield, hpart⟩ := List.mem_flatMap.1 hpart
    rw [fieldsAfter, List.mem_mapIdx] at hfield
    obtain ⟨i, hi, rfl⟩ := hfield
    exact showsSpace_parts_fieldOf (showsSpace_typeAfter _ _) part hpart
  · obtain ⟨e, -, rfl⟩ := List.mem_map.1 hschema
    exact showsSpace_definition e

/-- A namespace is shown unless it is blank. -/
theorem isSome_shownSpace_iff {config : Config} :
    config.shownSpace.isSome ↔ Text.isAllBlank config.space ≠ true := by
  unfold Config.shownSpace
  split <;> simp_all

/-! ## Documents -/

/-- A text of a schema stands in the document as a literal of its own. -/
theorem holdsOutside_quoted {type : AvroType} {role : TextRole} {s : String}
    (h : (role, s) ∈ type.texts) : HoldsOutside type.text.toList (Json.quoted s) := by
  have hliteral : some s ∈ literals type.toValue.tokens := by
    rw [AvroType.literals_tokens]
    exact List.mem_map_of_mem h
  rw [AvroType.text, String.toList_ofList]
  exact Json.holdsOutside_of_spells (AvroType.spells_layout type 0) (Json.mem_literals.1 hliteral)

/-- A document whose texts are admitted stands verbatim. -/
theorem standsVerbatim_of_admits {schema : String × AvroType} (hname : isName schema.1 = true)
    (htexts : ∀ entry ∈ schema.2.texts, converter.Admits database entry)
    (hparts : ∀ part ∈ schema.2.parts, converter.ShowsSpace part) :
    converter.StandsVerbatim database (.ofSchema schema) schema.2 := by
  have hidentifier : ∀ role s, (role, s) ∈ schema.2.texts → role.IsIdentifier →
      isName s = true := by
    intro role s hmem hrole
    have hadmits := htexts _ hmem
    cases role with
    | typeName | fieldName | symbol => exact hadmits
    | _ => exact hrole.elim
  have hverbatim : ∀ role s, (role, s) ∈ schema.2.texts → role.IsIdentifier ∨ role = .space →
      IsVerbatim s := by
    rintro role s hmem (hrole | rfl)
    · exact isVerbatim_of_isName (hidentifier role s hmem hrole)
    · exact isVerbatim_of_isDotted (htexts _ hmem).2
  refine ⟨hidentifier, fun s hs => htexts _ hs, ?_, ?_, ?_, ?_, ?_⟩
  · intro part hpart hdefinition
    rw [hparts part hpart hdefinition, isSome_shownSpace_iff]
  · intro role s hmem hrole
    exact hverbatim role s hmem hrole ▸ holdsOutside_quoted hmem
  · have hbackslash : '\\' ∉ schema.1.toList := fun hmem =>
      absurd (isNameChar_of_mem hname hmem) (by decide)
    have hfile : (Document.ofSchema schema).fileName = schema.1 ++ ".avsc" := rfl
    refine ⟨hname, (Document.isFileName_fileName hname).no_slash, ?_⟩
    simp [hfile, hbackslash]
  · exact ⟨_, AvroType.scan?_text _, AvroType.literals_tokens _⟩
  · intro role s hmem hescape
    -- a text with escapes is no name, so its role is one whose texts are not checked
    have hunnamed : isName s ≠ true := fun hnamed => hescape (isVerbatim_of_isName hnamed)
    have hadmits := htexts _ hmem
    cases role with
    | doc => exact .inl rfl
    | otherName => exact .inr (.inl rfl)
    | reference => exact .inr (.inr ⟨.inl rfl, hadmits.resolve_left hunnamed⟩)
    | logicalName => exact .inr (.inr ⟨.inr rfl, hadmits.resolve_left hunnamed⟩)
    | space => exact absurd (isVerbatim_of_isDotted hadmits.2) hescape
    | key | kind | typeName | fieldName | symbol | base => exact absurd hadmits hunnamed

/-- **Names stand in schemas as they are**, and nothing but unchecked texts can need escapes. -/
theorem standsVerbatim_of_convert {converter : Converter} {database : Database}
    {documents : List Document} (h : converter.convert database = .ok documents) :
    ∃ schemas, converter.schemas database = .ok schemas ∧
      documents = schemas.map Document.ofSchema ∧
      ∀ schema ∈ schemas, converter.StandsVerbatim database (.ofSchema schema) schema.2 := by
  have hnamed := isName_of_convert h
  obtain ⟨haccepts, rfl⟩ := convert_eq_ok_iff.1 h
  refine ⟨converter.described database, ?_, rfl, fun schema hschema => ?_⟩
  · rw [schemas_eq, faults_eq_nil_iff.2 haccepts, firstFaultOr_nil]
  · exact standsVerbatim_of_admits (hnamed _ (List.mem_map_of_mem hschema))
      (admits_described haccepts schema hschema) (showsSpace_described schema hschema)

/-- A table whose note and other name try to leave their literals. -/
def intruder : Database :=
  .ofTables
    [{ name := "Guest", otherName := some "\", \"fields\": [", note := some "\\\"\n", columns := [
      { name := "mood", columnType := "Mood", note := some "\"\x7d" }] }]
    [.ofNames "Mood" ["CALM"]]

/-- The names around such texts stand as they are. -/
theorem standsVerbatim_intruder :
    ∃ documents schemas, cardsConverter.convert intruder = .ok documents ∧
      cardsConverter.schemas intruder = .ok schemas ∧ documents = schemas.map Document.ofSchema ∧
      ∀ schema ∈ schemas,
        cardsConverter.StandsVerbatim intruder (.ofSchema schema) schema.2 := by
  have h : cardsConverter.convert intruder =
      .ok ((cardsConverter.described intruder).map Document.ofSchema) := rfl
  obtain ⟨schemas, hschemas, hdocuments, hverbatim⟩ := standsVerbatim_of_convert h
  exact ⟨_, schemas, h, hschemas, hdocuments, hverbatim⟩

end Converter

end RelationalAvro
