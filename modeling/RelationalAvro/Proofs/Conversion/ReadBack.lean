import Mathlib.Data.List.Nodup
import RelationalAvro.Proofs.Conversion.ClosedForm
import RelationalAvro.Proofs.Mapping.DefaultTypes

/-!
# Reading converted schemas

Whoever reads the schemas of tables in order should find in each column the type that the column
means: the enum whose name its raw type is, or what the type table makes of it. With the default
type table the reading never fails, but not every column comes back as it was meant. A reference to
an enum by its bare name is read as something else in two cases:

* the name of the enum is that of a primitive type, for which the reader takes it;
* a table of the same name has come after the definition of the enum, and hides it.

There are no others. `Converter.convert_readsAs` states this for each column.
-/

namespace RelationalAvro

open Avro (AvroType Known Reading RecordField primitiveNames)
open Model (Column Database Table)

/-- The reading of one schema of many. Where enums are defined in each record, no schema relies on
another, and nothing is known at its start. -/
def Inlining.readSchema (inlining : Inlining) (schema : AvroType) : Reading AvroType := do
  if inlining = .perRecord then set ([] : Known)
  schema.read none

/-- One of the tables has the name `name`, and a table before it refers to that name. -/
def IsHidden (tables : List Table) (name : String) : Prop :=
  ∃ (j : Nat) (table : Table), tables[j]? = some table ∧ table.name = name ∧
    name ∈ (tables.take j).flatMap Table.rawTypes

theorem not_isHidden_nil {name : String} : ¬IsHidden [] name := by
  rintro ⟨j, table, hj, -⟩
  simp at hj

/-- One more table hides its own name, if a column of a table before it has that for its type. -/
theorem isHidden_append_singleton {tables : List Table} {table : Table} {name : String} :
    IsHidden (tables ++ [table]) name ↔
      IsHidden tables name ∨ table.name = name ∧ name ∈ tables.flatMap Table.rawTypes := by
  constructor
  · rintro ⟨j, other, hj, hname, hmem⟩
    -- the table that hides the name is one of the old ones or the new one
    rcases Nat.lt_or_ge j tables.length with hlt | hge
    · rw [List.getElem?_append_left hlt] at hj
      rw [List.take_append_of_le_length (Nat.le_of_lt hlt)] at hmem
      exact .inl ⟨j, other, hj, hname, hmem⟩
    · have hlast : j = tables.length := by
        have hlt := (List.getElem?_eq_some_iff.1 hj).1
        rw [List.length_append, List.length_singleton] at hlt
        omega
      subst hlast
      obtain rfl : table = other := by simpa using hj
      exact .inr ⟨hname, by simpa using hmem⟩
  · rintro (⟨j, other, hj, hname, hmem⟩ | ⟨hname, hmem⟩)
    · have hlt := (List.getElem?_eq_some_iff.1 hj).1
      refine ⟨j, other, ?_, hname, ?_⟩
      · rw [List.getElem?_append_left hlt, hj]
      · rwa [List.take_append_of_le_length (Nat.le_of_lt hlt)]
    · exact ⟨tables.length, table, by simp, hname, by simpa using hmem⟩

/-- The column type names an enum that is referred to by its bare name, because it is in the
history, and a reader takes that name for a primitive type or a table. -/
def IsMisread (enums : List Model.Enum) (tables : List Table) (history : List String)
    (columnType : String) : Prop :=
  columnType ∈ enums.map Model.Enum.name ∧ columnType ∈ history ∧
    (columnType ∈ primitiveNames ∨ IsHidden tables columnType)

namespace Converter

/-- A type read for a column after columns of the raw types `history` is the one that the column
means, exactly unless the column is misread. -/
def IsMeant (converter : Converter) (enums : List Model.Enum) (tables : List Table)
    (history : List String) (columnType : String) (type : AvroType) : Prop :=
  converter.HasType enums [] columnType type ↔ ¬IsMisread enums tables history columnType

/-- A raw type that is no enum's name has a plain type. -/
def MapsPlainly (converter : Converter) (enums : List Model.Enum) (columnType : String) : Prop :=
  columnType ∉ enums.map Model.Enum.name →
    ∃ type, converter.mapping.typeOf columnType = .ok type ∧ type.IsPlain

variable {converter : Converter} {enums : List Model.Enum} {tables : List Table}
  {history : List String} {known : Known}

/-! ## What is known -/

/-- What is known after columns of the raw types `history`, when records of `tables` have been
started: each enum referred to is known under its name, unless it is hidden. -/
structure Tracks (converter : Converter) (enums : List Model.Enum) (tables : List Table)
    (history : List String) (known : Known) : Prop where
  mem_of_isHidden : ∀ name, IsHidden tables name → name ∈ history
  lookup_eq : ∀ e ∈ enums, e.name ∈ history → ∃ type,
    known.lookup (converter.config.shownSpace, e.name) = some type ∧
      (type = converter.definition e ↔ ¬IsHidden tables e.name)

/-- At the beginning nothing has been referred to. -/
theorem tracks_nil (known : Known) : converter.Tracks enums [] [] known :=
  ⟨fun _ h => absurd h not_isHidden_nil, fun _ _ h => absurd h List.not_mem_nil⟩

/-- The start of a record hides the enum of its name. -/
theorem Tracks.start (h : converter.Tracks enums tables (tables.flatMap Table.rawTypes) known)
    (table : Table) (fields : List (RecordField AvroType)) :
    converter.Tracks enums (tables ++ [table]) (tables.flatMap Table.rawTypes)
      (((converter.config.shownSpace, table.name), .record "record" table.name
        converter.config.shownSpace table.note (table.otherName.map fun a => [a]) fields) ::
          known) := by
  constructor
  · intro name hhidden
    rcases isHidden_append_singleton.1 hhidden with hhidden | ⟨-, hmem⟩
    · exact h.mem_of_isHidden name hhidden
    · exact hmem
  · intro e he hmem
    by_cases hname : table.name = e.name
    · -- the record, not the enum, is the latest definition of the name now
      refine ⟨_, by rw [Avro.lookup_known_cons, hname, if_pos rfl], ?_⟩
      have hhidden := isHidden_append_singleton.2 (.inr ⟨hname, hmem⟩)
      simp [definition, hhidden]
    · obtain ⟨type, hlookup, htype⟩ := h.lookup_eq e he hmem
      refine ⟨type, ?_, ?_⟩
      · rw [Avro.lookup_known_cons, if_neg fun heq => hname (congrArg Prod.snd heq).symm, hlookup]
      · rw [htype, isHidden_append_singleton, or_iff_left fun hnew => hname hnew.1]

/-- A column that is of no enum, or of one already known, leaves all enums as they are. -/
theorem Tracks.skip (h : converter.Tracks enums tables history known) {columnType : String}
    (hname : columnType ∈ enums.map Model.Enum.name → columnType ∈ history) :
    converter.Tracks enums tables (history ++ [columnType]) known := by
  refine ⟨fun name hhidden => List.mem_append_left _ (h.mem_of_isHidden name hhidden), ?_⟩
  intro e he hmem
  refine h.lookup_eq e he ?_
  rcases List.mem_append.1 hmem with hmem | hmem
  · exact hmem
  · obtain rfl := List.mem_singleton.1 hmem
    exact hname (List.mem_map_of_mem he)

/-- The first column of an enum makes it known. -/
theorem Tracks.define (h : converter.Tracks enums tables history known)
    (hdistinct : (enums.map Model.Enum.name).Nodup) {e : Model.Enum} (he : e ∈ enums)
    (hnew : e.name ∉ history) :
    converter.Tracks enums tables (history ++ [e.name])
      (((converter.config.shownSpace, e.name), converter.definition e) :: known) := by
  refine ⟨fun name hhidden => List.mem_append_left _ (h.mem_of_isHidden name hhidden), ?_⟩
  intro other hother hmem
  by_cases hname : other.name = e.name
  · obtain rfl := List.inj_on_of_nodup_map hdistinct hother he hname
    refine ⟨_, by rw [Avro.lookup_known_cons, if_pos rfl], ?_⟩
    simp only [true_iff]
    exact fun hhidden => hnew (h.mem_of_isHidden _ hhidden)
  · have hold : other.name ∈ history := by simpa [hname] using hmem
    obtain ⟨type, hlookup, htype⟩ := h.lookup_eq other hother hold
    refine ⟨type, ?_, htype⟩
    rw [Avro.lookup_known_cons, if_neg fun heq => hname (congrArg Prod.snd heq), hlookup]

/-! ## Reading columns -/

/-- The type that a column means is the one it has where nothing comes before it. -/
theorem hasType_nil_iff (hdistinct : (enums.map Model.Enum.name).Nodup) {e : Model.Enum}
    (he : e ∈ enums) {type : AvroType} :
    converter.HasType enums [] e.name type ↔ type = converter.definition e := by
  constructor
  · rintro (⟨other, hother, hname, rfl⟩ | ⟨hname, -⟩)
    · rw [if_neg List.not_mem_nil, List.inj_on_of_nodup_map hdistinct hother he hname]
    · exact absurd (List.mem_map_of_mem he) hname
  · rintro rfl
    exact .inl ⟨e, he, rfl, by rw [if_neg List.not_mem_nil]⟩

/-- The bare name of an enum that is known is read: as a primitive type if it names one, and as the
latest definition of the name if not. -/
theorem read_bareName (h : converter.Tracks enums tables history known)
    (hdistinct : (enums.map Model.Enum.name).Nodup) {e : Model.Enum} (he : e ∈ enums)
    (hmem : e.name ∈ history) :
    ∃ type, ((AvroType.named e.name).read converter.config.shownSpace).run known =
        some (type, known) ∧ converter.IsMeant enums tables history e.name type := by
  have hname : e.name ∈ enums.map Model.Enum.name := List.mem_map_of_mem he
  unfold IsMeant
  by_cases hprimitive : e.name ∈ primitiveNames
  · have hplain : (AvroType.named e.name).IsPlain := hprimitive
    refine ⟨.named e.name, hplain.read _ _, ?_⟩
    rw [hasType_nil_iff hdistinct he]
    simp [definition, IsMisread, hname, hmem, hprimitive]
  · obtain ⟨type, hlookup, hmeant⟩ := h.lookup_eq e he hmem
    refine ⟨type, ?_, ?_⟩
    · rw [AvroType.read, AvroType.readName_of_not_primitive hprimitive hlookup]
    · rw [hasType_nil_iff hdistinct he, hmeant]
      simp [IsMisread, hname, hmem, hprimitive]

/-- The definition of an enum is read as it is. -/
theorem read_definition (hdistinct : (enums.map Model.Enum.name).Nodup) {e : Model.Enum}
    (he : e ∈ enums) (hnew : e.name ∉ history) :
    ((converter.definition e).read converter.config.shownSpace).run known =
        some (converter.definition e,
          ((converter.config.shownSpace, e.name), converter.definition e) :: known) ∧
      converter.IsMeant enums tables history e.name (converter.definition e) := by
  constructor
  · unfold definition
    rw [AvroType.read_enum, Option.or_self]
  · rw [IsMeant, hasType_nil_iff hdistinct he]
    exact iff_of_true rfl fun hmisread => hnew hmisread.2.1

/-- A column is read, and as it was meant unless it is misread. -/
theorem read_typeAfter (h : converter.Tracks enums tables history known)
    (hdistinct : (enums.map Model.Enum.name).Nodup) {columnType : String}
    (hplain : converter.MapsPlainly enums columnType) :
    ∃ type next,
      ((converter.typeAfter enums history columnType).read converter.config.shownSpace).run known =
        some (type, next) ∧
      converter.Tracks enums tables (history ++ [columnType]) next ∧
      converter.IsMeant enums tables history columnType type := by
  by_cases hname : columnType ∈ enums.map Model.Enum.name
  · obtain ⟨e, he, rfl, htype⟩ := converter.exists_typeAfter_eq hname
    rw [htype]
    by_cases hmem : e.name ∈ history
    · -- a later reference is the bare name, and only this can be misread
      rw [if_pos hmem]
      obtain ⟨type, hread, hmeant⟩ := read_bareName h hdistinct he hmem
      exact ⟨type, known, hread, h.skip fun _ => hmem, hmeant⟩
    · -- the first reference carries the definition
      rw [if_neg hmem]
      obtain ⟨hread, hmeant⟩ := read_definition hdistinct he hmem
      exact ⟨_, _, hread, h.define hdistinct he hmem, hmeant⟩
  · -- a type of the table defines nothing
    obtain ⟨type, htype, htypePlain⟩ := hplain hname
    rw [converter.typeAfter_eq_of_typeOf hname htype]
    refine ⟨type, known, htypePlain.read _ _, h.skip fun hmem => absurd hmem hname, ?_⟩
    exact iff_of_true (.inr ⟨hname, htype⟩) fun hmisread => hname hmisread.1

/-- The field of a column is read if its type is, null or not. -/
theorem readField_fieldOf {space : Option String} {type result : AvroType} {next : Known}
    (h : (type.read space).run known = some (result, next)) (column : Column) :
    (AvroType.readField space (column.fieldOf type)).run known =
      some (column.fieldOf result, next) := by
  unfold Column.fieldOf
  rw [AvroType.readField]
  split
  · rw [StateT.run_bind, h]
    rfl
  · rw [StateT.run_bind, AvroType.read_union_null h]
    rfl

/-! ## Reading tables -/

/-- The record is one of the table, with a field for each column in order, whose type is right for
its place and column. -/
def IsRecordOf (converter : Converter) (table : Table) (right : Nat → Column → AvroType → Prop)
    (record : AvroType) : Prop :=
  ∃ fields : List (RecordField AvroType),
    record = .record "record" table.name converter.config.shownSpace table.note
      (table.otherName.map fun a => [a]) fields ∧
    fields.length = table.columns.length ∧
    ∀ i column, table.columns[i]? = some column →
      ∃ type, fields[i]? = some (column.fieldOf type) ∧ right i column type

/-- What is right for the columns may be said more weakly. -/
theorem IsRecordOf.mono {table : Table} {right other : Nat → Column → AvroType → Prop}
    {record : AvroType} (h : converter.IsRecordOf table right record)
    (himp : ∀ i column type, right i column type → other i column type) :
    converter.IsRecordOf table other record := by
  obtain ⟨fields, hrecord, hlength, hfields⟩ := h
  refine ⟨fields, hrecord, hlength, fun i column hcolumn => ?_⟩
  obtain ⟨type, hfield, hright⟩ := hfields i column hcolumn
  exact ⟨type, hfield, himp i column type hright⟩

/-- A record tells the types of its columns. -/
theorem IsRecordOf.and {table : Table} {right other : Nat → Column → AvroType → Prop}
    {record : AvroType} (h : converter.IsRecordOf table right record)
    (h' : converter.IsRecordOf table other record) {i : Nat} {column : Column}
    (hcolumn : table.columns[i]? = some column) :
    ∃ type, right i column type ∧ other i column type := by
  obtain ⟨fields, rfl, -, hfields⟩ := h
  obtain ⟨fields', hrecord, -, hfields'⟩ := h'
  obtain rfl : fields = fields' := by simpa using hrecord
  obtain ⟨type, hfield, hright⟩ := hfields i column hcolumn
  obtain ⟨type', hfield', hother⟩ := hfields' i column hcolumn
  rw [hfield, Option.some_inj] at hfield'
  obtain rfl := column.fieldOf_injective hfield'
  exact ⟨type, hright, hother⟩

/-- The record of a table is read, and makes known what its columns refer to. -/
theorem read_recordAfter (h : converter.Tracks enums tables (tables.flatMap Table.rawTypes) known)
    (hdistinct : (enums.map Model.Enum.name).Nodup) {table : Table}
    (hplain : ∀ column ∈ table.columns, converter.MapsPlainly enums column.columnType) :
    ∃ type next,
      ((converter.recordAfter enums (tables.flatMap Table.rawTypes) table).read none).run known =
        some (type, next) ∧
      converter.Tracks enums (tables ++ [table]) ((tables ++ [table]).flatMap Table.rawTypes) next ∧
      converter.IsRecordOf table (fun i column => converter.IsMeant enums (tables ++ [table])
        (tables.flatMap Table.rawTypes ++ (table.columns.take i).map Column.columnType)
        column.columnType) type := by
  -- the columns are read one by one, from what is known once the record is begun
  have hstart := h.start table
    (converter.fieldsAfter enums (tables.flatMap Table.rawTypes) table.columns)
  obtain ⟨fields, next, hfields, hnext, hlength, hright⟩ := Reading.run_mapM_mapIdx
    (fun before known => converter.Tracks enums (tables ++ [table])
      (tables.flatMap Table.rawTypes ++ before.map Column.columnType) known)
    (fun before column field => ∃ type, field = column.fieldOf type ∧
      converter.IsMeant enums (tables ++ [table])
        (tables.flatMap Table.rawTypes ++ before.map Column.columnType) column.columnType type)
    (f := AvroType.readField converter.config.shownSpace)
    (g := fun before column => column.fieldOf <| converter.typeAfter enums
      (tables.flatMap Table.rawTypes ++ before.map Column.columnType) column.columnType)
    (fun before known column hcolumn htracks => by
      obtain ⟨type, next, hread, hnext, hmeant⟩ :=
        read_typeAfter htracks hdistinct (hplain column hcolumn)
      refine ⟨_, next, readField_fieldOf hread column, ?_, type, rfl, hmeant⟩
      rwa [List.map_append, ← List.append_assoc])
    (by simpa using hstart)
  refine ⟨_, next, AvroType.read_record ?_, ?_, fields, rfl, hlength, ?_⟩
  · rw [Option.or_none]
    exact hfields
  · rwa [List.flatMap_append, List.flatMap_singleton]
  · intro i column hcolumn
    obtain ⟨field, hfield, type, rfl, hmeant⟩ := hright i column hcolumn
    exact ⟨type, hfield, hmeant⟩

/-! ## Reading a conversion -/

/-- The schemas of tables are read as records of the tables, with types that are right. -/
def ReadsAs (converter : Converter) (database : Database) (schemas : List (String × AvroType))
    (right : Nat → Table → Nat → Column → AvroType → Prop) : Prop :=
  ∃ records known,
    (((schemas.take database.tables.length).map Prod.snd).mapM
      converter.config.inlining.readSchema).run [] = some (records, known) ∧
    records.length = database.tables.length ∧
    ∀ j table, database.tables[j]? = some table →
      ∃ record, records[j]? = some record ∧ converter.IsRecordOf table (right j table) record

/-- The schemas of tables are read as records in which every column has the type that it means. -/
def ReadsBack (converter : Converter) (database : Database) (schemas : List (String × AvroType)) :
    Prop :=
  converter.ReadsAs database schemas fun _ _ _ column =>
    converter.HasType database.enums [] column.columnType

/-- The column at place `i` of the table at place `j` is misread. -/
def IsMisreadAt (converter : Converter) (database : Database) (j : Nat) (table : Table) (i : Nat)
    (column : Column) : Prop :=
  IsMisread database.enums (converter.inScope (database.tables.take (j + 1)))
    (converter.historyBefore database.tables j ++ (table.columns.take i).map Column.columnType)
    column.columnType

/-- A table is in scope for its own columns where any other is, and alone it hides nothing. -/
theorem isHidden_inScope_succ {j : Nat} {table : Table} (h : tables[j]? = some table)
    {name : String} :
    IsHidden (converter.inScope (tables.take (j + 1))) name ↔
      IsHidden (converter.inScope (tables.take j) ++ [table]) name := by
  unfold inScope
  cases converter.config.inlining with
  | perRun =>
    rw [List.take_add_one, h, Option.toList_some]
  | perRecord =>
    -- nothing comes before the table, so it has nothing to hide
    rw [isHidden_append_singleton]
    simp

/-- Being misread at a place, in terms of the tables and columns in scope before it. -/
theorem isMisreadAt_iff {database : Database} {j i : Nat} {table : Table} {column : Column}
    (h : database.tables[j]? = some table) :
    converter.IsMisreadAt database j table i column ↔
      IsMisread database.enums (converter.inScope (database.tables.take j) ++ [table])
        (converter.historyBefore database.tables j ++
          (table.columns.take i).map Column.columnType)
        column.columnType := by
  unfold IsMisreadAt IsMisread
  rw [isHidden_inScope_succ h]

/-- A schema of many is read after the schemas of the tables `before`, or as if it were the first.
-/
theorem readSchema_recordAfter {before : List Table}
    (h : converter.config.inlining = .perRun →
      converter.Tracks enums before (before.flatMap Table.rawTypes) known)
    (hdistinct : (enums.map Model.Enum.name).Nodup) {table : Table}
    (hplain : ∀ column ∈ table.columns, converter.MapsPlainly enums column.columnType) :
    ∃ record next,
      (converter.config.inlining.readSchema (converter.recordAfter enums
        ((converter.inScope before).flatMap Table.rawTypes) table)).run known =
          some (record, next) ∧
      (converter.config.inlining = .perRun →
        converter.Tracks enums (before ++ [table])
          ((before ++ [table]).flatMap Table.rawTypes) next) ∧
      converter.IsRecordOf table (fun i column =>
        converter.IsMeant enums (converter.inScope before ++ [table])
          ((converter.inScope before).flatMap Table.rawTypes ++
            (table.columns.take i).map Column.columnType)
          column.columnType) record := by
  unfold Inlining.readSchema inScope
  cases hinlining : converter.config.inlining with
  -- in a run a table goes on with what is known, and on its own it begins with nothing
  | perRun =>
    obtain ⟨record, next, hread, hnext, hrecord⟩ := read_recordAfter (h hinlining) hdistinct hplain
    exact ⟨record, next, hread, fun _ => hnext, hrecord⟩
  | perRecord =>
    obtain ⟨record, next, hread, -, hrecord⟩ :=
      read_recordAfter (converter.tracks_nil []) hdistinct hplain
    exact ⟨record, next, hread, fun hperRun => absurd hperRun (by decide), hrecord⟩

/-- The schemas of tables come first. -/
theorem map_snd_take_described (database : Database) :
    ((converter.described database).take database.tables.length).map Prod.snd =
      database.tables.mapIdx fun j table =>
        converter.recordAfter database.enums (converter.historyBefore database.tables j) table := by
  rw [described, List.take_left' List.length_mapIdx]
  exact List.ext_getElem? fun j => by simp [Function.comp_def]

/-- The described schemas can be read, and each column is read as it was meant unless it is misread.
-/
theorem readsAs_described {database : Database}
    (hdistinct : (database.enums.map Model.Enum.name).Nodup)
    (hplain : ∀ table ∈ database.tables, ∀ column ∈ table.columns,
      converter.MapsPlainly database.enums column.columnType) :
    converter.ReadsAs database (converter.described database) fun j table i column type =>
      converter.HasType database.enums [] column.columnType type ↔
        ¬converter.IsMisreadAt database j table i column := by
  unfold ReadsAs
  rw [map_snd_take_described]
  -- what is known is carried over tables only if enums are defined once in the run
  obtain ⟨records, next, hread, -, hlength, hgood⟩ := Reading.run_mapM_mapIdx
    (fun before known => converter.config.inlining = .perRun →
      converter.Tracks database.enums before (before.flatMap Table.rawTypes) known)
    (fun before table record => converter.IsRecordOf table (fun i column =>
      converter.IsMeant database.enums (converter.inScope before ++ [table])
        ((converter.inScope before).flatMap Table.rawTypes ++
          (table.columns.take i).map Column.columnType)
        column.columnType) record)
    (f := converter.config.inlining.readSchema)
    (g := fun before table => converter.recordAfter database.enums
      ((converter.inScope before).flatMap Table.rawTypes) table)
    (fun before known table htable htracks =>
      readSchema_recordAfter htracks hdistinct (hplain table htable))
    (fun _ => converter.tracks_nil [])
  refine ⟨records, next, hread, hlength, fun j table htable => ?_⟩
  obtain ⟨record, hrecord, hmeant⟩ := hgood j table htable
  refine ⟨record, hrecord, hmeant.mono fun i column type h => ?_⟩
  exact h.trans (not_congr (isMisreadAt_iff htable).symm)

/-- All columns come back as they were meant if and only if none is misread. -/
theorem ReadsAs.readsBack_iff {database : Database} {schemas : List (String × AvroType)}
    (h : converter.ReadsAs database schemas fun j table i column type =>
      converter.HasType database.enums [] column.columnType type ↔
        ¬converter.IsMisreadAt database j table i column) :
    converter.ReadsBack database schemas ↔
      ∀ j table i column, database.tables[j]? = some table → table.columns[i]? = some column →
        ¬converter.IsMisreadAt database j table i column := by
  constructor
  · rintro ⟨records, known, hread, -, hback⟩ j table i column htable hcolumn
    -- both readings are the same one, so they speak of the same types
    obtain ⟨records', known', hread', -, hright⟩ := h
    obtain ⟨rfl, -⟩ := Prod.mk.inj (Option.some.inj (hread.symm.trans hread'))
    obtain ⟨record, hrecord, hmeant⟩ := hback j table htable
    obtain ⟨record', hrecord', hiff⟩ := hright j table htable
    obtain rfl : record = record' := by simpa [hrecord] using hrecord'
    obtain ⟨type, htype, hmisread⟩ := hmeant.and hiff hcolumn
    exact hmisread.1 htype
  · intro hnone
    obtain ⟨records, known, hread, hlength, hright⟩ := h
    refine ⟨records, known, hread, hlength, fun j table htable => ?_⟩
    obtain ⟨record, hrecord, fields, rfl, hfieldsLength, hfields⟩ := hright j table htable
    refine ⟨_, hrecord, fields, rfl, hfieldsLength, fun i column hcolumn => ?_⟩
    obtain ⟨type, hfield, hiff⟩ := hfields i column hcolumn
    exact ⟨type, hfield, hiff.2 (hnone j table i column htable hcolumn)⟩

/-- Where nothing is wrong with a database, the default type table has a plain type for each column
that is of no enum. -/
theorem Accepts.mapsPlainly {database : Database} (h : converter.Accepts database)
    (htable : converter.mapping.table = (Draft.build {}).table) :
    ∀ table ∈ database.tables, ∀ column ∈ table.columns,
      converter.MapsPlainly database.enums column.columnType := by
  intro table hmem column hcolumn hname
  obtain ⟨type, htype⟩ := h.mapped table hmem column hcolumn hname
  exact ⟨type, htype, Config.isPlain_of_typeOf htable htype⟩

/-- **Reading the schemas of a conversion.** With the default type table they can be read, and each
column is read as it was meant unless it is misread. -/
theorem convert_readsAs {converter : Converter} {database : Database} {documents : List Document}
    (htable : converter.mapping.table = (Draft.build {}).table)
    (h : converter.convert database = .ok documents) :
    ∃ schemas, converter.schemas database = .ok schemas ∧
      documents = schemas.map Document.ofSchema ∧
      (converter.ReadsAs database schemas fun j table i column type =>
        converter.HasType database.enums [] column.columnType type ↔
          ¬converter.IsMisreadAt database j table i column) ∧
      (converter.ReadsBack database schemas ↔
        ∀ j table i column, database.tables[j]? = some table → table.columns[i]? = some column →
          ¬converter.IsMisreadAt database j table i column) := by
  rw [convert_eq, firstFaultOr_eq_ok_iff] at h
  obtain ⟨hfaults, rfl⟩ := h
  have haccepts := faults_eq_nil_iff.1 hfaults
  have hreads := readsAs_described haccepts.distinct (haccepts.mapsPlainly htable)
  refine ⟨converter.described database, ?_, rfl, hreads, hreads.readsBack_iff⟩
  rw [schemas_eq, hfaults, firstFaultOr_nil]

/-! ## A misread column -/

/-- The converter that no setting has been changed of. -/
def standard : Converter where
  config := Draft.build {}

/-- A table with two columns of an enum that has the name of a primitive type. -/
def clash : Database :=
  .ofTables
    [{ name := "A", columns := [{ name := "x", columnType := "int" },
      { name := "y", columnType := "int" }] }]
    [.ofNames "int" ["U"]]

/-- How a database with an enum named like a primitive type is read. -/
theorem convert_readsAs_clash :
    ∃ documents schemas, standard.convert clash = .ok documents ∧
      standard.schemas clash = .ok schemas ∧ documents = schemas.map Document.ofSchema ∧
      standard.ReadsAs clash schemas fun j table i column type =>
        standard.HasType clash.enums [] column.columnType type ↔
          ¬standard.IsMisreadAt clash j table i column := by
  have htable : standard.mapping.table = (Draft.build {}).table := rfl
  have h : standard.convert clash = .ok ((standard.described clash).map Document.ofSchema) := rfl
  obtain ⟨schemas, hschemas, hdocuments, hreads, -⟩ := convert_readsAs htable h
  exact ⟨_, schemas, h, hschemas, hdocuments, hreads⟩

/-- The second column of the table is read as a primitive type: no reference to that enum can be. -/
theorem not_readsBack_clash :
    ∃ schemas, standard.schemas clash = .ok schemas ∧ ¬standard.ReadsBack clash schemas := by
  have haccepts : standard.Accepts clash := faults_eq_nil_iff.1 rfl
  have hreads := readsAs_described haccepts.distinct (haccepts.mapsPlainly rfl)
  refine ⟨standard.described clash, rfl, fun hback => ?_⟩
  refine hreads.readsBack_iff.1 hback 0 _ 1 _ rfl rfl ⟨?_, ?_, .inl ?_⟩ <;> decide

end Converter

end RelationalAvro
