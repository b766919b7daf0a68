import Mathlib.Data.List.OfFn
import Mathlib.Logic.Equiv.Defs
import RelationalAvro.Proofs.Conversion.ClosedForm

/-!
# How schemas depend on the order of tables

A conversion reads the tables of all schemas one after the other, and the enums likewise, so how
schemas group them makes no difference. The schema of a table depends on which enums the tables in
scope before it refer to (`Converter.recordAfter_congr`), and on nothing else about them. If each
table is a scope of its own, the order of tables is therefore the order of results and no more. If
the scope is the run, later tables do not reach back, and two neighbours can change places if no
enum is the type of columns of both. The main statement is `Converter.tableOrder_of_convert`.
-/

namespace RelationalAvro

open Avro (AvroType RecordField)
open Model (Column Database Table)

/-- No enum is the type of a column of both tables. -/
def Model.Table.SharesNoEnum (enums : List Model.Enum) (first second : Table) : Prop :=
  ∀ name ∈ enums.map Model.Enum.name, name ∈ first.rawTypes → name ∉ second.rawTypes

instance (enums : List Model.Enum) (first second : Table) :
    Decidable (first.SharesNoEnum enums second) :=
  inferInstanceAs (Decidable (∀ name ∈ enums.map Model.Enum.name, _))

namespace Converter

/-- What a change to the order of tables does to the documents of a database. -/
structure TableOrder (converter : Converter) (database : Database) (documents : List Document) :
    Prop where
  /-- Tables and enums can be put into other schemas. -/
  regrouped : ∀ other : Database, other.tables = database.tables → other.enums = database.enums →
    converter.convert other = .ok documents
  /-- If each table is a scope of its own, the documents of tables are reordered as the tables are.
  -/
  reordered : converter.config.inlining = .perRecord →
    ∀ (order : Equiv.Perm (Fin database.tables.length)) (other : Database),
      other.tables = List.ofFn (fun i => database.tables[order i]) →
      other.enums = database.enums →
      ∃ (records : Fin database.tables.length → Document) (enums : List Document),
        documents = List.ofFn records ++ enums ∧
        converter.convert other = .ok (List.ofFn (fun i => records (order i)) ++ enums)
  /-- Tables that are added at the end leave the documents before them as they are. -/
  appended : ∀ (more : List Table) (other : Database) (larger : List Document),
    other.tables = database.tables ++ more → other.enums = database.enums →
    converter.convert other = .ok larger →
    ∃ records added enums : List Document, documents = records ++ enums ∧
      larger = records ++ added ++ enums ∧
      records.length = database.tables.length ∧ added.length = more.length
  /-- Two neighbours without a common enum change places, and so do their documents. -/
  swapped : ∀ (before : List Table) (first second : Table) (after : List Table) (other : Database),
    database.tables = before ++ first :: second :: after →
    first.SharesNoEnum database.enums second →
    other.tables = before ++ second :: first :: after → other.enums = database.enums →
    ∃ (earlier : List Document) (one two : Document) (later : List Document),
      documents = earlier ++ one :: two :: later ∧ earlier.length = before.length ∧
      converter.convert other = .ok (earlier ++ two :: one :: later)

variable {converter : Converter} {enums : List Model.Enum}

/-! ## Acceptance -/

/-- A database is accepted if it has no other tables than one that is. -/
theorem Accepts.of_subset {database other : Database} (h : converter.Accepts database)
    (htables : ∀ table ∈ other.tables, table ∈ database.tables)
    (henums : other.enums = database.enums) : converter.Accepts other where
  enum_names := henums ▸ h.enum_names
  space hany := by
    refine h.space (hany.imp (henums ▸ id) fun hne => ?_)
    obtain ⟨table, htable⟩ := List.exists_mem_of_ne_nil _ hne
    exact List.ne_nil_of_mem (htables table htable)
  distinct := henums ▸ h.distinct
  table_names table htable := h.table_names table (htables table htable)
  mapped table htable := henums ▸ h.mapped table (htables table htable)

/-! ## Schemas and the tables before them -/

/-- The schema of a table depends on no more than which enums of its columns the history holds. -/
theorem recordAfter_congr {table : Table} {first second : List String}
    (h : ∀ name ∈ enums.map Model.Enum.name, name ∈ table.rawTypes →
      (name ∈ first ↔ name ∈ second)) :
    converter.recordAfter enums first table = converter.recordAfter enums second table := by
  refine congrArg (AvroType.record "record" table.name _ _ _) (List.ext_getElem? fun i => ?_)
  cases hi : table.columns[i]? with
  | none => simp [fieldsAfter, hi]
  | some column =>
    rw [fieldsAfter_getElem? _ _ _ hi, fieldsAfter_getElem? _ _ _ hi]
    have hcolumn : column.columnType ∈ table.rawTypes :=
      List.mem_map_of_mem (List.mem_of_getElem? hi)
    refine congrArg (some <| column.fieldOf ·) (converter.typeAfter_congr fun hname => ?_)
    rw [List.mem_append, List.mem_append, h _ hname hcolumn]

/-- The raw types of the columns in scope after the tables `before`. -/
def historyAfter (converter : Converter) (before : List Table) : List String :=
  (converter.inScope before).flatMap Table.rawTypes

/-- The history after tables holds the raw types of their columns, if they are in scope. -/
theorem mem_historyAfter {before : List Table} {name : String} :
    name ∈ converter.historyAfter before ↔
      converter.config.inlining = .perRun ∧ ∃ table ∈ before, name ∈ table.rawTypes := by
  unfold historyAfter inScope
  cases converter.config.inlining <;> simp

/-- The schemas of tables that come after the tables `before`. -/
def recordsAfter (converter : Converter) (enums : List Model.Enum) (before tables : List Table) :
    List (String × AvroType) :=
  tables.mapIdx fun j table => (table.name,
    converter.recordAfter enums (converter.historyAfter (before ++ tables.take j)) table)

/-- The schemas of all tables come after no table, and the definitions behind them. -/
theorem described_eq (database : Database) :
    converter.described database =
      converter.recordsAfter database.enums [] database.tables ++
        converter.definitions database.enums := rfl

@[simp] theorem length_recordsAfter (before tables : List Table) :
    (converter.recordsAfter enums before tables).length = tables.length :=
  List.length_mapIdx

@[simp] theorem recordsAfter_nil (before : List Table) :
    converter.recordsAfter enums before [] = [] := rfl

/-- The first record adds its table to those before the rest. -/
theorem recordsAfter_cons (before : List Table) (table : Table) (rest : List Table) :
    converter.recordsAfter enums before (table :: rest) =
      (table.name, converter.recordAfter enums (converter.historyAfter before) table) ::
        converter.recordsAfter enums (before ++ [table]) rest := by
  simp [recordsAfter, List.mapIdx_cons]

/-- Records of tables and more tables: the latter come after the former. -/
theorem recordsAfter_append (before tables more : List Table) :
    converter.recordsAfter enums before (tables ++ more) =
      converter.recordsAfter enums before tables ++
        converter.recordsAfter enums (before ++ tables) more := by
  induction tables generalizing before with
  | nil => simp
  | cons table rest ih => simp [recordsAfter_cons, ih]

/-- Which tables come before counts, but not in what order. -/
theorem recordsAfter_congr {before other : List Table}
    (h : ∀ table, table ∈ before ↔ table ∈ other) (tables : List Table) :
    converter.recordsAfter enums before tables = converter.recordsAfter enums other tables := by
  induction tables generalizing before other with
  | nil => rfl
  | cons table rest ih =>
    have hnext : ∀ t, t ∈ before ++ [table] ↔ t ∈ other ++ [table] := fun t => by simp [h]
    rw [recordsAfter_cons, recordsAfter_cons, ih hnext]
    refine congrArg (· :: _) (congrArg _ (recordAfter_congr fun name _ _ => ?_))
    simp only [mem_historyAfter, h]

/-- In a scope of its own, a table does not see the tables before it. -/
theorem recordsAfter_perRecord (h : converter.config.inlining = .perRecord)
    (before tables : List Table) :
    converter.recordsAfter enums before tables =
      tables.map fun table => (table.name, converter.recordAfter enums [] table) := by
  induction tables generalizing before with
  | nil => rfl
  | cons table rest ih => simp [recordsAfter_cons, ih, historyAfter, inScope, h]

/-- A table does not see a table before it with which it shares no enum. -/
theorem recordAfter_neighbour {first second : Table} (h : first.SharesNoEnum enums second)
    (before : List Table) :
    converter.recordAfter enums (converter.historyAfter (before ++ [first])) second =
      converter.recordAfter enums (converter.historyAfter before) second := by
  refine recordAfter_congr fun name hname hsecond => ?_
  have hfirst : name ∉ first.rawTypes := fun hfirst => h name hname hfirst hsecond
  simp [mem_historyAfter, or_and_right, exists_or, hfirst]

/-- Neighbours that share no enum change places, and the tables after them do not notice. -/
theorem recordsAfter_swap (converter : Converter) {first second : Table}
    (h : first.SharesNoEnum enums second) (before after : List Table) :
    ∃ (one two : String × AvroType) (later : List (String × AvroType)),
      converter.recordsAfter enums before (first :: second :: after) = one :: two :: later ∧
      converter.recordsAfter enums before (second :: first :: after) = two :: one :: later := by
  have hback : second.SharesNoEnum enums first := fun name hname hsecond hfirst =>
    h name hname hfirst hsecond
  have hlater : ∀ table, table ∈ before ++ [second] ++ [first] ↔
      table ∈ before ++ [first] ++ [second] := by
    intro table
    simp only [List.mem_append, or_right_comm]
  refine ⟨_, _, _, by rw [recordsAfter_cons, recordsAfter_cons], ?_⟩
  rw [recordsAfter_cons, recordsAfter_cons, recordAfter_neighbour h, recordAfter_neighbour hback,
    recordsAfter_congr hlater]

/-! ## The order of tables -/

/-- **How schemas depend on the order of tables.** -/
theorem tableOrder_of_convert {converter : Converter} {database : Database}
    {documents : List Document} (h : converter.convert database = .ok documents) :
    converter.TableOrder database documents := by
  obtain ⟨haccepts, rfl⟩ := convert_eq_ok_iff.1 h
  rw [described_eq, List.map_append]
  constructor
  · -- the same tables and enums in other schemas
    intro other htables henums
    refine convert_eq_ok_iff.2 ⟨haccepts.of_subset (fun table => htables ▸ id) henums, ?_⟩
    rw [described_eq, htables, henums, List.map_append]
  · -- each table starts afresh, so its record does not know the tables before it
    intro hinlining order other htables henums
    refine ⟨fun i => .ofSchema (database.tables[i].name,
      converter.recordAfter database.enums [] database.tables[i]),
      (converter.definitions database.enums).map .ofSchema, ?_, ?_⟩
    · rw [recordsAfter_perRecord hinlining, List.map_map, ← List.ofFn_getElem_eq_map]
      rfl
    · refine convert_eq_ok_iff.2 ⟨haccepts.of_subset (fun table hmem => ?_) henums, ?_⟩
      · rw [htables, List.mem_ofFn] at hmem
        obtain ⟨i, rfl⟩ := hmem
        exact List.getElem_mem _
      · rw [described_eq, recordsAfter_perRecord hinlining, htables, henums, List.map_append,
          List.map_ofFn, List.map_ofFn]
        rfl
  · -- more tables behind all others come after everything that the others know
    intro more other larger htables henums hlarger
    obtain ⟨-, rfl⟩ := convert_eq_ok_iff.1 hlarger
    refine ⟨_, (converter.recordsAfter database.enums ([] ++ database.tables) more).map .ofSchema,
      _, rfl, ?_, ?_, ?_⟩
    · rw [described_eq, htables, henums, recordsAfter_append, List.map_append, List.map_append]
    · simp
    · simp
  · -- two neighbours without an enum in common change places
    intro before first second after other htables hshares hother henums
    obtain ⟨one, two, later, hone, htwo⟩ :=
      recordsAfter_swap converter hshares ([] ++ before) after
    have hsubset : ∀ table ∈ other.tables, table ∈ database.tables := by
      intro table
      simp only [hother, htables, List.mem_append, List.mem_cons, or_left_comm, imp_self]
    refine ⟨(converter.recordsAfter database.enums [] before).map .ofSchema, .ofSchema one,
      .ofSchema two, (later ++ converter.definitions database.enums).map .ofSchema, ?_, by simp, ?_⟩
    · rw [htables, recordsAfter_append, hone]
      simp
    · refine convert_eq_ok_iff.2 ⟨haccepts.of_subset hsubset henums, ?_⟩
      rw [described_eq, hother, henums, recordsAfter_append, htwo]
      simp

/-! ## An example -/

/-- A table with a column of an enum. -/
def handTable : Table :=
  { name := "Hand", columns := [{ name := "lead", columnType := "Suit" }] }

/-- A table without such columns. -/
def roundTable : Table :=
  { name := "Round", columns := [{ name := "score", columnType := "points" }] }

/-- Another table with a column of the enum. -/
def trickTable : Table :=
  { name := "Trick", columns := [{ name := "trump", columnType := "Suit" }] }

/-- Cards again, in two schemas. -/
def tournament (tables : List Table) : Database where
  schemas := [{ tables, enums := [.ofNames "Suit" ["SPADES", "HEARTS"]] },
    { name := "late", tables := [trickTable] }]

/-- A round has no enum in common with a hand, so the two can change places. -/
theorem tableOrder_tournament :
    ∃ (one two : Document) (later : List Document),
      cardsConverter.convert (tournament [handTable, roundTable]) = .ok (one :: two :: later) ∧
      cardsConverter.convert (tournament [roundTable, handTable]) = .ok (two :: one :: later) ∧
      (one :: two :: later).map Document.name = ["Hand", "Round", "Trick", "Suit"] := by
  have h : cardsConverter.convert (tournament [handTable, roundTable]) =
      .ok ((cardsConverter.described (tournament [handTable, roundTable])).map .ofSchema) := rfl
  obtain ⟨earlier, one, two, later, hdocuments, hlength, hother⟩ :=
    (tableOrder_of_convert h).swapped [] handTable roundTable [trickTable]
      (tournament [roundTable, handTable]) rfl (by decide) rfl rfl
  obtain rfl := List.length_eq_zero_iff.1 hlength
  rw [List.nil_append] at hdocuments hother
  exact ⟨one, two, later, by rw [h, hdocuments], hother, by rw [← hdocuments]; rfl⟩

end Converter

end RelationalAvro
