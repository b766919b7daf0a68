import RelationalAvro.Proofs.Conversion.FaultOrder

/-!
# How often enums are defined

A converter can define an enum once in a run or once in each table. Both ways have the same faults,
so they fail alike. Where they succeed, the schemas differ only in columns whose enum an earlier
table has referred to and the table itself has not: there the run has the bare name and the table of
its own the definition. The main statement is `Converter.convert_perRun_perRecord`.
-/

namespace RelationalAvro

open Avro (AvroType RecordField)
open Model (Column Database Table)

/-- The column type is the name of an enum that a table before the place `j` refers to, but none of
the columns `before`. -/
def Model.Database.IsCarriedOver (database : Database) (j : Nat) (before : List Column)
    (columnType : String) : Prop :=
  columnType ∈ database.enums.map Model.Enum.name ∧
    columnType ∈ (database.tables.take j).flatMap Table.rawTypes ∧
    columnType ∉ before.map Column.columnType

namespace Converter

variable {converter : Converter} {enums : List Model.Enum}

/-- The schemas of the same database with enums defined once in the run and once in each table. -/
structure AgreeUpToInlining (converter : Converter) (database : Database)
    (perRun perRecord : List (String × AvroType)) : Prop where
  names_eq : perRun.map Prod.fst = perRecord.map Prod.fst
  /-- The schemas of enums are the same. -/
  enum_eq : ∀ k, database.tables.length ≤ k → perRun[k]? = perRecord[k]?
  /-- The schema of the first table is the same. -/
  first_eq : perRun[0]? = perRecord[0]?
  /-- The schemas of a table differ at most in the types of columns. -/
  table_eq : ∀ j table, database.tables[j]? = some table →
    ∃ inRun inRecord : List (RecordField AvroType),
      perRun[j]? = some (table.name, .record "record" table.name converter.config.shownSpace
        table.note (table.otherName.map fun a => [a]) inRun) ∧
      perRecord[j]? = some (table.name, .record "record" table.name converter.config.shownSpace
        table.note (table.otherName.map fun a => [a]) inRecord) ∧
      inRun.length = table.columns.length ∧ inRecord.length = table.columns.length ∧
      ∀ i column, table.columns[i]? = some column →
        (database.IsCarriedOver j (table.columns.take i) column.columnType →
          inRun[i]? = some (column.fieldOf (.named column.columnType)) ∧
          ∃ e ∈ database.enums, e.name = column.columnType ∧
            inRecord[i]? = some (column.fieldOf (converter.definition e))) ∧
        (¬database.IsCarriedOver j (table.columns.take i) column.columnType →
          inRun[i]? = inRecord[i]?) ∧
        -- a definition in the run is never a bare name in the table of its own
        (column.columnType ∈ database.enums.map Model.Enum.name →
          inRecord[i]? = some (column.fieldOf (.named column.columnType)) →
          inRun[i]? = some (column.fieldOf (.named column.columnType)))

/-! ## The two ways compared -/

/-- The type of a column whose enum is carried over is the bare name in the run, and the definition
in the table of its own. Any other column has the same type both ways. -/
theorem typeAfter_carriedOver (converter : Converter) (database : Database) (j : Nat)
    (before : List Column) (columnType : String) :
    (database.IsCarriedOver j before columnType →
      converter.typeAfter database.enums ((database.tables.take j).flatMap Table.rawTypes ++
        before.map Column.columnType) columnType = .named columnType ∧
      ∃ e ∈ database.enums, e.name = columnType ∧
        converter.typeAfter database.enums (before.map Column.columnType) columnType =
          converter.definition e) ∧
    (¬database.IsCarriedOver j before columnType →
      converter.typeAfter database.enums ((database.tables.take j).flatMap Table.rawTypes ++
        before.map Column.columnType) columnType =
      converter.typeAfter database.enums (before.map Column.columnType) columnType) := by
  constructor
  · rintro ⟨hname, hearlier, hbefore⟩
    obtain ⟨e, he, rfl, htype⟩ := converter.exists_typeAfter_eq hname
    refine ⟨?_, e, he, rfl, ?_⟩
    · rw [htype, if_pos (List.mem_append_left _ hearlier)]
    · rw [htype, if_neg hbefore]
  · intro hnot
    -- the run and the table have met the enum alike, so only histories are compared
    refine converter.typeAfter_congr fun hname => ?_
    rw [List.mem_append, or_iff_right_iff_imp]
    exact fun hearlier => Decidable.not_not.1 fun hbefore => hnot ⟨hname, hearlier, hbefore⟩

/-- A bare name stays a bare name when the history begins earlier. -/
theorem typeAfter_append_eq_named {history : List String} {columnType : String}
    (hname : columnType ∈ enums.map Model.Enum.name)
    (h : converter.typeAfter enums history columnType = .named columnType) (earlier : List String) :
    converter.typeAfter enums (earlier ++ history) columnType = .named columnType := by
  obtain ⟨e, -, -, htype⟩ := converter.exists_typeAfter_eq hname
  have hmem : columnType ∈ history := by
    refine Decidable.not_not.1 fun hnot => ?_
    rw [htype, if_neg hnot] at h
    exact absurd h (by simp [definition])
  rw [htype, if_pos (List.mem_append_right _ hmem)]

/-- The described schemas agree, whatever is wrong with the database. -/
theorem agreeUpToInlining_described (converter : Converter) (database : Database) :
    converter.AgreeUpToInlining database
      ((converter.withInlining .perRun).described database)
      ((converter.withInlining .perRecord).described database) := by
  have henum : ∀ k, database.tables.length ≤ k →
      ((converter.withInlining .perRun).described database)[k]? =
        ((converter.withInlining .perRecord).described database)[k]? := by
    intro k hk
    obtain ⟨i, rfl⟩ := Nat.exists_eq_add_of_le hk
    rw [described_getElem?_enum, described_getElem?_enum]
    rfl
  refine ⟨?_, henum, ?_, ?_⟩
  · rw [map_fst_described, map_fst_described]
  · -- nothing comes before the first table either way
    cases htable : database.tables[0]? with
    | none => exact henum 0 (List.getElem?_eq_none_iff.1 htable)
    | some table =>
      rw [described_getElem?_table _ htable, described_getElem?_table _ htable]
      rfl
  · intro j table htable
    refine ⟨_, _, described_getElem?_table _ htable, described_getElem?_table _ htable,
      length_fieldsAfter .., length_fieldsAfter .., ?_⟩
    intro i column hcolumn
    rw [fieldsAfter_getElem? _ _ _ hcolumn, fieldsAfter_getElem? _ _ _ hcolumn]
    obtain ⟨hcarried, hother⟩ := typeAfter_carriedOver converter database j
      (table.columns.take i) column.columnType
    refine ⟨?_, ?_, ?_⟩
    · intro h
      obtain ⟨hbare, e, he, hcolumn, hdefinition⟩ := hcarried h
      exact ⟨congrArg (some <| column.fieldOf ·) hbare, e, he, hcolumn,
        congrArg (some <| column.fieldOf ·) hdefinition⟩
    · intro h
      exact congrArg (some <| column.fieldOf ·) (hother h)
    · intro hname h
      have hbare := column.fieldOf_injective (Option.some.inj h)
      exact congrArg (some <| column.fieldOf ·) (typeAfter_append_eq_named hname hbare _)

/-- **The two ways of defining enums agree up to inlining.** They fail alike, or both succeed. -/
theorem convert_perRun_perRecord (converter : Converter) (database : Database) :
    (∃ fault, (converter.withInlining .perRun).convert database = .error fault ∧
      (converter.withInlining .perRecord).convert database = .error fault) ∨
    ∃ perRun perRecord : List (String × AvroType),
      (converter.withInlining .perRun).convert database = .ok (perRun.map Document.ofSchema) ∧
      (converter.withInlining .perRecord).convert database =
        .ok (perRecord.map Document.ofSchema) ∧
      converter.AgreeUpToInlining database perRun perRecord := by
  have hconvert : ∀ inlining, (converter.withInlining inlining).convert database =
      firstFaultOr (converter.faults database)
        (((converter.withInlining inlining).described database).map Document.ofSchema) :=
    fun inlining => by rw [convert_eq, faults_withInlining]
  cases hfaults : converter.faults database with
  | cons fault rest =>
    exact .inl ⟨fault, by rw [hconvert, hfaults]; rfl, by rw [hconvert, hfaults]; rfl⟩
  | nil =>
    exact .inr ⟨_, _, by rw [hconvert, hfaults]; rfl, by rw [hconvert, hfaults]; rfl,
      agreeUpToInlining_described converter database⟩

end Converter

end RelationalAvro
