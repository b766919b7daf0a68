import RelationalAvro.Config.Draft
import RelationalAvro.Mapping.ColumnType
import RelationalAvro.Proofs.Avro.Reading
import RelationalAvro.Proofs.Mapping.Selecting
import RelationalAvro.Proofs.Text.SmallLetters

/-!
# Types of the default type table

A type table gives no category that is not in it. All categories of the default table are primitive
types or logical types, so each of its types stands for itself in a schema:
`Config.isPlain_of_typeOf`.
-/

namespace RelationalAvro

open Avro (AvroType primitiveNames)

/-! ## Categories of the default table -/

/-- The categories of the default type table. -/
def defaultCategories : List String :=
  ["null", "boolean", "int", "long", "float", "double", "bytes", "string", "decimal", "uuid",
    "date", "time-micros", "timestamp-micros", "local-timestamp-micros", "duration"]

/-! ## Plain types -/

/-- A logical type annotates a primitive type or a fixed one. -/
theorem logicalBase?_plain {category base : String} (h : logicalBase? category = some base) :
    base ∈ primitiveNames ∨ base = "fixed" := by
  have hall : ∀ row ∈ logicalBases, row.2 ∈ primitiveNames ∨ row.2 = "fixed" := by decide
  obtain ⟨before, after, hrows, -⟩ := List.lookup_eq_some_iff.1 h
  exact hall (category, base) (by simp [hrows])

namespace Config

variable {config : Config} {columnType : String} {type : AvroType}

/-- A category is a name by itself, or the logical type of that name. -/
theorem typeIn_cases {category : String} (h : config.typeIn category columnType = .ok type) :
    (logicalBase? category = none ∧ type = .named category) ∨
    ∃ base precision scale size, logicalBase? category = some base ∧
      type = .logical base category precision scale size := by
  unfold typeIn at h
  cases hbase : logicalBase? category with
  | none => exact .inl ⟨rfl, by simpa [hbase, eq_comm] using h⟩
  | some base =>
    simp only [hbase] at h
    split at h
    · cases harguments : decimalArguments config.defaultScale columnType with
      | error fault => simp [harguments, Except.map] at h
      | ok arguments =>
        rw [harguments] at h
        exact .inr ⟨base, _, _, _, rfl, (Except.ok.inj h).symm⟩
    · exact .inr ⟨base, _, _, _, rfl, (Except.ok.inj h).symm⟩

/-- A type that a type table gives is that of a category. -/
theorem exists_typeIn_of_typeOf (h : config.typeOf columnType = .ok type) :
    ∃ category, config.category? columnType = some category ∧
      config.typeIn category columnType = .ok type := by
  unfold typeOf at h
  cases hcategory : config.category? columnType with
  | none => simp [hcategory] at h
  | some category =>
    rw [hcategory] at h
    exact ⟨category, rfl, h⟩

/-- A category that is a primitive type or has a logical type gives a plain type. -/
theorem isPlain_of_typeIn {category : String}
    (hcategory : category ∈ primitiveNames ∨ (logicalBase? category).isSome)
    (h : config.typeIn category columnType = .ok type) : type.IsPlain := by
  obtain ⟨hbase, rfl⟩ | ⟨base, precision, scale, size, hbase, rfl⟩ := typeIn_cases h
  · have hprimitive : category ∈ primitiveNames := by simpa [hbase] using hcategory
    exact hprimitive
  · exact logicalBase?_plain hbase

/-- The categories of the default type table are primitive types and logical types. -/
theorem plain_of_mem_categories {category : String}
    (h : category ∈ (Draft.build {}).table.rows.map Prod.fst) :
    category ∈ primitiveNames ∨ (logicalBase? category).isSome := by
  have hsmall : ∀ written ∈ defaultCategories, written.toList.all Text.isSmallAscii = true := by
    decide
  have hplain : ∀ written ∈ defaultCategories,
      written ∈ primitiveNames ∨ (logicalBase? written).isSome := by
    decide
  obtain ⟨written, hmem, rfl⟩ := List.mem_map.1 (TypeTable.mem_categories_map.1 h)
  have hwritten : written ∈ defaultCategories := TypeTable.mem_categories_ofList.1 hmem
  rw [Text.lowercase_eq_self (hsmall written hwritten)]
  exact hplain written hwritten

/-- Every type of the default type table is plain. -/
theorem isPlain_of_typeOf (htable : config.table = (Draft.build {}).table)
    (h : config.typeOf columnType = .ok type) : type.IsPlain := by
  obtain ⟨category, hselect, htype⟩ := exists_typeIn_of_typeOf h
  exact isPlain_of_typeIn (plain_of_mem_categories (htable ▸ TypeTable.selectBy_mem hselect)) htype

end Config

end RelationalAvro
