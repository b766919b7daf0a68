import RelationalAvro.Config.Draft
import RelationalAvro.Mapping.ColumnType
import RelationalAvro.Proofs.Config.Rows
import RelationalAvro.Proofs.Mapping.DecimalGroups
import RelationalAvro.Proofs.Mapping.Selecting
import RelationalAvro.Proofs.Text.FinalSigma

/-!
# Column types that begin with a stem

A column type is unmapped exactly if no stem of the table begins its lower case
(`Config.typeOf_eq_unmappedType_iff`).

Stems are lower-cased apart from the column types that begin with them, so a column type that begins
with a stem as it was written need not begin with it in lower case. It does, unless the stem loses a
final sigma, and then another stem may still take it: `Draft.typeOf_stem_append`.
-/

namespace RelationalAvro

open Avro (AvroType)

namespace Config

variable {config : Config} {columnType text : String}

/-- The arguments of a column type may be at fault, but its category is known. -/
theorem typeIn_ne_unmappedType {category : String} :
    config.typeIn category columnType ≠ .error (.unmappedType text) := by
  by_cases hdecimal : category = "decimal"
  · subst hdecimal
    by_cases hgroup : DecimalGroup.IsIn columnType.toList
    · obtain ⟨group, hfirst, -⟩ := DecimalGroup.exists_unique_isFirstIn hgroup
      rw [typeIn_decimal, decimalArguments_of_isFirstIn hfirst]
      cases hread : group.read config.defaultScale with
      | ok arguments => simp [Except.map]
      | error fault => cases DecimalGroup.read_eq_error_iff.1 hread <;> simp [Except.map]
    · rw [typeIn_decimal, decimalArguments_of_not_isIn hgroup]
      simp [Except.map]
  · obtain ⟨type, htype⟩ := config.exists_typeIn_eq_ok hdecimal
    simp [htype]

/-- A column type is unmapped exactly if its lower case begins with no stem. -/
theorem typeOf_eq_unmappedType_iff :
    config.typeOf columnType = .error (.unmappedType text) ↔ text = columnType ∧
      ∀ category stem, config.table.Owns category stem →
        ¬stem.toList <+: Text.lowercaseChars columnType.toList := by
  rw [← TypeTable.selectBy_eq_none_iff String.utf8ByteSize, ← category?, typeOf]
  cases config.category? columnType with
  | none => simp [eq_comm]
  | some category => simp [typeIn_ne_unmappedType]

end Config

namespace Draft

/-- The same for a table as it was written. -/
theorem typeOf_build_eq_unmappedType_iff {draft : Draft} {columnType text : String} :
    draft.build.typeOf columnType = .error (.unmappedType text) ↔ text = columnType ∧
      ∀ category stem, draft.table.Owns category stem →
        ¬(Text.lowercase stem).toList <+: (Text.lowercase columnType).toList := by
  have htable : draft.build.table = draft.table.map Text.lowercase := rfl
  rw [Config.typeOf_eq_unmappedType_iff, htable, ← Text.toList_lowercase]
  simp only [TypeTable.owns_map]
  refine and_congr_right fun _ => ⟨?_, ?_⟩
  · exact fun hnone category stem h => hnone _ _ ⟨category, stem, h, rfl, rfl⟩
  · rintro hnone _ _ ⟨category, stem, h, rfl, rfl⟩
    exact hnone category stem h

/-- **A column type that begins with a stem is unmapped** exactly if the stem loses its final sigma
and the column type begins with no other stem in lower case. -/
theorem typeOf_stem_append {draft : Draft} {category stem : String}
    (h : draft.table.Owns category stem) (rest text : String) :
    draft.build.typeOf (stem ++ rest) = .error (.unmappedType text) ↔ text = stem ++ rest ∧
      Text.LosesFinalSigma [] stem.toList rest.toList ∧
      ∀ other s, draft.table.Owns other s →
        ¬(Text.lowercase s).toList <+: (Text.lowercase (stem ++ rest)).toList := by
  rw [typeOf_build_eq_unmappedType_iff]
  -- where no stem begins the column type, this one does not either
  refine and_congr_right fun _ => (and_iff_right_of_imp fun hnone => ?_).symm
  have hstem := hnone category stem h
  rw [Text.toList_lowercase, Text.toList_lowercase, String.toList_append,
    Text.lowercaseChars_prefix_append_iff, not_not] at hstem
  exact hstem

/-- The default table with a stem that ends in a capital sigma. -/
def sigmaDraft : Draft :=
  ({} : Draft).after (.add "int" "ΑΣ")

/-- The draft has the stem of two capitals. -/
theorem owns_sigmaDraft : sigmaDraft.table.Owns "int" "ΑΣ" :=
  TypeTable.owns_add.2 (.inl ⟨rfl, rfl⟩)

/-- Within a word the sigma is not final, so that the stem is lost and no other one takes its
place. -/
theorem not_prefix_sigmaDraft (category stem : String) (h : sigmaDraft.table.Owns category stem) :
    ¬(Text.lowercase stem).toList <+: (Text.lowercase ("ΑΣ" ++ "Α")).toList := by
  have hrows : ∀ row ∈ sigmaDraft.table.rows, ∀ s ∈ row.2.members,
      ¬Text.lowercaseChars s.toList <+: Text.lowercaseChars "ΑΣΑ".toList := by
    decide +kernel
  obtain ⟨row, hrow, -, hstem⟩ := TypeTable.owns_iff_exists_mem.1 h
  rw [Text.toList_lowercase, Text.toList_lowercase]
  exact hrows row hrow stem hstem

/-- A column type that begins with the stem is unmapped nevertheless. -/
theorem typeOf_stem_append_sigma : sigmaDraft.table.Owns "int" "ΑΣ" ∧
    sigmaDraft.build.typeOf "ΑΣΑ" = .error (.unmappedType "ΑΣΑ") := by
  have hloses : Text.LosesFinalSigma [] "ΑΣ".toList "Α".toList :=
    ⟨['Α'], [], rfl, by simp, by decide +kernel, by decide +kernel⟩
  exact ⟨owns_sigmaDraft,
    (typeOf_stem_append owns_sigmaDraft "Α" "ΑΣΑ").2 ⟨rfl, hloses, not_prefix_sigmaDraft⟩⟩

/-- A column type may begin with a stem as it was written and be unmapped. -/
theorem not_mapped_sigmaDraft :
    ¬∀ (draft : Draft) (category stem rest text : String), draft.table.Owns category stem →
      draft.build.typeOf (stem ++ rest) ≠ .error (.unmappedType text) := by
  intro hmapped
  refine hmapped sigmaDraft "int" "ΑΣ" "Α" "ΑΣΑ" owns_sigmaDraft ?_
  exact typeOf_build_eq_unmappedType_iff.2 ⟨rfl, not_prefix_sigmaDraft⟩

end Draft

end RelationalAvro
