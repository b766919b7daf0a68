import Mathlib.Data.List.Sort
import RelationalAvro.Config.TypeTable
import RelationalAvro.Repetition

/-!
# What type tables hold

A type table is known by its categories and by the stems that they own: tables that agree in both
are equal (`TypeTable.ext`). A change to one category leaves the others as they are, and a table
whose texts are all changed holds the changed categories and the changed stems, merged where they
become the same (`TypeTable.mem_categories_map`, `TypeTable.owns_map`).
-/

namespace RelationalAvro.TypeTable

variable {table : TypeTable} {category c s : String}

/-! ## Categories -/

/-- Changing a category adds it to the others. -/
theorem mem_categories_modify {x : String} {change : TextSet → TextSet} :
    x ∈ (table.modify category change).rows.map Prod.fst ↔
      x = category ∨ x ∈ table.rows.map Prod.fst :=
  mem_map_fst_placeRow

/-- Changing many categories adds them all. -/
private theorem mem_categories_foldl {α : Type} {category : α → String}
    {change : α → TextSet → TextSet} {x : String} (list : List α) (table : TypeTable) :
    x ∈ (list.foldl (fun table a => table.modify (category a) (change a)) table).rows.map Prod.fst ↔
      x ∈ list.map category ∨ x ∈ table.rows.map Prod.fst := by
  induction list generalizing table with
  | nil => simp
  | cons a rest ih =>
    rw [List.foldl_cons, ih, mem_categories_modify, List.map_cons, List.mem_cons]
    exact or_left_comm.trans or_assoc.symm

/-- The categories of a list are those that it names. -/
theorem mem_categories_ofList {rows : List (String × List String)} {x : String} :
    x ∈ (TypeTable.ofList rows).rows.map Prod.fst ↔ x ∈ rows.map Prod.fst :=
  (mem_categories_foldl rows empty).trans (or_iff_left List.not_mem_nil)

/-- The categories of a changed table are the changed categories. -/
theorem mem_categories_map {change : String → String} {x : String} :
    x ∈ (table.map change).rows.map Prod.fst ↔ x ∈ (table.rows.map Prod.fst).map change := by
  rw [List.map_map]
  exact (mem_categories_foldl table.rows empty).trans (or_iff_left List.not_mem_nil)

/-! ## Stems -/

/-- A table has one row for each category. -/
theorem nodup_categories (table : TypeTable) : (table.rows.map Prod.fst).Nodup := by
  refine List.Pairwise.imp ?_ table.increasing
  rintro a _ hlt rfl
  exact String.lt_irrefl a hlt

/-- The stems of a category are those in its row. -/
theorem stems?_eq_some_iff {stems : TextSet} :
    table.stems? c = some stems ↔ (c, stems) ∈ table.rows :=
  lookup_eq_some_iff_mem table.nodup_categories

/-- A stem is owned if a row has it. -/
theorem owns_iff_exists_mem : table.Owns c s ↔ ∃ row ∈ table.rows, row.1 = c ∧ s ∈ row.2 := by
  simp only [Owns, stems?_eq_some_iff]
  constructor
  · rintro ⟨stems, hrow, hmem⟩
    exact ⟨(c, stems), hrow, rfl, hmem⟩
  · rintro ⟨⟨_, stems⟩, hrow, rfl, hmem⟩
    exact ⟨stems, hrow, hmem⟩

/-- More stems for a category are owned by that category, and nothing else changes. -/
theorem owns_addAll {stems : List String} :
    (table.addAll category stems).Owns c s ↔ (c = category ∧ s ∈ stems) ∨ table.Owns c s := by
  unfold Owns addAll
  rw [stems?_modify]
  by_cases hc : c = category
  · subst hc
    cases hs : table.stems? c with
    | none => simp
    | some old => simp
  · simp [hc]

/-- Exactly these stems for a category take the place of its old ones. -/
theorem owns_set {stems : TextSet} :
    (table.set category stems).Owns c s ↔
      (c = category ∧ s ∈ stems) ∨ (c ≠ category ∧ table.Owns c s) := by
  unfold Owns set
  rw [stems?_modify]
  by_cases hc : c = category <;> simp [hc]

/-- A stem that a category has after replacements comes from a row, or was there before. -/
private theorem exists_mem_of_owns_foldl_set (rows : List (String × List String))
    (table : TypeTable)
    (h : (rows.foldl (fun table row => table.set row.1 (TextSet.ofList row.2)) table).Owns c s) :
    (∃ row ∈ rows, row.1 = c ∧ s ∈ row.2) ∨ table.Owns c s := by
  induction rows generalizing table with
  | nil => exact .inr h
  | cons row rest ih =>
    rcases ih _ h with ⟨other, hother, hc, hs⟩ | h
    · exact .inl ⟨other, List.mem_cons_of_mem row hother, hc, hs⟩
    · rcases owns_set.1 h with ⟨rfl, hs⟩ | ⟨-, h⟩
      · exact .inl ⟨row, List.mem_cons_self, rfl, TextSet.mem_ofList.1 hs⟩
      · exact .inr h

/-- The table of a list has no stems that the list does not have. -/
theorem exists_mem_of_owns_ofList {rows : List (String × List String)}
    (h : (TypeTable.ofList rows).Owns c s) : ∃ row ∈ rows, row.1 = c ∧ s ∈ row.2 := by
  have hempty : ¬empty.Owns c s := by simp [Owns]
  exact (exists_mem_of_owns_foldl_set rows empty h).resolve_right hempty

/-- After additions a category has what was added to it and what it had before. -/
private theorem owns_foldl_addAll {α : Type} {category : α → String} {stems : α → List String}
    (list : List α) (table : TypeTable) :
    (list.foldl (fun table a => table.addAll (category a) (stems a)) table).Owns c s ↔
      (∃ a ∈ list, c = category a ∧ s ∈ stems a) ∨ table.Owns c s := by
  induction list generalizing table with
  | nil => simp
  | cons a rest ih =>
    rw [List.foldl_cons, ih, owns_addAll, List.exists_mem_cons_iff]
    exact or_left_comm.trans or_assoc.symm

/-- A changed table has the changed stems under the changed categories. -/
theorem owns_map {change : String → String} :
    (table.map change).Owns c s ↔ ∃ category stem, table.Owns category stem ∧
      change category = c ∧ change stem = s := by
  have hempty : ¬empty.Owns c s := by simp [Owns]
  rw [map, owns_foldl_addAll, or_iff_left hempty]
  constructor
  · rintro ⟨row, hrow, rfl, hmem⟩
    obtain ⟨stem, hstem, rfl⟩ := List.mem_map.1 hmem
    exact ⟨row.1, stem, owns_iff_exists_mem.2 ⟨row, hrow, rfl, hstem⟩, rfl, rfl⟩
  · rintro ⟨category, stem, howns, rfl, rfl⟩
    obtain ⟨row, hrow, rfl, hstem⟩ := owns_iff_exists_mem.1 howns
    exact ⟨row, hrow, rfl, List.mem_map_of_mem hstem⟩

/-! ## Equal tables -/

/-- A category has the stems in its row. -/
theorem owns_iff_of_mem {stems : TextSet} (h : (c, stems) ∈ table.rows) :
    table.Owns c s ↔ s ∈ stems := by
  simp [Owns, stems?_eq_some_iff.2 h]

section

variable {first second : TypeTable}

/-- A row is in every table with the same categories that have the same stems. -/
private theorem mem_rows_of_mem
    (hcategories : ∀ c, c ∈ first.rows.map Prod.fst ↔ c ∈ second.rows.map Prod.fst)
    (howns : ∀ c s, first.Owns c s ↔ second.Owns c s) {row : String × TextSet}
    (h : row ∈ first.rows) : row ∈ second.rows := by
  obtain ⟨c, stems⟩ := row
  obtain ⟨⟨_, other⟩, hother, rfl⟩ := List.mem_map.1 ((hcategories c).1 (List.mem_map_of_mem h))
  have hstems : stems = other :=
    TextSet.ext fun s => by rw [← owns_iff_of_mem h, ← owns_iff_of_mem hother, howns]
  rwa [hstems]

/-- Tables with the same categories and the same stems are equal. -/
theorem ext (hcategories : ∀ c, c ∈ first.rows.map Prod.fst ↔ c ∈ second.rows.map Prod.fst)
    (howns : ∀ c s, first.Owns c s ↔ second.Owns c s) : first = second := by
  have hrows : first.rows = second.rows := by
    -- rows in increasing order of categories are determined by which rows there are
    have hirrefl : Std.Irrefl fun a b : String × TextSet => a.1 < b.1 :=
      ⟨fun row => String.lt_irrefl row.1⟩
    have hantisymm : Std.Antisymm fun a b : String × TextSet => a.1 < b.1 :=
      ⟨fun _ _ hab hba => absurd hba (String.lt_asymm hab)⟩
    refine List.Pairwise.eq_of_mem_iff (List.pairwise_map.1 first.increasing)
      (List.pairwise_map.1 second.increasing) fun row => ?_
    exact ⟨mem_rows_of_mem hcategories howns,
      mem_rows_of_mem (fun c => (hcategories c).symm) fun c s => (howns c s).symm⟩
  cases first
  cases second
  congr

end

/-- To change a table twice is to change it once by both. -/
theorem map_map (table : TypeTable) (first second : String → String) :
    (table.map first).map second = table.map (second ∘ first) := by
  refine ext (fun c => ?_) fun c s => ?_
  · rw [mem_categories_map, mem_categories_map, ← List.map_map, List.mem_map, List.mem_map]
    exact exists_congr fun category => and_congr_left fun _ => mem_categories_map
  · simp only [owns_map, Function.comp_apply]
    constructor
    · rintro ⟨_, _, ⟨category, stem, howns, rfl, rfl⟩, rfl, rfl⟩
      exact ⟨category, stem, howns, rfl, rfl⟩
    · rintro ⟨category, stem, howns, rfl, rfl⟩
      exact ⟨_, _, ⟨category, stem, howns, rfl, rfl⟩, rfl, rfl⟩

end RelationalAvro.TypeTable
