import RelationalAvro.Config.TextSet

/-!
# Type tables

A type table says which column types stand for which category of Avro type: each category has a set
of stems, and a column type belongs to the category if it begins with one of them. A category may be
present without a stem. Rows are kept in increasing order of categories, so that tables with the
same rows are the same value.
-/

namespace RelationalAvro

/-- Categories with their stems, in increasing order of categories. -/
structure TypeTable where
  rows : List (String × TextSet)
  increasing : (rows.map Prod.fst).Pairwise (· < ·)

namespace TypeTable

/-- The stems of a category, if it is present. -/
def stems? (table : TypeTable) (category : String) : Option TextSet :=
  table.rows.lookup category

/-- Does the category have the stem? -/
def Owns (table : TypeTable) (category stem : String) : Prop :=
  ∃ stems, table.stems? category = some stems ∧ stem ∈ stems

/-- The table without rows. -/
def empty : TypeTable :=
  ⟨[], TextSet.increasing_nil⟩

/-- The rows with the stems of a category changed by `change`, from none if it was not present. -/
def placeRow (category : String) (change : TextSet → TextSet) :
    List (String × TextSet) → List (String × TextSet)
  | [] => [(category, change TextSet.empty)]
  | row :: rest =>
    if category < row.1 then (category, change TextSet.empty) :: row :: rest
    else if category = row.1 then (category, change row.2) :: rest
    else row :: placeRow category change rest

/-- Changing a row adds its category, if it is new, and no other. -/
theorem mem_map_fst_placeRow {category x : String} {change : TextSet → TextSet}
    {rows : List (String × TextSet)} :
    x ∈ (placeRow category change rows).map Prod.fst ↔ x = category ∨ x ∈ rows.map Prod.fst := by
  induction rows with
  | nil => simp [placeRow]
  | cons row rest ih =>
    rw [placeRow]
    split
    · simp
    · split
      · rename_i h
        simp [h]
      · rw [List.map_cons, List.mem_cons, ih, List.map_cons, List.mem_cons]
        exact or_left_comm

/-- A changed row stands in its place in the order of categories. -/
theorem increasing_placeRow {category : String} {change : TextSet → TextSet}
    {rows : List (String × TextSet)} (h : (rows.map Prod.fst).Pairwise (· < ·)) :
    ((placeRow category change rows).map Prod.fst).Pairwise (· < ·) := by
  induction rows with
  | nil => simp [placeRow]
  | cons row rest ih =>
    rw [List.map_cons, List.pairwise_cons] at h
    rw [placeRow]
    split
    · rename_i hlt
      refine List.pairwise_cons.2 ⟨fun x hx => ?_, List.pairwise_cons.2 h⟩
      rcases List.mem_cons.1 hx with rfl | hx
      · exact hlt
      · exact String.lt_trans hlt (h.1 x hx)
    · split
      · rename_i heq
        exact List.pairwise_cons.2 ⟨fun x hx => heq ▸ h.1 x hx, h.2⟩
      · rename_i hlt hne
        refine List.pairwise_cons.2 ⟨fun x hx => ?_, ih h.2⟩
        rcases mem_map_fst_placeRow.1 hx with rfl | hx
        · exact TextSet.lt_of_not_lt_of_ne hlt hne
        · exact h.1 x hx

/-- The table with the stems of a category changed by `change`, from none if it was not present. -/
def modify (table : TypeTable) (category : String) (change : TextSet → TextSet) : TypeTable :=
  ⟨placeRow category change table.rows, increasing_placeRow table.increasing⟩

/-- The table with exactly these stems for a category. -/
def set (table : TypeTable) (category : String) (stems : TextSet) : TypeTable :=
  table.modify category fun _ => stems

/-- The table with one more stem for a category. -/
def add (table : TypeTable) (category stem : String) : TypeTable :=
  table.modify category fun stems => stems.insert stem

/-- The table with more stems for a category, which is present afterwards even if there are none. -/
def addAll (table : TypeTable) (category : String) (stems : List String) : TypeTable :=
  table.modify category fun old => old.insertAll stems

/-- The table of a list of categories with their stems; a category listed again replaces what was
listed before. -/
def ofList (rows : List (String × List String)) : TypeTable :=
  rows.foldl (fun table row => table.set row.1 (TextSet.ofList row.2)) empty

/-- The categories with their stems, all in increasing order. -/
def toList (table : TypeTable) : List (String × List String) :=
  table.rows.map fun row => (row.1, row.2.members)

/-- The table with every category and every stem changed by `change`; categories that become the
same are merged. -/
def map (table : TypeTable) (change : String → String) : TypeTable :=
  table.rows.foldl (fun folded row => folded.addAll (change row.1) (row.2.members.map change)) empty

/-! ## What a table holds -/

/-- A category before all others has no row. -/
private theorem lookup_eq_none_of_lt {category : String} {rows : List (String × TextSet)}
    (h : ∀ x ∈ rows.map Prod.fst, category < x) : rows.lookup category = none := by
  rw [List.lookup_eq_none_iff]
  intro row hrow
  refine bne_iff_ne.2 fun he => String.lt_irrefl category ?_
  have := h row.1 (List.mem_map_of_mem hrow)
  rwa [← he] at this

/-- The first row answers for its own category only. -/
private theorem lookup_row (x c : String) (stems : TextSet) (rest : List (String × TextSet)) :
    List.lookup x ((c, stems) :: rest) = if x = c then some stems else rest.lookup x := by
  rw [List.lookup_cons]
  by_cases h : x = c
  · simp [h]
  · simp [h, beq_eq_false_iff_ne.2 h]

/-- Changing a row changes what its category has, from nothing if it is new, and leaves all others
alone. -/
private theorem lookup_placeRow {category x : String} {change : TextSet → TextSet}
    {rows : List (String × TextSet)} (h : (rows.map Prod.fst).Pairwise (· < ·)) :
    (placeRow category change rows).lookup x =
      if x = category then some (change ((rows.lookup category).getD TextSet.empty))
      else rows.lookup x := by
  induction rows with
  | nil => simp [placeRow, lookup_row]
  | cons row rest ih =>
    obtain ⟨c, stems⟩ := row
    have hrest := (List.pairwise_cons.1 h).1
    rw [placeRow]
    split
    · -- the category is new, and its row comes before this one
      rename_i hlt
      have hnone : List.lookup category ((c, stems) :: rest) = none :=
        lookup_eq_none_of_lt fun y hy => by
          rcases List.mem_cons.1 hy with rfl | hy
          · exact hlt
          · exact String.lt_trans hlt (hrest y hy)
      rw [hnone, lookup_row, Option.getD_none]
    · split
      · -- this is the row of the category
        rename_i heq
        change category = c at heq
        subst heq
        by_cases hx : x = category <;> simp [hx, lookup_row]
      · rename_i hne
        change ¬category = c at hne
        rw [lookup_row, ih (List.pairwise_cons.1 h).2, lookup_row, lookup_row, if_neg hne]
        by_cases hx : x = category
        · subst hx
          simp [hne]
        · simp [hx]

/-- A change to one category leaves the stems of all others. -/
theorem stems?_modify {table : TypeTable} {category x : String} {change : TextSet → TextSet} :
    (table.modify category change).stems? x =
      if x = category then some (change ((table.stems? category).getD TextSet.empty))
      else table.stems? x :=
  lookup_placeRow table.increasing

@[simp] theorem stems?_empty {x : String} : empty.stems? x = none := rfl

/-- One more stem for a category is owned by that category, and nothing else changes. -/
theorem owns_add {table : TypeTable} {category stem c s : String} :
    (table.add category stem).Owns c s ↔ (c = category ∧ s = stem) ∨ table.Owns c s := by
  unfold Owns add
  rw [stems?_modify]
  by_cases hc : c = category
  · subst hc
    cases hs : table.stems? c with
    | none => simp
    | some stems => simp
  · simp [hc]

end TypeTable

end RelationalAvro
