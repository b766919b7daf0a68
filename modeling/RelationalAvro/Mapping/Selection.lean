import RelationalAvro.Config.TypeTable

/-!
# Selecting a category

A text belongs to the categories that have a stem it begins with. The longest such stem decides, and
among categories that have it the smallest. The measure of length is a parameter: stems of one text
are stems of each other, so all sensible measures select alike.
-/

namespace RelationalAvro

/-- The length of the longest stem that `text` begins with. -/
def TextSet.longest? (measure : String → Nat) (stems : TextSet) (text : List Char) : Option Nat :=
  ((stems.members.filter fun stem => stem.toList.isPrefixOf text).map measure).max?

/-- The better of the category found so far and the next row: only a longer stem takes over. -/
def TypeTable.better (measure : String → Nat) (text : List Char) (found : Option (String × Nat))
    (row : String × TextSet) : Option (String × Nat) :=
  match row.2.longest? measure text with
  | none => found
  | some length =>
    match found with
    | none => some (row.1, length)
    | some best => if best.2 < length then some (row.1, length) else some best

/-- The category of the longest stem that `text` begins with, by `measure`; the smallest one of
several. -/
def TypeTable.selectBy (measure : String → Nat) (table : TypeTable) (text : List Char) :
    Option String :=
  (table.rows.foldl (better measure text) none).map Prod.fst

end RelationalAvro
