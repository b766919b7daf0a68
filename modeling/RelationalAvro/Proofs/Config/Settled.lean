import RelationalAvro.Proofs.Config.Drafting
import RelationalAvro.Proofs.Text.SmallLetters

/-!
# Making a configuration again

A text in lower case stays as it is when it is lower-cased again, although a capital sigma is mapped
by what stands around it. So the table of a configuration, whose texts are all in lower case, is
left alone by another lower-casing, and nothing in it is merged: `lowercase_settles`.
-/

namespace RelationalAvro

open Text (lowercase lowercase_lowercase)

namespace TypeTable

variable {table : TypeTable} {c s : String}

/-- A table in lower case is left alone. -/
theorem map_lowercase_map_lowercase (table : TypeTable) :
    (table.map lowercase).map lowercase = table.map lowercase := by
  have htwice : lowercase ∘ lowercase = lowercase := funext lowercase_lowercase
  rw [map_map, htwice]

/-- The categories of a table in lower case are in lower case. -/
theorem lowercase_of_mem_categories (h : c ∈ (table.map lowercase).rows.map Prod.fst) :
    lowercase c = c := by
  obtain ⟨category, -, rfl⟩ := List.mem_map.1 (mem_categories_map.1 h)
  exact lowercase_lowercase category

/-- The stems of a table in lower case are in lower case. -/
theorem lowercase_of_owns (h : (table.map lowercase).Owns c s) : lowercase s = s := by
  obtain ⟨_, stem, -, -, rfl⟩ := owns_map.1 h
  exact lowercase_lowercase stem

end TypeTable

namespace Config

/-- Lower case has nothing left to do in the table of the configuration. -/
structure IsSettled (config : Config) : Prop where
  /-- The configuration made again from what it holds is the same, but for how often enums are
  defined, which is not said again. -/
  remade : ofTable config.space config.table config.defaultScale =
    { config with inlining := .perRun }
  /-- No two categories differ only in case. -/
  categories_apart : ∀ c ∈ config.table.rows.map Prod.fst, ∀ d ∈ config.table.rows.map Prod.fst,
    lowercase c = lowercase d → c = d
  /-- No two stems of a category differ only in case. -/
  stems_apart : ∀ c s t, config.table.Owns c s → config.table.Owns c t →
    lowercase s = lowercase t → s = t

/-- A configuration whose table was lower-cased is settled. -/
theorem isSettled_of_table_eq {config : Config} {table : TypeTable}
    (h : config.table = table.map lowercase) : config.IsSettled where
  remade := by rw [ofTable, h, TypeTable.map_lowercase_map_lowercase]
  categories_apart c hc d hd heq := by
    rw [h] at hc hd
    rwa [TypeTable.lowercase_of_mem_categories hc, TypeTable.lowercase_of_mem_categories hd] at heq
  stems_apart c s t hs ht heq := by
    rw [h] at hs ht
    rwa [TypeTable.lowercase_of_owns hs, TypeTable.lowercase_of_owns ht] at heq

end Config

/-- **Lower case settles.** Lower-casing a text again changes nothing, so it changes nothing in a
configuration either, whether that is made from a table or drafted. -/
theorem lowercase_settles :
    (∀ text, lowercase (lowercase text) = lowercase text) ∧
    (∀ space table defaultScale, (Config.ofTable space table defaultScale).IsSettled) ∧
    ∀ draft : Draft, draft.build.IsSettled :=
  ⟨lowercase_lowercase, fun _ _ _ => Config.isSettled_of_table_eq rfl,
    fun _ => Config.isSettled_of_table_eq rfl⟩

end RelationalAvro
