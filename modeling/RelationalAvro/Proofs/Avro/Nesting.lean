import RelationalAvro.Avro.Layout
import RelationalAvro.Proofs.Avro.SchemaText

/-!
# Schema text at other indentations

A type inside a schema is laid out as it is by itself, with more spaces behind each line break. All
line breaks of schema text are those between its lines, since a literal holds none, so to indent a
text is to lengthen each of them (`indented`). Each way of putting pieces together passes this on to
the pieces, and the main statement, `AvroType.layout_add`, is an induction over the type.
-/

namespace RelationalAvro.Avro

open Json (escaped quoted)
open Text (natDigits)

variable {k : Nat}

/-- The text with `k` more spaces behind every line break. -/
def indented (k : Nat) (text : List Char) : List Char :=
  text.flatMap fun c => if c = '\n' then newline k else [c]

@[simp] theorem indented_append (text rest : List Char) :
    indented k (text ++ rest) = indented k text ++ indented k rest :=
  List.flatMap_append

/-- Nothing is put after a character that is no line break. -/
theorem indented_cons_of_ne {c : Char} (h : c ≠ '\n') (text : List Char) :
    indented k (c :: text) = c :: indented k text := by
  rw [indented, List.flatMap_cons, if_neg h]
  rfl

/-- A text without line breaks stays as it is. -/
theorem indented_eq_self {text : List Char} (h : '\n' ∉ text) : indented k text = text := by
  induction text with
  | nil => rfl
  | cons c text ih =>
    rw [List.mem_cons, not_or] at h
    rw [indented_cons_of_ne (Ne.symm h.1), ih h.2]

/-- A line break with its spaces gets more spaces. -/
theorem indented_newline (n : Nat) : indented k (newline n) = newline (n + k) := by
  have hspaces : '\n' ∉ List.replicate n ' ' := fun h =>
    absurd (List.eq_of_mem_replicate h) (by decide)
  have hbreak : indented k (newline n) = newline k ++ indented k (List.replicate n ' ') := rfl
  rw [hbreak, indented_eq_self hspaces, newline, newline, List.cons_append,
    List.replicate_append_replicate, Nat.add_comm]

/-! ## Literals and numbers -/

/-- Line breaks are escaped. -/
theorem newline_not_mem_escaped (c : Char) : '\n' ∉ escaped c := by
  obtain ⟨he, -, -, hc⟩ | ⟨e, he, hshort⟩ | ⟨hcontrol, he⟩ := Json.escaped_cases c
  · rw [he, List.mem_singleton]
    rintro rfl
    exact absurd hc (by decide)
  · rw [he]
    rintro h
    obtain rfl : '\n' = e := by simpa using h
    cases hshort
  · have hdigit : ∀ n, n < 16 → Nat.digitChar n ≠ '\n' := by decide
    have hhigh := hdigit (c.toNat / 16) (by omega)
    have hlow := hdigit (c.toNat % 16) (by omega)
    simp [he, hhigh.symm, hlow.symm]

/-- A literal stands on one line. -/
theorem newline_not_mem_quoted (s : String) : '\n' ∉ quoted s := by
  simp [quoted, Json.quotedChars, newline_not_mem_escaped]

/-- A literal stays on its line. -/
@[simp] theorem indented_quoted (s : String) : indented k (quoted s) = quoted s :=
  indented_eq_self (newline_not_mem_quoted s)

/-- A number stands on one line. -/
@[simp] theorem indented_natDigits (n : Nat) : indented k (natDigits n) = natDigits n :=
  indented_eq_self fun h => absurd (Text.isDigit_of_mem_natDigits h) (by decide)

/-! ## Pieces -/

/-- Separated pieces are indented as what is between them is. -/
theorem indented_separated (between : List Char) (pieces : List (List Char)) :
    indented k (separated between pieces) =
      separated (indented k between) (pieces.map (indented k)) := by
  fun_induction separated between pieces with
  | case1 => rfl
  | case2 piece => rfl
  | case3 piece next pieces ih => rw [indented_append, indented_append, ih]; rfl

/-- Only the value of an entry can have lines. -/
@[simp] theorem indented_entry (key : String) (value : List Char) :
    indented k (entry key value) = entry key (indented k value) := by
  rw [entry, indented_append, indented_quoted, indented_cons_of_ne (by decide),
    indented_cons_of_ne (by decide), entry]

/-- An entry that stays on its line. -/
theorem map_indented_optionalEntry {α : Type} (key : String) (value : Option α)
    {write : α → List Char} (h : ∀ a, indented k (write a) = write a) :
    (optionalEntry key value write).map (indented k) = optionalEntry key value write := by
  cases value with
  | none => rfl
  | some a =>
    change [indented k (entry key (write a))] = [entry key (write a)]
    rw [indented_entry, h]

section

variable {opening closing : Char} (hopening : opening ≠ '\n') (hclosing : closing ≠ '\n')
include hopening hclosing

/-- Pieces on a line are indented one by one. -/
theorem indented_inline (pieces : List (List Char)) :
    indented k (inline opening closing pieces) =
      inline opening closing (pieces.map (indented k)) := by
  rw [inline, indented_cons_of_ne hopening, indented_append, indented_separated,
    indented_cons_of_ne hclosing]
  rfl

/-- A block moves as a whole. -/
theorem indented_block (n : Nat) (pieces : List (List Char)) :
    indented k (block opening closing n pieces) =
      block opening closing (n + k) (pieces.map (indented k)) := by
  have hbetween : indented k (',' :: newline (n + 2)) = ',' :: newline (n + 2 + k) := by
    rw [indented_cons_of_ne (by decide), indented_newline]
  rw [block, indented_cons_of_ne hopening, indented_append, indented_append, indented_append,
    indented_newline, indented_newline, indented_separated, hbetween, indented_cons_of_ne hclosing,
    block, Nat.add_right_comm n k 2]
  rfl

end

/-- A list of texts stands on one line. -/
@[simp] theorem indented_textList (texts : List String) :
    indented k (textList texts) = textList texts := by
  rw [textList, indented_inline (by decide) (by decide), List.map_map]
  exact congrArg _ (List.map_congr_left fun s _ => indented_quoted s)

/-- An indented list of lines is the list of the indented lines. -/
theorem indented_lineList (n : Nat) (lines : List (List Char)) :
    indented k (lineList n lines) = lineList (n + k) (lines.map (indented k)) := by
  cases lines with
  | nil => rfl
  | cons line lines => exact indented_block (by decide) (by decide) n (line :: lines)

/-! ## Types -/

namespace AvroType

mutual

/-- **A type at a greater indentation is the indented text of the type.** -/
theorem layout_add (type : AvroType) (n k : Nat) :
    layout (n + k) type = indented k (layout n type) := by
  cases type with
  | named name => rw [layout, layout, indented_quoted]
  | logical base name precision scale size =>
    rw [layout, layout, indented_inline (by decide) (by decide)]
    simp [map_indented_optionalEntry]
  | record type name space doc aliases fields =>
    rw [layout, layout, indented_block (by decide) (by decide)]
    simp [map_indented_optionalEntry, indented_lineList, ← fieldTexts_add, Nat.add_right_comm n k]
  | enum type name space symbols =>
    rw [layout, layout, indented_block (by decide) (by decide)]
    simp [map_indented_optionalEntry]
  | union branches =>
    rw [layout, layout, indented_inline (by decide) (by decide), branchTexts_add]

/-- Branches laid out further in are the indented branches. -/
theorem branchTexts_add (types : List AvroType) (n k : Nat) :
    branchTexts (n + k) types = (branchTexts n types).map (indented k) := by
  cases types with
  | nil => rw [branchTexts, branchTexts, List.map_nil]
  | cons type types => rw [branchTexts, branchTexts, List.map_cons, layout_add, branchTexts_add]

/-- Fields laid out further in are the indented fields. -/
theorem fieldTexts_add (fields : List (RecordField AvroType)) (n k : Nat) :
    fieldTexts (n + k) fields = (fieldTexts n fields).map (indented k) := by
  cases fields with
  | nil => rw [fieldTexts, fieldTexts, List.map_nil]
  | cons field fields => rw [fieldTexts, fieldTexts, List.map_cons, fieldText_add, fieldTexts_add]

/-- A field laid out further in is the indented field. -/
theorem fieldText_add (field : RecordField AvroType) (n k : Nat) :
    fieldText (n + k) field = indented k (fieldText n field) := by
  obtain ⟨name, doc, type⟩ := field
  rw [fieldText, fieldText, indented_inline (by decide) (by decide)]
  simp [map_indented_optionalEntry, layout_add]

end

end AvroType

end RelationalAvro.Avro
