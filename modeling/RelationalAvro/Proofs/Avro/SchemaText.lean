import RelationalAvro.Avro.Compact
import RelationalAvro.Avro.Layout
import RelationalAvro.Proofs.Json.Document
import RelationalAvro.Proofs.Json.Literals

/-!
# Schema text and documents

Schema text is laid out piece by piece, and the document of a schema is written token by token from
the value that the schema is. Here the two are put side by side: on every line, whatever its
indentation, the text spells the tokens of the value, with spaces and line breaks between them
(`AvroType.spells_layout`). So they differ in nothing but spaces and line breaks outside string
literals, and both denote the value: `AvroType.text_document`.
-/

namespace RelationalAvro.Avro

open Json (Spells Value Token isFiller withoutFiller quoted startsApart_cons)
open Json.Value (member tokensOfMember)
open Text (natDigits)

/-! ## Pieces -/

/-- The text spells the value, with spaces and line breaks between tokens. -/
def SpellsValue (value : Value) (text : List Char) : Prop :=
  Spells isFiller value.tokens text

/-- The text spells the member of an object. -/
def SpellsMember (m : Option String × Value) (text : List Char) : Prop :=
  Spells isFiller (tokensOfMember m) text

/-- Separated pieces have the separator between them. -/
theorem separated_eq_intercalate (between : List Char) (pieces : List (List Char)) :
    separated between pieces = between.intercalate pieces := by
  induction pieces with
  | nil => rfl
  | cons piece pieces ih =>
    cases pieces with
    | nil => simp [separated]
    | cons next pieces => rw [separated, ih, List.intercalate_cons_cons, List.append_assoc]

/-- A line break and its spaces are filler. -/
theorem isFiller_of_mem_newline {indent : Nat} : ∀ c ∈ newline indent, isFiller c = true := by
  intro c hc
  rcases List.mem_cons.1 hc with rfl | hc
  · rfl
  · rw [List.eq_of_mem_replicate hc]
    rfl

/-- A literal spells its text. -/
theorem spells_text (s : String) : SpellsValue (.text s) (quoted s) :=
  .single trivial

/-- Digits spell their number. -/
theorem spells_nat (n : Nat) : SpellsValue (.nat n) (natDigits n) := by
  have hdigits : (Text.natText n).toList = natDigits n := String.toList_ofList
  have hsound : (Token.number (Text.natText n)).IsSound := by
    rw [Token.IsSound, hdigits]
    exact Json.Value.isNumber_natDigits n
  have h : Spells isFiller [Token.number (Text.natText n)] (natDigits n) :=
    hdigits ▸ .single hsound
  rwa [SpellsValue, Value.nat, Value.tokens]

/-- An entry spells a member if its text spells the value. -/
theorem spells_entry {key : String} {value : Value} {text : List Char}
    (h : SpellsValue value text) : SpellsMember (member key value) (entry key text) :=
  .cons (t := .quoted (some key)) rfl (.cons (t := .colon) rfl (.blank rfl h))

/-- An absent value has no entry, as it has no member. -/
theorem spells_optionalEntry {α : Type} {key : String} {value : Option α} {write : α → Value}
    {text : α → List Char} (h : ∀ a, SpellsValue (write a) (text a)) :
    List.Forall₂ SpellsMember (AvroType.optional key value write)
      (optionalEntry key value text) := by
  cases value with
  | none => exact .nil
  | some a => exact .cons (spells_entry (h a)) .nil

section

variable {tokens : List (List Token)} {pieces : List (List Char)}

/-- Pieces on one line spell their tokens, with commas between. -/
theorem spells_separated (h : List.Forall₂ (Spells isFiller) tokens pieces) :
    Spells isFiller ([Token.comma].intercalate tokens) (separated [',', ' '] pieces) := by
  rw [separated_eq_intercalate]
  exact .intercalate (List.all_eq_true.1 (by decide)) h

/-- Pieces on lines of their own spell their tokens, with a line break before and behind. -/
theorem spells_lines (h : List.Forall₂ (Spells isFiller) tokens pieces) (indent : Nat) :
    Spells isFiller ([Token.comma].intercalate tokens)
      (newline (indent + 2) ++
        (separated (',' :: newline (indent + 2)) pieces ++ newline indent)) := by
  have hnil : Spells isFiller [] [] := .nil
  have hend : Spells isFiller [] (newline indent) := by
    simpa using hnil.blanks isFiller_of_mem_newline
  have hlines : Spells isFiller ([Token.comma].intercalate tokens ++ [])
      (separated (',' :: newline (indent + 2)) pieces ++ newline indent) := by
    rw [separated_eq_intercalate]
    exact (Spells.intercalate isFiller_of_mem_newline h).append hend (startsApart_cons rfl)
  rw [List.append_nil] at hlines
  exact hlines.blanks isFiller_of_mem_newline

end

section

variable {items : List Value} {members : List (Option String × Value)} {pieces : List (List Char)}

/-- Pieces between brackets on one line spell an array. -/
theorem spells_inlineArray (h : List.Forall₂ SpellsValue items pieces) :
    SpellsValue (.array items) (inline '[' ']' pieces) :=
  Json.spells_array (spells_separated (List.forall₂_map_left_iff.2 h))

/-- Pieces between braces on one line spell an object. -/
theorem spells_inlineObject (h : List.Forall₂ SpellsMember members pieces) :
    SpellsValue (.object members) (inline '{' '}' pieces) :=
  Json.spells_object (spells_separated (List.forall₂_map_left_iff.2 h))

/-- A list of lines spells an array. -/
theorem spells_lineList (h : List.Forall₂ SpellsValue items pieces) (indent : Nat) :
    SpellsValue (.array items) (lineList indent pieces) := by
  cases h with
  | nil => exact spells_inlineArray .nil
  | cons hitem hitems =>
    have hlines := spells_lines (List.forall₂_map_left_iff.2 (.cons hitem hitems)) indent
    simpa [SpellsValue, lineList, block] using Json.spells_array hlines

/-- A block in braces spells an object. -/
theorem spells_block (h : List.Forall₂ SpellsMember members pieces) (indent : Nat) :
    SpellsValue (.object members) (block '{' '}' indent pieces) := by
  have hlines := spells_lines (List.forall₂_map_left_iff.2 h) indent
  simpa [SpellsValue, block] using Json.spells_object hlines

end

/-- A list of texts spells the array of the texts. -/
theorem spells_textList (texts : List String) :
    SpellsValue (AvroType.textsValue texts) (textList texts) := by
  refine spells_inlineArray ?_
  rw [List.forall₂_map_left_iff, List.forall₂_map_right_iff, List.forall₂_same]
  exact fun s _ => spells_text s

/-! ## Types -/

namespace AvroType

mutual

/-- The text of a type spells its value, on a line of any indentation. -/
theorem spells_layout (type : AvroType) (indent : Nat) :
    SpellsValue type.toValue (layout indent type) := by
  cases type with
  | named name => exact spells_text name
  | logical base name precision scale size =>
    rw [toValue, layout]
    refine spells_inlineObject ?_
    refine List.rel_append (List.rel_append (List.rel_append ?_ ?_) ?_) ?_
    · exact .cons (spells_entry (spells_text base)) (.cons (spells_entry (spells_text name)) .nil)
    all_goals exact spells_optionalEntry spells_nat
  | record type name space doc aliases fields =>
    rw [toValue, layout]
    refine spells_block ?_ indent
    -- attributes that may be left out are missing on both sides, or on neither
    refine List.rel_append (List.rel_append (List.rel_append (List.rel_append ?_ ?_) ?_) ?_) ?_
    · exact .cons (spells_entry (spells_text type)) (.cons (spells_entry (spells_text name)) .nil)
    · exact spells_optionalEntry spells_text
    · exact spells_optionalEntry spells_text
    · exact spells_optionalEntry spells_textList
    · exact .cons (spells_entry (spells_lineList (spells_fields fields _) _)) .nil
  | enum type name space symbols =>
    rw [toValue, layout]
    refine spells_block ?_ indent
    refine List.rel_append (List.rel_append ?_ ?_) ?_
    · exact .cons (spells_entry (spells_text type)) (.cons (spells_entry (spells_text name)) .nil)
    · exact spells_optionalEntry spells_text
    · exact .cons (spells_entry (spells_textList symbols)) .nil
  | union branches =>
    rw [toValue, layout]
    exact spells_inlineArray (spells_branches branches indent)

/-- The branches of a union are spelled one by one. -/
theorem spells_branches (types : List AvroType) (indent : Nat) :
    List.Forall₂ SpellsValue (branchValues types) (branchTexts indent types) := by
  cases types with
  | nil => exact .nil
  | cons type types => exact .cons (spells_layout type indent) (spells_branches types indent)

/-- The fields of a record are spelled one by one. -/
theorem spells_fields (fields : List (RecordField AvroType)) (indent : Nat) :
    List.Forall₂ SpellsValue (fieldValues fields) (fieldTexts indent fields) := by
  cases fields with
  | nil => exact .nil
  | cons field fields => exact .cons (spells_field field indent) (spells_fields fields indent)

/-- A field is spelled at any indentation. -/
theorem spells_field (field : RecordField AvroType) (indent : Nat) :
    SpellsValue (fieldValue field) (fieldText indent field) := by
  obtain ⟨name, doc, type⟩ := field
  rw [fieldValue, fieldText]
  refine spells_inlineObject (List.rel_append (List.rel_append ?_ ?_) ?_)
  · exact .cons (spells_entry (spells_text name)) .nil
  · exact spells_optionalEntry spells_text
  · exact .cons (spells_entry (spells_layout type indent)) .nil

end

/-- **Schema text is the document of the schema, laid out**: the two are one text but for spaces and
line breaks outside string literals, and both denote the value of the schema. -/
theorem text_document (type : AvroType) :
    withoutFiller type.text.toList = type.json.toList ∧
      Value.parse? type.text.toList = some type.toValue ∧
      Value.parse? type.json.toList = some type.toValue := by
  have hspells : Spells isFiller type.toValue.tokens type.text.toList := by
    rw [text, String.toList_ofList]
    exact spells_layout type 0
  refine ⟨?_, Value.parse?_of_spells (fun _ => Json.isSpace_of_isFiller) hspells, ?_⟩
  · rw [Json.withoutFiller_of_spells hspells, json, String.toList_ofList]
    rfl
  · rw [json, String.toList_ofList]
    exact Value.parse?_compact hspells.isSound

end AvroType

end RelationalAvro.Avro
