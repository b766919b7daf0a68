import RelationalAvro.Avro.Compact
import RelationalAvro.Proofs.Avro.SchemaText

/-!
# Schemas from their texts

A schema can be told from its text. The text is a document of the value that the schema is, and from
that value the schema is read back: which keys an object has tells logical types, records and enums
apart, whatever their `type` is, and an attribute is absent exactly if its key is. What a value
stands for depends on where it stands, so a value is read as everything that it could stand for at
once (`Content`), the values inside it first. The main statement is `AvroType.text_injective`.
-/

namespace RelationalAvro.Avro

open Json (Value)
open Json.Value (member)
open Text (natDigits)

/-- What a value could stand for in a schema. -/
structure Content where
  text : Option String := none
  number : Option Nat := none
  texts : Option (List String) := none
  type : Option AvroType := none
  field : Option (RecordField AvroType) := none
  fields : Option (List (RecordField AvroType)) := none

/-- The members of an object, with what their values could stand for. -/
abbrev Attributes := List (Option String × Content)

namespace Attributes

/-- The attribute called `key`, which must be present. -/
def required {α : Type} (attributes : Attributes) (key : String) (part : Content → Option α) :
    Option α :=
  (attributes.lookup (some key)).bind part

/-- The attribute called `key`, which may be absent. -/
def optional {α : Type} (attributes : Attributes) (key : String) (part : Content → Option α) :
    Option (Option α) :=
  match attributes.lookup (some key) with
  | none => some none
  | some content => (part content).map some

/-- The field that an object stands for. -/
def field? (attributes : Attributes) : Option (RecordField AvroType) := do
  return {
    name := ← attributes.required "name" Content.text
    doc := ← attributes.optional "doc" Content.text
    type := ← attributes.required "type" Content.type }

/-- The type that an object stands for: a logical type, a record or an enum. -/
def type? (attributes : Attributes) : Option AvroType := do
  let type ← attributes.required "type" Content.text
  if (attributes.lookup (some "logicalType")).isSome then
    return .logical type (← attributes.required "logicalType" Content.text)
      (← attributes.optional "precision" Content.number)
      (← attributes.optional "scale" Content.number)
      (← attributes.optional "size" Content.number)
  else if (attributes.lookup (some "fields")).isSome then
    return .record type (← attributes.required "name" Content.text)
      (← attributes.optional "namespace" Content.text)
      (← attributes.optional "doc" Content.text)
      (← attributes.optional "aliases" Content.texts)
      (← attributes.required "fields" Content.fields)
  else
    return .enum type (← attributes.required "name" Content.text)
      (← attributes.optional "namespace" Content.text)
      (← attributes.required "symbols" Content.texts)

end Attributes

namespace Content

mutual

/-- What the value could stand for. -/
def ofValue : Value → Content
  | .null | .bool _ => {}
  | .number word => { number := Text.nat? word.toList }
  | .string text => { text, type := text.map .named }
  | .array items =>
    { texts := (ofItems items).mapM Content.text
      type := ((ofItems items).mapM Content.type).map .union
      fields := (ofItems items).mapM Content.field }
  | .object members => { type := (ofMembers members).type?, field := (ofMembers members).field? }

/-- What the items of an array could stand for. -/
def ofItems : List Value → List Content
  | [] => []
  | item :: items => ofValue item :: ofItems items

/-- What the members of an object could stand for. -/
def ofMembers : List (Option String × Value) → Attributes
  | [] => []
  | (key, value) :: members => (key, ofValue value) :: ofMembers members

end

end Content

/-- The schema that the text is one of. -/
def AvroType.ofChars? (text : List Char) : Option AvroType :=
  (Value.parse? text).bind fun value => (Content.ofValue value).type

/-! ## What is written for a part -/

namespace Content

/-- A text is found again in its value. -/
@[simp] theorem text_ofValue_text (s : String) : (ofValue (.text s)).text = some s := rfl

/-- A number is found again in its value. -/
@[simp] theorem number_ofValue_nat (n : Nat) : (ofValue (.nat n)).number = some n := by
  rw [Value.nat, ofValue, Text.natText, String.toList_ofList, Text.nat?_natDigits]

theorem ofItems_eq_map (items : List Value) : ofItems items = items.map ofValue := by
  induction items with
  | nil => rfl
  | cons item items ih => rw [ofItems, List.map_cons, ih]

/-- A list of texts is found again in its value. -/
@[simp] theorem texts_ofValue_textsValue (texts : List String) :
    (ofValue (AvroType.textsValue texts)).texts = some texts := by
  have hread : (Content.text ∘ ofValue) ∘ Value.text = fun s => pure s := rfl
  rw [AvroType.textsValue, ofValue, ofItems_eq_map, List.mapM_map, List.mapM_map, hread,
    List.mapM_pure, List.map_id']
  rfl

/-- The attribute `key` behind the member of another one, or at its own member. -/
@[simp] theorem lookup_member_cons (key other : String) (value : Value)
    (rest : List (Option String × Value)) :
    (ofMembers (member other value :: rest)).lookup (some key) =
      if key = other then some (ofValue value) else (ofMembers rest).lookup (some key) := by
  rw [member, ofMembers, List.lookup_cons]
  by_cases h : key = other
  · simp [h]
  · simp [h, beq_eq_false_iff_ne.2 h]

/-- The attribute `key` behind another one that may be left out, or its own. -/
@[simp] theorem lookup_optional_append {α : Type} (key other : String) (value : Option α)
    (write : α → Value) (rest : List (Option String × Value)) :
    (ofMembers (AvroType.optional other value write ++ rest)).lookup (some key) =
      if key = other then
        (value.map fun a => ofValue (write a)).or ((ofMembers rest).lookup (some key))
      else (ofMembers rest).lookup (some key) := by
  cases value with
  | none => simp [AvroType.optional]
  | some a => by_cases h : key = other <;> simp [AvroType.optional, h]

/-- An attribute that may be left out is found under its own key, if it is there. -/
@[simp] theorem lookup_optional {α : Type} (key other : String) (value : Option α)
    (write : α → Value) :
    (ofMembers (AvroType.optional other value write)).lookup (some key) =
      if key = other then value.map fun a => ofValue (write a) else none := by
  simpa [ofMembers] using lookup_optional_append key other value write []

@[simp] theorem lookup_nil (key : String) : (ofMembers []).lookup (some key) = none := rfl

end Content

namespace Attributes

variable {α : Type} {attributes : Attributes} {key : String} {part : Content → Option α}

/-- An attribute that is found and taken is there. -/
theorem required_eq_some {value : Value} {a : α}
    (hlookup : attributes.lookup (some key) = some (Content.ofValue value))
    (hpart : part (Content.ofValue value) = some a) : attributes.required key part = some a := by
  rw [required, hlookup, Option.bind_some, hpart]

/-- An attribute that may be left out is there or left out as it was. -/
theorem optional_eq_some {write : α → Value} {value : Option α}
    (hlookup : attributes.lookup (some key) = value.map fun a => Content.ofValue (write a))
    (hpart : ∀ a, part (Content.ofValue (write a)) = some a) :
    attributes.optional key part = some value := by
  rw [optional, hlookup]
  cases value with
  | none => rfl
  | some a => exact congrArg (Option.map some) (hpart a)

/-- An attribute that is there is found. -/
theorem isSome_lookup {a : α} (h : attributes.required key part = some a) :
    (attributes.lookup (some key)).isSome = true := by
  obtain ⟨content, hcontent, -⟩ := Option.bind_eq_some_iff.1 h
  rw [hcontent, Option.isSome_some]

variable {type name : String} {space doc : Option String}

/-- A field is put together from its attributes. -/
theorem field?_eq_some {fieldType : AvroType}
    (hname : attributes.required "name" Content.text = some name)
    (hdoc : attributes.optional "doc" Content.text = some doc)
    (htype : attributes.required "type" Content.type = some fieldType) :
    attributes.field? = some ⟨name, doc, fieldType⟩ := by
  rw [field?, hname, hdoc, htype]
  rfl

/-- Attributes with a logical name are of a logical type. -/
theorem type?_eq_logical {precision scale size : Option Nat}
    (htype : attributes.required "type" Content.text = some type)
    (hname : attributes.required "logicalType" Content.text = some name)
    (hprecision : attributes.optional "precision" Content.number = some precision)
    (hscale : attributes.optional "scale" Content.number = some scale)
    (hsize : attributes.optional "size" Content.number = some size) :
    attributes.type? = some (.logical type name precision scale size) := by
  rw [type?, htype, Option.bind_eq_bind, Option.bind_some, if_pos (isSome_lookup hname), hname,
    hprecision, hscale, hsize]
  rfl

/-- Attributes with fields, and without a logical name, are of a record. -/
theorem type?_eq_record {aliases : Option (List String)} {fields : List (RecordField AvroType)}
    (hlogical : attributes.lookup (some "logicalType") = none)
    (htype : attributes.required "type" Content.text = some type)
    (hname : attributes.required "name" Content.text = some name)
    (hspace : attributes.optional "namespace" Content.text = some space)
    (hdoc : attributes.optional "doc" Content.text = some doc)
    (haliases : attributes.optional "aliases" Content.texts = some aliases)
    (hfields : attributes.required "fields" Content.fields = some fields) :
    attributes.type? = some (.record type name space doc aliases fields) := by
  rw [type?, htype, Option.bind_eq_bind, Option.bind_some, hlogical,
    if_neg (by decide), if_pos (isSome_lookup hfields), hname, hspace, hdoc, haliases, hfields]
  rfl

/-- Attributes with symbols, and with neither fields nor a logical name, are of an enum. -/
theorem type?_eq_enum {symbols : List String}
    (hlogical : attributes.lookup (some "logicalType") = none)
    (hfields : attributes.lookup (some "fields") = none)
    (htype : attributes.required "type" Content.text = some type)
    (hname : attributes.required "name" Content.text = some name)
    (hspace : attributes.optional "namespace" Content.text = some space)
    (hsymbols : attributes.required "symbols" Content.texts = some symbols) :
    attributes.type? = some (.enum type name space symbols) := by
  rw [type?, htype, Option.bind_eq_bind, Option.bind_some, hlogical, hfields,
    if_neg (by decide), if_neg (by decide), hname, hspace, hsymbols]
  rfl

end Attributes

/-! ## Types -/

namespace AvroType

open Attributes (required_eq_some optional_eq_some isSome_lookup)
open Content (ofValue ofItems number_ofValue_nat text_ofValue_text texts_ofValue_textsValue)

mutual

/-- **A type is read back from its value.** -/
theorem type_ofValue_toValue (type : AvroType) : (ofValue type.toValue).type = some type := by
  cases type with
  | named name => rfl
  | logical base name precision scale size =>
    rw [toValue, ofValue]
    exact Attributes.type?_eq_logical (required_eq_some (by simp) (text_ofValue_text base))
      (required_eq_some (by simp) (text_ofValue_text name))
      (optional_eq_some (by simp) number_ofValue_nat)
      (optional_eq_some (by simp) number_ofValue_nat)
      (optional_eq_some (by simp) number_ofValue_nat)
  | record type name space doc aliases fields =>
    have hfields : (ofValue (.array (fieldValues fields))).fields = some fields := by
      rw [ofValue, fields_ofItems_fieldValues]
    rw [toValue, ofValue]
    exact Attributes.type?_eq_record (by simp) (required_eq_some (by simp) (text_ofValue_text type))
      (required_eq_some (by simp) (text_ofValue_text name))
      (optional_eq_some (by simp) text_ofValue_text)
      (optional_eq_some (by simp) text_ofValue_text)
      (optional_eq_some (by simp) texts_ofValue_textsValue)
      (required_eq_some (by simp) hfields)
  | enum type name space symbols =>
    rw [toValue, ofValue]
    exact Attributes.type?_eq_enum (by simp) (by simp)
      (required_eq_some (by simp) (text_ofValue_text type))
      (required_eq_some (by simp) (text_ofValue_text name))
      (optional_eq_some (by simp) text_ofValue_text)
      (required_eq_some (by simp) (texts_ofValue_textsValue symbols))
  | union branches =>
    rw [toValue, ofValue, types_ofItems_branchValues, Option.map_some]

/-- Branches are found again in their values. -/
theorem types_ofItems_branchValues (types : List AvroType) :
    (ofItems (branchValues types)).mapM Content.type = some types := by
  cases types with
  | nil => rfl
  | cons type types =>
    rw [branchValues, ofItems, List.mapM_cons, type_ofValue_toValue, types_ofItems_branchValues]
    rfl

/-- Fields are found again in their values. -/
theorem fields_ofItems_fieldValues (fields : List (RecordField AvroType)) :
    (ofItems (fieldValues fields)).mapM Content.field = some fields := by
  cases fields with
  | nil => rfl
  | cons field fields =>
    rw [fieldValues, ofItems, List.mapM_cons, field_ofValue_fieldValue, fields_ofItems_fieldValues]
    rfl

/-- A field is found again in its value. -/
theorem field_ofValue_fieldValue (field : RecordField AvroType) :
    (ofValue (fieldValue field)).field = some field := by
  obtain ⟨name, doc, type⟩ := field
  rw [fieldValue, ofValue]
  exact Attributes.field?_eq_some (required_eq_some (by simp) (text_ofValue_text name))
    (optional_eq_some (by simp) text_ofValue_text)
    (required_eq_some (by simp) (type_ofValue_toValue type))

end

/-- A type is read back from its text, on a line of any indentation. -/
theorem ofChars?_layout (type : AvroType) (indent : Nat) :
    ofChars? (layout indent type) = some type := by
  have hparse := Value.parse?_of_spells (fun _ => Json.isSpace_of_isFiller)
    (spells_layout type indent)
  rw [ofChars?, hparse, Option.bind_some, type_ofValue_toValue]

/-- **Schema text is injective**: the text of a type is the text of no other, and the type can be
recovered from it. -/
theorem text_injective :
    Function.Injective text ∧ ∀ type : AvroType, ofChars? type.text.toList = some type := by
  have hread (type : AvroType) : ofChars? type.text.toList = some type := by
    rw [text, String.toList_ofList, ofChars?_layout]
  refine ⟨fun type other h => ?_, hread⟩
  rw [← Option.some_inj, ← hread type, h, hread other]

end AvroType

end RelationalAvro.Avro
