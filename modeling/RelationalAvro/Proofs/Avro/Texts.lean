import RelationalAvro.Proofs.Avro.SchemaText

/-!
# Texts of a schema

Whatever stands between quotes in schema text is a key or a text of the schema. `AvroType.texts`
lists both in order and says of each what it is, and `AvroType.literals_tokens` says that the list
is complete: it holds one text for each string literal of the document, and so of the schema text,
which has the same tokens (`AvroType.scan?_text`).
-/

namespace RelationalAvro.Json

/-! ## Literals among tokens -/

/-- What is quoted among the tokens, in order. -/
def literals (tokens : List Token) : List (Option String) :=
  tokens.filterMap fun
    | .quoted text => some text
    | _ => none

/-- The literals are the texts of the quoted tokens. -/
theorem mem_literals {tokens : List Token} {text : Option String} :
    text ∈ literals tokens ↔ Token.quoted text ∈ tokens := by
  rw [literals, List.mem_filterMap]
  constructor
  · rintro ⟨t, ht, hquoted⟩
    cases t with
    | quoted other => exact Option.some.inj hquoted ▸ ht
    | _ => cases hquoted
  · exact fun h => ⟨_, h, rfl⟩

@[simp] theorem literals_append (tokens more : List Token) :
    literals (tokens ++ more) = literals tokens ++ literals more :=
  List.filterMap_append

/-- Commas are not quoted. -/
theorem literals_intercalate (parts : List (List Token)) :
    literals ([Token.comma].intercalate parts) = parts.flatMap literals := by
  induction parts with
  | nil => rfl
  | cons part parts ih =>
    cases parts with
    | nil => simp
    | cons next parts =>
      have hcomma : literals [Token.comma] = [] := rfl
      rw [List.intercalate_cons_cons, literals_append, literals_append, hcomma, List.append_nil, ih]
      rfl

/-- The literals of a member of an object: its key, and those of its value. -/
def memberLiterals (m : Option String × Value) : List (Option String) :=
  m.1 :: literals m.2.tokens

/-- The literals of an array are those of its items in order. -/
theorem literals_array (items : List Value) :
    literals (Value.array items).tokens = items.flatMap fun item => literals item.tokens := by
  have hclose : literals [Token.closeArray] = [] := rfl
  rw [Value.tokens_array]
  change literals (_ ++ _) = _
  rw [literals_append, literals_intercalate, hclose, List.append_nil, List.flatMap_map]

/-- The literals of an object are those of its members in order. -/
theorem literals_object (members : List (Option String × Value)) :
    literals (Value.object members).tokens = members.flatMap memberLiterals := by
  have hclose : literals [Token.closeObject] = [] := rfl
  rw [Value.tokens_object]
  change literals (_ ++ _) = _
  rw [literals_append, literals_intercalate, hclose, List.append_nil, List.flatMap_map]
  rfl

end RelationalAvro.Json

namespace RelationalAvro.Avro

open Json (Value literals memberLiterals literals_array literals_object)
open Json.Value (member)

/-! ## What a text is -/

/-- What a text in a schema is. -/
inductive TextRole where
  /-- A key of the document. -/
  | key
  /-- What kind of named type is defined, record or enum. -/
  | kind
  /-- The name of a record or an enum, where it is defined. -/
  | typeName
  /-- The name of a field of a record. -/
  | fieldName
  /-- A symbol of an enum. -/
  | symbol
  | space
  | doc
  /-- An alias of a record. -/
  | otherName
  /-- A bare name in place of a type. -/
  | reference
  /-- The type that a logical type annotates. -/
  | base
  | logicalName
  deriving DecidableEq, Repr

/-- Is the text a name that the schema defines? -/
def TextRole.IsIdentifier : TextRole → Prop
  | .typeName | .fieldName | .symbol => True
  | _ => False

/-- A text of a schema with what it is. -/
abbrev RoleText := TextRole × String

/-- The texts of an attribute that may be left out. -/
def optionalTexts {α : Type} (key : String) (value : Option α) (texts : α → List RoleText) :
    List RoleText :=
  value.toList.flatMap fun v => (.key, key) :: texts v

/-- What is so of the texts of an attribute that may be left out, if it is there. -/
theorem forall_mem_optionalTexts {α : Type} {p : RoleText → Prop} {key : String} {value : Option α}
    {texts : α → List RoleText} :
    (∀ entry ∈ optionalTexts key value texts, p entry) ↔
      ∀ v ∈ value, p (.key, key) ∧ ∀ entry ∈ texts v, p entry := by
  cases value <;> simp [optionalTexts]

namespace AvroType

mutual

/-- The texts of a schema, in order. -/
def texts : AvroType → List RoleText
  | .named name => [(.reference, name)]
  | .logical base name precision scale size =>
    [(.key, "type"), (.base, base), (.key, "logicalType"), (.logicalName, name)]
      ++ optionalTexts "precision" precision (fun _ => [])
      ++ optionalTexts "scale" scale (fun _ => [])
      ++ optionalTexts "size" size (fun _ => [])
  | .record type name space doc aliases fields =>
    [(.key, "type"), (.kind, type), (.key, "name"), (.typeName, name)]
      ++ optionalTexts "namespace" space (fun s => [(.space, s)])
      ++ optionalTexts "doc" doc (fun s => [(.doc, s)])
      ++ optionalTexts "aliases" aliases (fun list => list.map fun s => (.otherName, s))
      ++ (.key, "fields") :: textsOfFields fields
  | .enum type name space symbols =>
    [(.key, "type"), (.kind, type), (.key, "name"), (.typeName, name)]
      ++ optionalTexts "namespace" space (fun s => [(.space, s)])
      ++ (.key, "symbols") :: symbols.map fun s => (.symbol, s)
  | .union branches => textsOfBranches branches

/-- The texts of the branches of a union. -/
def textsOfBranches : List AvroType → List RoleText
  | [] => []
  | type :: types => type.texts ++ textsOfBranches types

/-- The texts of fields. -/
def textsOfFields : List (RecordField AvroType) → List RoleText
  | [] => []
  | field :: fields => textsOfField field ++ textsOfFields fields

/-- The texts of a field. -/
def textsOfField : RecordField AvroType → List RoleText
  | ⟨name, doc, type⟩ =>
    [(.key, "name"), (.fieldName, name)] ++ optionalTexts "doc" doc (fun s => [(.doc, s)])
      ++ (.key, "type") :: type.texts

end

/-- What is so of the texts of all fields. -/
theorem forall_mem_textsOfFields {p : RoleText → Prop} {fields : List (RecordField AvroType)} :
    (∀ entry ∈ textsOfFields fields, p entry) ↔
      ∀ field ∈ fields, ∀ entry ∈ textsOfField field, p entry := by
  induction fields with
  | nil => simp [textsOfFields]
  | cons field fields ih => rw [textsOfFields, List.forall_mem_append, ih, List.forall_mem_cons]

/-- A type or null has one more text. -/
theorem texts_union_null (type : AvroType) :
    (union [type, .named "null"]).texts = type.texts ++ [(.reference, "null")] := by
  simp [texts, textsOfBranches]

/-! ## All literals are texts -/

/-- The text of an entry, as a literal. -/
def literalOf (entry : RoleText) : Option String :=
  some entry.2

theorem literals_text (s : String) : literals (Value.text s).tokens = [some s] := rfl

theorem literals_nat (n : Nat) : literals (Value.nat n).tokens = [] := rfl

/-- A list of texts has the texts as its literals. -/
theorem literals_textsValue (list : List String) :
    literals (textsValue list).tokens = list.map some := by
  rw [textsValue, literals_array, List.flatMap_map, List.map_eq_flatMap]
  rfl

theorem memberLiterals_member (key : String) (value : Value) :
    memberLiterals (member key value) = some key :: literals value.tokens := rfl

/-- An attribute that may be left out has its key and its texts as literals, or nothing. -/
theorem literals_optional {α : Type} (key : String) {value : Option α} {write : α → Value}
    {texts : α → List RoleText} (h : ∀ a, literals (write a).tokens = (texts a).map literalOf) :
    (optional key value write).flatMap memberLiterals =
      (optionalTexts key value texts).map literalOf := by
  cases value with
  | none => rfl
  | some a => simp [optional, optionalTexts, memberLiterals_member, h, literalOf]

mutual

/-- **The literals of the document of a schema are its texts**, in order. -/
theorem literals_tokens (type : AvroType) :
    literals type.toValue.tokens = type.texts.map literalOf := by
  cases type with
  | named name => rfl
  | logical base name precision scale size =>
    have hnat : ∀ n, literals (Value.nat n).tokens = ([] : List RoleText).map literalOf :=
      literals_nat
    simp only [toValue, texts, literals_object, List.flatMap_append, List.map_append,
      literals_optional _ hnat]
    rfl
  | record type name space doc aliases fields =>
    -- the roles of texts are not in the tokens: each attribute says which role its text has
    have hspace : ∀ s, literals (Value.text s).tokens = [(TextRole.space, s)].map literalOf :=
      literals_text
    have hdoc : ∀ s, literals (Value.text s).tokens = [(TextRole.doc, s)].map literalOf :=
      literals_text
    have haliases : ∀ list : List String, literals (textsValue list).tokens =
        (list.map fun s => (TextRole.otherName, s)).map literalOf := by
      intro list
      rw [literals_textsValue, List.map_map]
      rfl
    simp only [toValue, texts, literals_object, List.flatMap_append, List.map_append,
      literals_optional "namespace" hspace, literals_optional "doc" hdoc,
      literals_optional "aliases" haliases,
      List.flatMap_cons, List.flatMap_nil, memberLiterals_member, literals_array,
      literals_fields fields, literals_text, List.append_nil]
    rfl
  | enum type name space symbols =>
    have hspace : ∀ s, literals (Value.text s).tokens = [(TextRole.space, s)].map literalOf :=
      literals_text
    simp only [toValue, texts, literals_object, List.flatMap_append, List.map_append,
      literals_optional "namespace" hspace, List.flatMap_cons, List.flatMap_nil,
      memberLiterals_member, literals_textsValue, literals_text, List.append_nil, List.map_cons,
      List.map_map]
    rfl
  | union branches =>
    rw [toValue, texts, literals_array]
    exact literals_branches branches

/-- The literals of branches are their texts. -/
theorem literals_branches (types : List AvroType) :
    (branchValues types).flatMap (fun value => literals value.tokens) =
      (textsOfBranches types).map literalOf := by
  cases types with
  | nil => rfl
  | cons type types =>
    rw [branchValues, textsOfBranches, List.flatMap_cons, List.map_append, literals_tokens type,
      literals_branches types]

/-- The literals of fields are their texts. -/
theorem literals_fields (fields : List (RecordField AvroType)) :
    (fieldValues fields).flatMap (fun value => literals value.tokens) =
      (textsOfFields fields).map literalOf := by
  cases fields with
  | nil => rfl
  | cons field fields =>
    rw [fieldValues, textsOfFields, List.flatMap_cons, List.map_append, literals_field field,
      literals_fields fields]

/-- The literals of a field are its texts. -/
theorem literals_field (field : RecordField AvroType) :
    literals (fieldValue field).tokens = (textsOfField field).map literalOf := by
  obtain ⟨name, doc, type⟩ := field
  have hdoc : ∀ s, literals (Value.text s).tokens = [(TextRole.doc, s)].map literalOf :=
    literals_text
  simp only [fieldValue, textsOfField, literals_object, List.flatMap_append, List.map_append,
    literals_optional "doc" hdoc, List.flatMap_cons, List.flatMap_nil, memberLiterals_member,
    literals_tokens type, literals_text, List.append_nil]
  rfl

end

/-- Schema text has the tokens of the document. -/
theorem scan?_text (type : AvroType) :
    Json.Token.scan? type.text.toList = some type.toValue.tokens := by
  rw [text, String.toList_ofList]
  exact Json.Token.scan?_of_spells (fun _ => Json.isSpace_of_isFiller) (spells_layout type 0)

end AvroType

end RelationalAvro.Avro
