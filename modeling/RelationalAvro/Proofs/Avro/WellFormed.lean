import RelationalAvro.Avro.Schema
import RelationalAvro.Name

/-!
# Well-formed schemas

A strict reader of a schema refuses a record with two fields of one name, an enum with two symbols
of one name, an alias that is no name, and a second definition of a named type. What it looks at is
the schema itself and all types inside it (`AvroType.parts`), and the full names that these define
(`AvroType.definedNames`).
-/

namespace RelationalAvro.Avro.AvroType

mutual

/-- The type and all types inside it. -/
def parts : AvroType → List AvroType
  | .named name => [.named name]
  | .logical base name precision scale size => [.logical base name precision scale size]
  | .record type name space doc aliases fields =>
    .record type name space doc aliases fields :: partsOfFields fields
  | .enum type name space symbols => [.enum type name space symbols]
  | .union branches => .union branches :: partsOfBranches branches

/-- The branches of a union and all types inside them. -/
def partsOfBranches : List AvroType → List AvroType
  | [] => []
  | type :: types => type.parts ++ partsOfBranches types

/-- The types of fields and all types inside them. -/
def partsOfFields : List (RecordField AvroType) → List AvroType
  | [] => []
  | field :: fields => partsOfField field ++ partsOfFields fields

/-- The type of a field and all types inside it. -/
def partsOfField : RecordField AvroType → List AvroType
  | ⟨_, _, type⟩ => type.parts

end

mutual

/-- The full names that a type defines inside the namespace `space`: its own if it is a record or an
enum, and those of the types inside it. -/
def definedNames (space : Option String) : AvroType → List (Option String × String)
  | .named _ => []
  | .logical .. => []
  | .record _ name own _ _ fields =>
    (own.or space, name) :: definedNamesOfFields (own.or space) fields
  | .enum _ name own _ => [(own.or space, name)]
  | .union branches => definedNamesOfBranches space branches

/-- The full names that branches of a union define. -/
def definedNamesOfBranches (space : Option String) : List AvroType → List (Option String × String)
  | [] => []
  | type :: types => type.definedNames space ++ definedNamesOfBranches space types

/-- The full names that the types of fields define. -/
def definedNamesOfFields (space : Option String) :
    List (RecordField AvroType) → List (Option String × String)
  | [] => []
  | field :: fields => definedNamesOfField space field ++ definedNamesOfFields space fields

/-- The full names that the type of a field defines. -/
def definedNamesOfField (space : Option String) :
    RecordField AvroType → List (Option String × String)
  | ⟨_, _, type⟩ => type.definedNames space

end

/-- The names of the fields of a record. -/
def fieldNames : AvroType → List String
  | .record _ _ _ _ _ fields => fields.map RecordField.name
  | _ => []

/-- The aliases of a record. -/
def aliases : AvroType → List String
  | .record _ _ _ _ aliases _ => aliases.getD []
  | _ => []

/-- The symbols of an enum. -/
def symbols : AvroType → List String
  | .enum _ _ _ symbols => symbols
  | _ => []

/-- A schema that a strict reader does not refuse for its fields, symbols, aliases and definitions.
-/
structure IsWellFormed (type : AvroType) : Prop where
  fields_distinct : ∀ part ∈ type.parts, part.fieldNames.Nodup
  symbols_distinct : ∀ part ∈ type.parts, part.symbols.Nodup
  aliases_named : ∀ part ∈ type.parts, ∀ text ∈ part.aliases, isName text = true
  defined_once : (type.definedNames none).Nodup

/-! ## What is inside a type -/

/-- The parts of fields are those of their types. -/
theorem partsOfFields_eq (fields : List (RecordField AvroType)) :
    partsOfFields fields = fields.flatMap fun field => field.type.parts := by
  induction fields with
  | nil => rfl
  | cons field fields ih => rw [partsOfFields, List.flatMap_cons, ih, partsOfField]

/-- Fields define what their types define. -/
theorem definedNamesOfFields_eq (space : Option String) (fields : List (RecordField AvroType)) :
    definedNamesOfFields space fields =
      fields.flatMap fun field => field.type.definedNames space := by
  induction fields with
  | nil => rfl
  | cons field fields ih => rw [definedNamesOfFields, List.flatMap_cons, ih, definedNamesOfField]

/-- A record has itself and the parts of its fields. -/
theorem parts_record (type name : String) (space doc : Option String)
    (aliases : Option (List String)) (fields : List (RecordField AvroType)) :
    (record type name space doc aliases fields).parts =
      record type name space doc aliases fields ::
        fields.flatMap fun field => field.type.parts := by
  rw [parts, partsOfFields_eq]

/-- The types of the fields are inside the namespace that the record shows. -/
theorem definedNames_record (type name : String) (space doc : Option String)
    (aliases : Option (List String)) (fields : List (RecordField AvroType)) :
    (record type name space doc aliases fields).definedNames none =
      (space, name) :: fields.flatMap fun field => field.type.definedNames space := by
  rw [definedNames, definedNamesOfFields_eq, Option.or_none]

/-- A type or null has the parts of the type, the union and the name of null. -/
theorem parts_union_null (type : AvroType) :
    (union [type, .named "null"]).parts =
      union [type, .named "null"] :: (type.parts ++ [.named "null"]) := by
  rw [parts, partsOfBranches, partsOfBranches, partsOfBranches, parts]
  rfl

/-- A type or null defines what the type defines. -/
@[simp] theorem definedNames_union_null (space : Option String) (type : AvroType) :
    (union [type, .named "null"]).definedNames space = type.definedNames space := by
  rw [definedNames, definedNamesOfBranches, definedNamesOfBranches, definedNamesOfBranches,
    definedNames, List.append_nil, List.append_nil]

end RelationalAvro.Avro.AvroType
