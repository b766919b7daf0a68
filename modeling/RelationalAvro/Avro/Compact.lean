import RelationalAvro.Avro.Schema
import RelationalAvro.Json.Value

/-!
# Schemas as documents

The value that a schema is, as a document: the same attributes in the same order as in schema text.
`RelationalAvro.Avro.Layout` lays out the text without going through this value.
-/

namespace RelationalAvro.Avro.AvroType

open Json (Value)
open Json.Value (member nat)

/-- The value of a list of texts. -/
def textsValue (texts : List String) : Value :=
  .array (texts.map Value.text)

/-- The member for an attribute that may be left out. -/
def optional {α : Type} (key : String) (value : Option α) (write : α → Value) :
    List (Option String × Value) :=
  value.toList.map fun v => member key (write v)

mutual

/-- The value of a type. -/
def toValue : AvroType → Value
  | .named name => .text name
  | .logical base name precision scale size =>
    .object ([member "type" (.text base), member "logicalType" (.text name)]
      ++ optional "precision" precision nat
      ++ optional "scale" scale nat
      ++ optional "size" size nat)
  | .record type name space doc aliases fields =>
    .object ([member "type" (.text type), member "name" (.text name)]
      ++ optional "namespace" space Value.text
      ++ optional "doc" doc Value.text
      ++ optional "aliases" aliases textsValue
      ++ [member "fields" (.array (fieldValues fields))])
  | .enum type name space symbols =>
    .object ([member "type" (.text type), member "name" (.text name)]
      ++ optional "namespace" space Value.text
      ++ [member "symbols" (textsValue symbols)])
  | .union branches => .array (branchValues branches)

/-- The values of the branches of a union. -/
def branchValues : List AvroType → List Value
  | [] => []
  | type :: types => toValue type :: branchValues types

/-- The values of fields. -/
def fieldValues : List (RecordField AvroType) → List Value
  | [] => []
  | field :: fields => fieldValue field :: fieldValues fields

/-- The value of a field. -/
def fieldValue : RecordField AvroType → Value
  | ⟨name, doc, type⟩ =>
    .object ([member "name" (.text name)] ++ optional "doc" doc Value.text
      ++ [member "type" (toValue type)])

end

/-- The document of a schema, without blanks. -/
def json (type : AvroType) : String :=
  String.ofList type.toValue.compact

end RelationalAvro.Avro.AvroType
