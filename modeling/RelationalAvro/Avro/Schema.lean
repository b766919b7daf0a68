/-!
# Avro types

An Avro schema is a type: a bare name (of a primitive or of a named type defined elsewhere), a
logical type over a base, a record, an enum, or a union. Attributes that may be left out are
optional, and an absent list of aliases differs from an empty one. The text of the `type` attribute
is kept as it is, and the attribute for the namespace is called `space` here.
-/

namespace RelationalAvro.Avro

/-- A field of a record, over the types that fields may have. -/
structure RecordField (α : Type) where
  name : String
  doc : Option String := none
  type : α
  deriving DecidableEq, Repr

/-- An Avro type. -/
inductive AvroType where
  /-- A bare name. -/
  | named (name : String)
  /-- A logical type over the type called `base`. -/
  | logical (base name : String) (precision scale size : Option Nat)
  /-- A record. -/
  | record (type name : String) (space doc : Option String) (aliases : Option (List String))
      (fields : List (RecordField AvroType))
  /-- An enum. -/
  | enum (type name : String) (space : Option String) (symbols : List String)
  /-- A union of branches. -/
  | union (branches : List AvroType)
  deriving Repr

namespace AvroType

/-- A record of the given name, with at most one alias. -/
def ofFields (name : String) (space doc otherName : Option String)
    (fields : List (RecordField AvroType)) : AvroType :=
  .record "record" name space doc (otherName.map fun a => [a]) fields

/-- An enum of the given name. -/
def ofSymbols (name : String) (space : Option String) (symbols : List String) : AvroType :=
  .enum "enum" name space symbols

/-- The type or null, the type first. -/
def nullable (type : AvroType) : AvroType :=
  .union [type, .named "null"]

end AvroType

end RelationalAvro.Avro
