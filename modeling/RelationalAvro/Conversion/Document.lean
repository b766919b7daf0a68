import RelationalAvro.Conversion.Converter

/-!
# Schema documents

The result of a conversion is a list of documents: schema texts, each with the name of its table or
enum.
-/

namespace RelationalAvro

open Avro (AvroType)

/-- A schema text with the name it goes by. -/
structure Document where
  name : String
  text : String
  deriving DecidableEq, Repr

/-- The document of a schema. -/
def Document.ofSchema (schema : String × AvroType) : Document :=
  { name := schema.1, text := schema.2.text }

/-- The documents of a database: tables first, then enums. -/
def Converter.convert (converter : Converter) (database : Model.Database) :
    Except Fault (List Document) :=
  (converter.schemas database).map fun schemas => schemas.map Document.ofSchema

end RelationalAvro
