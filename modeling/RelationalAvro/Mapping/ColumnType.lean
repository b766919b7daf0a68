import RelationalAvro.Avro.Schema
import RelationalAvro.Config.Basic
import RelationalAvro.Mapping.Category
import RelationalAvro.Mapping.DecimalArguments
import RelationalAvro.Mapping.Selection

/-!
# Avro types of column types

A column type is matched in lower case, but its arguments are read as they are written, and so are
the texts that faults show.
-/

namespace RelationalAvro.Config

open Avro (AvroType)

/-- The category of a column type. -/
def category? (config : Config) (columnType : String) : Option String :=
  config.table.selectBy String.utf8ByteSize (Text.lowercaseChars columnType.toList)

/-- The Avro type of a column type of the given category. -/
def typeIn (config : Config) (category columnType : String) : Except Fault AvroType :=
  match logicalBase? category with
  | none => .ok (.named category)
  | some base =>
    if category = "decimal" then
      (decimalArguments config.defaultScale columnType).map fun arguments =>
        .logical base category (some arguments.1) (some arguments.2) none
    else .ok (.logical base category none none (sizeOf? category))

/-- The Avro type of a column type. -/
def typeOf (config : Config) (columnType : String) : Except Fault AvroType :=
  match config.category? columnType with
  | none => .error (.unmappedType columnType)
  | some category => config.typeIn category columnType

end RelationalAvro.Config
