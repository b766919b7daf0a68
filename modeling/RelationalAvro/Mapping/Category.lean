/-!
# Categories of Avro types

The category of a column type is either the name of a logical type, which annotates a base type, or
any other name, which stands for itself.
-/

namespace RelationalAvro

/-- The logical types with the base type that each one annotates. -/
def logicalBases : List (String × String) := [
  ("decimal", "bytes"),
  ("uuid", "string"),
  ("date", "int"),
  ("time-millis", "int"),
  ("time-micros", "long"),
  ("timestamp-millis", "long"),
  ("timestamp-micros", "long"),
  ("local-timestamp-millis", "long"),
  ("local-timestamp-micros", "long"),
  ("duration", "fixed")]

/-- The base type of a category that is a logical type. -/
def logicalBase? (category : String) : Option String :=
  logicalBases.lookup category

/-- The bytes of a duration. -/
def durationSize : Nat :=
  12

/-- The size that belongs to a category: only durations have one. -/
def sizeOf? (category : String) : Option Nat :=
  if category = "duration" then some durationSize else none

end RelationalAvro
