import RelationalAvro.Text.Decimal

/-!
# Faults

Everything that can make a conversion fail, by cause. `Fault.message` is the one place where the
causes are put into words.
-/

namespace RelationalAvro

/-- What is wrong with the arguments of a decimal column type. -/
inductive DecimalFault where
  | precisionRange
  | scaleRange
  | precisionZero
  | scaleAbovePrecision
  deriving DecidableEq, Repr

/-- The cause of a failure, with the text that is at fault. -/
inductive Fault where
  /-- The name of a table, column, enum or value is no name. -/
  | invalidName (name : String)
  /-- The namespace is no namespace. -/
  | invalidNamespace (space : String)
  /-- No type mapping takes the column type. -/
  | unmappedType (columnType : String)
  /-- A decimal column type has no precision. -/
  | missingPrecision (columnType : String)
  /-- The arguments of a decimal column type are out of bounds. -/
  | invalidDecimal (reason : DecimalFault) (precision scale : String)
  /-- The default scale is out of bounds. -/
  | invalidScale (scale : Int)
  /-- Two enums have the same name. -/
  | duplicateEnum (name : String)
  /-- Two documents would have the same file name. -/
  | duplicateOutput (name : String)
  /-- A file or directory could not be read, made or written. What the operating system says about
  it is not kept. -/
  | inaccessible
  /-- The model is not a document that gives a model. Where the document goes wrong, and how, is not
  kept. -/
  | malformedModel
  deriving DecidableEq, Repr

/-- The largest precision, scale or default scale. -/
def maxScale : Nat :=
  4294967295

/-- What is wrong with the arguments, in words. -/
def DecimalFault.message : DecimalFault → String
  | .precisionRange => "precision is out of range"
  | .scaleRange => "scale is out of range"
  | .precisionZero => "precision must be positive"
  | .scaleAbovePrecision => "scale must not exceed precision"

/-- What is wrong with a default scale, in words. -/
def scaleMessage (scale : Int) : String :=
  if scale < 0 then "Scale must be zero or a positive integer"
  else "Scale exceeds the supported maximum of " ++ Text.natText maxScale

/-- The cause of a failure, in words. The last two causes have no details to name. -/
def Fault.message : Fault → String
  | .invalidName name => "Invalid name: " ++ name
  | .invalidNamespace space => "Invalid namespace: " ++ space
  | .unmappedType columnType => "Unmapped type: " ++ columnType
  | .missingPrecision columnType => "Unspecified precision of type decimal: " ++ columnType
  | .invalidDecimal reason precision scale =>
    "Invalid decimal arguments: " ++ reason.message ++ " (precision: " ++ precision
      ++ ", scale: " ++ scale ++ ")"
  | .invalidScale scale => scaleMessage scale ++ ", got " ++ Text.intText scale
  | .duplicateEnum name => "Duplicate enum: " ++ name
  | .duplicateOutput name => "Duplicate output name: " ++ name
  | .inaccessible => "IO error"
  | .malformedModel => "JSON error"

end RelationalAvro
