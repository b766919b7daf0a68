import RelationalAvro.Json.Value

/-!
# Values of records

A record with named fields is given by an object or, more briefly, by an array of the values of its
fields in order. An object may hold further members, which are passed over, but names each field at
most once; an array may stop early, but holds nothing beyond the last field.
-/

namespace RelationalAvro.Json

/-- The fields that a document gives to a record, by name. -/
abbrev Fields := List (String × Value)

/-- The values that the value gives to the fields `names` of a record. All keys of an object must
denote texts, those that are passed over too. -/
def Value.fields? (names : List String) : Value → Option Fields
  | .array items => if items.length ≤ names.length then some (names.zip items) else none
  | .object members => do
    let named ← members.mapM fun m => m.1.map fun key => (key, m.2)
    let known := named.filter fun m => names.contains m.1
    if (known.map Prod.fst).Nodup then some known else none
  | _ => none

namespace Fields

/-- The field called `name`, which must be given. -/
def required {α : Type} (fields : Fields) (name : String) (read : Value → Option α) : Option α :=
  (fields.lookup name).bind read

/-- The field called `name`, or `default` if it is not given. -/
def orElse {α : Type} (fields : Fields) (name : String) (default : α) (read : Value → Option α) :
    Option α :=
  match fields.lookup name with
  | none => some default
  | some value => read value

end Fields

/-! ## Values of fields -/

/-- A text. -/
def Value.text? : Value → Option String
  | .string text => text
  | _ => none

/-- A text or null, which stands for no text. -/
def Value.optionalText? : Value → Option (Option String)
  | .null => some none
  | .string text => text.map some
  | _ => none

/-- A list whose items `read` takes. -/
def Value.list? {α : Type} (read : Value → Option α) : Value → Option (List α)
  | .array items => items.mapM read
  | _ => none

end RelationalAvro.Json
