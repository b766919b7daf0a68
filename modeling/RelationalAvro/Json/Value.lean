import RelationalAvro.Json.Token
import RelationalAvro.Text.Decimal

/-!
# Document values

A document denotes a value: a tree of arrays and objects over literals, numbers and texts. Members
of an object keep their order and their repetitions. `Value.tokens` is the grammar: a sequence of
tokens is a document exactly if it is the sequence of some value.
-/

namespace RelationalAvro.Json

/-- What a document denotes. Numbers keep their spelling; a text is absent if it is spelled with
half of a surrogate pair. -/
inductive Value where
  | null
  | bool (b : Bool)
  | number (word : String)
  | string (text : Option String)
  | array (items : List Value)
  | object (members : List (Option String × Value))
  deriving Repr

namespace Value

/-- A text as a value. -/
def text (s : String) : Value :=
  .string (some s)

/-- A natural as a value. -/
def nat (n : Nat) : Value :=
  .number (Text.natText n)

/-- A member of an object. -/
def member (key : String) (value : Value) : Option String × Value :=
  (some key, value)

mutual

/-- The tokens of a document that denotes the value. -/
def tokens : Value → List Token
  | .null => [.null]
  | .bool b => [.bool b]
  | .number word => [.number word]
  | .string text => [.quoted text]
  | .array items => .openArray :: (itemTokens items ++ [.closeArray])
  | .object members => .openObject :: (memberTokens members ++ [.closeObject])

/-- The tokens of the items of an array, with commas between them. -/
def itemTokens : List Value → List Token
  | [] => []
  | item :: items => tokens item ++ furtherItemTokens items

/-- The tokens of the items that follow an item. -/
def furtherItemTokens : List Value → List Token
  | [] => []
  | item :: items => .comma :: (tokens item ++ furtherItemTokens items)

/-- The tokens of the members of an object, with commas between them. -/
def memberTokens : List (Option String × Value) → List Token
  | [] => []
  | (key, value) :: members =>
    .quoted key :: .colon :: (tokens value ++ furtherMemberTokens members)

/-- The tokens of the members that follow a member. -/
def furtherMemberTokens : List (Option String × Value) → List Token
  | [] => []
  | (key, value) :: members =>
    .comma :: .quoted key :: .colon :: (tokens value ++ furtherMemberTokens members)

end

/-- The document that denotes the value and has no blanks. -/
def compact (value : Value) : List Char :=
  value.tokens.flatMap Token.chars

end Value

end RelationalAvro.Json
