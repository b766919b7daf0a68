import RelationalAvro.Avro.Schema
import RelationalAvro.Json.Quoted
import RelationalAvro.Text.Decimal

/-!
# Layout of schema text

Records and enums are blocks: one attribute per line, two spaces deeper than the line that opens the
block. The fields of a record stand one per line, two spaces deeper again. Everything else stays on
its line, with a space after each comma and colon. A field that holds a block goes on at the
indentation of its own line:

    {
      "type": "record",
      "name": "User",
      "fields": [
        {"name": "id", "type": "int"},
        {"name": "suit", "type": {
          "type": "enum",
          "name": "Suit",
          "symbols": ["SPADES", "HEARTS"]
        }}
      ]
    }
-/

namespace RelationalAvro.Avro

open Json (quoted)
open Text (natDigits)

/-- The pieces, with `between` between each two. -/
def separated (between : List Char) : List (List Char) → List Char
  | [] => []
  | [piece] => piece
  | piece :: next :: pieces => piece ++ (between ++ separated between (next :: pieces))

/-- A line break and the indentation of the next line. -/
def newline (indent : Nat) : List Char :=
  '\n' :: List.replicate indent ' '

/-- A key and the text of its value. -/
def entry (key : String) (value : List Char) : List Char :=
  quoted key ++ ':' :: ' ' :: value

/-- The entry for a value that may be absent. -/
def optionalEntry {α : Type} (key : String) (value : Option α) (write : α → List Char) :
    List (List Char) :=
  value.toList.map fun v => entry key (write v)

/-- Pieces on one line, between `opening` and `closing`. -/
def inline (opening closing : Char) (pieces : List (List Char)) : List Char :=
  opening :: (separated [',', ' '] pieces ++ [closing])

/-- Pieces on lines of their own, two spaces deeper than the lines with `opening` and `closing`. -/
def block (opening closing : Char) (indent : Nat) (pieces : List (List Char)) : List Char :=
  opening :: (newline (indent + 2) ++ (separated (',' :: newline (indent + 2)) pieces ++
    (newline indent ++ [closing])))

/-- A list of texts on one line. -/
def textList (texts : List String) : List Char :=
  inline '[' ']' (texts.map quoted)

/-- A list opened on a line indented by `indent`, one piece per line. -/
def lineList (indent : Nat) : List (List Char) → List Char
  | [] => ['[', ']']
  | lines => block '[' ']' indent lines

namespace AvroType

mutual

/-- The text of a type on a line indented by `indent`. -/
def layout (indent : Nat) : AvroType → List Char
  | .named name => quoted name
  | .logical base name precision scale size =>
    inline '{' '}'
      ([entry "type" (quoted base), entry "logicalType" (quoted name)]
        ++ optionalEntry "precision" precision natDigits
        ++ optionalEntry "scale" scale natDigits
        ++ optionalEntry "size" size natDigits)
  | .record type name space doc aliases fields =>
    block '{' '}' indent
      ([entry "type" (quoted type), entry "name" (quoted name)]
        ++ optionalEntry "namespace" space quoted
        ++ optionalEntry "doc" doc quoted
        ++ optionalEntry "aliases" aliases textList
        ++ [entry "fields" (lineList (indent + 2) (fieldTexts (indent + 4) fields))])
  | .enum type name space symbols =>
    block '{' '}' indent
      ([entry "type" (quoted type), entry "name" (quoted name)]
        ++ optionalEntry "namespace" space quoted
        ++ [entry "symbols" (textList symbols)])
  | .union branches => inline '[' ']' (branchTexts indent branches)

/-- The texts of the branches of a union. -/
def branchTexts (indent : Nat) : List AvroType → List (List Char)
  | [] => []
  | type :: types => layout indent type :: branchTexts indent types

/-- The texts of fields, each on a line indented by `indent`. -/
def fieldTexts (indent : Nat) : List (RecordField AvroType) → List (List Char)
  | [] => []
  | field :: fields => fieldText indent field :: fieldTexts indent fields

/-- The text of a field on a line indented by `indent`. -/
def fieldText (indent : Nat) : RecordField AvroType → List Char
  | ⟨name, doc, type⟩ =>
    inline '{' '}'
      ([entry "name" (quoted name)] ++ optionalEntry "doc" doc quoted
        ++ [entry "type" (layout indent type)])

end

/-- The text of a schema that stands alone. -/
def text (type : AvroType) : String :=
  String.ofList (layout 0 type)

end AvroType

end RelationalAvro.Avro
