import RelationalAvro.Fault
import RelationalAvro.Text.Blank
import RelationalAvro.Text.DecimalDigit

/-!
# Arguments of decimal column types

A decimal column type gives its precision and, optionally, its scale in parentheses, as in
`decimal(9,2)`. The first parenthesis that opens such a group counts. Digits of every script make up
a group, but only ASCII digits are read as numbers.
-/

namespace RelationalAvro

open Text (isBlank isDecimalDigit natText)

/-- The digits of precision and scale, as they are written. -/
structure DecimalGroup where
  precision : List Char
  scale : List Char
  deriving DecidableEq, Repr

namespace DecimalGroup

/-- The text without blanks in front. -/
def skipBlanks (text : List Char) : List Char :=
  text.dropWhile isBlank

/-- The text without a comma in front. -/
def skipComma : List Char → List Char
  | ',' :: rest => rest
  | text => text

/-- The group whose opening parenthesis stands right before the text: digits, perhaps a comma,
perhaps more digits, and the closing parenthesis, with blanks anywhere between them. -/
def opened? (text : List Char) : Option DecimalGroup :=
  let first := skipBlanks text
  let second := skipBlanks (skipComma (skipBlanks (first.dropWhile isDecimalDigit)))
  match first.takeWhile isDecimalDigit, skipBlanks (second.dropWhile isDecimalDigit) with
  | digit :: digits, ')' :: _ => some ⟨digit :: digits, second.takeWhile isDecimalDigit⟩
  | _, _ => none

/-- The group of the first parenthesis that opens one. -/
def find? : List Char → Option DecimalGroup
  | [] => none
  | c :: rest => if c = '(' then (opened? rest).or (find? rest) else find? rest

/-- The number that the digits denote, if they are ASCII and the number is not too large. -/
def number? (digits : List Char) : Option Nat :=
  (Text.nat? digits).filter fun n => n ≤ maxScale

/-- The precision and scale of a group; without digits for the scale it is `defaultScale`. -/
def read (defaultScale : Nat) (group : DecimalGroup) : Except Fault (Nat × Nat) :=
  let outOfRange (reason : DecimalFault) : Fault :=
    .invalidDecimal reason (String.ofList group.precision) (String.ofList group.scale)
  match number? group.precision with
  | none => .error (outOfRange .precisionRange)
  | some precision =>
    match if group.scale.isEmpty then some defaultScale else number? group.scale with
    | none => .error (outOfRange .scaleRange)
    | some scale =>
      if precision = 0 then
        .error (.invalidDecimal .precisionZero (natText precision) (natText scale))
      else if precision < scale then
        .error (.invalidDecimal .scaleAbovePrecision (natText precision) (natText scale))
      else .ok (precision, scale)

end DecimalGroup

/-- The precision and scale of a decimal column type. -/
def decimalArguments (defaultScale : Nat) (columnType : String) : Except Fault (Nat × Nat) :=
  match DecimalGroup.find? columnType.toList with
  | none => .error (.missingPrecision columnType)
  | some group => group.read defaultScale

end RelationalAvro
