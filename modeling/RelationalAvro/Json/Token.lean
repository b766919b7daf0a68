import RelationalAvro.Json.Quoted

/-!
# Tokens

A document is first cut into tokens: brackets, separators, words (numbers and the three literals)
and quoted texts. The cut is made by a machine that reads one character at a time, so what it does
with a text made of two pieces is what it does with the second piece after the first.

A quoted text may spell half of a surrogate pair. Such a text denotes no string; its token says so,
and whether that matters is decided by whoever uses it.
-/

namespace RelationalAvro.Json

/-- A lexical unit of a document. The text of a quoted token is absent if the quotes hold half of a
surrogate pair. -/
inductive Token where
  | openArray
  | closeArray
  | openObject
  | closeObject
  | colon
  | comma
  | null
  | bool (b : Bool)
  | number (word : String)
  | quoted (text : Option String)
  deriving DecidableEq, Repr

/-! ## Words -/

/-- Does a run of characters end as a number may end after its fraction: at once, or in an
exponent? -/
def isExponent : List Char → Bool
  | [] => true
  | e :: '+' :: digits => (e == 'e' || e == 'E') && !digits.isEmpty && digits.all Char.isDigit
  | e :: '-' :: digits => (e == 'e' || e == 'E') && !digits.isEmpty && digits.all Char.isDigit
  | e :: digits => (e == 'e' || e == 'E') && !digits.isEmpty && digits.all Char.isDigit

/-- Does a run of characters end as a number may end after its integer part: in an exponent, or in
a fraction and an exponent? -/
def isFraction : List Char → Bool
  | '.' :: digit :: rest => digit.isDigit && isExponent (rest.dropWhile Char.isDigit)
  | rest => isExponent rest

/-- Is the run of characters an unsigned number, without superfluous zeros in front? -/
def isUnsigned : List Char → Bool
  | [] => false
  | '0' :: rest => isFraction rest
  | digit :: rest => digit.isDigit && isFraction (rest.dropWhile Char.isDigit)

/-- Is the run of characters a number? -/
def isNumber : List Char → Bool
  | '-' :: rest => isUnsigned rest
  | rest => isUnsigned rest

/-- May `c` stand in a word? -/
def isWordChar (c : Char) : Bool :=
  c.isAlphanum || c == '+' || c == '-' || c == '.'

/-- The token that a word spells. -/
def Token.ofWord? (word : List Char) : Option Token :=
  if word = "null".toList then some .null
  else if word = "true".toList then some (.bool true)
  else if word = "false".toList then some (.bool false)
  else if isNumber word then some (.number (String.ofList word))
  else none

/-! ## Quoted texts -/

/-- One unit of a quoted text: a character, or half of a surrogate pair that a numbered escape
names. -/
inductive Element where
  | char (c : Char)
  | half (code : Nat)
  deriving DecidableEq, Repr

/-- Is the code one that opens a surrogate pair? -/
def isHighHalf (code : Nat) : Bool :=
  decide (0xD800 ≤ code) && decide (code ≤ 0xDBFF)

/-- Is the code one that closes a surrogate pair? -/
def isLowHalf (code : Nat) : Bool :=
  decide (0xDC00 ≤ code) && decide (code ≤ 0xDFFF)

/-- The unit that a numbered escape names. -/
def Element.ofCode (code : Nat) : Element :=
  if isHighHalf code || isLowHalf code then .half code else .char (Char.ofNat code)

/-- The character of a surrogate pair. -/
def pairedChar (high low : Nat) : Char :=
  Char.ofNat (0x10000 + (high - 0xD800) * 0x400 + (low - 0xDC00))

/-- The characters of a quoted text, from its units in reverse: the halves must pair up. `after` is
what follows the units. -/
def textBefore (after : List Char) : List Element → Option (List Char)
  | [] => some after
  | .char c :: units => textBefore (c :: after) units
  | .half low :: .half high :: units =>
    if isHighHalf high && isLowHalf low then textBefore (pairedChar high low :: after) units
    else none
  | .half _ :: _ => none

/-- The token of a quoted text, from its units in reverse. -/
def Token.ofUnits (units : List Element) : Token :=
  .quoted ((textBefore [] units).map String.ofList)

/-- The character that the letter `c` names after a backslash. -/
def shortEscape? : Char → Option Char
  | '"' => some '"'
  | '\\' => some '\\'
  | '/' => some '/'
  | 'b' => some '\x08'
  | 'f' => some '\x0c'
  | 'n' => some '\n'
  | 'r' => some '\r'
  | 't' => some '\t'
  | _ => none

/-- The value of a hexadecimal digit of either case. -/
def hexDigit? (c : Char) : Option Nat :=
  if c.isDigit then some (c.toNat - '0'.toNat)
  else if 'a' ≤ c ∧ c ≤ 'f' then some (c.toNat - 'a'.toNat + 10)
  else if 'A' ≤ c ∧ c ≤ 'F' then some (c.toNat - 'A'.toNat + 10)
  else none

/-! ## The machine -/

/-- Where in a token the machine stands. Word and units are kept in reverse; a numbered escape keeps
how many digits are still due and the value of those read. -/
inductive Mode where
  | between
  | word (seen : List Char)
  | inQuotes (units : List Element)
  | afterBackslash (units : List Element)
  | inNumbered (units : List Element) (due value : Nat)
  deriving DecidableEq, Repr

/-- The tokens completed so far, last one first, and the place in the token under way. -/
structure Scan where
  tokens : List Token
  mode : Mode
  deriving DecidableEq, Repr

/-- Is `c` one of the four blank characters of a document? -/
def isSpace (c : Char) : Bool :=
  c == ' ' || c == '\t' || c == '\n' || c == '\r'

/-- The token that a single character makes up. -/
def Token.ofPunctuation? : Char → Option Token
  | '[' => some .openArray
  | ']' => some .closeArray
  | '{' => some .openObject
  | '}' => some .closeObject
  | ':' => some .colon
  | ',' => some .comma
  | _ => none

/-- What the character `c` does between two tokens. -/
def Scan.start (tokens : List Token) (c : Char) : Option Scan :=
  if isSpace c then some ⟨tokens, .between⟩
  else if c = '"' then some ⟨tokens, .inQuotes []⟩
  else if isWordChar c then some ⟨tokens, .word [c]⟩
  else (Token.ofPunctuation? c).map fun t => ⟨t :: tokens, .between⟩

/-- One character of a document. -/
def Scan.step (scan : Scan) (c : Char) : Option Scan :=
  match scan.mode with
  | .between => Scan.start scan.tokens c
  | .word seen =>
    if isWordChar c then some ⟨scan.tokens, .word (c :: seen)⟩
    else (Token.ofWord? seen.reverse).bind fun t => Scan.start (t :: scan.tokens) c
  | .inQuotes units =>
    if c = '"' then some ⟨Token.ofUnits units :: scan.tokens, .between⟩
    else if c = '\\' then some ⟨scan.tokens, .afterBackslash units⟩
    else if c.toNat < 0x20 then none
    else some ⟨scan.tokens, .inQuotes (.char c :: units)⟩
  | .afterBackslash units =>
    if c = 'u' then some ⟨scan.tokens, .inNumbered units 4 0⟩
    else (shortEscape? c).map fun e => ⟨scan.tokens, .inQuotes (.char e :: units)⟩
  | .inNumbered units due value =>
    (hexDigit? c).map fun digit =>
      let value := 16 * value + digit
      if due ≤ 1 then ⟨scan.tokens, .inQuotes (Element.ofCode value :: units)⟩
      else ⟨scan.tokens, .inNumbered units (due - 1) value⟩

/-- The tokens of a text that ends here. -/
def Scan.finish? (scan : Scan) : Option (List Token) :=
  match scan.mode with
  | .between => some scan.tokens.reverse
  | .word seen => (Token.ofWord? seen.reverse).map fun t => (t :: scan.tokens).reverse
  | _ => none

/-- The tokens of a text, if it consists of tokens and blanks. -/
def Token.scan? (text : List Char) : Option (List Token) :=
  (text.foldlM Scan.step ⟨[], .between⟩).bind Scan.finish?

/-- How a token is written. Half of a pair is written as one that cannot be read as a text. -/
def Token.chars : Token → List Char
  | .openArray => ['[']
  | .closeArray => [']']
  | .openObject => ['{']
  | .closeObject => ['}']
  | .colon => [':']
  | .comma => [',']
  | .null => "null".toList
  | .bool true => "true".toList
  | .bool false => "false".toList
  | .number word => word.toList
  | .quoted (some text) => Json.quoted text
  | .quoted none => "\"\\ud800\"".toList

end RelationalAvro.Json
