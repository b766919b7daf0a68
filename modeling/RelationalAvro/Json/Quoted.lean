/-!
# Quoted text

A text is written between double quotes. Quotes, backslashes and control characters are escaped;
every other character, however exotic, stands for itself. A written text therefore holds no line
break.
-/

namespace RelationalAvro.Json

/-- How `c` is written between quotes: the short escape if there is one, a numbered escape for the
other control characters, and `c` itself otherwise. -/
def escaped (c : Char) : List Char :=
  match c with
  | '"' => ['\\', '"']
  | '\\' => ['\\', '\\']
  | '\x08' => ['\\', 'b']
  | '\t' => ['\\', 't']
  | '\n' => ['\\', 'n']
  | '\x0c' => ['\\', 'f']
  | '\r' => ['\\', 'r']
  | c =>
    if c.toNat < 0x20 then
      ['\\', 'u', '0', '0', Nat.digitChar (c.toNat / 16), Nat.digitChar (c.toNat % 16)]
    else [c]

/-- The text between double quotes. -/
def quotedChars (text : List Char) : List Char :=
  '"' :: (text.flatMap escaped ++ ['"'])

/-- The text between double quotes. -/
def quoted (text : String) : List Char :=
  quotedChars text.toList

end RelationalAvro.Json
