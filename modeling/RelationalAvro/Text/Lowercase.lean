import RelationalAvro.Text.CaseRun
import RelationalAvro.Text.Cased

/-!
# Full lower-casing

Lower-casing maps a text character by character with two exceptions. The dotted capital I becomes
two characters, and a capital sigma becomes a final small sigma at the end of a word and a plain one
elsewhere, so its image depends on what stands around it. `lowercaseAfter` therefore carries the
text already passed, nearest character first.
-/

namespace RelationalAvro.Text

/-- Does the text, past any case-ignorable marks, go on with a cased letter? -/
def meetsCased (text : List Char) : Bool :=
  (text.find? fun c => !isCaseIgnorable c).any isCased

/-- A capital sigma ends its word if a cased letter comes before it and none comes after it. -/
def endsWord (before after : List Char) : Bool :=
  meetsCased before && !meetsCased after

/-- What the character `c` becomes between the texts `before`, read backwards, and `after`. -/
def lowercaseChar (before : List Char) (c : Char) (after : List Char) : List Char :=
  if c = 'Σ' then [if endsWord before after then 'ς' else 'σ']
  else if c = 'İ' then ['i', '\u0307']
  else [smallLetter c]

/-- The lower-cased text that follows `before`, which is read backwards. -/
def lowercaseAfter (before : List Char) : List Char → List Char
  | [] => []
  | c :: after => lowercaseChar before c after ++ lowercaseAfter (c :: before) after

/-- The text in lower case. -/
def lowercaseChars (text : List Char) : List Char :=
  lowercaseAfter [] text

/-- The text in lower case. -/
def lowercase (text : String) : String :=
  String.ofList (lowercaseChars text.toList)

@[simp] theorem toList_lowercase (text : String) :
    (lowercase text).toList = lowercaseChars text.toList := by
  simp [lowercase]

/-- The first character sees the rest of the text ahead; the rest sees it, unchanged, behind. -/
theorem lowercaseAfter_cons (before : List Char) (c : Char) (after : List Char) :
    lowercaseAfter before (c :: after) =
      lowercaseChar before c after ++ lowercaseAfter (c :: before) after := rfl

end RelationalAvro.Text
