import RelationalAvro.Text.CodeRange

/-!
# Blank characters

The characters with the property White_Space. They separate the arguments of a decimal column type,
and a namespace made of them alone counts as absent.
-/

namespace RelationalAvro.Text

/-- The code points of White_Space. -/
def blankRanges : List CodeRange := [
    ⟨0x9, 0xD⟩, ⟨0x20, 0x20⟩, ⟨0x85, 0x85⟩, ⟨0xA0, 0xA0⟩, ⟨0x1680, 0x1680⟩, ⟨0x2000, 0x200A⟩,
    ⟨0x2028, 0x2029⟩, ⟨0x202F, 0x202F⟩, ⟨0x205F, 0x205F⟩, ⟨0x3000, 0x3000⟩]

/-- Is `c` a white space character? -/
def isBlank (c : Char) : Bool :=
  inRanges blankRanges c

/-- Is the text empty but for white space? -/
def isAllBlank (text : String) : Bool :=
  text.toList.all isBlank

end RelationalAvro.Text
