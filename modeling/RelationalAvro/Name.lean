import RelationalAvro.Text.Segments

/-!
# Names and namespaces

A name is an ASCII letter or underscore followed by ASCII letters, digits and underscores. A
namespace is empty or a run of names joined by dots. Names are put into schema text as they are, so
everything that needs escaping is refused here.
-/

namespace RelationalAvro

/-- May `c` open a name? -/
def isNameStart (c : Char) : Bool :=
  c.isAlpha || c == '_'

/-- May `c` stand inside a name? -/
def isNameChar (c : Char) : Bool :=
  c.isAlphanum || c == '_'

/-- Do the characters form a name? -/
def isNameChars : List Char → Bool
  | [] => false
  | c :: rest => isNameStart c && rest.all isNameChar

/-- Is the text a name? -/
def isName (text : String) : Bool :=
  isNameChars text.toList

/-- Do the characters form a namespace: nothing, or names joined by dots? -/
def isNamespaceChars (text : List Char) : Bool :=
  text.isEmpty || (Text.segments '.' text).all isNameChars

/-- Is the text a namespace? -/
def isNamespace (text : String) : Bool :=
  isNamespaceChars text.toList

/-- What a name may begin with it may also go on with. -/
theorem isNameChar_of_isNameStart {c : Char} (h : isNameStart c = true) : isNameChar c = true := by
  simp only [isNameStart, isNameChar, Char.isAlphanum, Bool.or_eq_true] at h ⊢
  exact h.imp Or.inl id

/-- Every character of a name is an ASCII letter, digit or underscore. -/
theorem isNameChar_of_mem {text : List Char} (h : isNameChars text = true) {c : Char}
    (hc : c ∈ text) : isNameChar c = true := by
  cases text with
  | nil => simp at hc
  | cons a rest =>
    simp only [isNameChars, Bool.and_eq_true, List.all_eq_true] at h
    rcases List.mem_cons.1 hc with rfl | hc
    · exact isNameChar_of_isNameStart h.1
    · exact h.2 c hc

end RelationalAvro
