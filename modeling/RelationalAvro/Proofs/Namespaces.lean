import RelationalAvro.Name

/-!
# Which texts are namespaces

Nothing at all is a namespace, although no name is empty. Every other namespace is a list of names,
at least one, joined by dots. So the namespaces that are not empty are closed under joining by a
dot, and parts of one between dots are namespaces again: `isNamespace_grammar`.
-/

namespace RelationalAvro

/-- A name holds no dot. -/
theorem dot_not_mem_of_isNameChars {name : List Char} (h : isNameChars name = true) : '.' ∉ name :=
  fun hdot => absurd (isNameChar_of_mem h hdot) (by decide)

/-- The pieces between dots are names exactly if the whole is a namespace and not empty: without a
dot the empty text is one piece, which is no name. -/
theorem all_segments_isNameChars_iff {text : List Char} :
    (Text.segments '.' text).all isNameChars = true ↔ text ≠ [] ∧ isNamespaceChars text = true := by
  cases text with
  | nil => simp [Text.segments, isNameChars]
  | cons c rest => simp [isNamespaceChars]

/-- Names are the pieces of what they are joined to. -/
theorem isNamespace_intercalate {names : List String} (hne : names ≠ [])
    (h : ∀ name ∈ names, isName name = true) : isNamespace (".".intercalate names) = true := by
  have hpieces : ∀ piece ∈ names.map String.toList, isNameChars piece = true :=
    List.forall_mem_map.2 h
  have hjoined : (".".intercalate names).toList = Text.joined '.' (names.map String.toList) := by
    rw [String.toList_intercalate, Text.joined_eq_intercalate]
    rfl
  have hsegments : Text.segments '.' (".".intercalate names).toList = names.map String.toList := by
    rw [hjoined]
    exact Text.segments_joined (by simpa using hne) fun piece hpiece =>
      dot_not_mem_of_isNameChars (hpieces piece hpiece)
  rw [isNamespace]
  exact (all_segments_isNameChars_iff.1 (by rw [hsegments]; exact List.all_eq_true.2 hpieces)).2

/-- The namespaces are the empty text and the lists of names joined by dots. -/
theorem isNamespace_iff {text : String} :
    isNamespace text = true ↔ text = "" ∨ ∃ names : List String, names ≠ [] ∧
      (∀ name ∈ names, isName name = true) ∧ text = ".".intercalate names := by
  constructor
  · intro h
    by_cases hempty : text = ""
    · exact .inl hempty
    have hsegments : (Text.segments '.' text.toList).all isNameChars = true :=
      all_segments_isNameChars_iff.2 ⟨mt String.toList_eq_nil_iff.1 hempty, h⟩
    -- the names are the pieces between the dots
    refine .inr ⟨(Text.segments '.' text.toList).map String.ofList, ?_, ?_, ?_⟩
    · simpa using Text.segments_ne_nil '.' text.toList
    · rw [List.forall_mem_map]
      intro piece hpiece
      rw [isName, String.toList_ofList]
      exact List.all_eq_true.1 hsegments piece hpiece
    · refine String.toList_inj.1 ?_
      rw [String.toList_intercalate, List.map_map]
      have hid : String.toList ∘ String.ofList = id := funext fun _ => String.toList_ofList
      rw [hid, List.map_id]
      exact ((Text.joined_eq_intercalate '.' _).symm.trans
        (Text.joined_segments '.' text.toList)).symm
  · rintro (rfl | ⟨names, hne, hnames, rfl⟩)
    · rfl
    · exact isNamespace_intercalate hne hnames

/-- Two texts joined by a dot are a namespace exactly if both are, and neither is empty. -/
theorem isNamespace_append_dot_append (first second : String) :
    isNamespace (first ++ "." ++ second) = true ↔
      (first ≠ "" ∧ isNamespace first = true) ∧ second ≠ "" ∧ isNamespace second = true := by
  have hchars : (first ++ "." ++ second).toList = first.toList ++ '.' :: second.toList := by simp
  have hwhole : isNamespaceChars (first.toList ++ '.' :: second.toList) = true ↔
      (Text.segments '.' (first.toList ++ '.' :: second.toList)).all isNameChars = true := by
    rw [all_segments_isNameChars_iff, and_iff_right (by simp)]
  rw [isNamespace, hchars, hwhole, Text.segments_append_separator, List.all_append,
    Bool.and_eq_true, all_segments_isNameChars_iff, all_segments_isNameChars_iff]
  simp [isNamespace]

/-- **Which texts are namespaces**, and how they are put together. -/
theorem isNamespace_grammar :
    (∀ text, isNamespace text = true ↔ text = "" ∨ ∃ names : List String, names ≠ [] ∧
      (∀ name ∈ names, isName name = true) ∧ text = ".".intercalate names) ∧
    (∀ first second, isNamespace (first ++ "." ++ second) = true ↔
      (first ≠ "" ∧ isNamespace first = true) ∧ second ≠ "" ∧ isNamespace second = true) ∧
    (∀ text, isNamespace ("." ++ text) = false ∧ isNamespace (text ++ ".") = false) ∧
    ∀ first second, isNamespace (first ++ ".." ++ second) = false := by
  have hleading : ∀ text, isNamespace ("." ++ text) = false := fun text =>
    Bool.eq_false_iff.2 fun h =>
      ((isNamespace_append_dot_append "" text).1 (by simpa using h)).1.1 rfl
  have htrailing : ∀ text, isNamespace (text ++ ".") = false := fun text =>
    Bool.eq_false_iff.2 fun h =>
      ((isNamespace_append_dot_append text "").1 (by simpa using h)).2.1 rfl
  refine ⟨fun _ => isNamespace_iff, isNamespace_append_dot_append,
    fun text => ⟨hleading text, htrailing text⟩, fun first second => ?_⟩
  -- of two dots in a row the second leads what comes after the first
  have hdots : ".." = "." ++ "." := rfl
  refine Bool.eq_false_iff.2 fun h => ?_
  rw [hdots, ← String.append_assoc, String.append_assoc, isNamespace_append_dot_append,
    hleading] at h
  exact absurd h.2.2 (by decide)

end RelationalAvro
