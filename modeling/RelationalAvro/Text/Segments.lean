/-!
# Segments of a text

A text is cut at each occurrence of a separator. There is always at least one segment, and joining
the segments with the separator gives the text back.
-/

namespace RelationalAvro.Text

/-- The pieces of `text` between the occurrences of `sep`. -/
def segments (sep : Char) : List Char → List (List Char)
  | [] => [[]]
  | c :: rest =>
    match segments sep rest with
    | [] => [[c]]
    | piece :: pieces => if c = sep then [] :: piece :: pieces else (c :: piece) :: pieces

/-- The pieces, with `sep` between each two. -/
def joined (sep : Char) : List (List Char) → List Char
  | [] => []
  | [piece] => piece
  | piece :: next :: pieces => piece ++ sep :: joined sep (next :: pieces)

/-- The text before the first occurrence of `sep` and the text after it, if there is one. -/
def splitFirst (sep : Char) : List Char → Option (List Char × List Char)
  | [] => none
  | c :: rest =>
    if c = sep then some ([], rest)
    else (splitFirst sep rest).map fun halves => (c :: halves.1, halves.2)

/-- A text has at least one segment. -/
theorem segments_ne_nil (sep : Char) (text : List Char) : segments sep text ≠ [] := by
  induction text with
  | nil => simp [segments]
  | cons c rest ih =>
    obtain ⟨piece, pieces, h⟩ := List.exists_cons_of_ne_nil ih
    by_cases hc : c = sep <;> simp [segments, h, hc]

/-- Cutting loses nothing. -/
theorem joined_segments (sep : Char) (text : List Char) :
    joined sep (segments sep text) = text := by
  induction text with
  | nil => rfl
  | cons c rest ih =>
    obtain ⟨piece, pieces, h⟩ := List.exists_cons_of_ne_nil (segments_ne_nil sep rest)
    rw [h] at ih
    by_cases hc : c = sep
    · simp [segments, h, hc, joined, ih]
    · cases pieces with
      | nil => simpa [segments, h, hc, joined] using ih
      | cons q qs => simpa [segments, h, hc, joined] using ih

/-- What holds no separator belongs to the first segment of what comes after it. -/
theorem segments_append_of_not_mem {sep : Char} {text rest piece : List Char}
    {pieces : List (List Char)} (h : sep ∉ text) (hrest : segments sep rest = piece :: pieces) :
    segments sep (text ++ rest) = (text ++ piece) :: pieces := by
  induction text with
  | nil => exact hrest
  | cons c text ih =>
    rw [List.mem_cons, not_or] at h
    rw [List.cons_append, segments, ih h.2]
    exact if_neg (Ne.symm h.1)

/-- A text without the separator is in one piece. -/
theorem segments_of_not_mem {sep : Char} {text : List Char} (h : sep ∉ text) :
    segments sep text = [text] := by
  simpa using (segments_append_of_not_mem h rfl : segments sep (text ++ []) = _)

/-- A separator divides the segments before it from those after it. -/
theorem segments_append_separator (sep : Char) (text rest : List Char) :
    segments sep (text ++ sep :: rest) = segments sep text ++ segments sep rest := by
  induction text with
  | nil =>
    obtain ⟨p, ps, hp⟩ := List.exists_cons_of_ne_nil (segments_ne_nil sep rest)
    simp [segments, hp]
  | cons c text ih =>
    obtain ⟨p, ps, hp⟩ := List.exists_cons_of_ne_nil (segments_ne_nil sep text)
    by_cases hc : c = sep <;> simp [segments, ih, hp, hc]

/-- What comes after the last separator is the last segment. -/
theorem segments_append_cons {sep : Char} (text : List Char) {piece : List Char}
    (h : sep ∉ piece) : segments sep (text ++ sep :: piece) = segments sep text ++ [piece] := by
  rw [segments_append_separator, segments_of_not_mem h]

/-- Pieces without the separator are the segments of what they are joined to. -/
theorem segments_joined {sep : Char} {pieces : List (List Char)} (hne : pieces ≠ [])
    (h : ∀ piece ∈ pieces, sep ∉ piece) : segments sep (joined sep pieces) = pieces := by
  induction pieces with
  | nil => exact absurd rfl hne
  | cons piece pieces ih =>
    rw [List.forall_mem_cons] at h
    cases pieces with
    | nil => exact segments_of_not_mem h.1
    | cons next pieces =>
      rw [joined, segments_append_separator, segments_of_not_mem h.1, ih (by simp) h.2]
      rfl

/-- Joining pieces puts the separator between them. -/
theorem joined_eq_intercalate (sep : Char) (pieces : List (List Char)) :
    joined sep pieces = [sep].intercalate pieces := by
  fun_induction joined sep pieces with
  | case1 => rfl
  | case2 piece => simp
  | case3 piece next pieces ih => rw [ih, List.intercalate_cons_cons]; simp

/-- The two halves, with the separator between them, are the text, and the first half is free of
the separator. -/
theorem splitFirst_eq_some {sep : Char} {text before after : List Char}
    (h : splitFirst sep text = some (before, after)) :
    text = before ++ sep :: after ∧ sep ∉ before := by
  induction text generalizing before with
  | nil => simp [splitFirst] at h
  | cons c rest ih =>
    by_cases hc : c = sep
    · simp only [splitFirst, hc, ↓reduceIte, Option.some.injEq, Prod.mk.injEq] at h
      obtain ⟨rfl, rfl⟩ := h
      simp [hc]
    · simp only [splitFirst, hc, ↓reduceIte, Option.map_eq_some_iff] at h
      obtain ⟨⟨b, a⟩, hba, he⟩ := h
      simp only [Prod.mk.injEq] at he
      obtain ⟨rfl, rfl⟩ := he
      obtain ⟨rfl, hb⟩ := ih hba
      exact ⟨rfl, by simp [Ne.symm hc, hb]⟩

/-- A text has no halves exactly if it is free of the separator. -/
theorem splitFirst_eq_none_iff {sep : Char} {text : List Char} :
    splitFirst sep text = none ↔ sep ∉ text := by
  induction text with
  | nil => simp [splitFirst]
  | cons c rest ih =>
    by_cases hc : c = sep
    · simp [splitFirst, hc]
    · simp [splitFirst, hc, ih, Ne.symm hc]

/-- A separator comes first if there is none before it. -/
theorem splitFirst_append_cons {sep : Char} {before : List Char} (h : sep ∉ before)
    (after : List Char) : splitFirst sep (before ++ sep :: after) = some (before, after) := by
  induction before with
  | nil => simp [splitFirst]
  | cons c rest ih =>
    rw [List.mem_cons, not_or] at h
    simp [splitFirst, Ne.symm h.1, ih h.2]

end RelationalAvro.Text
