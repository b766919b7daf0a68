import RelationalAvro.Proofs.Json.Spelling

/-!
# String literals in a text

A quote opens a string literal, and the next quote that no backslash escapes closes it. So it takes
a place out of three, passed on from character to character, to tell what stands in a literal.
`withoutFiller` deletes the spaces and line breaks that stand in none. Of a text that spells tokens
it leaves the tokens: `withoutFiller_of_spells`.
-/

namespace RelationalAvro.Json

/-- Where a character stands: outside string literals, in a literal, or in one right after a
backslash. -/
inductive Place where
  | outside
  | inside
  | escaped
  deriving DecidableEq, Repr

/-- The place after the character `c`. -/
def Place.after (place : Place) (c : Char) : Place :=
  match place with
  | .outside => if c = '"' then .inside else .outside
  | .inside => if c = '"' then .outside else if c = '\\' then .escaped else .inside
  | .escaped => .inside

/-- Is `c` a space or a line break? -/
def isFiller (c : Char) : Bool :=
  c == ' ' || c == '\n'

/-- Filler is blank. -/
theorem isSpace_of_isFiller {c : Char} (h : isFiller c = true) : isSpace c = true := by
  simp only [isFiller, Bool.or_eq_true, beq_iff_eq] at h
  rcases h with rfl | rfl <;> rfl

/-- The text that follows a place, without the spaces and line breaks outside string literals. -/
def withoutFillerAfter (place : Place) : List Char → List Char
  | [] => []
  | c :: rest =>
    if place = .outside ∧ isFiller c = true then withoutFillerAfter (place.after c) rest
    else c :: withoutFillerAfter (place.after c) rest

/-- The text without the spaces and line breaks outside string literals. -/
def withoutFiller (text : List Char) : List Char :=
  withoutFillerAfter .outside text

/-- Hexadecimal digits are neither quotes nor backslashes. -/
theorem digitChar_ne {n : Nat} (h : n < 16) :
    Nat.digitChar n ≠ '"' ∧ Nat.digitChar n ≠ '\\' := by
  have : ∀ m : Fin 16, Nat.digitChar m ≠ '"' ∧ Nat.digitChar m ≠ '\\' := by decide
  exact this ⟨n, h⟩

/-- An escaped character does not end a literal. -/
theorem withoutFillerAfter_escaped (c : Char) (rest : List Char) :
    withoutFillerAfter .inside (escaped c ++ rest) =
      escaped c ++ withoutFillerAfter .inside rest := by
  obtain ⟨he, hquote, hbackslash, -⟩ | ⟨e, he, -⟩ | ⟨hcontrol, he⟩ := escaped_cases c
  · simp [he, withoutFillerAfter, Place.after, hquote, hbackslash]
  · simp [he, withoutFillerAfter, Place.after]
  · have hhigh := digitChar_ne (show c.toNat / 16 < 16 by omega)
    have hlow := digitChar_ne (show c.toNat % 16 < 16 by omega)
    simp [he, withoutFillerAfter, Place.after, hhigh, hlow]

/-- Nothing is deleted in a literal. -/
theorem withoutFiller_quoted (text : String) (rest : List Char) :
    withoutFiller (quoted text ++ rest) = quoted text ++ withoutFiller rest := by
  have hbody : ∀ chars : List Char,
      withoutFillerAfter .inside (chars.flatMap escaped ++ '"' :: rest) =
        chars.flatMap escaped ++ '"' :: withoutFillerAfter .outside rest := by
    intro chars
    induction chars with
    | nil => rfl
    | cons c chars ih =>
      rw [List.flatMap_cons, List.append_assoc, withoutFillerAfter_escaped, ih, List.append_assoc]
  have hopen : ∀ body, withoutFiller ('"' :: body) = '"' :: withoutFillerAfter .inside body :=
    fun _ => rfl
  simp only [quoted, quotedChars, List.cons_append, List.append_assoc, List.nil_append,
    hopen, hbody]
  rfl

/-- Nothing is deleted in a word. -/
theorem withoutFiller_word {word : List Char} (h : ∀ c ∈ word, isWordChar c = true)
    (rest : List Char) : withoutFiller (word ++ rest) = word ++ withoutFiller rest := by
  induction word with
  | nil => rfl
  | cons c word ih =>
    rw [List.forall_mem_cons] at h
    have hfiller : isFiller c = false := by
      refine Bool.eq_false_iff.2 fun hfiller => ?_
      simp only [isFiller, Bool.or_eq_true, beq_iff_eq] at hfiller
      rcases hfiller with rfl | rfl <;> exact absurd h.1 (by decide)
    have hquote : c ≠ '"' := by
      rintro rfl
      exact absurd h.1 (by decide)
    have hafter : Place.outside.after c = .outside := if_neg hquote
    rw [List.cons_append, withoutFiller, withoutFillerAfter, if_neg (by simp [hfiller]), hafter]
    exact congrArg _ (ih h.2)

/-- Nothing is deleted in a token. -/
theorem withoutFiller_token {t : Token} (hsound : t.IsSound) (rest : List Char) :
    withoutFiller (t.chars ++ rest) = t.chars ++ withoutFiller rest := by
  by_cases hword : t.isWord = true
  · exact withoutFiller_word (Token.isWordChar_of_mem_chars hword hsound) rest
  · cases t with
    | quoted text =>
      cases text with
      | none => rfl
      | some text => exact withoutFiller_quoted text rest
    | null | bool | number => exact absurd rfl hword
    | _ => rfl

/-- **Without spaces and line breaks outside string literals**, a text that spells tokens is what
the tokens are written as. -/
theorem withoutFiller_of_spells {tokens : List Token} {text : List Char}
    (h : Spells isFiller tokens text) : withoutFiller text = tokens.flatMap Token.chars := by
  induction h with
  | nil => rfl
  | @blank c tokens text hblank _ ih =>
    have hquote : c ≠ '"' := by
      rintro rfl
      cases hblank
    have hafter : Place.outside.after c = .outside := if_neg hquote
    rw [withoutFiller, withoutFillerAfter, if_pos ⟨rfl, hblank⟩, hafter]
    exact ih
  | token hsound _ _ ih => rw [withoutFiller_token hsound, ih, List.flatMap_cons]

/-! ## Where a literal stands -/

/-- The place after a text that begins at the place. -/
def Place.afterAll (place : Place) (text : List Char) : Place :=
  text.foldl Place.after place

theorem Place.afterAll_append (place : Place) (text rest : List Char) :
    place.afterAll (text ++ rest) = (place.afterAll text).afterAll rest :=
  List.foldl_append

/-- An escaped character does not end a literal. -/
theorem Place.afterAll_escaped (c : Char) : Place.inside.afterAll (Json.escaped c) = .inside := by
  obtain ⟨he, hquote, hbackslash, -⟩ | ⟨e, he, -⟩ | ⟨hcontrol, he⟩ := escaped_cases c
  · simp [he, afterAll, after, hquote, hbackslash]
  · simp [he, afterAll, after]
  · have hhigh := digitChar_ne (show c.toNat / 16 < 16 by omega)
    have hlow := digitChar_ne (show c.toNat % 16 < 16 by omega)
    simp [he, afterAll, after, hhigh, hlow]

/-- After a literal a reader is outside again. -/
theorem Place.afterAll_quoted (text : String) :
    Place.outside.afterAll (quoted text) = .outside := by
  have hbody : ∀ chars : List Char,
      Place.inside.afterAll (chars.flatMap Json.escaped) = .inside := by
    intro chars
    induction chars with
    | nil => rfl
    | cons c chars ih => rw [List.flatMap_cons, afterAll_append, afterAll_escaped, ih]
  have hopen : ∀ body, Place.outside.afterAll ('"' :: body) = Place.inside.afterAll body :=
    fun _ => rfl
  rw [quoted, quotedChars, hopen, afterAll_append, hbody]
  rfl

/-- A word leaves a reader outside. -/
theorem Place.afterAll_word {word : List Char} (h : ∀ c ∈ word, isWordChar c = true) :
    Place.outside.afterAll word = .outside := by
  induction word with
  | nil => rfl
  | cons c word ih =>
    rw [List.forall_mem_cons] at h
    have hquote : c ≠ '"' := by
      rintro rfl
      exact absurd h.1 (by decide)
    have hafter : Place.outside.after c = .outside := if_neg hquote
    rw [afterAll, List.foldl_cons, hafter]
    exact ih h.2

/-- A token closes what it opens. -/
theorem Place.afterAll_token {t : Token} (hsound : t.IsSound) :
    Place.outside.afterAll t.chars = .outside := by
  by_cases hword : t.isWord = true
  · exact afterAll_word (Token.isWordChar_of_mem_chars hword hsound)
  · cases t with
    | quoted text =>
      cases text with
      | none => rfl
      | some text => exact afterAll_quoted text
    | null | bool | number => exact absurd rfl hword
    | _ => rfl

/-- The text holds the piece, and it begins outside of string literals. -/
def HoldsOutside (text piece : List Char) : Prop :=
  ∃ before after, text = before ++ (piece ++ after) ∧ Place.outside.afterAll before = .outside

/-- A text that spells tokens holds each of them outside of the string literals that others are. -/
theorem holdsOutside_of_spells {tokens : List Token} {text : List Char}
    (h : Spells isFiller tokens text) {t : Token} (ht : t ∈ tokens) :
    HoldsOutside text t.chars := by
  induction h with
  | nil => cases ht
  | @blank c tokens text hblank _ ih =>
    obtain ⟨before, after, rfl, hbefore⟩ := ih ht
    -- filler opens no literal
    have hquote : c ≠ '"' := by
      rintro rfl
      cases hblank
    have hafter : Place.outside.after c = .outside := if_neg hquote
    exact ⟨c :: before, after, rfl, by rw [Place.afterAll, List.foldl_cons, hafter]; exact hbefore⟩
  | @token first tokens text hsound _ _ ih =>
    rcases List.mem_cons.1 ht with rfl | ht
    · exact ⟨[], text, rfl, rfl⟩
    · obtain ⟨before, after, rfl, hbefore⟩ := ih ht
      -- the token that is passed closes every literal it opens
      refine ⟨first.chars ++ before, after, by rw [List.append_assoc], ?_⟩
      rw [Place.afterAll_append, Place.afterAll_token hsound, hbefore]

/-! ## Literals without escapes -/

/-- A character that is not special stands for itself in a literal. -/
theorem escaped_eq_self {c : Char} (hquote : c ≠ '"') (hbackslash : c ≠ '\\')
    (h : 0x20 ≤ c.toNat) : escaped c = [c] := by
  unfold escaped
  split
  case h_8 => exact if_neg (by omega)
  case h_1 => exact absurd rfl hquote
  case h_2 => exact absurd rfl hbackslash
  all_goals exact absurd h (by decide)

/-- The text stands between quotes as it is. -/
def IsVerbatim (text : String) : Prop :=
  quoted text = '"' :: (text.toList ++ ['"'])

/-- A text without escapes stands between quotes as it is. -/
theorem isVerbatim_of_forall {text : String} (h : ∀ c ∈ text.toList, escaped c = [c]) :
    IsVerbatim text := by
  have hbody : ∀ chars : List Char, (∀ c ∈ chars, escaped c = [c]) →
      chars.flatMap escaped = chars := by
    intro chars hchars
    induction chars with
    | nil => rfl
    | cons c chars ih =>
      rw [List.forall_mem_cons] at hchars
      rw [List.flatMap_cons, hchars.1, ih hchars.2]
      rfl
  rw [IsVerbatim, quoted, quotedChars, hbody _ h]

end RelationalAvro.Json
