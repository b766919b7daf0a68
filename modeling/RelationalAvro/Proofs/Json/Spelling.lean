import RelationalAvro.Proofs.Json.Grammar

/-!
# Texts that spell tokens

A document may hold blanks between its tokens. `Spells isBlank tokens text` says that `text`
consists of the tokens in order, each as `Token.chars` writes it, and of blanks.

A word is the one kind of token that does not say where it ends. So a word must not be followed at
once by a character that could belong to it.
-/

namespace RelationalAvro.Json

/-! ## Sound tokens -/

/-- Is the token a literal or a number? -/
def Token.isWord : Token → Bool
  | .null | .bool _ | .number _ => true
  | _ => false

/-- Can the token stand in a document? The word of a number has to be one. -/
def Token.IsSound : Token → Prop
  | .number word => isNumber word.toList = true
  | _ => True

/-- Words can hold digits. -/
private theorem isWordChar_of_isDigit {c : Char} (h : c.isDigit = true) : isWordChar c = true := by
  simp [isWordChar, Char.isAlphanum, h]

/-- A number consists of characters of words. -/
theorem isWordChar_of_isNumber {word : List Char} (h : isNumber word = true) :
    ∀ c ∈ word, isWordChar c = true := by
  have hdigits : ∀ digits, IsDigits digits → ∀ c ∈ digits, isWordChar c = true :=
    fun _ hdigits c hc => isWordChar_of_isDigit (hdigits.2 c hc)
  have hsigns : ∀ sign ∈ [[], ['+'], ['-']], ∀ c ∈ sign, isWordChar c = true := by
    simp [isWordChar]
  obtain ⟨sign, whole, fraction, exponent, rfl, hsign, hwhole, hfraction, hexponent⟩ :=
    isNumber_iff.1 h
  simp only [List.forall_mem_append]
  refine ⟨hsigns sign ?_, ?_, ?_, ?_⟩
  · simp only [List.mem_cons] at hsign ⊢
    exact hsign.imp_right .inr
  · rcases hwhole with rfl | ⟨digit, rest, rfl, -, hwhole⟩
    · exact List.forall_mem_singleton.2 rfl
    · exact hdigits _ hwhole
  · rcases hfraction with rfl | ⟨digits, rfl, hfraction⟩
    · exact List.forall_mem_nil _
    · exact List.forall_mem_cons.2 ⟨rfl, hdigits _ hfraction⟩
  · rcases hexponent with rfl | ⟨e, sign, digits, rfl, he, hsign, hexponent⟩
    · exact List.forall_mem_nil _
    · simp only [List.forall_mem_cons, List.forall_mem_append]
      refine ⟨?_, hsigns sign hsign, hdigits _ hexponent⟩
      rcases he with rfl | rfl <;> rfl

namespace Token

variable {t : Token}

/-- A word consists of characters of words. -/
theorem isWordChar_of_mem_chars (hword : t.isWord = true) (hsound : t.IsSound) :
    ∀ c ∈ t.chars, isWordChar c = true := by
  cases t with
  | null => exact List.all_eq_true.1 rfl
  | bool b => cases b <;> exact List.all_eq_true.1 rfl
  | number word => exact isWordChar_of_isNumber hsound
  | _ => cases hword

/-- A number is a word. -/
theorem ofWord?_number {word : List Char} (h : isNumber word = true) :
    ofWord? word = some (.number (String.ofList word)) := by
  have hne : ∀ literal, isNumber literal = false → word ≠ literal := by
    rintro literal hliteral rfl
    rw [hliteral] at h
    cases h
  rw [ofWord?, if_neg (hne _ (by decide)), if_neg (hne _ (by decide)), if_neg (hne _ (by decide)),
    if_pos h]

/-- The characters of a word spell it. -/
theorem ofWord?_chars (hword : t.isWord = true) (hsound : t.IsSound) :
    ofWord? t.chars = some t := by
  cases t with
  | null => rfl
  | bool b => cases b <;> rfl
  | number word => exact (ofWord?_number hsound).trans (by rw [String.ofList_toList])
  | _ => cases hword

/-- A sound word has characters. -/
theorem chars_ne_nil_of_isWord (hword : t.isWord = true) (hsound : t.IsSound) : t.chars ≠ [] := by
  cases t with
  | null => decide
  | bool b => cases b <;> decide
  | number word =>
    have hnumber : isNumber word.toList = true := hsound
    rintro hnil
    rw [show word.toList = [] from hnil] at hnumber
    cases hnumber
  | _ => cases hword

end Token

/-! ## Escapes -/

/-- A character is written as itself, by a short escape, or by a numbered escape. -/
theorem escaped_cases (c : Char) :
    (escaped c = [c] ∧ c ≠ '"' ∧ c ≠ '\\' ∧ 0x20 ≤ c.toNat) ∨
    (∃ e, escaped c = ['\\', e] ∧ shortEscape? e = some c) ∨
    (c.toNat < 0x20 ∧ escaped c =
      ['\\', 'u', '0', '0', Nat.digitChar (c.toNat / 16), Nat.digitChar (c.toNat % 16)]) := by
  unfold escaped
  split
  case h_8 hquote hbackslash _ _ _ _ _ =>
    split
    · exact .inr (.inr ⟨‹_›, rfl⟩)
    · exact .inl ⟨rfl, hquote, hbackslash, by omega⟩
  all_goals exact .inr (.inl ⟨_, rfl, rfl⟩)

/-- A hexadecimal digit is read as its number. -/
theorem hexDigit?_digitChar {n : Nat} (h : n < 16) : hexDigit? (Nat.digitChar n) = some n := by
  have : ∀ m : Fin 16, hexDigit? (Nat.digitChar m) = some m.val := by decide
  exact this ⟨n, h⟩

/-! ## Spelling -/

/-- May the text follow a word? -/
def StartsApart (text : List Char) : Prop :=
  ∀ c ∈ text.head?, isWordChar c = false

theorem startsApart_nil : StartsApart [] := by
  simp [StartsApart]

/-- A character that is none of a word starts apart. -/
theorem startsApart_cons {c : Char} {text : List Char} (h : isWordChar c = false) :
    StartsApart (c :: text) := by
  simpa [StartsApart] using h

/-- A blank does not go on with a word. -/
theorem isWordChar_of_isSpace {c : Char} (h : isSpace c = true) : isWordChar c = false := by
  simp only [isSpace, Bool.or_eq_true, beq_iff_eq] at h
  rcases h with ((rfl | rfl) | rfl) | rfl <;> rfl

/-- The text consists of the tokens in order, with blanks between them. -/
inductive Spells (isBlank : Char → Bool) : List Token → List Char → Prop
  | nil : Spells isBlank [] []
  | blank {c : Char} {tokens : List Token} {text : List Char} (hblank : isBlank c = true)
      (h : Spells isBlank tokens text) : Spells isBlank tokens (c :: text)
  | token {t : Token} {tokens : List Token} {text : List Char} (hsound : t.IsSound)
      (hapart : t.isWord = true → StartsApart text) (h : Spells isBlank tokens text) :
      Spells isBlank (t :: tokens) (t.chars ++ text)

variable {isBlank : Char → Bool} {tokens more : List Token} {text rest : List Char}

/-- Only sound tokens are spelled. -/
theorem Spells.isSound (h : Spells isBlank tokens text) : ∀ t ∈ tokens, t.IsSound := by
  induction h with
  | nil => simp
  | blank _ _ ih => exact ih
  | token hsound _ _ ih => exact List.forall_mem_cons.2 ⟨hsound, ih⟩

/-- Texts are put together where the second may follow a word. -/
theorem Spells.append (h : Spells isBlank tokens text) (hmore : Spells isBlank more rest)
    (hapart : StartsApart rest) : Spells isBlank (tokens ++ more) (text ++ rest) := by
  induction h with
  | nil => exact hmore
  | blank hblank _ ih => exact .blank hblank ih
  | @token t tokens text hsound hword _ ih =>
    rw [List.cons_append, List.append_assoc]
    refine .token hsound (fun hw => ?_) ih
    cases text with
    | nil => exact hapart
    | cons c text => exact startsApart_cons (hword hw c rfl)

/-- Blanks in front change nothing. -/
theorem Spells.blanks {blanks : List Char} (hblanks : ∀ c ∈ blanks, isBlank c = true)
    (h : Spells isBlank tokens text) : Spells isBlank tokens (blanks ++ text) := by
  induction blanks with
  | nil => exact h
  | cons c blanks ih =>
    rw [List.forall_mem_cons] at hblanks
    exact .blank hblanks.1 (ih hblanks.2)

end RelationalAvro.Json
