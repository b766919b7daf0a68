import RelationalAvro.Proofs.Json.Spelling

/-!
# The tokens of any text

`Spells` allows one way to write each token. `Lexes tokens text` allows all: a text between quotes
may be written with any escapes. It is what a scan finds, no more and no less
(`Token.scan?_eq_some_iff`); texts that `Spells` allows are a case of it (`Token.scan?_of_spells`).

That a scan accepts nothing else goes backwards from its end. `Scan.Completes` says of every place
of the machine which texts lead from there to given tokens; one character of the scan puts that
character in front of such a text.
-/

namespace RelationalAvro.Json

/-- The characters are a way to write the token. -/
def Token.IsWritten : Token → List Char → Prop
  | .quoted text, chars => IsQuoted text chars
  | t, chars => t.IsSound ∧ chars = t.chars

/-- The text consists of the tokens in order, however they are written, with blanks between them. -/
inductive Lexes : List Token → List Char → Prop
  | nil : Lexes [] []
  | blank {c : Char} {tokens : List Token} {text : List Char} (hblank : isSpace c = true)
      (h : Lexes tokens text) : Lexes tokens (c :: text)
  | token {t : Token} {tokens : List Token} {chars text : List Char} (hwritten : t.IsWritten chars)
      (hapart : t.isWord = true → StartsApart text) (h : Lexes tokens text) :
      Lexes (t :: tokens) (chars ++ text)

namespace Lexes

variable {tokens more : List Token} {text rest : List Char}

/-- Blanks may come before the tokens. -/
theorem blanks {before : List Char} (hblanks : IsBlanks before) (h : Lexes tokens text) :
    Lexes tokens (before ++ text) := by
  induction before with
  | nil => exact h
  | cons c before ih =>
    rw [IsBlanks, List.forall_mem_cons] at hblanks
    exact .blank hblanks.1 (ih hblanks.2)

/-- Texts are put together where the second may follow a word. -/
theorem append (h : Lexes tokens text) (hmore : Lexes more rest) (hapart : StartsApart rest) :
    Lexes (tokens ++ more) (text ++ rest) := by
  induction h with
  | nil => exact hmore
  | blank hblank _ ih => exact .blank hblank ih
  | @token t tokens chars text hwritten hword _ ih =>
    rw [List.cons_append, List.append_assoc]
    refine .token hwritten (fun hw => ?_) ih
    cases text with
    | nil => exact hapart
    | cons c text => exact startsApart_cons (hword hw c rfl)

/-- A text without tokens is blank. -/
theorem isBlanks (h : Lexes [] text) : IsBlanks text := by
  generalize hnil : ([] : List Token) = tokens at h
  induction h with
  | nil => exact List.forall_mem_nil _
  | blank hblank _ ih => exact List.forall_mem_cons.2 ⟨hblank, ih hnil⟩
  | token => cases hnil

end Lexes

/-! ## What is written is scanned -/

/-- The tokens of a text that is read on from a place in it. -/
def Scan.run? (scan : Scan) (text : List Char) : Option (List Token) :=
  (text.foldlM Scan.step scan).bind Scan.finish?

namespace Scan

variable {before : List Token}

theorem run?_cons (scan : Scan) (c : Char) (rest : List Char) :
    scan.run? (c :: rest) = (scan.step c).bind fun next => next.run? rest := by
  rw [run?, List.foldlM_cons]
  cases scan.step c <;> rfl

/-- A blank between tokens is passed over. -/
theorem run?_blank {c : Char} (hspace : isSpace c = true) (rest : List Char) :
    run? ⟨before, .between⟩ (c :: rest) = run? ⟨before, .between⟩ rest := by
  simp [run?_cons, step, start, hspace]

section

variable (units : List Element) (rest : List Char)

/-- In quotes, a character that is not special stands for itself. -/
theorem run?_plain {c : Char} (hquote : c ≠ '"') (hbackslash : c ≠ '\\') (h : 0x20 ≤ c.toNat) :
    run? ⟨before, .inQuotes units⟩ (c :: rest) =
      run? ⟨before, .inQuotes (.char c :: units)⟩ rest := by
  have hcontrol : ¬c.toNat < 0x20 := by omega
  simp [run?_cons, step, hquote, hbackslash, hcontrol]

/-- A letter after a backslash is read as the character that it names. -/
theorem run?_shortEscape {e c : Char} (h : shortEscape? e = some c) :
    run? ⟨before, .inQuotes units⟩ ('\\' :: e :: rest) =
      run? ⟨before, .inQuotes (.char c :: units)⟩ rest := by
  have hu : e ≠ 'u' := by
    rintro rfl
    cases h
  simp [run?_cons, step, hu, h]

/-- Four digits after `\u` are read as one number. -/
theorem run?_numberedEscape {c₃ c₂ c₁ c₀ : Char} {n₃ n₂ n₁ n₀ : Nat} (h₃ : hexDigit? c₃ = some n₃)
    (h₂ : hexDigit? c₂ = some n₂) (h₁ : hexDigit? c₁ = some n₁) (h₀ : hexDigit? c₀ = some n₀) :
    run? ⟨before, .inQuotes units⟩ ('\\' :: 'u' :: c₃ :: c₂ :: c₁ :: c₀ :: rest) =
      run? ⟨before, .inQuotes (.ofCode (16 * (16 * (16 * n₃ + n₂) + n₁) + n₀) :: units)⟩ rest := by
  simp [run?_cons, step, h₃, h₂, h₁, h₀]

end

/-- Units are collected however they are written. -/
theorem run?_units {units : List Element} {body : List Char} (h : SpelledUnits units body)
    (seen : List Element) (rest : List Char) :
    run? ⟨before, .inQuotes seen⟩ (body ++ rest) =
      run? ⟨before, .inQuotes (units.reverse ++ seen)⟩ rest := by
  induction h generalizing seen with
  | nil => rfl
  | plain hquote hbackslash hcontrol _ ih =>
    rw [List.cons_append, run?_plain _ _ hquote hbackslash hcontrol, ih]
    simp
  | short hletter _ ih =>
    rw [List.cons_append, List.cons_append, run?_shortEscape _ _ hletter, ih]
    simp
  | numbered h₃ h₂ h₁ h₀ _ ih =>
    simp only [List.cons_append]
    rw [run?_numberedEscape _ _ h₃ h₂ h₁ h₀, ih]
    simp

/-- A quoted text is read as its token. -/
theorem run?_isQuoted {text : Option String} {chars : List Char} (h : IsQuoted text chars)
    (rest : List Char) :
    run? ⟨before, .between⟩ (chars ++ rest) = run? ⟨.quoted text :: before, .between⟩ rest := by
  obtain ⟨units, body, rfl, hbody, hunits⟩ := isQuoted_iff.1 h
  have hopen : step ⟨before, .between⟩ '"' = some ⟨before, .inQuotes []⟩ := rfl
  have hclose : step ⟨before, .inQuotes units.reverse⟩ '"' =
      some ⟨.quoted text :: before, .between⟩ := by
    simp [step, hunits]
  rw [List.cons_append, List.append_assoc, run?_cons, hopen, Option.bind_some, run?_units hbody,
    List.append_nil, List.singleton_append, run?_cons, hclose, Option.bind_some]

/-- The characters of a word are collected. -/
theorem run?_wordChars {word : List Char} (h : ∀ c ∈ word, isWordChar c = true) (seen : List Char)
    (rest : List Char) :
    run? ⟨before, .word seen⟩ (word ++ rest) =
      run? ⟨before, .word (word.reverse ++ seen)⟩ rest := by
  induction word generalizing seen with
  | nil => rfl
  | cons c word ih =>
    rw [List.forall_mem_cons] at h
    have hstep : step ⟨before, .word seen⟩ c = some ⟨before, .word (c :: seen)⟩ := by
      simp [step, h.1]
    rw [List.cons_append, run?_cons, hstep, Option.bind_some, ih h.2]
    simp

/-- A word is complete where it cannot go on. -/
theorem run?_wordEnd {seen rest : List Char} {t : Token} (h : Token.ofWord? seen.reverse = some t)
    (hapart : StartsApart rest) :
    run? ⟨before, .word seen⟩ rest = run? ⟨t :: before, .between⟩ rest := by
  cases rest with
  | nil => simp [run?, finish?, h]
  | cons c rest =>
    have hc : isWordChar c = false := hapart c rfl
    simp [run?_cons, step, hc, h]

/-- A character of a word begins one. -/
theorem start_of_isWordChar {c : Char} (h : isWordChar c = true) :
    start before c = some ⟨before, .word [c]⟩ := by
  have hspace : isSpace c = false := by
    refine Bool.eq_false_iff.2 fun hspace => ?_
    rw [isWordChar_of_isSpace hspace] at h
    cases h
  have hquote : c ≠ '"' := by
    rintro rfl
    revert h
    decide
  simp [start, hspace, hquote, h]

/-- A word is read as its token. -/
theorem run?_isWord {t : Token} {rest : List Char} (hword : t.isWord = true) (hsound : t.IsSound)
    (hapart : StartsApart rest) :
    run? ⟨before, .between⟩ (t.chars ++ rest) = run? ⟨t :: before, .between⟩ rest := by
  obtain ⟨c, word, hchars⟩ :=
    List.exists_cons_of_ne_nil (Token.chars_ne_nil_of_isWord hword hsound)
  have hall := Token.isWordChar_of_mem_chars hword hsound
  rw [hchars, List.forall_mem_cons] at hall
  have hspelled : Token.ofWord? (word.reverse ++ [c]).reverse = some t := by
    rw [List.reverse_append, List.reverse_reverse, List.reverse_singleton, List.singleton_append,
      ← hchars, Token.ofWord?_chars hword hsound]
  rw [hchars, List.cons_append, run?_cons, step, start_of_isWordChar hall.1, Option.bind_some,
    run?_wordChars hall.2]
  exact run?_wordEnd hspelled hapart

/-- A token is read however it is written. -/
theorem run?_isWritten {t : Token} {chars rest : List Char} (hwritten : t.IsWritten chars)
    (hapart : t.isWord = true → StartsApart rest) :
    run? ⟨before, .between⟩ (chars ++ rest) = run? ⟨t :: before, .between⟩ rest := by
  cases t with
  | quoted text => exact run?_isQuoted hwritten rest
  | null | bool | number =>
    obtain ⟨hsound, rfl⟩ := hwritten
    exact run?_isWord rfl hsound (hapart rfl)
  | _ =>
    obtain ⟨-, rfl⟩ := hwritten
    rfl

/-- The scan finds the tokens that a text consists of. -/
theorem run?_of_lexes {tokens : List Token} {text : List Char} (h : Lexes tokens text) :
    run? ⟨before, .between⟩ text = some (before.reverse ++ tokens) := by
  induction h generalizing before with
  | nil => simp [run?, finish?]
  | blank hblank _ ih => rw [run?_blank hblank, ih]
  | token hwritten hapart _ ih =>
    rw [run?_isWritten hwritten hapart, ih]
    simp

end Scan

/-! ## What is scanned is written -/

/-- A word that spells a token is how that token is written. -/
theorem Token.of_ofWord? {word : List Char} {t : Token} (h : ofWord? word = some t) :
    t.IsWritten word ∧ t.isWord = true := by
  unfold ofWord? at h
  split at h
  · obtain rfl := Option.some.inj h
    exact ⟨⟨trivial, ‹_›⟩, rfl⟩
  split at h
  · obtain rfl := Option.some.inj h
    exact ⟨⟨trivial, ‹_›⟩, rfl⟩
  split at h
  · obtain rfl := Option.some.inj h
    exact ⟨⟨trivial, ‹_›⟩, rfl⟩
  split at h
  · obtain rfl := Option.some.inj h
    exact ⟨⟨by rwa [IsSound, String.toList_ofList], String.toList_ofList.symm⟩, rfl⟩
  · cases h

/-- A character that makes up a token is the one way to write that token. -/
theorem Token.of_ofPunctuation? {c : Char} {t : Token} (h : ofPunctuation? c = some t) :
    (∀ chars, t.IsWritten chars ↔ chars = [c]) ∧ t.isWord = false := by
  unfold ofPunctuation? at h
  split at h
  case h_7 => cases h
  all_goals
    obtain rfl := Option.some.inj h
    exact ⟨fun _ => and_iff_right trivial, rfl⟩

/-- The value of the code that digits continue. -/
def codeAfter? (value : Nat) (digits : List Char) : Option Nat :=
  digits.foldlM (fun value c => (hexDigit? c).map (16 * value + ·)) value

/-- Four digits that give a code spell its unit after a backslash and a letter. -/
theorem SpelledUnits.of_codeAfter? {units : List Element} {body digits : List Char} {code : Nat}
    (hlength : digits.length = 4) (hcode : codeAfter? 0 digits = some code)
    (h : SpelledUnits units body) :
    SpelledUnits (.ofCode code :: units) ('\\' :: 'u' :: (digits ++ body)) := by
  match digits, hlength with
  | [c₃, c₂, c₁, c₀], _ =>
    simp only [codeAfter?, List.foldlM_cons, List.foldlM_nil, Option.bind_eq_bind,
      Option.bind_eq_some_iff, Option.map_eq_some_iff] at hcode
    obtain ⟨_, ⟨n₃, h₃, rfl⟩, _, ⟨n₂, h₂, rfl⟩, _, ⟨n₁, h₁, rfl⟩, _, ⟨n₀, h₀, rfl⟩, hcode⟩ := hcode
    obtain rfl := Option.some.inj hcode
    simpa using SpelledUnits.numbered h₃ h₂ h₁ h₀ h

namespace Scan

/-- The text holds the tokens that are missing after those read before. -/
def Leads (before : List Token) (text : List Char) (result : List Token) : Prop :=
  ∃ tokens, result = before.reverse ++ tokens ∧ Lexes tokens text

/-- The text leads from the place of the scan to the tokens. -/
def Completes (scan : Scan) (text : List Char) (result : List Token) : Prop :=
  match scan.mode with
  | .between => Leads scan.tokens text result
  | .word seen => ∃ t word rest, text = word ++ rest ∧
      Token.ofWord? (seen.reverse ++ word) = some t ∧ StartsApart rest ∧
      Leads (t :: scan.tokens) rest result
  | .inQuotes seen => ∃ units body rest, text = body ++ '"' :: rest ∧ SpelledUnits units body ∧
      Leads (.ofUnits (units.reverse ++ seen) :: scan.tokens) rest result
  | .afterBackslash seen => ∃ units body rest, text = body ++ '"' :: rest ∧
      SpelledUnits units ('\\' :: body) ∧
      Leads (.ofUnits (units.reverse ++ seen) :: scan.tokens) rest result
  | .inNumbered seen due value => ∃ digits code units body rest,
      text = digits ++ (body ++ '"' :: rest) ∧ digits.length = max due 1 ∧
      codeAfter? value digits = some code ∧ SpelledUnits units body ∧
      Leads (.ofUnits (units.reverse ++ .ofCode code :: seen) :: scan.tokens) rest result

variable {before result : List Token} {c : Char} {rest : List Char} {scan next : Scan}

/-- A token before a text that leads on. -/
theorem Leads.token {t : Token} {chars : List Char} (hwritten : t.IsWritten chars)
    (hapart : t.isWord = true → StartsApart rest) (h : Leads (t :: before) rest result) :
    Leads before (chars ++ rest) result := by
  obtain ⟨tokens, rfl, hlexes⟩ := h
  exact ⟨t :: tokens, by simp, .token hwritten hapart hlexes⟩

/-- A text leads on if the scan that its first character starts is completed. -/
theorem leads_of_start (hstart : start before c = some next) (h : next.Completes rest result) :
    Leads before (c :: rest) result := by
  unfold start at hstart
  split at hstart
  · -- a blank
    obtain rfl := Option.some.inj hstart
    obtain ⟨tokens, rfl, hlexes⟩ := h
    exact ⟨tokens, rfl, .blank ‹_› hlexes⟩
  split at hstart
  · -- a quote, and everything up to the quote that closes the text
    obtain rfl := Option.some.inj hstart
    obtain ⟨units, body, rest, rfl, hbody, hleads⟩ := h
    rw [List.append_nil] at hleads
    have hwritten : IsQuoted ((textBefore [] units.reverse).map String.ofList) _ :=
      isQuoted_iff.2 ⟨units, body, rfl, hbody, rfl⟩
    subst c
    simpa using Leads.token (t := .quoted _) hwritten (by simp [Token.isWord]) hleads
  split at hstart
  · -- the first character of a word
    obtain rfl := Option.some.inj hstart
    obtain ⟨t, word, rest, rfl, hword, hapart, hleads⟩ := h
    have hwritten := Token.of_ofWord? hword
    exact hleads.token hwritten.1 fun _ => hapart
  · obtain ⟨t, ht, rfl⟩ := Option.map_eq_some_iff.1 hstart
    have hwritten := Token.of_ofPunctuation? ht
    exact Leads.token ((hwritten.1 _).2 rfl) (by simp [hwritten.2]) h

/-- **One character of a scan** puts that character in front of what completes the rest. -/
theorem completes_of_step (hstep : scan.step c = some next) (h : next.Completes rest result) :
    scan.Completes (c :: rest) result := by
  obtain ⟨before, mode⟩ := scan
  cases mode with
  | between => exact leads_of_start hstep h
  | word seen =>
    simp only [step] at hstep
    split at hstep
    · obtain rfl := Option.some.inj hstep
      obtain ⟨t, word, rest, rfl, hword, hapart, hleads⟩ := h
      exact ⟨t, c :: word, rest, rfl, by simpa using hword, hapart, hleads⟩
    · -- the word ends before the character
      rename_i hc
      obtain ⟨t, hword, hstart⟩ := Option.bind_eq_some_iff.1 hstep
      exact ⟨t, [], c :: rest, rfl, by simpa using hword,
        startsApart_cons (Bool.eq_false_iff.2 hc), leads_of_start hstart h⟩
  | inQuotes seen =>
    simp only [step] at hstep
    split at hstep
    · obtain rfl := Option.some.inj hstep
      subst c
      exact ⟨[], [], rest, rfl, .nil, h⟩
    split at hstep
    · obtain rfl := Option.some.inj hstep
      obtain ⟨units, body, rest, rfl, hbody, hleads⟩ := h
      subst c
      exact ⟨units, '\\' :: body, rest, rfl, hbody, hleads⟩
    split at hstep
    · cases hstep
    · obtain rfl := Option.some.inj hstep
      obtain ⟨units, body, rest, rfl, hbody, hleads⟩ := h
      exact ⟨.char c :: units, c :: body, rest, rfl, .plain ‹_› ‹_› (by omega) hbody,
        by simpa using hleads⟩
  | afterBackslash seen =>
    simp only [step] at hstep
    split at hstep
    · obtain rfl := Option.some.inj hstep
      obtain ⟨digits, code, units, body, rest, rfl, hlength, hcode, hbody, hleads⟩ := h
      subst c
      exact ⟨.ofCode code :: units, 'u' :: (digits ++ body), rest, by simp,
        hbody.of_codeAfter? hlength hcode, by simpa using hleads⟩
    · obtain ⟨e, hletter, rfl⟩ := Option.map_eq_some_iff.1 hstep
      obtain ⟨units, body, rest, rfl, hbody, hleads⟩ := h
      exact ⟨.char e :: units, c :: body, rest, rfl, .short hletter hbody, by simpa using hleads⟩
  | inNumbered seen due value =>
    obtain ⟨digit, hdigit, hnext⟩ := Option.map_eq_some_iff.1 hstep
    have hread : ∀ digits, codeAfter? value (c :: digits) =
        codeAfter? (16 * value + digit) digits := by
      intro digits
      simp [codeAfter?, hdigit]
    dsimp only at hnext
    split at hnext
    · -- no digit is due after this one
      obtain rfl := hnext
      obtain ⟨units, body, rest, rfl, hbody, hleads⟩ := h
      refine ⟨[c], _, units, body, rest, rfl, ?_, hread [], hbody, by simpa using hleads⟩
      rw [List.length_singleton]
      omega
    · obtain rfl := hnext
      obtain ⟨digits, code, units, body, rest, rfl, hlength, hcode, hbody, hleads⟩ := h
      refine ⟨c :: digits, code, units, body, rest, rfl, ?_, (hread digits).trans hcode,
        hbody, hleads⟩
      rw [List.length_cons, hlength]
      omega

/-- A scan that finds tokens has been led to them by the text. -/
theorem completes_of_run? {text : List Char} (h : scan.run? text = some result) :
    scan.Completes text result := by
  induction text generalizing scan with
  | nil =>
    obtain ⟨before, mode⟩ := scan
    cases mode with
    | between => exact ⟨[], by simpa [run?, finish?] using h.symm, .nil⟩
    | word seen =>
      obtain ⟨t, hword, rfl⟩ :=
        Option.map_eq_some_iff.1 (show (Token.ofWord? seen.reverse).map _ = _ from h)
      exact ⟨t, [], [], rfl, by simpa using hword, startsApart_nil, [], by simp, .nil⟩
    | _ => cases h
  | cons c rest ih =>
    rw [run?_cons] at h
    obtain ⟨next, hstep, hrun⟩ := Option.bind_eq_some_iff.1 h
    exact completes_of_step hstep (ih hrun)

end Scan

/-- **A scan finds the tokens that make up the text**, in whatever way they are written, and finds
none if the text does not consist of tokens and blanks. -/
theorem Token.scan?_eq_some_iff {text : List Char} {tokens : List Token} :
    scan? text = some tokens ↔ Lexes tokens text := by
  constructor
  · intro h
    have hcompletes : Scan.Completes ⟨[], .between⟩ text tokens := Scan.completes_of_run? h
    obtain ⟨found, rfl, hlexes⟩ := hcompletes
    exact hlexes
  · exact Scan.run?_of_lexes

/-! ## One way to write each token -/

/-- A character in its escaped form spells itself. -/
theorem SpelledUnits.escaped {units : List Element} {body : List Char} (c : Char)
    (h : SpelledUnits units body) : SpelledUnits (.char c :: units) (escaped c ++ body) := by
  obtain ⟨he, hquote, hbackslash, hcontrol⟩ | ⟨e, he, hshort⟩ | ⟨hcontrol, he⟩ := escaped_cases c
  · rw [he]
    exact .plain hquote hbackslash hcontrol h
  · rw [he]
    exact .short hshort h
  · -- the digits give the code of the character back, and it is no half of a pair
    have hzero : hexDigit? '0' = some 0 := rfl
    have hcode : 16 * (16 * (16 * 0 + 0) + c.toNat / 16) + c.toNat % 16 = c.toNat := by omega
    have hunit : Element.ofCode c.toNat = .char c := by
      have hhigh : ¬0xD800 ≤ c.toNat := by omega
      have hlow : ¬0xDC00 ≤ c.toNat := by omega
      simp [Element.ofCode, isHighHalf, isLowHalf, hhigh, hlow, Char.ofNat_toNat]
    have hnumbered := SpelledUnits.numbered hzero hzero
      (hexDigit?_digitChar (n := c.toNat / 16) (by omega))
      (hexDigit?_digitChar (n := c.toNat % 16) (by omega)) h
    rw [hcode, hunit] at hnumbered
    rw [he]
    exact hnumbered

/-- A literal is a way to quote its text. -/
theorem isQuoted_quoted (text : String) : IsQuoted (some text) (quoted text) := by
  have hunits : ∀ chars : List Char,
      SpelledUnits (chars.map .char) (chars.flatMap escaped) ∧ Paired (chars.map .char) chars := by
    intro chars
    induction chars with
    | nil => exact ⟨.nil, .nil⟩
    | cons c chars ih => exact ⟨ih.1.escaped c, .char ih.2⟩
  exact .text (hunits text.toList).1 (hunits text.toList).2

/-- The characters of a token are a way to write it. -/
theorem Token.isWritten_chars {t : Token} (hsound : t.IsSound) : t.IsWritten t.chars := by
  cases t with
  | quoted text =>
    cases text with
    | some text => exact isQuoted_quoted text
    | none =>
      have hd : hexDigit? 'd' = some 13 := rfl
      have h8 : hexDigit? '8' = some 8 := rfl
      have h0 : hexDigit? '0' = some 0 := rfl
      have hhalf := SpelledUnits.numbered hd h8 h0 h0 .nil
      exact isQuoted_iff.2 ⟨_, _, rfl, hhalf, rfl⟩
  | _ => exact ⟨hsound, rfl⟩

/-- **Scanning a text gives the tokens that it spells**, if blanks are blanks of a document. -/
theorem Token.scan?_of_spells {isBlank : Char → Bool} {tokens : List Token} {text : List Char}
    (hspace : ∀ c, isBlank c = true → isSpace c = true) (h : Spells isBlank tokens text) :
    scan? text = some tokens := by
  rw [scan?_eq_some_iff]
  induction h with
  | nil => exact .nil
  | blank hblank _ ih => exact .blank (hspace _ hblank) ih
  | token hsound hapart _ ih => exact .token (isWritten_chars hsound) hapart ih

end RelationalAvro.Json
