import RelationalAvro.Proofs.Avro.Nesting
import RelationalAvro.Proofs.Json.Outline

/-!
# The indentation of schema text

A type, a field or an entry begins and ends somewhere in a line, and closes all that it opens. So it
can stand on any line, with anything open around it, and leaves a reader on a line of the same
indentation (`StandsOn`). Whatever opens a block stands on a line with `n` leading spaces, the
pieces of the block stand on lines with `n + 2`, and the line that closes it has `n` again. The main
statement is `AvroType.isLaidOut_text`.
-/

namespace RelationalAvro.Avro

open Json (Goes IsLaidOut Opened Outline Spot closing? goes_of_foldlM isClosing
  ne_newline_of_not_isBlank quoted)
open Text (isBlank natDigits)

variable {n : Nat} {text : List Char} {last : Char} {opened outer : List Opened}

/-- A reader outside of string literals, on a line led by `n` spaces. -/
def spotAfter (opened : List Opened) (n : Nat) (last : Char) : Spot :=
  ⟨⟨.outside, opened⟩, n, last⟩

/-- The text can stand on a line led by `n` spaces: it begins with a character that is not blank and
does not close anything, and reading it leaves open what was open before, on a line led by as many
spaces. -/
structure StandsOn (n : Nat) (text : List Char) : Prop where
  begins : ∃ c rest, text = c :: rest ∧ isBlank c = false ∧ isClosing c = false
  goes : ∀ opened last, ∃ stop, isBlank stop = false ∧
    Goes (spotAfter opened n last) text (spotAfter opened n stop)

/-! ## Literals and numbers -/

/-- Characters on one line that open and close nothing can stand on a line, if neither end is
blank. -/
theorem standsOn_of_foldlM {c : Char} {rest : List Char}
    (hc : isBlank c = false ∧ isClosing c = false)
    (hbreak : '\n' ∉ c :: rest) (hstop : ∀ d ∈ (c :: rest).getLast?, isBlank d = false)
    (h : ∀ opened : List Opened, (c :: rest).foldlM (Outline.after n) ⟨.outside, opened⟩ =
      some ⟨.outside, opened⟩) : StandsOn n (c :: rest) where
  begins := ⟨c, rest, rfl, hc⟩
  goes opened last := by
    refine ⟨_, ?_, goes_of_foldlM hbreak (h opened)⟩
    rw [List.getLast?_cons, Option.getD_some]
    exact hstop _ List.getLast?_cons

/-- In a literal nothing is opened or closed. -/
theorem foldlM_after_escaped (c : Char) :
    (Json.escaped c).foldlM (Outline.after n) ⟨.inside, opened⟩ = some ⟨.inside, opened⟩ := by
  obtain ⟨he, hquote, hbackslash, -⟩ | ⟨e, he, -⟩ | ⟨hcontrol, he⟩ := Json.escaped_cases c
  · simp [he, Outline.after, Json.Place.after, hquote, hbackslash]
  · simp [he, Outline.after, Json.Place.after]
  · have hhigh := Json.digitChar_ne (show c.toNat / 16 < 16 by omega)
    have hlow := Json.digitChar_ne (show c.toNat % 16 < 16 by omega)
    simp [he, Outline.after, Json.Place.after, hhigh, hlow]

/-- A literal leaves open what was open before. -/
theorem foldlM_after_quoted (s : String) :
    (quoted s).foldlM (Outline.after n) ⟨.outside, opened⟩ = some ⟨.outside, opened⟩ := by
  have hbody : ∀ chars : List Char,
      (chars.flatMap Json.escaped).foldlM (Outline.after n) ⟨.inside, opened⟩ =
        some ⟨.inside, opened⟩ := by
    intro chars
    induction chars with
    | nil => rfl
    | cons c chars ih =>
      rw [List.flatMap_cons, List.foldlM_append, foldlM_after_escaped]
      exact ih
  have hopen : ∀ body : List Char, ('"' :: body).foldlM (Outline.after n) ⟨.outside, opened⟩ =
      body.foldlM (Outline.after n) ⟨.inside, opened⟩ := fun _ => rfl
  rw [quoted, Json.quotedChars, hopen, List.foldlM_append, hbody]
  rfl

/-- A literal can stand on any line. -/
theorem standsOn_quoted (s : String) : StandsOn n (quoted s) := by
  refine standsOn_of_foldlM ⟨by decide, by decide⟩ (newline_not_mem_quoted s) ?_
    fun _ => foldlM_after_quoted s
  simp only [← List.cons_append, List.getLast?_concat]
  rintro c ⟨⟩
  decide

/-- What is so of all ten digits is so of a digit. -/
theorem of_isDigit {p : Char → Prop} (h : ∀ m : Fin 10, p (Char.ofNat ('0'.toNat + m))) {c : Char}
    (hc : c.isDigit = true) : p c := by
  obtain ⟨hlow, hhigh⟩ := Char.isDigit_iff_toNat.1 hc
  have hvalue : c.toNat - '0'.toNat < 10 := Nat.sub_lt_left_of_lt_add hlow (Nat.lt_succ_of_le hhigh)
  have hp := h ⟨c.toNat - '0'.toNat, hvalue⟩
  rwa [Nat.add_sub_cancel' hlow, Char.ofNat_toNat] at hp

/-- A digit is neither a blank nor a quote nor a bracket. -/
theorem after_of_isDigit {c : Char} (hc : c.isDigit = true) :
    isBlank c = false ∧ isClosing c = false ∧
      ∀ opened, Outline.after n ⟨.outside, opened⟩ c = some ⟨.outside, opened⟩ := by
  obtain ⟨hblank, hclosing, hopening, hplace⟩ :=
    of_isDigit (p := fun c => isBlank c = false ∧ isClosing c = false ∧ closing? c = none ∧
      Json.Place.outside.after c = .outside) (by decide) hc
  exact ⟨hblank, hclosing, fun opened => by simp [Outline.after, hclosing, hopening, hplace]⟩

/-- A number can stand on any line. -/
theorem standsOn_natDigits (m : Nat) : StandsOn n (natDigits m) := by
  have hdigits : ∀ c ∈ natDigits m, isBlank c = false ∧ isClosing c = false ∧
      ∀ opened, Outline.after n ⟨.outside, opened⟩ c = some ⟨.outside, opened⟩ :=
    fun c hc => after_of_isDigit (Text.isDigit_of_mem_natDigits hc)
  obtain ⟨c, rest, hcons⟩ := List.exists_cons_of_ne_nil (Text.natDigits_ne_nil m)
  rw [hcons] at hdigits ⊢
  obtain ⟨hblank, hclosing, -⟩ := hdigits c List.mem_cons_self
  refine standsOn_of_foldlM ⟨hblank, hclosing⟩ (fun hbreak => ?_)
    (fun d hd => (hdigits d (List.mem_of_getLast? hd)).1)
    fun opened => Json.foldlM_after_eq_some fun d hd => (hdigits d hd).2.2 opened
  exact absurd (hdigits _ hbreak).1 (by decide)

/-! ## Pieces on a line -/

/-- An entry stands where its value can. -/
theorem StandsOn.entry (key : String) (h : StandsOn n text) : StandsOn n (entry key text) where
  begins := ⟨_, _, rfl, by decide, by decide⟩
  goes opened last := by
    obtain ⟨middle, -, hkey⟩ := (standsOn_quoted key).goes opened last
    obtain ⟨stop, hstop, hvalue⟩ := h.goes opened ' '
    exact ⟨stop, hstop, hkey.append (.char (by decide) rfl (.char (by decide) rfl hvalue))⟩

/-- An entry that may be left out stands where its values can. -/
theorem standsOn_optionalEntry {α : Type} (key : String) (value : Option α)
    {write : α → List Char} (h : ∀ a, StandsOn n (write a)) :
    ∀ piece ∈ optionalEntry key value write, StandsOn n piece := by
  cases value with
  | none => exact List.forall_mem_nil _
  | some a => exact List.forall_mem_singleton.2 ((h a).entry key)

/-- Pieces on one line are read one after the other. -/
theorem goes_separated {pieces : List (List Char)} (h : ∀ piece ∈ pieces, StandsOn n piece)
    (opened : List Opened) (last : Char) :
    ∃ stop, Goes (spotAfter opened n last) (separated [',', ' '] pieces)
      (spotAfter opened n stop) := by
  fun_induction separated [',', ' '] pieces generalizing last with
  | case1 => exact ⟨last, .nil⟩
  | case2 piece =>
    obtain ⟨stop, -, hpiece⟩ := (List.forall_mem_singleton.1 h).goes opened last
    exact ⟨stop, hpiece⟩
  | case3 piece next pieces ih =>
    obtain ⟨hpiece, hpieces⟩ := List.forall_mem_cons.1 h
    obtain ⟨middle, -, hpiece⟩ := hpiece.goes opened last
    obtain ⟨stop, hrest⟩ := ih hpieces ' '
    exact ⟨stop, hpiece.append (.char (by decide) rfl (.char (by decide) rfl hrest))⟩

/-- The two characters are a pair of brackets or of braces. -/
structure IsPair (opening closing : Char) : Prop where
  opening_visible : isBlank opening = false ∧ isClosing opening = false
  closing_visible : isBlank closing = false ∧ isClosing closing = true
  opens : ∀ n opened,
    Outline.after n ⟨.outside, opened⟩ opening = some ⟨.outside, ⟨closing, n⟩ :: opened⟩
  closes : ∀ n spaces outer,
    Outline.after n ⟨.outside, ⟨closing, spaces⟩ :: outer⟩ closing = some ⟨.outside, outer⟩

theorem isPair_brackets : IsPair '[' ']' :=
  ⟨by decide, by decide, fun _ _ => rfl, fun _ _ _ => rfl⟩

theorem isPair_braces : IsPair '{' '}' :=
  ⟨by decide, by decide, fun _ _ => rfl, fun _ _ _ => rfl⟩

variable {opening closing : Char} {pieces : List (List Char)}

/-- Pieces between a pair stand on the line that each of them can stand on. -/
theorem StandsOn.inline (hpair : IsPair opening closing) (h : ∀ piece ∈ pieces, StandsOn n piece) :
    StandsOn n (inline opening closing pieces) where
  begins := ⟨opening, _, rfl, hpair.opening_visible⟩
  goes opened last := by
    have hclosing := hpair.closing_visible.1
    obtain ⟨middle, hpieces⟩ := goes_separated h (⟨closing, n⟩ :: opened) opening
    have hclose : Goes (spotAfter (⟨closing, n⟩ :: opened) n middle) [closing]
        (spotAfter opened n closing) :=
      .char (ne_newline_of_not_isBlank hclosing) (hpair.closes ..) .nil
    exact ⟨closing, hclosing, .char (ne_newline_of_not_isBlank hpair.opening_visible.1)
      (hpair.opens ..) (hpieces.append hclose)⟩

/-! ## Pieces on lines of their own -/

variable {spaces : Nat}

/-- A piece begins a line two spaces deeper than the one that opened the block. -/
theorem StandsOn.goes_newline (h : StandsOn (n + 2) text) (hlast : isBlank last = false) :
    ∃ stop, isBlank stop = false ∧ Goes (spotAfter (⟨closing, n⟩ :: outer) spaces last)
      (newline (n + 2) ++ text) (spotAfter (⟨closing, n⟩ :: outer) (n + 2) stop) := by
  obtain ⟨c, rest, rfl, hc, hclosing⟩ := h.begins
  obtain ⟨stop, hstop, hgoes⟩ := h.goes (⟨closing, n⟩ :: outer) ' '
  refine ⟨stop, hstop, .line hlast hc ?_ hgoes⟩
  rw [Opened.spacesBefore, hclosing]
  rfl

/-- The pieces of a block follow each other on lines two spaces deeper than the one that opened
it. -/
theorem goes_lines (hne : pieces ≠ []) (h : ∀ piece ∈ pieces, StandsOn (n + 2) piece)
    (hlast : isBlank last = false) :
    ∃ stop, isBlank stop = false ∧ Goes (spotAfter (⟨closing, n⟩ :: outer) spaces last)
      (newline (n + 2) ++ separated (',' :: newline (n + 2)) pieces)
      (spotAfter (⟨closing, n⟩ :: outer) (n + 2) stop) := by
  fun_induction separated (',' :: newline (n + 2)) pieces generalizing last spaces with
  | case1 => exact absurd rfl hne
  | case2 piece => exact (List.forall_mem_singleton.1 h).goes_newline hlast
  | case3 piece next pieces ih =>
    obtain ⟨hpiece, hpieces⟩ := List.forall_mem_cons.1 h
    obtain ⟨middle, -, hpiece⟩ := hpiece.goes_newline hlast
    -- the comma ends the line
    obtain ⟨stop, hstop, hrest⟩ := ih (List.cons_ne_nil _ _) hpieces
      (by decide : isBlank ',' = false)
    rw [← List.append_assoc]
    exact ⟨stop, hstop, hpiece.append (.char (by decide) rfl hrest)⟩

/-- The line that closes a block is indented as the one that opened it. -/
theorem goes_closing (hpair : IsPair opening closing) (hlast : isBlank last = false) :
    Goes (spotAfter (⟨closing, n⟩ :: outer) spaces last) (newline n ++ [closing])
      (spotAfter outer n closing) := by
  obtain ⟨hvisible, hclosing⟩ := hpair.closing_visible
  refine .line hlast hvisible ?_
    (.char (ne_newline_of_not_isBlank hvisible) (hpair.closes ..) .nil)
  rw [Opened.spacesBefore, hclosing]
  rfl

/-- A block stands on a line if its pieces can stand on lines two spaces deeper. -/
theorem StandsOn.block (hpair : IsPair opening closing) (hne : pieces ≠ [])
    (h : ∀ piece ∈ pieces, StandsOn (n + 2) piece) :
    StandsOn n (block opening closing n pieces) where
  begins := ⟨opening, _, rfl, hpair.opening_visible⟩
  goes opened last := by
    have hopening := hpair.opening_visible.1
    obtain ⟨middle, hmiddle, hlines⟩ : ∃ middle, isBlank middle = false ∧
        Goes (spotAfter (⟨closing, n⟩ :: opened) n opening) _
          (spotAfter (⟨closing, n⟩ :: opened) (n + 2) middle) := goes_lines hne h hopening
    refine ⟨closing, hpair.closing_visible.1,
      .char (ne_newline_of_not_isBlank hopening) (hpair.opens ..) ?_⟩
    rw [← List.append_assoc]
    exact hlines.append (goes_closing hpair hmiddle)

/-- A list of texts can stand on any line. -/
theorem standsOn_textList (texts : List String) : StandsOn n (textList texts) :=
  .inline isPair_brackets (List.forall_mem_map.2 fun s _ => standsOn_quoted s)

/-- A list of lines stands where lines two spaces deeper can. -/
theorem standsOn_lineList {lines : List (List Char)} (h : ∀ line ∈ lines, StandsOn (n + 2) line) :
    StandsOn n (lineList n lines) := by
  cases lines with
  | nil => exact .inline isPair_brackets (List.forall_mem_nil _)
  | cons line lines => exact .block isPair_brackets (List.cons_ne_nil _ _) h

/-! ## Types -/

namespace AvroType

mutual

/-- A type stands on the line that it is laid out for. -/
theorem standsOn_layout (type : AvroType) (n : Nat) : StandsOn n (layout n type) := by
  cases type with
  | named name => rw [layout]; exact standsOn_quoted name
  | logical base name precision scale size =>
    rw [layout]
    refine .inline isPair_braces ?_
    simp only [List.forall_mem_append, List.forall_mem_cons]
    refine ⟨⟨⟨⟨(standsOn_quoted base).entry _, (standsOn_quoted name).entry _,
      List.forall_mem_nil _⟩, ?_⟩, ?_⟩, ?_⟩
    all_goals exact standsOn_optionalEntry _ _ standsOn_natDigits
  | record type name space doc aliases fields =>
    rw [layout]
    refine .block isPair_braces (by simp) ?_
    simp only [List.forall_mem_append, List.forall_mem_cons]
    refine ⟨⟨⟨⟨⟨(standsOn_quoted type).entry _, (standsOn_quoted name).entry _,
      List.forall_mem_nil _⟩, ?_⟩, ?_⟩, ?_⟩, ?_, List.forall_mem_nil _⟩
    · exact standsOn_optionalEntry _ _ standsOn_quoted
    · exact standsOn_optionalEntry _ _ standsOn_quoted
    · exact standsOn_optionalEntry _ _ standsOn_textList
    · exact (standsOn_lineList (standsOn_fieldTexts fields (n + 4))).entry _
  | enum type name space symbols =>
    rw [layout]
    refine .block isPair_braces (by simp) ?_
    simp only [List.forall_mem_append, List.forall_mem_cons]
    exact ⟨⟨⟨(standsOn_quoted type).entry _, (standsOn_quoted name).entry _, List.forall_mem_nil _⟩,
      standsOn_optionalEntry _ _ standsOn_quoted⟩, (standsOn_textList symbols).entry _,
      List.forall_mem_nil _⟩
  | union branches =>
    rw [layout]
    exact .inline isPair_brackets (standsOn_branchTexts branches n)

/-- Every branch of a union stands on the line that it is laid out for. -/
theorem standsOn_branchTexts (types : List AvroType) (n : Nat) :
    ∀ piece ∈ branchTexts n types, StandsOn n piece := by
  cases types with
  | nil => rw [branchTexts]; exact List.forall_mem_nil _
  | cons type types =>
    rw [branchTexts]
    exact List.forall_mem_cons.2 ⟨standsOn_layout type n, standsOn_branchTexts types n⟩

/-- Every field of a record stands on the line that it is laid out for. -/
theorem standsOn_fieldTexts (fields : List (RecordField AvroType)) (n : Nat) :
    ∀ piece ∈ fieldTexts n fields, StandsOn n piece := by
  cases fields with
  | nil => rw [fieldTexts]; exact List.forall_mem_nil _
  | cons field fields =>
    rw [fieldTexts]
    exact List.forall_mem_cons.2 ⟨standsOn_fieldText field n, standsOn_fieldTexts fields n⟩

/-- A field stands on the line that it is laid out for. -/
theorem standsOn_fieldText (field : RecordField AvroType) (n : Nat) :
    StandsOn n (fieldText n field) := by
  obtain ⟨name, doc, type⟩ := field
  rw [fieldText]
  refine .inline isPair_braces ?_
  simp only [List.forall_mem_append, List.forall_mem_cons]
  exact ⟨⟨⟨(standsOn_quoted name).entry _, List.forall_mem_nil _⟩,
    standsOn_optionalEntry _ _ standsOn_quoted⟩, (standsOn_layout type n).entry _,
    List.forall_mem_nil _⟩

end

/-- **The lines of schema text are indented by what stands open.** -/
theorem isLaidOut_text (type : AvroType) : IsLaidOut type.text.toList := by
  have h := standsOn_layout type 0
  rw [text, String.toList_ofList]
  obtain ⟨c, rest, htext, hc, -⟩ := h.begins
  obtain ⟨stop, hstop, hgoes⟩ := h.goes [] ' '
  rw [htext] at hgoes ⊢
  exact Json.isLaidOut_of_goes hc hstop hgoes

end AvroType

end RelationalAvro.Avro
