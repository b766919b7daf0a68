import RelationalAvro.Proofs.Mapping.DecimalGroups
import RelationalAvro.Proofs.Text.SmallLetters

/-!
# Column types in different case

The category of a column type is selected in lower case, and its arguments are read as they are
written. Both agree for column types that are the same in lower case, since lower-casing does not
touch the characters that make up a group of arguments (`Text.isMark`): none of them is a capital,
and no capital becomes one of them, although a capital may become several characters
(`Text.takeWhile_isMark_lowercaseAfter`). So the same group is found before and after
(`DecimalGroup.find?_lowercaseChars`).

The main statement is `Config.typeOf_sameOutcome`.
-/

namespace RelationalAvro

open Avro (AvroType)

namespace Text

variable {c d : Char} {before after : List Char}

/-! ## Marks -/

/-- The characters that groups are made of: parentheses, the comma, blanks and digits. -/
def markRanges : List CodeRange :=
  ⟨0x28, 0x29⟩ :: ⟨0x2C, 0x2C⟩ :: (blankRanges ++ decimalDigitRanges)

/-- May the character stand in a group? -/
def isMark (c : Char) : Bool :=
  inRanges markRanges c

/-- Blanks are marks. -/
theorem isMark_of_isBlank (h : isBlank c = true) : isMark c = true := by
  obtain ⟨r, hr, hc⟩ := inRanges_iff.1 h
  exact inRanges_iff.2 ⟨r, by simp [markRanges, hr], hc⟩

/-- Decimal digits are marks. -/
theorem isMark_of_isDecimalDigit (h : isDecimalDigit c = true) : isMark c = true := by
  obtain ⟨r, hr, hc⟩ := inRanges_iff.1 h
  exact inRanges_iff.2 ⟨r, by simp [markRanges, hr], hc⟩

/-- Neither the capitals of the run nor their small letters are in the range. -/
def CaseRun.misses (r : CaseRun) (range : CodeRange) : Bool :=
  (r.last.blt range.first || range.last.blt r.first) &&
    ((r.image + (r.last - r.first)).blt range.first || range.last.blt r.image)

/-- No run of capitals, and none of their small letters, meets the marks. -/
theorem capitalRuns_miss : capitalRuns.all (fun r => markRanges.all r.misses) = true := by
  decide +kernel

/-- The capitals of a run and their small letters lie before or behind each range of marks. -/
theorem CaseRun.apart_of_mem_markRanges {r : CaseRun} (hr : r ∈ capitalRuns) {mark : CodeRange}
    (hmark : mark ∈ markRanges) : (r.last < mark.first ∨ mark.last < r.first) ∧
      (r.image + (r.last - r.first) < mark.first ∨ mark.last < r.image) := by
  have hmisses : r.misses mark = true :=
    List.all_eq_true.1 (List.all_eq_true.1 capitalRuns_miss r hr) mark hmark
  simpa only [misses, Bool.and_eq_true, Bool.or_eq_true, Nat.blt_eq] using hmisses

/-- Marks are their own small letters. -/
theorem isSmall_of_isMark (h : isMark c = true) : IsSmall c := by
  intro r hr
  obtain ⟨mark, hmark, hfirst, hlast⟩ := inRanges_iff.1 h
  have hapart := (CaseRun.apart_of_mem_markRanges hr hmark).1
  rw [← Bool.not_eq_true, CaseRun.contains_iff]
  omega

/-- No character becomes a mark. -/
theorem isMark_eq_false_of_mem_lowercaseChar (hc : isMark c = false)
    (hd : d ∈ lowercaseChar before c after) : isMark d = false := by
  have hothers : [['ς'], ['σ'], ['i', '\u0307']].flatten.all (fun d => !isMark d) = true := by
    decide +kernel
  rcases lowercaseChar_cases before c after with ⟨-, heq⟩ | ⟨r, hr, hcontains, heq⟩ | hmem
  · rw [heq, List.mem_singleton] at hd
    exact hd ▸ hc
  · rw [heq, List.mem_singleton] at hd
    subst hd
    rw [← Bool.not_eq_true, isMark, inRanges_iff]
    rintro ⟨mark, hmark, hfirst, hlast⟩
    have hapart := (CaseRun.apart_of_mem_markRanges hr hmark).2
    have hlimits := CaseRun.contains_iff.1 hcontains
    rw [CaseRun.toNat_smallOf hr hcontains] at hfirst hlast
    omega
  · simpa using List.all_eq_true.1 hothers d (List.mem_flatten.2 ⟨_, hmem, hd⟩)

/-- Lower-casing deletes no character. -/
theorem lowercaseChar_ne_nil (before : List Char) (c : Char) (after : List Char) :
    lowercaseChar before c after ≠ [] := by
  rcases lowercaseChar_cases before c after with ⟨-, heq⟩ | ⟨r, -, -, heq⟩ | hmem
  · simp [heq]
  · simp [heq]
  · rintro heq
    simp [heq] at hmem

/-- Lower-casing leaves the marks that a text begins with, and what follows them is still no mark.
-/
theorem takeWhile_isMark_lowercaseAfter (before text : List Char) :
    (lowercaseAfter before text).takeWhile isMark = text.takeWhile isMark := by
  induction text generalizing before with
  | nil => rfl
  | cons c after ih =>
    rw [lowercaseAfter_cons]
    cases hmark : isMark c with
    | true => simp [(isSmall_of_isMark hmark).lowercaseChar_eq, hmark, ih]
    | false =>
      -- both texts have no mark in front: the image is not empty and begins with another character
      obtain ⟨d, image, hcons⟩ :=
        List.exists_cons_of_ne_nil (lowercaseChar_ne_nil before c after)
      have hd : isMark d = false :=
        isMark_eq_false_of_mem_lowercaseChar hmark (by rw [hcons]; exact List.mem_cons_self)
      simp [hcons, hmark, hd]

end Text

/-! ## The same group -/

namespace DecimalGroup

variable {group : DecimalGroup} {text spelled : List Char}

/-- A group is spelled with marks alone. -/
theorem isMark_of_isSpelledBy (h : group.IsSpelledBy spelled) :
    ∀ x ∈ spelled, Text.isMark x = true := by
  obtain ⟨a, b, comma, c, d, rfl, hblanks, hcomma, -, hdigits⟩ := h
  obtain ⟨hopening, hclosing, hseparator⟩ :
      Text.isMark '(' = true ∧ Text.isMark ')' = true ∧ Text.isMark ',' = true := by
    decide +kernel
  replace hcomma : ∀ x ∈ comma, Text.isMark x = true := by
    rcases hcomma with rfl | rfl <;> simp [hseparator]
  replace hblanks := fun x hx => Text.isMark_of_isBlank (hblanks x hx)
  replace hdigits := fun x hx => Text.isMark_of_isDecimalDigit (hdigits x hx)
  simp only [List.forall_mem_append, List.forall_mem_cons] at hblanks hdigits ⊢
  obtain ⟨⟨⟨ha, hb⟩, hc⟩, hd⟩ := hblanks
  exact ⟨hopening, ha, hdigits.1, hb, hcomma, hc, hdigits.2, hd, hclosing, by simp⟩

/-- Characters of a kind begin a text exactly if they begin its first run of that kind. -/
theorem prefix_takeWhile_iff {p : Char → Bool} (h : ∀ x ∈ spelled, p x = true) :
    spelled <+: text.takeWhile p ↔ spelled <+: text := by
  refine ⟨fun hprefix => hprefix.trans (List.takeWhile_prefix p), ?_⟩
  rintro ⟨rest, rfl⟩
  rw [List.takeWhile_append_of_pos h]
  exact List.prefix_append ..

/-- Which groups a text begins with is up to the marks that it begins with. -/
theorem begins_takeWhile_isMark : group.Begins (text.takeWhile Text.isMark) ↔ group.Begins text :=
  exists_congr fun _ => and_congr_right fun h => prefix_takeWhile_iff (isMark_of_isSpelledBy h)

/-- The same groups begin at a parenthesis before and after lower-casing. -/
theorem begins_cons_lowercaseAfter (before text : List Char) :
    group.Begins ('(' :: Text.lowercaseAfter before text) ↔ group.Begins ('(' :: text) := by
  have hopening : Text.isMark '(' = true := by
    decide +kernel
  rw [← begins_takeWhile_isMark, List.takeWhile_cons_of_pos hopening,
    Text.takeWhile_isMark_lowercaseAfter, ← List.takeWhile_cons_of_pos hopening,
    begins_takeWhile_isMark]

/-- Lower-casing leaves what is found behind a parenthesis. -/
theorem opened?_lowercaseAfter (before text : List Char) :
    opened? (Text.lowercaseAfter before text) = opened? text := by
  refine Option.ext fun group => ?_
  simp only [opened?_eq_some_iff_begins, begins_cons_lowercaseAfter]

/-- No group begins in characters without a parenthesis. -/
theorem find?_append_of_not_mem {first : List Char} (h : '(' ∉ first) (text : List Char) :
    find? (first ++ text) = find? text := by
  induction first with
  | nil => rfl
  | cons c first ih =>
    rw [List.mem_cons, not_or] at h
    rw [List.cons_append, find?, if_neg fun hc => h.1 hc.symm, ih h.2]

/-- Lower-casing leaves the first group, whatever stands before the text. -/
theorem find?_lowercaseAfter (before text : List Char) :
    find? (Text.lowercaseAfter before text) = find? text := by
  have hopening : Text.isMark '(' = true := by
    decide +kernel
  induction text generalizing before with
  | nil => rfl
  | cons c after ih =>
    rw [Text.lowercaseAfter_cons, find?]
    by_cases hc : c = '('
    · subst hc
      rw [(Text.isSmall_of_isMark hopening).lowercaseChar_eq, List.singleton_append, find?,
        if_pos rfl, if_pos rfl, opened?_lowercaseAfter, ih]
    · -- nothing else becomes an opening parenthesis, so what `c` becomes is passed over
      have hnone : '(' ∉ Text.lowercaseChar before c after := by
        intro hmem
        cases hmark : Text.isMark c with
        | true =>
          rw [(Text.isSmall_of_isMark hmark).lowercaseChar_eq, List.mem_singleton] at hmem
          exact hc hmem.symm
        | false =>
          simp [Text.isMark_eq_false_of_mem_lowercaseChar hmark hmem] at hopening
      rw [if_neg hc, find?_append_of_not_mem hnone, ih]

/-- A text and its lower case have the same group. -/
theorem find?_lowercaseChars (text : List Char) : find? (Text.lowercaseChars text) = find? text :=
  find?_lowercaseAfter [] text

end DecimalGroup

/-! ## The same type -/

namespace Config

/-- Two column types are taken alike: the same type, or the same fault. Only where a fault shows the
column type itself, each shows its own. -/
inductive SameOutcome (columnType other : String) :
    Except Fault AvroType → Except Fault AvroType → Prop
  | type (type : AvroType) : SameOutcome columnType other (.ok type) (.ok type)
  | unmapped : SameOutcome columnType other (.error (.unmappedType columnType))
      (.error (.unmappedType other))
  | missing : SameOutcome columnType other (.error (.missingPrecision columnType))
      (.error (.missingPrecision other))
  | invalid (reason : DecimalFault) (precision scale : String) : SameOutcome columnType other
      (.error (.invalidDecimal reason precision scale))
      (.error (.invalidDecimal reason precision scale))

section

variable {config : Config} {columnType other : String}

/-- Column types of the same lower case have the same category. -/
theorem category?_eq_of_lowercase_eq (h : Text.lowercase columnType = Text.lowercase other) :
    config.category? columnType = config.category? other := by
  rw [category?, category?, ← Text.toList_lowercase, h, Text.toList_lowercase]

/-- Column types of the same lower case have the same first group. -/
theorem find?_eq_of_lowercase_eq (h : Text.lowercase columnType = Text.lowercase other) :
    DecimalGroup.find? columnType.toList = DecimalGroup.find? other.toList := by
  rw [← DecimalGroup.find?_lowercaseChars, ← Text.toList_lowercase, h, Text.toList_lowercase,
    DecimalGroup.find?_lowercaseChars]

/-- Column types of the same lower case fare alike in every category. -/
theorem typeIn_sameOutcome (h : Text.lowercase columnType = Text.lowercase other)
    (category : String) :
    SameOutcome columnType other (config.typeIn category columnType)
      (config.typeIn category other) := by
  by_cases hdecimal : category = "decimal"
  · subst hdecimal
    rw [typeIn_decimal, typeIn_decimal, decimalArguments, decimalArguments,
      find?_eq_of_lowercase_eq h]
    cases DecimalGroup.find? other.toList with
    | none => exact .missing
    | some group =>
      dsimp only
      cases hread : group.read config.defaultScale with
      | ok arguments => exact .type _
      | error fault =>
        -- a group is refused with its own digits alone
        cases DecimalGroup.read_eq_error_iff.1 hread <;> exact .invalid _ _ _
  · obtain ⟨type, htype⟩ := config.exists_typeIn_eq_ok hdecimal
    rw [htype, htype]
    exact .type type

end

/-- **The case of a column type does not matter**: column types that are the same in lower case are
taken alike, and so is each one with its own lower case. -/
theorem typeOf_sameOutcome (config : Config) :
    (∀ columnType other : String, Text.lowercase columnType = Text.lowercase other →
      SameOutcome columnType other (config.typeOf columnType) (config.typeOf other)) ∧
    ∀ columnType : String, SameOutcome columnType (Text.lowercase columnType)
      (config.typeOf columnType) (config.typeOf (Text.lowercase columnType)) := by
  have halike : ∀ columnType other : String, Text.lowercase columnType = Text.lowercase other →
      SameOutcome columnType other (config.typeOf columnType) (config.typeOf other) := by
    intro columnType other h
    rw [typeOf, typeOf, category?_eq_of_lowercase_eq h]
    cases config.category? other with
    | none => exact .unmapped
    | some category => exact typeIn_sameOutcome h category
  exact ⟨halike, fun columnType => halike _ _ (Text.lowercase_lowercase columnType).symm⟩

/-- A sigma that ends a word, once as a capital and once as the small letter that it becomes. -/
theorem typeOf_sameOutcome_sigma :
    let config := Config.ofTable "" (TypeTable.empty.add "decimal" "ΑΣ") 0
    SameOutcome "ΑΣ(7,2)" "Ας(7,2)" (config.typeOf "ΑΣ(7,2)") (config.typeOf "Ας(7,2)") ∧
      config.typeOf "ΑΣ(7,2)" = .ok (.logical "bytes" "decimal" (some 7) (some 2) none) := by
  intro config
  have hsame : Text.lowercase "ΑΣ(7,2)" = Text.lowercase "Ας(7,2)" := by
    decide +kernel
  have hdecimal : config.category? "ΑΣ(7,2)" = some "decimal" := by
    decide +kernel
  have htype : config.typeOf "ΑΣ(7,2)" =
      .ok (.logical "bytes" "decimal" (some 7) (some 2) none) := by
    rw [typeOf_eq_of_category? hdecimal]
    rfl
  exact ⟨(typeOf_sameOutcome config).1 _ _ hsame, htype⟩

end Config

end RelationalAvro
