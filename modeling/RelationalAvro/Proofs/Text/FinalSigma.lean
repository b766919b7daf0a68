import RelationalAvro.Text.Lowercase

/-!
# Lower case of a beginning

A text in lower case begins with the lower case of each of its beginnings, with one exception. A
capital sigma that ends a word becomes a final small sigma; if the word goes on behind the
beginning, the same sigma is final in the beginning alone and not in the whole text
(`LosesFinalSigma`). Both images have as many characters, so the exception is a real one:
`lowercaseChars_prefix_append_iff`.
-/

namespace RelationalAvro.Text

/-- The lower case of a text that stands between `before`, read backwards, and `after`. -/
def lowercaseBetween (before : List Char) : List Char → List Char → List Char
  | [], _ => []
  | c :: text, after =>
    lowercaseChar before c (text ++ after) ++ lowercaseBetween (c :: before) text after

/-- A text is lower-cased piece by piece, if each piece knows what stands around it. -/
theorem lowercaseAfter_append (before text after : List Char) :
    lowercaseAfter before (text ++ after) =
      lowercaseBetween before text after ++ lowercaseAfter (text.reverse ++ before) after := by
  induction text generalizing before with
  | nil => rfl
  | cons c text ih =>
    rw [List.cons_append, lowercaseAfter_cons, ih, lowercaseBetween, List.append_assoc]
    simp

/-- Without anything behind it a text stands alone. -/
theorem lowercaseAfter_eq_lowercaseBetween (before text : List Char) :
    lowercaseAfter before text = lowercaseBetween before text [] := by
  simpa [lowercaseAfter] using lowercaseAfter_append before text []

/-- How many characters a character becomes does not depend on what stands around it. -/
theorem length_lowercaseChar (before : List Char) (c : Char) (after after' : List Char) :
    (lowercaseChar before c after).length = (lowercaseChar before c after').length := by
  unfold lowercaseChar
  by_cases hsigma : c = 'Σ'
  · simp [hsigma]
  · simp [hsigma]

/-- What stands behind a text does not change how long it becomes. -/
theorem length_lowercaseBetween (before text after after' : List Char) :
    (lowercaseBetween before text after).length = (lowercaseBetween before text after').length := by
  induction text generalizing before with
  | nil => rfl
  | cons c text ih =>
    rw [lowercaseBetween, lowercaseBetween, List.length_append, List.length_append, ih,
      length_lowercaseChar before c (text ++ after) (text ++ after')]

/-! ## The sigma at the end -/

/-- The text ends in a capital sigma, marks aside, that ends a word in the text alone but not if
`after` comes next. -/
def LosesFinalSigma (before text after : List Char) : Prop :=
  ∃ first marks, text = first ++ 'Σ' :: marks ∧ (∀ c ∈ marks, isCaseIgnorable c = true) ∧
    meetsCased (first.reverse ++ before) = true ∧ meetsCased after = true

section

variable {before text after : List Char} {c : Char}

/-- Marks meet no cased character. -/
theorem meetsCased_of_marks (h : ∀ c ∈ text, isCaseIgnorable c = true) :
    meetsCased text = false := by
  have hnone : text.find? (fun c => !isCaseIgnorable c) = none := by
    simpa [List.find?_eq_none] using h
  rw [meetsCased, hnone]
  rfl

/-- Past marks alone a text meets what comes behind it. -/
theorem meetsCased_append_of_marks (h : ∀ c ∈ text, isCaseIgnorable c = true) :
    meetsCased (text ++ after) = meetsCased after := by
  have hnone : text.find? (fun c => !isCaseIgnorable c) = none := by
    simpa [List.find?_eq_none] using h
  rw [meetsCased, List.find?_append, hnone, Option.none_or, ← meetsCased]

/-- What stands behind a character that is no mark is not met. -/
theorem meetsCased_append_of_not_marks (h : ¬∀ c ∈ text, isCaseIgnorable c = true) :
    meetsCased (text ++ after) = meetsCased text := by
  have hsome : (text.find? fun c => !isCaseIgnorable c).isSome = true := by
    simpa [List.find?_isSome] using h
  rw [meetsCased, List.find?_append, Option.or_of_isSome hsome, ← meetsCased]

/-- Only a capital sigma with marks alone behind it is changed by what comes next. -/
theorem lowercaseChar_append_eq_iff :
    lowercaseChar before c (text ++ after) = lowercaseChar before c text ↔
      ¬(c = 'Σ' ∧ (∀ d ∈ text, isCaseIgnorable d = true) ∧ meetsCased before = true ∧
        meetsCased after = true) := by
  by_cases hsigma : c = 'Σ'
  · subst hsigma
    by_cases hmarks : ∀ d ∈ text, isCaseIgnorable d = true
    · rw [lowercaseChar, lowercaseChar, endsWord, endsWord, meetsCased_append_of_marks hmarks,
        meetsCased_of_marks hmarks, and_iff_right rfl, and_iff_right hmarks]
      cases meetsCased before <;> cases meetsCased after <;> simp
    · rw [lowercaseChar, lowercaseChar, endsWord, endsWord, meetsCased_append_of_not_marks hmarks]
      simp only [true_iff]
      exact fun h => hmarks h.2.1
  · simp [lowercaseChar, hsigma]

/-- The first character is a sigma that is no longer final, or the rest has one. -/
theorem losesFinalSigma_cons_iff :
    LosesFinalSigma before (c :: text) after ↔
      (c = 'Σ' ∧ (∀ d ∈ text, isCaseIgnorable d = true) ∧ meetsCased before = true ∧
        meetsCased after = true) ∨ LosesFinalSigma (c :: before) text after := by
  constructor
  · rintro ⟨first, marks, htext, hmarks, hbefore, hafter⟩
    cases first with
    | nil =>
      obtain ⟨rfl, rfl⟩ := List.cons.inj htext
      exact .inl ⟨rfl, hmarks, hbefore, hafter⟩
    | cons d first =>
      obtain ⟨rfl, rfl⟩ := List.cons.inj htext
      exact .inr ⟨first, marks, rfl, hmarks, by simpa using hbefore, hafter⟩
  · rintro (⟨rfl, hmarks, hbefore, hafter⟩ | ⟨first, marks, rfl, hmarks, hbefore, hafter⟩)
    · exact ⟨[], text, rfl, hmarks, hbefore, hafter⟩
    · exact ⟨c :: first, marks, rfl, hmarks, by simpa using hbefore, hafter⟩

/-- More behind a text changes it exactly if a sigma is no longer final. -/
theorem lowercaseBetween_eq_iff :
    lowercaseBetween before text after = lowercaseBetween before text [] ↔
      ¬LosesFinalSigma before text after := by
  induction text generalizing before with
  | nil => simp [lowercaseBetween, LosesFinalSigma]
  | cons c text ih =>
    have hlength := length_lowercaseChar before c (text ++ after) text
    rw [losesFinalSigma_cons_iff, not_or, ← ih, ← lowercaseChar_append_eq_iff, lowercaseBetween,
      lowercaseBetween, List.append_nil]
    exact ⟨fun h => List.append_inj h hlength, fun ⟨hfirst, hrest⟩ => by rw [hfirst, hrest]⟩

/-- **The lower case of a text begins with that of its beginning**, unless the beginning loses a
final sigma. -/
theorem lowercaseChars_prefix_append_iff :
    lowercaseChars text <+: lowercaseChars (text ++ after) ↔ ¬LosesFinalSigma [] text after := by
  have hlength := length_lowercaseBetween [] text [] after
  rw [← lowercaseBetween_eq_iff, lowercaseChars, lowercaseChars, lowercaseAfter_append,
    lowercaseAfter_eq_lowercaseBetween]
  constructor
  · -- both images of the beginning are of the same length, so they can be compared
    rintro ⟨further, h⟩
    exact (List.append_inj h hlength).1.symm
  · intro h
    rw [h]
    exact List.prefix_append ..

end

end RelationalAvro.Text
