import RelationalAvro.Text.Lowercase

/-!
# Texts in lower case

Lower-casing leaves a character that is no capital alone, wherever it stands (`IsSmall`). A capital
becomes characters that are none: the small letters of a run lie before, behind or between the
capitals of every run (`capitalRuns_avoid`). So a text in lower case has no capitals, and
lower-casing it again changes nothing, although a capital sigma is mapped by what stands around it:
`lowercase_lowercase`.
-/

namespace RelationalAvro.Text

variable {c d : Char} {before after : List Char}

/-! ## Capitals -/

/-- All capitals: those of the runs, and the two that are mapped in a way of their own. -/
def capitalRuns : List CaseRun :=
  ⟨0x130, 0x130, 1, 0x69⟩ :: ⟨0x3A3, 0x3A3, 1, 0x3C3⟩ :: caseRuns

/-- The character is no capital. -/
def IsSmall (c : Char) : Prop :=
  ∀ r ∈ capitalRuns, r.contains c.toNat = false

instance (c : Char) : Decidable (IsSmall c) :=
  inferInstanceAs (Decidable (∀ r ∈ capitalRuns, r.contains c.toNat = false))

/-- A small character is its own small letter. -/
theorem IsSmall.smallLetter_eq (h : IsSmall c) : smallLetter c = c := by
  have hnone : caseRuns.find? (·.contains c.toNat) = none := by
    rw [List.find?_eq_none]
    intro r hr
    simp [h r (List.mem_cons_of_mem _ (List.mem_cons_of_mem _ hr))]
  rw [smallLetter, hnone]

/-- Lower-casing leaves alone what is no capital, whatever stands around it. -/
theorem IsSmall.lowercaseChar_eq (h : IsSmall c) (before after : List Char) :
    lowercaseChar before c after = [c] := by
  have hsigma : c ≠ 'Σ' := by
    rintro rfl
    exact absurd h (by decide +kernel)
  have hdotted : c ≠ 'İ' := by
    rintro rfl
    exact absurd h (by decide +kernel)
  rw [lowercaseChar, if_neg hsigma, if_neg hdotted, h.smallLetter_eq]

/-- Small characters are left alone, whatever stands before them. -/
theorem lowercaseAfter_eq_self {text : List Char} (h : ∀ c ∈ text, IsSmall c)
    (before : List Char) : lowercaseAfter before text = text := by
  induction text generalizing before with
  | nil => rfl
  | cons c after ih =>
    rw [lowercaseAfter_cons, (h c List.mem_cons_self).lowercaseChar_eq,
      ih fun d hd => h d (List.mem_cons_of_mem c hd)]
    rfl

/-! ## Small letters -/

/-- The small letter of a capital of the run. -/
def CaseRun.smallOf (r : CaseRun) (c : Char) : Char :=
  Char.ofNat (r.image + (c.toNat - r.first))

/-- The small letters of the run lie before the capitals of the other, behind them, or between
them. -/
def CaseRun.avoids (r other : CaseRun) : Bool :=
  other.last.blt r.image || (r.image + (r.last - r.first)).blt other.first ||
    (other.step == 2 && (r.step == 2 || r.first == r.last) && (r.image + other.first) % 2 == 1)

/-- The small letters of each run avoid all runs of capitals. -/
theorem capitalRuns_avoid : capitalRuns.all (fun r => capitalRuns.all r.avoids) = true := by
  decide +kernel

/-- All small letters are code points of characters. -/
theorem capitalRuns_valid : ∀ r ∈ capitalRuns, r.image + (r.last - r.first) < 0xD800 ∨
    0xDFFF < r.image ∧ r.image + (r.last - r.first) < 0x110000 := by
  decide +kernel

/-- A run holds every so many code points from its first to its last. -/
theorem CaseRun.contains_iff {r : CaseRun} {n : Nat} :
    r.contains n = true ↔ r.first ≤ n ∧ n ≤ r.last ∧ (n - r.first) % r.step = 0 := by
  simp [CaseRun.contains, and_assoc]

/-- The small letter is as far from the image as the capital from the first one. -/
theorem CaseRun.toNat_smallOf {r : CaseRun} (hr : r ∈ capitalRuns)
    (hc : r.contains c.toNat = true) :
    (r.smallOf c).toNat = r.image + (c.toNat - r.first) := by
  have hcode : (r.image + (c.toNat - r.first)).isValidChar := by
    have hvalid := capitalRuns_valid r hr
    obtain ⟨hfirst, hlast, -⟩ := contains_iff.1 hc
    unfold Nat.isValidChar
    omega
  rw [smallOf, Char.ofNat, dif_pos hcode]
  rfl

/-- The small letters of a run are small. -/
theorem CaseRun.isSmall_smallOf {r : CaseRun} (hr : r ∈ capitalRuns)
    (hc : r.contains c.toNat = true) : IsSmall (r.smallOf c) := by
  intro other hother
  have havoids : r.avoids other = true :=
    List.all_eq_true.1 (List.all_eq_true.1 capitalRuns_avoid r hr) other hother
  rw [← Bool.not_eq_true, contains_iff, toNat_smallOf hr hc]
  rw [contains_iff] at hc
  simp only [avoids, Bool.or_eq_true, Bool.and_eq_true, Nat.blt_eq, beq_iff_eq] at havoids
  rintro ⟨hfirst, hlast, hstep⟩
  rcases havoids with (hbefore | hbehind) | ⟨⟨hother, hsame⟩, hodd⟩
  · omega
  · omega
  · -- all small letters are of one parity, all capitals of the other
    rw [hother] at hstep
    have heven : (c.toNat - r.first) % 2 = 0 := by
      rcases hsame with hsame | hsame
      · exact hsame ▸ hc.2.2
      · omega
    omega

/-- A character is no capital and stays, is the capital of a run and becomes its small letter, or is
one of the two other capitals. -/
theorem lowercaseChar_cases (before : List Char) (c : Char) (after : List Char) :
    (IsSmall c ∧ lowercaseChar before c after = [c]) ∨
    (∃ r ∈ capitalRuns, r.contains c.toNat = true ∧ lowercaseChar before c after = [r.smallOf c]) ∨
    lowercaseChar before c after ∈ [['ς'], ['σ'], ['i', '\u0307']] := by
  by_cases hsigma : c = 'Σ'
  · rw [lowercaseChar, if_pos hsigma]
    by_cases hends : endsWord before after = true <;> simp [hends]
  by_cases hdotted : c = 'İ'
  · rw [lowercaseChar, if_neg hsigma, if_pos hdotted]
    simp
  cases hfind : caseRuns.find? (·.contains c.toNat) with
  | some r =>
    have hr : r ∈ capitalRuns :=
      List.mem_cons_of_mem _ (List.mem_cons_of_mem _ (List.mem_of_find?_eq_some hfind))
    have hc : r.contains c.toNat = true := by simpa using List.find?_some hfind
    refine .inr (.inl ⟨r, hr, hc, ?_⟩)
    rw [lowercaseChar, if_neg hsigma, if_neg hdotted, smallLetter, hfind]
    rfl
  | none =>
    -- the two runs that are not searched hold the sigma and the dotted I alone
    have hsmall : IsSmall c := by
      rw [List.find?_eq_none] at hfind
      intro r hr
      rcases List.mem_cons.1 hr with rfl | hr
      · rw [← Bool.not_eq_true, CaseRun.contains_iff]
        exact fun h => hdotted (Char.toNat_inj.1 (by simpa using Nat.le_antisymm h.2.1 h.1))
      rcases List.mem_cons.1 hr with rfl | hr
      · rw [← Bool.not_eq_true, CaseRun.contains_iff]
        exact fun h => hsigma (Char.toNat_inj.1 (by simpa using Nat.le_antisymm h.2.1 h.1))
      · simpa using hfind r hr
    exact .inl ⟨hsmall, hsmall.lowercaseChar_eq before after⟩

/-- No character becomes a capital. -/
theorem isSmall_of_mem_lowercaseChar (h : d ∈ lowercaseChar before c after) : IsSmall d := by
  have hothers : [['ς'], ['σ'], ['i', '\u0307']].flatten.all (fun d => IsSmall d) = true := by
    decide +kernel
  rcases lowercaseChar_cases before c after with ⟨hsmall, heq⟩ | ⟨r, hr, hc, heq⟩ | hmem
  · rw [heq, List.mem_singleton] at h
    exact h ▸ hsmall
  · rw [heq, List.mem_singleton] at h
    exact h ▸ CaseRun.isSmall_smallOf hr hc
  · exact of_decide_eq_true (List.all_eq_true.1 hothers d (List.mem_flatten.2 ⟨_, hmem, h⟩))

/-- Lower-casing leaves small characters only. -/
theorem isSmall_of_mem_lowercaseAfter {text : List Char} (h : d ∈ lowercaseAfter before text) :
    IsSmall d := by
  induction text generalizing before with
  | nil => simp [lowercaseAfter] at h
  | cons c after ih =>
    rw [lowercaseAfter_cons, List.mem_append] at h
    exact h.elim isSmall_of_mem_lowercaseChar ih

/-- Characters are in lower case for good. -/
theorem lowercaseChars_lowercaseChars (text : List Char) :
    lowercaseChars (lowercaseChars text) = lowercaseChars text :=
  lowercaseAfter_eq_self (fun _ h => isSmall_of_mem_lowercaseAfter h) []

/-- A text in lower case is left alone. -/
theorem lowercase_lowercase (text : String) : lowercase (lowercase text) = lowercase text := by
  rw [lowercase, toList_lowercase, lowercaseChars_lowercaseChars, ← lowercase]

/-! ## ASCII -/

/-- Is the character ASCII and no capital? -/
def isSmallAscii (c : Char) : Bool :=
  decide (c.toNat < 0x41) || decide (0x5A < c.toNat ∧ c.toNat < 0x80)

/-- ASCII characters other than capitals are small. -/
theorem isSmall_of_isSmallAscii (h : isSmallAscii c = true) : IsSmall c := by
  -- the run of A to Z ends with Z, and all others are beyond ASCII
  have hruns : ∀ r ∈ capitalRuns, r.first = 0x41 ∧ r.last = 0x5A ∨ 0x80 ≤ r.first := by
    decide +kernel
  intro r hr
  have hfirst := hruns r hr
  rw [← Bool.not_eq_true, CaseRun.contains_iff]
  simp only [isSmallAscii, Bool.or_eq_true, decide_eq_true_eq] at h
  omega

/-- A text of ASCII characters without capitals is in lower case. -/
theorem lowercase_eq_self {text : String} (h : text.toList.all isSmallAscii = true) :
    lowercase text = text := by
  have hsmall : ∀ c ∈ text.toList, IsSmall c := fun c hc =>
    isSmall_of_isSmallAscii (List.all_eq_true.1 h c hc)
  rw [lowercase, lowercaseChars, lowercaseAfter_eq_self hsmall, String.ofList_toList]

end RelationalAvro.Text
