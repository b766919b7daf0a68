import Mathlib.Data.List.DropRight
import Mathlib.Data.Nat.Digits.Defs
import RelationalAvro.Mapping.ColumnType

/-!
# Arguments of decimals

A group is an opening parenthesis, digits, perhaps a comma, perhaps more digits, and the closing
parenthesis, with blanks anywhere between them (`DecimalGroup.IsSpelledBy`). What a reader finds is
the group of the first parenthesis that opens one, with as many digits for the precision as can be
(`DecimalGroup.find?_eq_some_iff`). Its digits are read as numbers by position, and there are four
ways in which they can be refused, of which the first one counts (`DecimalGroup.Refuses`).

The main statement is `Config.typeOf_decimal`.
-/

namespace RelationalAvro

open Avro (AvroType)
open Text (isBlank isDecimalDigit digitValue digitsValue natText)

namespace DecimalGroup

variable {group other : DecimalGroup} {text spelled after : List Char}

/-! ## Groups in a text -/

/-- The text spells the group, from the opening to the closing parenthesis. -/
def IsSpelledBy (group : DecimalGroup) (spelled : List Char) : Prop :=
  ∃ a b comma c d : List Char,
    spelled = '(' ::
      (a ++ (group.precision ++ (b ++ (comma ++ (c ++ (group.scale ++ (d ++ [')']))))))) ∧
    (∀ x ∈ a ++ b ++ c ++ d, isBlank x = true) ∧ (comma = [] ∨ comma = [',']) ∧
    group.precision ≠ [] ∧ ∀ x ∈ group.precision ++ group.scale, isDecimalDigit x = true

/-- The text begins with the group. -/
def Begins (group : DecimalGroup) (text : List Char) : Prop :=
  ∃ spelled, group.IsSpelledBy spelled ∧ spelled <+: text

/-- The text contains a group. -/
def IsIn (text : List Char) : Prop :=
  ∃ (group : DecimalGroup) (behind : List Char), behind <:+ text ∧ group.Begins behind

/-- The text contains the group, no group begins earlier, and none that begins there has more digits
for its precision. -/
def IsFirstIn (group : DecimalGroup) (text : List Char) : Prop :=
  ∃ before behind, text = before ++ behind ∧ group.Begins behind ∧
    (∀ other : DecimalGroup, other.Begins behind →
      other.precision.length ≤ group.precision.length) ∧
    ∀ (other : DecimalGroup) earlier rest, text = earlier ++ rest → other.Begins rest →
      before.length ≤ earlier.length

theorem not_begins_nil : ¬group.Begins [] := by
  rintro ⟨_, ⟨a, b, comma, c, d, rfl, -⟩, hprefix⟩
  simp at hprefix

/-- A group begins with a parenthesis. -/
theorem eq_of_begins_cons {c : Char} (h : group.Begins (c :: text)) : c = '(' := by
  obtain ⟨_, ⟨a, b, comma, c, d, rfl, -⟩, hprefix⟩ := h
  exact (List.cons_prefix_cons.1 hprefix).1.symm

/-! ## Digits, blanks and the rest -/

/-- Decimal digits are not blank. -/
theorem isBlank_of_isDecimalDigit {c : Char} (h : isDecimalDigit c = true) : isBlank c = false := by
  have hranges : ∀ r ∈ Text.blankRanges, ∀ s ∈ Text.decimalDigitRanges,
      r.last < s.first ∨ s.last < r.first := by
    decide +kernel
  obtain ⟨s, hs, hfirst, hlast⟩ := Text.inRanges_iff.1 h
  rw [← Bool.not_eq_true, isBlank, Text.inRanges_iff]
  rintro ⟨r, hr, hfirst', hlast'⟩
  have hapart := hranges r hr s hs
  omega

/-- Blanks are no decimal digits. -/
theorem isDecimalDigit_of_isBlank {c : Char} (h : isBlank c = true) : isDecimalDigit c = false := by
  by_contra hdigit
  simp [isBlank_of_isDecimalDigit (by simpa using hdigit)] at h

/-- Neither a blank nor a digit: a comma and the closing parenthesis. -/
theorem comma_apart : isBlank ',' = false ∧ isDecimalDigit ',' = false := by
  decide +kernel

/-- The closing parenthesis is neither blank nor a digit. -/
theorem closing_apart : isBlank ')' = false ∧ isDecimalDigit ')' = false := by
  decide +kernel

/-- A run of characters of a kind ends where a character is not of that kind. -/
private theorem span_append_of_stop {p : Char → Bool} {run rest : List Char}
    (hrun : ∀ x ∈ run, p x = true) (hrest : ∀ x ∈ rest.head?, p x = false) :
    (run ++ rest).takeWhile p = run ∧ (run ++ rest).dropWhile p = rest := by
  rw [List.takeWhile_append_of_pos hrun, List.dropWhile_append_of_pos hrun]
  cases rest with
  | nil => simp
  | cons x rest => simp [hrest x rfl]

/-- Blanks in front are skipped. -/
theorem skipBlanks_append {blanks : List Char} (h : ∀ x ∈ blanks, isBlank x = true)
    (text : List Char) : skipBlanks (blanks ++ text) = skipBlanks text :=
  List.dropWhile_append_of_pos h

/-- Nothing is skipped of a text that does not begin with a blank. -/
theorem skipBlanks_eq_self (h : ∀ x ∈ text.head?, isBlank x = false) : skipBlanks text = text := by
  cases text with
  | nil => rfl
  | cons c text => simp [skipBlanks, h c rfl]

theorem skipBlanks_skipBlanks (text : List Char) : skipBlanks (skipBlanks text) = skipBlanks text :=
  List.dropWhile_idempotent ..

/-- What is skipped are blanks. -/
theorem exists_blanks (text : List Char) :
    ∃ blanks, (∀ x ∈ blanks, isBlank x = true) ∧ text = blanks ++ skipBlanks text :=
  ⟨text.takeWhile isBlank, List.all_eq_true.1 List.all_takeWhile,
    List.takeWhile_append_dropWhile.symm⟩

/-- What is skipped is a comma, if anything. -/
theorem exists_comma (text : List Char) :
    ∃ comma, (comma = [] ∨ comma = [',']) ∧ text = comma ++ skipComma text := by
  unfold skipComma
  split
  · exact ⟨[','], .inr rfl, rfl⟩
  · exact ⟨[], .inl rfl, rfl⟩

/-- Nothing is skipped of a text that does not begin with a comma. -/
theorem skipComma_eq_self (h : ',' ∉ text.head?) : skipComma text = text := by
  unfold skipComma
  split
  · simp at h
  · rfl

/-! ## The group of one parenthesis -/

/-- The text behind blanks, perhaps a comma, and blanks. -/
def behindComma (text : List Char) : List Char :=
  skipBlanks (skipComma (skipBlanks text))

/-- The parts of a group, as they are read. -/
theorem opened?_eq_some_iff :
    opened? text = some group ↔ group.precision ≠ [] ∧
      (skipBlanks text).takeWhile isDecimalDigit = group.precision ∧
      (behindComma ((skipBlanks text).dropWhile isDecimalDigit)).takeWhile isDecimalDigit =
        group.scale ∧
      ∃ after, skipBlanks ((behindComma ((skipBlanks text).dropWhile isDecimalDigit)).dropWhile
        isDecimalDigit) = ')' :: after := by
  obtain ⟨precision, scale⟩ := group
  unfold opened? behindComma
  dsimp only
  constructor
  · intro h
    split at h
    · rename_i hprecision hclosing
      simp only [Option.some.injEq, mk.injEq] at h
      obtain ⟨rfl, rfl⟩ := h
      exact ⟨List.cons_ne_nil _ _, hprecision, rfl, _, hclosing⟩
    · cases h
  · rintro ⟨hne, rfl, rfl, after, hclosing⟩
    obtain ⟨digit, digits, hprecision⟩ := List.exists_cons_of_ne_nil hne
    simp only [hprecision, hclosing]

/-- What a reader finds behind an opening parenthesis is spelled there. -/
theorem exists_isSpelledBy_of_opened? (h : opened? text = some group) :
    ∃ spelled after, '(' :: text = spelled ++ after ∧ group.IsSpelledBy spelled := by
  obtain ⟨hne, hprecision, hscale, after, hclosing⟩ := opened?_eq_some_iff.1 h
  -- each of the four skips leaves behind the blanks that it has skipped
  obtain ⟨a, ha, htext⟩ := exists_blanks text
  obtain ⟨b, hb, hrest⟩ := exists_blanks ((skipBlanks text).dropWhile isDecimalDigit)
  obtain ⟨comma, hcomma, hcut⟩ :=
    exists_comma (skipBlanks ((skipBlanks text).dropWhile isDecimalDigit))
  obtain ⟨c, hc, hsecond⟩ :=
    exists_blanks (skipComma (skipBlanks ((skipBlanks text).dropWhile isDecimalDigit)))
  obtain ⟨d, hd, hend⟩ := exists_blanks
    ((behindComma ((skipBlanks text).dropWhile isDecimalDigit)).dropWhile isDecimalDigit)
  have hdigits : ∀ x ∈ group.precision ++ group.scale, isDecimalDigit x = true := by
    rw [← hprecision, ← hscale]
    simp only [List.forall_mem_append]
    exact ⟨List.all_eq_true.1 List.all_takeWhile, List.all_eq_true.1 List.all_takeWhile⟩
  refine ⟨_, after, ?_, a, b, comma, c, d, rfl, ?_, hcomma, hne, hdigits⟩
  · rw [← behindComma, ← List.takeWhile_append_dropWhile (p := isDecimalDigit)
      (l := behindComma _), hscale, hend, hclosing] at hsecond
    rw [htext, ← List.takeWhile_append_dropWhile (p := isDecimalDigit) (l := skipBlanks text),
      hprecision, hrest, hcut, hsecond]
    simp
  · simp only [List.forall_mem_append]
    exact ⟨⟨⟨ha, hb⟩, hc⟩, hd⟩

/-- A blank or the closing parenthesis, which come behind the scale, are no digits. -/
theorem head?_ending {d : List Char} (hd : ∀ x ∈ d, isBlank x = true) (after : List Char) :
    ∀ x ∈ (d ++ ')' :: after).head?, isDecimalDigit x = false := by
  cases d with
  | nil => simp [closing_apart.2]
  | cons x d => simp [isDecimalDigit_of_isBlank (hd x List.mem_cons_self)]

/-- The scale is read up to blanks and the closing parenthesis. -/
theorem skipBlanks_scale {scale d : List Char} (hscale : ∀ x ∈ scale, isDecimalDigit x = true)
    (hd : ∀ x ∈ d, isBlank x = true) (after : List Char) :
    ∃ rest, skipBlanks (scale ++ (d ++ ')' :: after)) = scale ++ rest ∧
      (∀ x ∈ rest.head?, isDecimalDigit x = false) ∧ ',' ∉ (scale ++ rest).head? ∧
      skipBlanks rest = ')' :: after := by
  have hclosing : skipBlanks (')' :: after) = ')' :: after :=
    skipBlanks_eq_self (by simp [closing_apart.1])
  cases scale with
  | nil =>
    refine ⟨')' :: after, ?_, by simp [closing_apart.2], by simp, hclosing⟩
    rw [List.nil_append, skipBlanks_append hd, hclosing, List.nil_append]
  | cons digit scale =>
    have hdigit := hscale digit List.mem_cons_self
    refine ⟨d ++ ')' :: after, skipBlanks_eq_self ?_, head?_ending hd after, ?_, ?_⟩
    · simp [isBlank_of_isDecimalDigit hdigit]
    · have hcomma : digit ≠ ',' := by
        rintro rfl
        simp [comma_apart.2] at hdigit
      simpa using hcomma
    · rw [skipBlanks_append hd, hclosing]

/-- Blanks and a comma are passed over, or blanks alone. -/
theorem behindComma_append {b comma c : List Char} (hb : ∀ x ∈ b, isBlank x = true)
    (hcomma : comma = [] ∨ comma = [',']) (hc : ∀ x ∈ c, isBlank x = true)
    (hnext : ',' ∉ (skipBlanks text).head?) :
    behindComma (b ++ (comma ++ (c ++ text))) = skipBlanks text := by
  rcases hcomma with rfl | rfl
  · rw [behindComma, List.nil_append, skipBlanks_append hb, skipBlanks_append hc,
      skipComma_eq_self hnext, skipBlanks_skipBlanks]
  · have hstop : skipBlanks (',' :: (c ++ text)) = ',' :: (c ++ text) :=
      skipBlanks_eq_self (by simp [comma_apart.1])
    rw [behindComma, skipBlanks_append hb, List.singleton_append, hstop, skipComma,
      skipBlanks_append hc]

/-- Unless nothing but the scale comes behind the precision, the precision ends there. -/
theorem head?_gap {b comma c d scale : List Char} (hb : ∀ x ∈ b, isBlank x = true)
    (hcomma : comma = [] ∨ comma = [',']) (hc : ∀ x ∈ c, isBlank x = true)
    (hd : ∀ x ∈ d, isBlank x = true) (after : List Char)
    (hgap : ¬(b = [] ∧ comma = [] ∧ c = [] ∧ scale ≠ [])) :
    ∀ x ∈ (b ++ (comma ++ (c ++ (scale ++ (d ++ ')' :: after))))).head?,
      isDecimalDigit x = false := by
  rcases b with _ | ⟨x, b⟩
  · rcases hcomma with rfl | rfl
    · rcases c with _ | ⟨x, c⟩
      · have hnone : scale = [] := by simpa using hgap
        rw [hnone]
        exact head?_ending hd after
      · simp [isDecimalDigit_of_isBlank (hc x List.mem_cons_self)]
    · simp [comma_apart.2]
  · simp [isDecimalDigit_of_isBlank (hb x List.mem_cons_self)]

/-- A group is read, unless the digits of its scale come right behind those of its precision. -/
theorem opened?_of_parted {a b comma c d : List Char} (hne : group.precision ≠ [])
    (hprecision : ∀ x ∈ group.precision, isDecimalDigit x = true)
    (hscale : ∀ x ∈ group.scale, isDecimalDigit x = true) (ha : ∀ x ∈ a, isBlank x = true)
    (hb : ∀ x ∈ b, isBlank x = true) (hcomma : comma = [] ∨ comma = [','])
    (hc : ∀ x ∈ c, isBlank x = true) (hd : ∀ x ∈ d, isBlank x = true)
    (hgap : ¬(b = [] ∧ comma = [] ∧ c = [] ∧ group.scale ≠ [])) (after : List Char) :
    opened? (a ++ (group.precision ++
      (b ++ (comma ++ (c ++ (group.scale ++ (d ++ ')' :: after))))))) = some group := by
  -- from behind: the scale and its blanks, the gap before them, and the precision
  obtain ⟨rest, hsecond, hrest, hnext, hclosing⟩ := skipBlanks_scale hscale hd after
  rw [← hsecond] at hnext
  have hfirst := span_append_of_stop hprecision (head?_gap hb hcomma hc hd after hgap)
  have hblanks : ∀ gap, skipBlanks (a ++ (group.precision ++ gap)) = group.precision ++ gap := by
    intro gap
    obtain ⟨digit, digits, hcons⟩ := List.exists_cons_of_ne_nil hne
    have hdigit : isDecimalDigit digit = true := hprecision digit (by simp [hcons])
    rw [skipBlanks_append ha, skipBlanks_eq_self]
    simp [hcons, isBlank_of_isDecimalDigit hdigit]
  rw [opened?_eq_some_iff, hblanks, hfirst.1, hfirst.2, behindComma_append hb hcomma hc hnext,
    hsecond]
  have hspan := span_append_of_stop hscale hrest
  exact ⟨hne, rfl, hspan.1, after, by rw [hspan.2, hclosing]⟩

/-- Where a group is spelled a reader finds one, and if it is another one, then that one has more
digits for its precision. -/
theorem opened?_of_isSpelledBy (h : group.IsSpelledBy spelled)
    (htext : '(' :: text = spelled ++ after) :
    ∃ longest, opened? text = some longest ∧
      (longest = group ∨ group.precision.length < longest.precision.length) := by
  obtain ⟨a, b, comma, c, d, rfl, hblanks, hcomma, hne, hdigits⟩ := h
  simp only [List.forall_mem_append] at hblanks
  obtain ⟨⟨⟨ha, hb⟩, hc⟩, hd⟩ := hblanks
  obtain ⟨hprecision, hscale⟩ := List.forall_mem_append.1 hdigits
  obtain rfl : text = a ++ (group.precision ++
      (b ++ (comma ++ (c ++ (group.scale ++ (d ++ ')' :: after)))))) := by
    simpa using htext
  by_cases hgap : b = [] ∧ comma = [] ∧ c = [] ∧ group.scale ≠ []
  · -- nothing stands between the digits, and all of them belong to the precision
    obtain ⟨rfl, rfl, rfl, hsome⟩ := hgap
    have hall := @opened?_of_parted ⟨group.precision ++ group.scale, []⟩ a [] [] [] d
      (by simp [hne])
      hdigits (by simp) ha hb hcomma hc hd (by simp) after
    refine ⟨⟨group.precision ++ group.scale, []⟩, by simpa using hall, .inr ?_⟩
    simpa [Nat.pos_iff_ne_zero] using hsome
  · exact ⟨group, opened?_of_parted hne hprecision hscale ha hb hcomma hc hd hgap after, .inl rfl⟩

/-- **What a reader finds behind an opening parenthesis** is the group with the most digits for its
precision that begins there. -/
theorem opened?_eq_some_iff_begins :
    opened? text = some group ↔ group.Begins ('(' :: text) ∧
      ∀ other : DecimalGroup, other.Begins ('(' :: text) →
        other.precision.length ≤ group.precision.length := by
  constructor
  · intro h
    obtain ⟨spelled, after, htext, hspelled⟩ := exists_isSpelledBy_of_opened? h
    refine ⟨⟨spelled, hspelled, after, htext.symm⟩, ?_⟩
    rintro other ⟨further, hfurther, rest, hrest⟩
    -- the group found is the longest, so any other that begins here is it or is shorter
    obtain ⟨longest, hlongest, hcases⟩ := opened?_of_isSpelledBy hfurther hrest.symm
    obtain rfl : group = longest := Option.some.inj (h.symm.trans hlongest)
    rcases hcases with rfl | hlt
    · exact Nat.le_refl _
    · exact Nat.le_of_lt hlt
  · rintro ⟨⟨spelled, hspelled, after, htext⟩, hmost⟩
    obtain ⟨longest, hlongest, rfl | hlt⟩ := opened?_of_isSpelledBy hspelled htext.symm
    · exact hlongest
    · obtain ⟨further, rest, hfurther, hother⟩ := exists_isSpelledBy_of_opened? hlongest
      have hbegins : longest.Begins ('(' :: text) := ⟨further, hother, rest, hfurther.symm⟩
      exact absurd (hmost longest hbegins) (Nat.not_le.2 hlt)

/-- Nothing is found behind a parenthesis exactly if no group begins at it. -/
theorem opened?_eq_none_iff :
    opened? text = none ↔ ∀ group : DecimalGroup, ¬group.Begins ('(' :: text) := by
  constructor
  · rintro h group ⟨spelled, hspelled, after, htext⟩
    obtain ⟨longest, hlongest, -⟩ := opened?_of_isSpelledBy hspelled htext.symm
    simp [h] at hlongest
  · intro h
    refine Option.eq_none_iff_forall_ne_some.2 fun group hgroup => ?_
    exact h group (opened?_eq_some_iff_begins.1 hgroup).1

/-! ## The first group of a text -/

/-- A group is in a text if one begins it or is in the rest. -/
theorem isIn_cons_iff {c : Char} :
    IsIn (c :: text) ↔ (∃ group : DecimalGroup, group.Begins (c :: text)) ∨ IsIn text := by
  simp only [IsIn, List.suffix_cons_iff]
  constructor
  · rintro ⟨group, behind, rfl | hbehind, hbegins⟩
    · exact .inl ⟨group, hbegins⟩
    · exact .inr ⟨group, behind, hbehind, hbegins⟩
  · rintro (⟨group, hbegins⟩ | ⟨group, behind, hbehind, hbegins⟩)
    · exact ⟨group, _, .inl rfl, hbegins⟩
    · exact ⟨group, behind, .inr hbehind, hbegins⟩

/-- A text contains no group exactly if none is found. -/
theorem find?_eq_none_iff : find? text = none ↔ ¬IsIn text := by
  induction text with
  | nil =>
    have hnil : ¬IsIn [] := by
      rintro ⟨group, behind, hbehind, hbegins⟩
      rw [List.suffix_nil.1 hbehind] at hbegins
      exact not_begins_nil hbegins
    exact iff_of_true rfl hnil
  | cons c text ih =>
    rw [find?, isIn_cons_iff, not_or, not_exists, ← ih]
    by_cases hc : c = '('
    · subst hc
      rw [if_pos rfl, Option.or_eq_none_iff, opened?_eq_none_iff]
    · rw [if_neg hc, iff_and_self]
      exact fun _ group hbegins => hc (eq_of_begins_cons hbegins)

/-- The first group of a text begins it, or it is the first one of what comes behind the first
character. -/
theorem isFirstIn_cons_iff {c : Char} :
    group.IsFirstIn (c :: text) ↔
      (group.Begins (c :: text) ∧ ∀ other : DecimalGroup, other.Begins (c :: text) →
        other.precision.length ≤ group.precision.length) ∨
      (∀ other : DecimalGroup, ¬other.Begins (c :: text)) ∧ group.IsFirstIn text := by
  constructor
  · rintro ⟨before, behind, htext, hbegins, hmost, hfirst⟩
    -- the first group stands at the first character or behind it
    rcases before with _ | ⟨d, before⟩
    · obtain rfl : c :: text = behind := htext
      exact .inl ⟨hbegins, hmost⟩
    · obtain ⟨rfl, rfl⟩ := List.cons.inj htext
      refine .inr ⟨fun other hother => ?_, before, behind, rfl, hbegins, hmost, ?_⟩
      · simpa using hfirst other [] _ rfl hother
      · intro other earlier rest htext hother
        have hlength := hfirst other (c :: earlier) rest (by rw [htext, List.cons_append]) hother
        simpa using hlength
  · rintro (⟨hbegins, hmost⟩ | ⟨hnone, before, behind, rfl, hbegins, hmost, hfirst⟩)
    · exact ⟨[], c :: text, rfl, hbegins, hmost, fun _ _ _ _ _ => Nat.zero_le _⟩
    · refine ⟨c :: before, behind, rfl, hbegins, hmost, fun other earlier rest htext hother => ?_⟩
      rcases earlier with _ | ⟨d, earlier⟩
      · rw [List.nil_append] at htext
        exact absurd (htext ▸ hother) (hnone other)
      · obtain ⟨rfl, htail⟩ := List.cons.inj htext
        simpa using hfirst other earlier rest htail hother

/-- **What is found in a text is its first group**, with as many digits for the precision as can
be. -/
theorem find?_eq_some_iff : find? text = some group ↔ group.IsFirstIn text := by
  induction text with
  | nil =>
    have hnil : ¬group.IsFirstIn [] := by
      rintro ⟨before, behind, htext, hbegins, -⟩
      obtain ⟨-, rfl⟩ := List.append_eq_nil_iff.1 htext.symm
      exact not_begins_nil hbegins
    exact iff_of_false (by simp [find?]) hnil
  | cons c text ih =>
    rw [find?, isFirstIn_cons_iff, ← ih]
    by_cases hc : c = '('
    · -- either the group of this parenthesis, or it opens none
      subst hc
      rw [if_pos rfl, Option.or_eq_some_iff, opened?_eq_some_iff_begins, opened?_eq_none_iff]
    · have hnone : ∀ other : DecimalGroup, ¬other.Begins (c :: text) := fun other hbegins =>
        hc (eq_of_begins_cons hbegins)
      simp [hc, hnone]

/-! ## Reading the digits -/

/-- The value of digits by position is the one that they are read as. -/
theorem digitsValue_eq_ofDigits (digits : List Char) :
    digitsValue digits = Nat.ofDigits 10 (digits.reverse.map digitValue) := by
  induction digits using List.reverseRecOn with
  | nil => rfl
  | append_singleton digits c ih =>
    rw [Text.digitsValue_append_singleton, ih]
    simp [Nat.ofDigits_cons, Nat.add_comm]

/-- The digits are ASCII, and their value by position is `n`, which has 32 bits. -/
structure Denotes (digits : List Char) (n : Nat) : Prop where
  not_empty : digits ≠ []
  ascii : ∀ c ∈ digits, c.isDigit = true
  value : Nat.ofDigits 10 (digits.reverse.map digitValue) = n
  in_range : n < 2 ^ 32

/-- The number of some digits is what they denote. -/
theorem number?_eq_some_iff {digits : List Char} {n : Nat} :
    number? digits = some n ↔ Denotes digits n := by
  rw [number?, Option.filter_eq_some_iff, Text.nat?, digitsValue_eq_ofDigits, decide_eq_true_iff]
  constructor
  · rintro ⟨hvalue, hrange⟩
    obtain ⟨⟨hne, hascii⟩, hvalue⟩ := Option.ite_none_right_eq_some.1 hvalue
    exact ⟨hne, List.all_eq_true.1 hascii, Option.some.inj hvalue, Nat.lt_succ_of_le hrange⟩
  · rintro ⟨hne, hascii, rfl, hrange⟩
    exact ⟨if_pos ⟨hne, List.all_eq_true.2 hascii⟩, Nat.le_of_lt_succ hrange⟩

/-- The scale is that of the digits, or the default scale where there are none. -/
def GivesScale (defaultScale : Nat) (digits : List Char) (scale : Nat) : Prop :=
  if digits = [] then scale = defaultScale else Denotes digits scale

/-- The scale is what the digits give, or the default one. -/
theorem scale?_eq_some_iff {defaultScale scale : Nat} {digits : List Char} :
    (if digits.isEmpty then some defaultScale else number? digits) = some scale ↔
      GivesScale defaultScale digits scale := by
  by_cases hne : digits = []
  · simp [GivesScale, hne, eq_comm]
  · simp [GivesScale, hne, number?_eq_some_iff]

/-- The group is read as a precision and a scale. -/
structure Accepts (defaultScale : Nat) (group : DecimalGroup) (precision scale : Nat) : Prop where
  precision_denotes : Denotes group.precision precision
  gives_scale : GivesScale defaultScale group.scale scale
  positive : 1 ≤ precision
  scale_le : scale ≤ precision

/-- The group is refused, and why: only the first of the four causes counts. The numbers are shown
as they are written if one of them is out of range, and else as they are read. -/
inductive Refuses (defaultScale : Nat) (group : DecimalGroup) : Fault → Prop
  | precisionRange (h : ∀ n, ¬Denotes group.precision n) :
      Refuses defaultScale group (.invalidDecimal .precisionRange
        (String.ofList group.precision) (String.ofList group.scale))
  | scaleRange {precision : Nat} (hprecision : Denotes group.precision precision)
      (h : ∀ n, ¬GivesScale defaultScale group.scale n) :
      Refuses defaultScale group (.invalidDecimal .scaleRange
        (String.ofList group.precision) (String.ofList group.scale))
  | precisionZero {scale : Nat} (hprecision : Denotes group.precision 0)
      (hscale : GivesScale defaultScale group.scale scale) :
      Refuses defaultScale group (.invalidDecimal .precisionZero (natText 0) (natText scale))
  | scaleAbovePrecision {precision scale : Nat} (hprecision : Denotes group.precision precision)
      (hscale : GivesScale defaultScale group.scale scale) (hpositive : 1 ≤ precision)
      (h : precision < scale) :
      Refuses defaultScale group (.invalidDecimal .scaleAbovePrecision (natText precision)
        (natText scale))

section

variable {defaultScale precision scale : Nat} {fault : Fault}

/-- An accepted group gives its precision and scale. -/
theorem read_of_accepts (h : Accepts defaultScale group precision scale) :
    group.read defaultScale = .ok (precision, scale) := by
  have hpositive := h.positive
  have hle := h.scale_le
  unfold read
  rw [number?_eq_some_iff.2 h.precision_denotes]
  dsimp only
  rw [scale?_eq_some_iff.2 h.gives_scale]
  dsimp only
  rw [if_neg (by omega), if_neg (by omega)]

/-- A refused group is refused for the fault. -/
theorem read_of_refuses (h : Refuses defaultScale group fault) :
    group.read defaultScale = .error fault := by
  unfold read
  cases h with
  -- the checks come in the order of the causes, so each cause rules out those before it
  | precisionRange h =>
    have hnone : number? group.precision = none :=
      Option.eq_none_iff_forall_ne_some.2 fun n hn => h n (number?_eq_some_iff.1 hn)
    rw [hnone]
  | scaleRange hprecision h =>
    have hnone : (if group.scale.isEmpty then some defaultScale else number? group.scale) = none :=
      Option.eq_none_iff_forall_ne_some.2 fun n hn => h n (scale?_eq_some_iff.1 hn)
    rw [number?_eq_some_iff.2 hprecision]
    dsimp only
    rw [hnone]
  | precisionZero hprecision hscale =>
    rw [number?_eq_some_iff.2 hprecision]
    dsimp only
    rw [scale?_eq_some_iff.2 hscale]
    exact if_pos rfl
  | scaleAbovePrecision hprecision hscale hpositive h =>
    rw [number?_eq_some_iff.2 hprecision]
    dsimp only
    rw [scale?_eq_some_iff.2 hscale]
    dsimp only
    rw [if_neg (by omega), if_pos h]

/-- A group is either read or refused. -/
theorem accepts_or_refuses (defaultScale : Nat) (group : DecimalGroup) :
    (∃ precision scale, Accepts defaultScale group precision scale) ∨
      ∃ fault, Refuses defaultScale group fault := by
  by_cases hprecision : ∃ n, Denotes group.precision n
  · obtain ⟨precision, hprecision⟩ := hprecision
    by_cases hscale : ∃ n, GivesScale defaultScale group.scale n
    · obtain ⟨scale, hscale⟩ := hscale
      rcases Nat.eq_zero_or_pos precision with rfl | hpositive
      · exact .inr ⟨_, .precisionZero hprecision hscale⟩
      · rcases Nat.lt_or_ge precision scale with habove | hle
        · exact .inr ⟨_, .scaleAbovePrecision hprecision hscale hpositive habove⟩
        · exact .inl ⟨precision, scale, hprecision, hscale, hpositive, hle⟩
    · exact .inr ⟨_, .scaleRange hprecision (not_exists.1 hscale)⟩
  · exact .inr ⟨_, .precisionRange (not_exists.1 hprecision)⟩

/-- A group gives what it is accepted with. -/
theorem read_eq_ok_iff :
    group.read defaultScale = .ok (precision, scale) ↔
      Accepts defaultScale group precision scale := by
  refine ⟨fun h => ?_, read_of_accepts⟩
  obtain ⟨p, s, haccepts⟩ | ⟨fault, hrefuses⟩ := accepts_or_refuses defaultScale group
  · obtain ⟨rfl, rfl⟩ : p = precision ∧ s = scale := by
      simpa [read_of_accepts haccepts] using h
    exact haccepts
  · simp [read_of_refuses hrefuses] at h

/-- A group ends in the fault that it is refused for. -/
theorem read_eq_error_iff :
    group.read defaultScale = .error fault ↔ Refuses defaultScale group fault := by
  refine ⟨fun h => ?_, read_of_refuses⟩
  obtain ⟨p, s, haccepts⟩ | ⟨other, hrefuses⟩ := accepts_or_refuses defaultScale group
  · simp [read_of_accepts haccepts] at h
  · obtain rfl : other = fault := by simpa [read_of_refuses hrefuses] using h
    exact hrefuses

end

end DecimalGroup

section

variable {defaultScale precision scale : Nat} {columnType : String}

/-- The arguments are those of the first group. -/
theorem decimalArguments_of_isFirstIn {group : DecimalGroup}
    (h : group.IsFirstIn columnType.toList) :
    decimalArguments defaultScale columnType = group.read defaultScale := by
  rw [decimalArguments, DecimalGroup.find?_eq_some_iff.2 h]

/-- Without a group there is no precision. -/
theorem decimalArguments_of_not_isIn (h : ¬DecimalGroup.IsIn columnType.toList) :
    decimalArguments defaultScale columnType = .error (.missingPrecision columnType) := by
  rw [decimalArguments, DecimalGroup.find?_eq_none_iff.2 h]

/-- There is no group, or there is one first group. -/
theorem DecimalGroup.exists_unique_isFirstIn {text : List Char} (h : IsIn text) :
    ∃! group : DecimalGroup, group.IsFirstIn text := by
  obtain ⟨group, hgroup⟩ : ∃ group, find? text = some group :=
    Option.ne_none_iff_exists'.1 fun hnone => find?_eq_none_iff.1 hnone h
  refine ⟨group, find?_eq_some_iff.1 hgroup, fun other hother => ?_⟩
  exact Option.some.inj ((find?_eq_some_iff.2 hother).symm.trans hgroup)

end

namespace Config

variable {config : Config} {columnType : String}

/-- Decimal numbers are bytes with the precision and the scale of the arguments. -/
theorem typeIn_decimal (config : Config) (columnType : String) :
    config.typeIn "decimal" columnType =
      (decimalArguments config.defaultScale columnType).map fun arguments =>
        .logical "bytes" "decimal" (some arguments.1) (some arguments.2) none :=
  rfl

/-- Only a decimal reads the column type. -/
theorem exists_typeIn_eq_ok (config : Config) {category : String} (h : category ≠ "decimal") :
    ∃ type, ∀ columnType, config.typeIn category columnType = .ok type := by
  unfold typeIn
  cases logicalBase? category with
  | none => exact ⟨_, fun _ => rfl⟩
  | some base =>
    simp only [if_neg h]
    exact ⟨_, fun _ => rfl⟩

/-- The type is the one in the category of the column type. -/
theorem typeOf_eq_of_category? {category : String}
    (h : config.category? columnType = some category) :
    config.typeOf columnType = config.typeIn category columnType := by
  rw [typeOf, h]

/-- **The arguments of a decimal are read exactly.** Without a group the precision is missing. With
one, the type is made from the first group that is as long as it can be, or that group is refused.
-/
theorem typeOf_decimal (h : config.category? columnType = some "decimal") :
    (¬DecimalGroup.IsIn columnType.toList →
      config.typeOf columnType = .error (.missingPrecision columnType)) ∧
    (DecimalGroup.IsIn columnType.toList →
      ∃! group : DecimalGroup, group.IsFirstIn columnType.toList) ∧
    ∀ group : DecimalGroup, group.IsFirstIn columnType.toList →
      (∀ type, config.typeOf columnType = .ok type ↔ ∃ precision scale,
        type = .logical "bytes" "decimal" (some precision) (some scale) none ∧
          group.Accepts config.defaultScale precision scale) ∧
      ∀ fault, config.typeOf columnType = .error fault ↔
        group.Refuses config.defaultScale fault := by
  rw [typeOf_eq_of_category? h, typeIn_decimal]
  refine ⟨fun hnone => ?_, DecimalGroup.exists_unique_isFirstIn, fun group hgroup => ?_⟩
  · rw [decimalArguments_of_not_isIn hnone]
    rfl
  · rw [decimalArguments_of_isFirstIn hgroup]
    simp only [← DecimalGroup.read_eq_ok_iff, ← DecimalGroup.read_eq_error_iff]
    cases group.read config.defaultScale with
    -- what the group is read as decides, and the type only holds it
    | error fault => simp [Except.map]
    | ok arguments =>
      obtain ⟨precision, scale⟩ := arguments
      refine ⟨fun type => ?_, fun fault => by simp [Except.map]⟩
      simp only [Except.map, Except.ok.injEq, Prod.mk.injEq]
      constructor
      · rintro rfl
        exact ⟨precision, scale, rfl, rfl, rfl⟩
      · rintro ⟨_, _, rfl, rfl, rfl⟩
        rfl

/-- A parenthesis that opens no group, zeros in front, and a blank in place of the comma. -/
theorem typeOf_decimal_split :
    let config := Config.ofTable "" (TypeTable.empty.add "decimal" "num") 0
    config.category? "Numeric(x( 007 3)" = some "decimal" ∧
      config.typeOf "Numeric(x( 007 3)" =
        .ok (.logical "bytes" "decimal" (some 7) (some 3) none) := by
  intro config
  have hdecimal : config.category? "Numeric(x( 007 3)" = some "decimal" := by
    decide +kernel
  have hfirst : (⟨['0', '0', '7'], ['3']⟩ : DecimalGroup).IsFirstIn "Numeric(x( 007 3)".toList :=
    DecimalGroup.find?_eq_some_iff.1 (by decide +kernel)
  have haccepts : DecimalGroup.Accepts 0 ⟨['0', '0', '7'], ['3']⟩ 7 3 :=
    DecimalGroup.read_eq_ok_iff.1 (by decide +kernel)
  obtain ⟨-, -, hread⟩ := typeOf_decimal hdecimal
  exact ⟨hdecimal, ((hread _ hfirst).1 _).2 ⟨7, 3, rfl, haccepts⟩⟩

end Config

end RelationalAvro
