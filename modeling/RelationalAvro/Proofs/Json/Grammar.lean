import Mathlib.Data.List.TakeWhile
import RelationalAvro.Json.Value

/-!
# The grammar of documents

What a document is, said over its characters and without reference to a scan. A value is written as
a literal, as a number, between quotes, or as an array or an object of values (`Value.Spelled`);
blanks may stand around every value, every key and inside empty brackets (`Value.Padded`). A text is
a document if it is some value with blanks around it.

Between quotes, units are written as themselves or with escapes (`SpelledUnits`), and they denote a
text if all halves of surrogate pairs among them pair up (`Paired`).

The parts of the grammar that are decided by running over characters are decided rightly:
`isNumber_iff` for numbers, `textBefore_reverse_eq_some_iff` for the pairing of halves.
-/

namespace RelationalAvro.Json

/-! ## Numbers -/

/-- One decimal digit or more. -/
def IsDigits (text : List Char) : Prop :=
  text ≠ [] ∧ ∀ c ∈ text, c.isDigit = true

/-- A zero, or digits that do not begin with a zero. -/
def IsIntegerPart (text : List Char) : Prop :=
  text = ['0'] ∨ ∃ digit rest, text = digit :: rest ∧ digit ≠ '0' ∧ IsDigits (digit :: rest)

/-- Nothing, or a point and digits. -/
def IsFractionPart (text : List Char) : Prop :=
  text = [] ∨ ∃ digits, text = '.' :: digits ∧ IsDigits digits

/-- Nothing, or a letter e and digits, perhaps with a sign. -/
def IsExponentPart (text : List Char) : Prop :=
  text = [] ∨ ∃ e sign digits, text = e :: (sign ++ digits) ∧ (e = 'e' ∨ e = 'E') ∧
    sign ∈ [[], ['+'], ['-']] ∧ IsDigits digits

/-- A number: perhaps a minus sign, and then the three parts. -/
def IsNumeral (word : List Char) : Prop :=
  ∃ sign whole fraction exponent, word = sign ++ (whole ++ (fraction ++ exponent)) ∧
    sign ∈ [[], ['-']] ∧ IsIntegerPart whole ∧ IsFractionPart fraction ∧ IsExponentPart exponent

/-! ## Quoted texts -/

/-- The units of a quoted text, as they are written between the quotes. -/
inductive SpelledUnits : List Element → List Char → Prop
  | nil : SpelledUnits [] []
  /-- A character that is neither a quote, a backslash nor a control character stands for itself. -/
  | plain {c : Char} {units : List Element} {body : List Char} (hquote : c ≠ '"')
      (hbackslash : c ≠ '\\') (hcontrol : 0x20 ≤ c.toNat) (h : SpelledUnits units body) :
      SpelledUnits (.char c :: units) (c :: body)
  /-- Some characters have a letter that names them after a backslash. -/
  | short {letter c : Char} {units : List Element} {body : List Char}
      (hletter : shortEscape? letter = some c) (h : SpelledUnits units body) :
      SpelledUnits (.char c :: units) ('\\' :: letter :: body)
  /-- Four hexadecimal digits name a character, or half of a surrogate pair. -/
  | numbered {c₃ c₂ c₁ c₀ : Char} {n₃ n₂ n₁ n₀ : Nat} {units : List Element} {body : List Char}
      (h₃ : hexDigit? c₃ = some n₃) (h₂ : hexDigit? c₂ = some n₂) (h₁ : hexDigit? c₁ = some n₁)
      (h₀ : hexDigit? c₀ = some n₀) (h : SpelledUnits units body) :
      SpelledUnits (.ofCode (16 * (16 * (16 * n₃ + n₂) + n₁) + n₀) :: units)
        ('\\' :: 'u' :: c₃ :: c₂ :: c₁ :: c₀ :: body)

/-- The text that units denote: halves stand in pairs, the high one first. -/
inductive Paired : List Element → List Char → Prop
  | nil : Paired [] []
  | char {c : Char} {units : List Element} {text : List Char} (h : Paired units text) :
      Paired (.char c :: units) (c :: text)
  | pair {high low : Nat} {units : List Element} {text : List Char}
      (hhigh : isHighHalf high = true) (hlow : isLowHalf low = true) (h : Paired units text) :
      Paired (.half high :: .half low :: units) (pairedChar high low :: text)

/-- The characters are a quoted text, quotes included. Without a text, some half stands alone. -/
inductive IsQuoted : Option String → List Char → Prop
  | text {units : List Element} {body : List Char} {text : String} (hbody : SpelledUnits units body)
      (hpaired : Paired units text.toList) : IsQuoted (some text) ('"' :: (body ++ ['"']))
  | lone {units : List Element} {body : List Char} (hbody : SpelledUnits units body)
      (hlone : ∀ text, ¬Paired units text) : IsQuoted none ('"' :: (body ++ ['"']))

/-! ## Values -/

/-- A run of the four blank characters of a document. -/
def IsBlanks (text : List Char) : Prop :=
  ∀ c ∈ text, isSpace c = true

namespace Value

mutual

/-- The characters are the value, with nothing around it. -/
inductive Spelled : Value → List Char → Prop
  | null : Spelled .null "null".toList
  | true : Spelled (.bool true) "true".toList
  | false : Spelled (.bool false) "false".toList
  | number {word : String} (h : IsNumeral word.toList) : Spelled (.number word) word.toList
  | string {text : Option String} {chars : List Char} (h : IsQuoted text chars) :
      Spelled (.string text) chars
  | emptyArray {blanks : List Char} (hblanks : IsBlanks blanks) :
      Spelled (.array []) ('[' :: (blanks ++ [']']))
  | array {items : List Value} {inner : List Char} (h : SpelledItems items inner) :
      Spelled (.array items) ('[' :: (inner ++ [']']))
  | emptyObject {blanks : List Char} (hblanks : IsBlanks blanks) :
      Spelled (.object []) ('{' :: (blanks ++ ['}']))
  | object {members : List (Option String × Value)} {inner : List Char}
      (h : SpelledMembers members inner) : Spelled (.object members) ('{' :: (inner ++ ['}']))

/-- The text is the value with blanks around it. -/
inductive Padded : Value → List Char → Prop
  | mk {value : Value} {before chars after : List Char} (hbefore : IsBlanks before)
      (h : Spelled value chars) (hafter : IsBlanks after) :
      Padded value (before ++ (chars ++ after))

/-- The text is the items with commas between them, at least one. -/
inductive SpelledItems : List Value → List Char → Prop
  | last {item : Value} {text : List Char} (h : Padded item text) : SpelledItems [item] text
  | cons {item : Value} {items : List Value} {text rest : List Char} (h : Padded item text)
      (hrest : SpelledItems items rest) : SpelledItems (item :: items) (text ++ ',' :: rest)

/-- The text is a key, a colon and a value, with blanks around key and value. -/
inductive SpelledMember : Option String × Value → List Char → Prop
  | mk {key : Option String} {value : Value} {before chars after text : List Char}
      (hbefore : IsBlanks before) (hkey : IsQuoted key chars) (hafter : IsBlanks after)
      (h : Padded value text) :
      SpelledMember (key, value) (before ++ (chars ++ (after ++ ':' :: text)))

/-- The text is the members with commas between them, at least one. -/
inductive SpelledMembers : List (Option String × Value) → List Char → Prop
  | last {m : Option String × Value} {text : List Char} (h : SpelledMember m text) :
      SpelledMembers [m] text
  | cons {m : Option String × Value} {members : List (Option String × Value)}
      {text rest : List Char} (h : SpelledMember m text) (hrest : SpelledMembers members rest) :
      SpelledMembers (m :: members) (text ++ ',' :: rest)

end

end Value

/-- The text is a document. -/
def IsDocument (text : List Char) : Prop :=
  ∃ value : Value, value.Padded text

/-! ## Deciding what is a number -/

theorem isDigits_cons {digit : Char} {rest : List Char} :
    IsDigits (digit :: rest) ↔ digit.isDigit = true ∧ ∀ c ∈ rest, c.isDigit = true := by
  simp [IsDigits]

/-- Checking that there are digits and nothing else. -/
private theorem isDigits_iff {digits : List Char} :
    IsDigits digits ↔ digits.isEmpty = false ∧ digits.all Char.isDigit = true := by
  simp [IsDigits]

/-- Behind the digits stands the rest, if that does not begin with one. -/
private theorem dropWhile_append_of_stop {digits rest : List Char}
    (hdigits : ∀ c ∈ digits, c.isDigit = true) (hrest : ∀ c ∈ rest.head?, c.isDigit = false) :
    (digits ++ rest).dropWhile Char.isDigit = rest := by
  rw [List.dropWhile_append_of_pos hdigits]
  cases rest with
  | nil => rfl
  | cons c rest => exact List.dropWhile_cons_of_neg (by simp [hrest c rfl])

/-- The digits taken from the front are digits. -/
private theorem digit_of_mem_takeWhile {text : List Char} :
    ∀ c ∈ text.takeWhile Char.isDigit, c.isDigit = true :=
  List.all_eq_true.1 List.all_takeWhile

/-- No exponent begins with a digit. -/
theorem IsExponentPart.head?_not_digit {text : List Char} (h : IsExponentPart text) :
    ∀ c ∈ text.head?, c.isDigit = false := by
  rcases h with rfl | ⟨e, sign, digits, rfl, rfl | rfl, -⟩ <;> simp

/-- The check finds exponents. -/
theorem isExponent_iff {text : List Char} : isExponent text = true ↔ IsExponentPart text := by
  constructor
  · intro h
    unfold isExponent at h
    split at h
    · exact .inl rfl
    all_goals
      simp only [Bool.and_eq_true, Bool.or_eq_true, beq_iff_eq, Bool.not_eq_true'] at h
    · exact .inr ⟨_, ['+'], _, rfl, h.1.1, by simp, isDigits_iff.2 ⟨h.1.2, h.2⟩⟩
    · exact .inr ⟨_, ['-'], _, rfl, h.1.1, by simp, isDigits_iff.2 ⟨h.1.2, h.2⟩⟩
    · exact .inr ⟨_, [], _, rfl, h.1.1, by simp, isDigits_iff.2 ⟨h.1.2, h.2⟩⟩
  · rintro (rfl | ⟨e, sign, digits, rfl, he, hsign, hdigits⟩)
    · rfl
    · obtain ⟨digit, rest, rfl⟩ := List.exists_cons_of_ne_nil hdigits.1
      rw [isDigits_cons] at hdigits
      -- a digit is no sign
      have hplus : digit ≠ '+' := by
        rintro rfl
        exact absurd hdigits.1 (by decide)
      have hminus : digit ≠ '-' := by
        rintro rfl
        exact absurd hdigits.1 (by decide)
      simp only [List.mem_cons, List.not_mem_nil, or_false] at hsign
      rcases hsign with rfl | rfl | rfl <;>
        simpa [isExponent, hplus, hminus, he, hdigits.1] using hdigits.2

/-- The check finds fractions with exponents. -/
theorem isFraction_iff {text : List Char} :
    isFraction text = true ↔ ∃ fraction exponent, text = fraction ++ exponent ∧
      IsFractionPart fraction ∧ IsExponentPart exponent := by
  constructor
  · intro h
    unfold isFraction at h
    split at h
    · rename_i digit rest
      rw [Bool.and_eq_true] at h
      refine ⟨'.' :: digit :: rest.takeWhile Char.isDigit, rest.dropWhile Char.isDigit, ?_,
        .inr ⟨_, rfl, isDigits_cons.2 ⟨h.1, digit_of_mem_takeWhile⟩⟩, isExponent_iff.1 h.2⟩
      simp
    · exact ⟨[], _, rfl, .inl rfl, isExponent_iff.1 h⟩
  · rintro ⟨fraction, exponent, rfl, rfl | ⟨digits, rfl, hdigits⟩, hexponent⟩
    · -- without a fraction there is no point, since exponents do not begin with one
      have hpoint : ∀ rest, exponent ≠ '.' :: rest := by
        rintro rest rfl
        rcases hexponent with h | ⟨e, sign, digits, h, rfl | rfl, -⟩ <;> simp at h
      rw [List.nil_append]
      unfold isFraction
      split
      · exact absurd rfl (hpoint _)
      · exact isExponent_iff.2 hexponent
    · obtain ⟨digit, rest, rfl⟩ := List.exists_cons_of_ne_nil hdigits.1
      rw [isDigits_cons] at hdigits
      simp [isFraction, hdigits.1, dropWhile_append_of_stop hdigits.2 hexponent.head?_not_digit,
        isExponent_iff.2 hexponent]

/-- What follows the integer part of a number does not begin with a digit. -/
theorem head?_not_digit_of_isFraction {text : List Char} (h : isFraction text = true) :
    ∀ c ∈ text.head?, c.isDigit = false := by
  obtain ⟨fraction, exponent, rfl, rfl | ⟨digits, rfl, -⟩, hexponent⟩ := isFraction_iff.1 h
  · exact hexponent.head?_not_digit
  · simp

/-- The check finds numbers without a sign. -/
theorem isUnsigned_iff {text : List Char} :
    isUnsigned text = true ↔ ∃ whole rest, text = whole ++ rest ∧ IsIntegerPart whole ∧
      isFraction rest = true := by
  constructor
  · intro h
    unfold isUnsigned at h
    split at h
    · cases h
    · exact ⟨['0'], _, rfl, .inl rfl, h⟩
    · rename_i digit rest hzero
      rw [Bool.and_eq_true] at h
      refine ⟨digit :: rest.takeWhile Char.isDigit, rest.dropWhile Char.isDigit, by simp,
        .inr ⟨_, _, rfl, ?_, isDigits_cons.2 ⟨h.1, digit_of_mem_takeWhile⟩⟩, h.2⟩
      rintro rfl
      exact hzero rfl
  · rintro ⟨whole, rest, rfl, rfl | ⟨digit, more, rfl, hzero, hdigits⟩, hrest⟩
    · exact hrest
    · rw [isDigits_cons] at hdigits
      simp [isUnsigned, hdigits.1, hrest,
        dropWhile_append_of_stop hdigits.2 (head?_not_digit_of_isFraction hrest)]

/-- **A run of characters is taken for a number exactly if it is one.** -/
theorem isNumber_iff {word : List Char} : isNumber word = true ↔ IsNumeral word := by
  have hunsigned : ∀ text, isUnsigned text = true ↔ ∃ whole fraction exponent,
      text = whole ++ (fraction ++ exponent) ∧ IsIntegerPart whole ∧ IsFractionPart fraction ∧
        IsExponentPart exponent := by
    intro text
    simp only [isUnsigned_iff, isFraction_iff]
    constructor
    · rintro ⟨whole, _, rfl, hwhole, fraction, exponent, rfl, hfraction, hexponent⟩
      exact ⟨whole, fraction, exponent, rfl, hwhole, hfraction, hexponent⟩
    · rintro ⟨whole, fraction, exponent, rfl, hwhole, hfraction, hexponent⟩
      exact ⟨whole, _, rfl, hwhole, fraction, exponent, rfl, hfraction, hexponent⟩
  constructor
  · intro h
    unfold isNumber at h
    split at h
    · obtain ⟨whole, fraction, exponent, rfl, hparts⟩ := (hunsigned _).1 h
      exact ⟨['-'], whole, fraction, exponent, rfl, by simp, hparts⟩
    · obtain ⟨whole, fraction, exponent, rfl, hparts⟩ := (hunsigned _).1 h
      exact ⟨[], whole, fraction, exponent, rfl, by simp, hparts⟩
  · rintro ⟨sign, whole, fraction, exponent, rfl, hsign, hparts⟩
    have h := (hunsigned _).2 ⟨whole, fraction, exponent, rfl, hparts⟩
    simp only [List.mem_cons, List.not_mem_nil, or_false] at hsign
    rcases hsign with rfl | rfl
    · rw [List.nil_append]
      unfold isNumber
      split
      · -- the integer part does not begin with a minus sign
        rename_i heq
        rw [heq] at h
        exact absurd h (by simp [isUnsigned])
      · exact h
    · exact h

/-! ## Pairing halves -/

/-- Paired texts can follow each other. -/
theorem Paired.append {units more : List Element} {text rest : List Char} (h : Paired units text)
    (hmore : Paired more rest) : Paired (units ++ more) (text ++ rest) := by
  induction h with
  | nil => exact hmore
  | char _ ih => exact .char ih
  | pair hhigh hlow _ ih => exact .pair hhigh hlow ih

/-- Units that pair up are read as their text, whatever stands before them. -/
theorem textBefore_of_paired {units : List Element} {text : List Char} (h : Paired units text)
    (after : List Char) (more : List Element) :
    textBefore after (units.reverse ++ more) = textBefore (text ++ after) more := by
  induction h generalizing after more with
  | nil => rfl
  | char _ ih => rw [List.reverse_cons, List.append_assoc, ih]; rfl
  | pair hhigh hlow _ ih =>
    rw [List.reverse_cons, List.reverse_cons, List.append_assoc, List.append_assoc, ih]
    simp [textBefore, hhigh, hlow]

/-- A text that is found from behind is a pairing of the units. -/
theorem paired_of_textBefore {after : List Char} {units : List Element} {result : List Char}
    (h : textBefore after units = some result) :
    ∃ text, Paired units.reverse text ∧ result = text ++ after := by
  fun_induction textBefore after units with
  | case1 after => exact ⟨[], .nil, (Option.some.inj h).symm⟩
  | case2 after c units ih =>
    obtain ⟨text, hpaired, rfl⟩ := ih h
    refine ⟨text ++ [c], ?_, by simp⟩
    rw [List.reverse_cons]
    exact hpaired.append (.char .nil)
  | case3 after low high units hpair ih =>
    obtain ⟨text, hpaired, rfl⟩ := ih h
    rw [Bool.and_eq_true] at hpair
    refine ⟨text ++ [pairedChar high low], ?_, by simp⟩
    rw [List.reverse_cons, List.reverse_cons, List.append_assoc]
    exact hpaired.append (.pair hpair.1 hpair.2 .nil)
  | case4 => cases h
  | case5 => cases h

/-- **Reading units gives the text in which they pair up**, and none if they do not. -/
theorem textBefore_reverse_eq_some_iff {units : List Element} {text : List Char} :
    textBefore [] units.reverse = some text ↔ Paired units text := by
  constructor
  · intro h
    obtain ⟨other, hpaired, rfl⟩ := paired_of_textBefore h
    simpa using hpaired
  · intro h
    simpa [textBefore] using textBefore_of_paired h [] []

/-- What a quoted text is read as says whether it denotes a text. -/
theorem isQuoted_iff {text : Option String} {chars : List Char} :
    IsQuoted text chars ↔ ∃ units body, chars = '"' :: (body ++ ['"']) ∧ SpelledUnits units body ∧
      Token.ofUnits units.reverse = .quoted text := by
  constructor
  · rintro (⟨hbody, hpaired⟩ | ⟨hbody, hlone⟩)
    · refine ⟨_, _, rfl, hbody, ?_⟩
      rw [Token.ofUnits, textBefore_reverse_eq_some_iff.2 hpaired, Option.map_some,
        String.ofList_toList]
    · refine ⟨_, _, rfl, hbody, ?_⟩
      have hnone := Option.eq_none_iff_forall_ne_some.2 fun text =>
        mt textBefore_reverse_eq_some_iff.1 (hlone text)
      rw [Token.ofUnits, hnone, Option.map_none]
  · rintro ⟨units, body, rfl, hbody, hread⟩
    rw [Token.ofUnits, Token.quoted.injEq] at hread
    -- the scan collects units in reverse, and so `textBefore` reads them
    cases htext : textBefore [] units.reverse with
    | none =>
      obtain rfl : none = text := by simpa [htext] using hread
      refine .lone hbody fun text hpaired => ?_
      rw [textBefore_reverse_eq_some_iff.2 hpaired] at htext
      cases htext
    | some found =>
      obtain rfl : some (String.ofList found) = text := by simpa [htext] using hread
      refine .text hbody ?_
      rw [String.toList_ofList]
      exact textBefore_reverse_eq_some_iff.1 htext

end RelationalAvro.Json
