import Mathlib.Data.List.Forall2
import Mathlib.Data.List.TakeWhile
import RelationalAvro.Json.Progress
import RelationalAvro.Proofs.Json.Lexing

/-!
# Texts of values

A text that spells the tokens of a value is a document that denotes it (`Value.parse?_of_spells`).
Texts of arrays and objects are put together from the texts of their parts, with whatever blanks
between them: `spells_array`, `spells_object`. The compact text is the case without blanks, so it is
read back as the value it was written for (`Value.parse?_compact`).
-/

namespace RelationalAvro.Json

open Text (natDigits)

/-! ## Tokens of arrays and objects -/

namespace Value

/-- The tokens of a member of an object. -/
def tokensOfMember (m : Option String × Value) : List Token :=
  .quoted m.1 :: .colon :: m.2.tokens

/-- The tokens of an array are those of its items between brackets, with commas. -/
theorem tokens_array (items : List Value) :
    (array items).tokens =
      .openArray :: ([Token.comma].intercalate (items.map tokens) ++ [.closeArray]) := by
  have hfurther : ∀ (item : Value) (items : List Value), item.tokens ++ furtherItemTokens items =
      [Token.comma].intercalate (item.tokens :: items.map tokens) := by
    intro item items
    induction items generalizing item with
    | nil => simp [furtherItemTokens]
    | cons next items ih => simp [furtherItemTokens, List.intercalate_cons_cons, ih]
  cases items with
  | nil => simp [tokens, itemTokens]
  | cons item items => simp [tokens, itemTokens, hfurther]

/-- The tokens of an object are those of its members between braces, with commas. -/
theorem tokens_object (members : List (Option String × Value)) :
    (object members).tokens =
      .openObject ::
        ([Token.comma].intercalate (members.map tokensOfMember) ++ [.closeObject]) := by
  have hfurther : ∀ (m : Option String × Value) (members : List (Option String × Value)),
      tokensOfMember m ++ furtherMemberTokens members =
        [Token.comma].intercalate (tokensOfMember m :: members.map tokensOfMember) := by
    intro m members
    induction members generalizing m with
    | nil => simp [furtherMemberTokens]
    | cons next members ih =>
      rw [List.map_cons, List.intercalate_cons_cons, ← ih, furtherMemberTokens]
      simp [tokensOfMember]
  cases members with
  | nil => simp [tokens, memberTokens]
  | cons m members =>
    rw [tokens, memberTokens, List.map_cons, ← hfurther]
    simp [tokensOfMember]

end Value

/-! ## Putting texts together -/

variable {isBlank : Char → Bool}

/-- Only words can be unsound. -/
theorem Token.isSound_of_not_isWord {t : Token} (h : t.isWord = false) : t.IsSound := by
  cases t with
  | number => cases h
  | _ => trivial

/-- A token that is no word may be followed by anything. -/
theorem Spells.cons {t : Token} {tokens : List Token} {text : List Char} (ht : t.isWord = false)
    (h : Spells isBlank tokens text) : Spells isBlank (t :: tokens) (t.chars ++ text) :=
  .token (Token.isSound_of_not_isWord ht) (fun hword => by simp [ht] at hword) h

/-- A token by itself. -/
theorem Spells.single {t : Token} (hsound : t.IsSound) : Spells isBlank [t] t.chars := by
  have hend : Spells isBlank [] [] := .nil
  simpa using hend.token hsound fun _ => startsApart_nil

/-- Parts are put together by commas and blanks. -/
theorem Spells.intercalate {parts : List (List Token)} {texts : List (List Char)}
    {blanks : List Char} (hblanks : ∀ c ∈ blanks, isBlank c = true)
    (h : List.Forall₂ (Spells isBlank) parts texts) :
    Spells isBlank ([Token.comma].intercalate parts) ((',' :: blanks).intercalate texts) := by
  induction h with
  | nil => exact .nil
  | @cons part text parts texts hpart hparts ih =>
    cases hparts with
    | nil => simpa using hpart
    | cons =>
      rw [List.intercalate_cons_cons, List.intercalate_cons_cons, List.append_assoc,
        List.append_assoc]
      exact hpart.append (.cons (t := .comma) rfl (ih.blanks hblanks)) (startsApart_cons rfl)

/-- Tokens between brackets. -/
theorem Spells.between {opening closing : Token} {tokens : List Token} {text : List Char}
    (hopening : opening.isWord = false) (hclosing : closing.isWord = false)
    (hapart : StartsApart closing.chars) (h : Spells isBlank tokens text) :
    Spells isBlank (opening :: (tokens ++ [closing]))
      (opening.chars ++ (text ++ closing.chars)) :=
  .cons hopening (h.append (.single (Token.isSound_of_not_isWord hclosing)) hapart)

/-- The text of an array. -/
theorem spells_array {items : List Value} {text : List Char}
    (h : Spells isBlank ([Token.comma].intercalate (items.map Value.tokens)) text) :
    Spells isBlank (Value.array items).tokens ('[' :: (text ++ [']'])) := by
  rw [Value.tokens_array]
  exact .between rfl rfl (startsApart_cons rfl) h

/-- The text of an object. -/
theorem spells_object {members : List (Option String × Value)} {text : List Char}
    (h : Spells isBlank ([Token.comma].intercalate (members.map Value.tokensOfMember)) text) :
    Spells isBlank (Value.object members).tokens ('{' :: (text ++ ['}'])) := by
  rw [Value.tokens_object]
  exact .between rfl rfl (startsApart_cons rfl) h

/-! ## Reading texts of values -/

/-- A text that spells the tokens of a value denotes that value. -/
theorem Value.parse?_of_spells {value : Value} {text : List Char}
    (hspace : ∀ c, isBlank c = true → isSpace c = true) (h : Spells isBlank value.tokens text) :
    Value.parse? text = some value := by
  rw [parse?, Token.scan?_of_spells hspace h, Option.bind_some, ofTokens?_tokens]

namespace Value

/-- All numbers in the value are numbers. -/
def IsSound (value : Value) : Prop :=
  ∀ t ∈ value.tokens, t.IsSound

@[simp] theorem isSound_string (text : Option String) : IsSound (.string text) := by
  simp [IsSound, tokens, Token.IsSound]

/-- A number is sound if its word is a number. -/
@[simp] theorem isSound_number {word : String} :
    IsSound (.number word) ↔ isNumber word.toList = true := by
  simp [IsSound, tokens, Token.IsSound]

/-- What is so of separators and parts is so of parts with separators between them. -/
private theorem forall_mem_intercalate_map {α β : Type} {p : α → Prop} {between : List α}
    (hbetween : ∀ a ∈ between, p a) (part : β → List α) (list : List β) :
    (∀ a ∈ between.intercalate (list.map part), p a) ↔ ∀ b ∈ list, ∀ a ∈ part b, p a := by
  induction list with
  | nil => simp
  | cons b list ih =>
    cases list with
    | nil => simp
    | cons next list =>
      rw [List.map_cons, List.map_cons, List.intercalate_cons_cons, ← List.map_cons,
        List.forall_mem_append, List.forall_mem_append, ih, List.forall_mem_cons (a := b)]
      exact and_congr_left fun _ => and_iff_left hbetween

private theorem isSound_comma : ∀ t ∈ [Token.comma], t.IsSound := by
  simp [Token.IsSound]

/-- An array is sound if its items are. -/
@[simp] theorem isSound_array {items : List Value} :
    IsSound (.array items) ↔ ∀ item ∈ items, item.IsSound := by
  rw [IsSound, tokens_array, List.forall_mem_cons, List.forall_mem_append,
    forall_mem_intercalate_map isSound_comma]
  simp [Token.IsSound, IsSound]

/-- An object is sound if the values of its members are. -/
@[simp] theorem isSound_object {members : List (Option String × Value)} :
    IsSound (.object members) ↔ ∀ m ∈ members, m.2.IsSound := by
  rw [IsSound, tokens_object, List.forall_mem_cons, List.forall_mem_append,
    forall_mem_intercalate_map isSound_comma]
  simp [Token.IsSound, IsSound, tokensOfMember]

/-- The digits of a natural have no superfluous zeros in front. -/
theorem head?_natDigits {n : Nat} (h : (natDigits n).head? = some '0') : natDigits n = ['0'] := by
  fun_induction natDigits n with
  | case1 n hn => simpa using h
  | case2 n hn ih =>
    rw [List.head?_append_of_ne_nil _ (Text.natDigits_ne_nil _)] at h
    -- the digits before the last are not those of zero
    have hvalue := congrArg Text.digitsValue (ih h)
    rw [Text.digitsValue_natDigits] at hvalue
    have hzero : Text.digitsValue ['0'] = 0 := rfl
    omega

/-- The digits of a number are a number. -/
theorem isNumber_natDigits (n : Nat) : isNumber (natDigits n) = true := by
  have hdigit : ∀ c ∈ natDigits n, c.isDigit = true := fun _ => Text.isDigit_of_mem_natDigits
  obtain ⟨c, rest, hdigits⟩ := List.exists_cons_of_ne_nil (Text.natDigits_ne_nil n)
  rw [hdigits] at hdigit ⊢
  have hfirst : c.isDigit = true := hdigit c List.mem_cons_self
  have hrest : rest.dropWhile Char.isDigit = [] :=
    List.dropWhile_eq_nil_iff.2 fun d hd => hdigit d (List.mem_cons_of_mem c hd)
  have hsign : c ≠ '-' := by
    rintro rfl
    cases hfirst
  by_cases hzero : c = '0'
  · subst hzero
    have hnil := head?_natDigits (by rw [hdigits]; rfl)
    rw [hdigits] at hnil
    rw [hnil]
    rfl
  · simp [isNumber, isUnsigned, hsign, hfirst, hrest, isFraction, isExponent]

/-! ## Compact texts -/

/-- Parts with separators between them are written part by part. -/
private theorem flatMap_intercalate {α β γ : Type} (f : α → List γ) (between : List α)
    (part : β → List α) (list : List β) :
    (between.intercalate (list.map part)).flatMap f =
      (between.flatMap f).intercalate (list.map fun b => (part b).flatMap f) := by
  induction list with
  | nil => rfl
  | cons b list ih =>
    cases list with
    | nil => simp
    | cons next list =>
      simp only [List.map_cons, List.intercalate_cons_cons, List.flatMap_append] at ih ⊢
      rw [ih]

/-- An array in compact form has its items between brackets, with commas. -/
theorem compact_array (items : List Value) :
    (array items).compact = '[' :: ([','].intercalate (items.map compact) ++ [']']) := by
  rw [compact, tokens_array, List.flatMap_cons, List.flatMap_append, flatMap_intercalate]
  rfl

/-- An object in compact form has its members between braces, with commas. -/
theorem compact_object (members : List (Option String × Value)) :
    (object members).compact = '{' :: ([','].intercalate
      (members.map fun m => (tokensOfMember m).flatMap Token.chars) ++ ['}']) := by
  rw [compact, tokens_object, List.flatMap_cons, List.flatMap_append, flatMap_intercalate]
  rfl

mutual

/-- The compact text spells the tokens. -/
theorem spells_compact (value : Value) (h : value.IsSound) :
    Spells isBlank value.tokens value.compact := by
  cases value with
  | null | bool | number | string =>
    exact .token (h _ List.mem_cons_self) (fun _ => startsApart_nil) .nil
  | array items =>
    rw [compact_array]
    refine spells_array (.intercalate (List.forall_mem_nil _) ?_)
    exact spells_items items (isSound_array.1 h)
  | object members =>
    rw [compact_object]
    refine spells_object (.intercalate (List.forall_mem_nil _) ?_)
    exact spells_members members (isSound_object.1 h)

/-- Sound items are spelled one by one. -/
theorem spells_items (items : List Value) (h : ∀ item ∈ items, item.IsSound) :
    List.Forall₂ (Spells isBlank) (items.map tokens) (items.map compact) := by
  cases items with
  | nil => exact .nil
  | cons item items =>
    rw [List.forall_mem_cons] at h
    exact .cons (spells_compact item h.1) (spells_items items h.2)

/-- Sound members are spelled one by one. -/
theorem spells_members (members : List (Option String × Value)) (h : ∀ m ∈ members, m.2.IsSound) :
    List.Forall₂ (Spells isBlank) (members.map tokensOfMember)
      (members.map fun m => (tokensOfMember m).flatMap Token.chars) := by
  cases members with
  | nil => exact .nil
  | cons m members =>
    obtain ⟨key, value⟩ := m
    rw [List.forall_mem_cons] at h
    refine .cons ?_ (spells_members members h.2)
    exact .cons rfl (.cons (t := .colon) rfl (spells_compact value h.1))

end

/-- **The compact text of a value denotes it.** -/
theorem parse?_compact {value : Value} (h : value.IsSound) : parse? value.compact = some value := by
  have hspells : Spells (fun _ => false) value.tokens value.compact := spells_compact value h
  exact parse?_of_spells (by simp) hspells

end Value

end RelationalAvro.Json
