import RelationalAvro.Proofs.Json.Document
import RelationalAvro.Proofs.Json.Lexing

/-!
# Documents and their values

A text is read as a value exactly if it is that value with blanks around it
(`Value.parse?_eq_some_iff`). So reading accepts the documents of the grammar and nothing else, and
no document has two values.

For tokens, this is a matter of what the reading machine keeps: its place determines the tokens read
so far (`Progress.tokens`). For characters, a separator splits a text in two wherever it splits the
tokens.
-/

namespace RelationalAvro.Json

/-! ## Tokens read so far -/

/-- With separators behind all parts but the last, there is one between each two. -/
private theorem intercalate_map_concat {α β : Type} (between : List α) (part : β → List α)
    (list : List β) (last : β) : between.intercalate ((list ++ [last]).map part) =
      list.flatMap (fun b => part b ++ between) ++ part last := by
  induction list with
  | nil => simp
  | cons b list ih =>
    cases list with
    | nil => simp [List.intercalate_cons_cons]
    | cons next list =>
      rw [List.cons_append, List.map_cons, List.cons_append, List.map_cons,
        List.intercalate_cons_cons, ← List.map_cons, ← List.cons_append, ih]
      simp

/-- The tokens that opened the container and everything in it. -/
def Frame.tokens : Frame → List Token
  | .items before => .openArray :: before.reverse.flatMap fun item => item.tokens ++ [.comma]
  | .members before key => .openObject ::
    (before.reverse.flatMap (fun m => Value.tokensOfMember m ++ [.comma]) ++ [.quoted key, .colon])

/-- The tokens that opened the containers, the outermost one first. -/
def framesTokens (frames : List Frame) : List Token :=
  frames.reverse.flatMap Frame.tokens

/-- The innermost frame holds the latest tokens. -/
@[simp] theorem framesTokens_cons (frame : Frame) (frames : List Frame) :
    framesTokens (frame :: frames) = framesTokens frames ++ frame.tokens := by
  simp [framesTokens]

namespace Progress

/-- The tokens read so far. -/
def tokens : Progress → List Token
  | .awaitValue frames => framesTokens frames
  | .awaitFirstItem frames => framesTokens frames ++ [.openArray]
  | .awaitFirstKey frames => framesTokens frames ++ [.openObject]
  | .awaitKey before frames => framesTokens frames ++
    .openObject :: before.reverse.flatMap fun m => Value.tokensOfMember m ++ [.comma]
  | .awaitColon before key frames => framesTokens frames ++ .openObject ::
    (before.reverse.flatMap (fun m => Value.tokensOfMember m ++ [.comma]) ++ [.quoted key])
  | .complete value frames => framesTokens frames ++ value.tokens

variable {progress next : Progress} {frames : List Frame} {t : Token}

/-- A token that starts a value is read behind those of the open frames. -/
theorem tokens_of_start (h : start frames t = some next) :
    next.tokens = framesTokens frames ++ [t] := by
  unfold start at h
  split at h
  case h_7 => cases h
  all_goals
    obtain rfl := Option.some.inj h
    simp [tokens, Value.tokens]

/-- A token that goes on after a value is read behind it. -/
theorem tokens_of_continue? {value : Value} (h : continue? value frames t = some next) :
    next.tokens = framesTokens frames ++ value.tokens ++ [t] := by
  unfold continue? at h
  split at h
  case h_5 => cases h
  all_goals obtain rfl := Option.some.inj h
  · simp [tokens, Frame.tokens]
  · rw [tokens, Value.tokens_array, List.reverse_cons, intercalate_map_concat]
    simp [Frame.tokens]
  · simp [tokens, Frame.tokens, Value.tokensOfMember]
  · rw [tokens, Value.tokens_object, List.reverse_cons, intercalate_map_concat]
    simp [Frame.tokens, Value.tokensOfMember]

/-- **One token** is added to those read. -/
theorem tokens_of_step (h : progress.step t = some next) :
    next.tokens = progress.tokens ++ [t] := by
  unfold step at h
  split at h
  -- in the order of the constructors of `Progress`
  case h_1 => exact tokens_of_start h
  case h_2 =>
    split at h
    · obtain rfl := Option.some.inj h
      subst t
      simp [tokens, Value.tokens, Value.itemTokens]
    · rw [tokens_of_start h]
      simp [tokens, Frame.tokens]
  case h_3 =>
    split at h
    · obtain rfl := Option.some.inj h
      simp [tokens, Value.tokens, Value.memberTokens]
    · obtain rfl := Option.some.inj h
      simp [tokens]
    · cases h
  case h_4 =>
    split at h
    · obtain rfl := Option.some.inj h
      simp [tokens]
    · cases h
  case h_5 =>
    split at h
    · obtain rfl := Option.some.inj h
      subst t
      simp [tokens, Frame.tokens]
    · cases h
  case h_6 => exact tokens_of_continue? h

/-- What is read is what was read before and the tokens of the list, so nothing is lost. -/
theorem tokens_of_foldlM {list : List Token} (h : list.foldlM step progress = some next) :
    next.tokens = progress.tokens ++ list := by
  induction list generalizing progress with
  | nil =>
    obtain rfl := Option.some.inj h
    exact (List.append_nil _).symm
  | cons t list ih =>
    obtain ⟨middle, hstep, hrest⟩ := Option.bind_eq_some_iff.1 h
    rw [ih hrest, tokens_of_step hstep, List.append_assoc, List.singleton_append]

/-- Reading ends with a value and nothing open. -/
theorem eq_of_finish? {value : Value} (h : progress.finish? = some value) :
    progress = .complete value [] := by
  unfold finish? at h
  split at h
  · rw [Option.some.inj h]
  · cases h

end Progress

/-- Tokens denote a value exactly if they are the tokens of that value. -/
theorem Value.ofTokens?_eq_some_iff {list : List Token} {value : Value} :
    ofTokens? list = some value ↔ list = value.tokens := by
  constructor
  · intro h
    obtain ⟨final, hrun, hfinish⟩ := Option.bind_eq_some_iff.1 h
    have htokens := Progress.tokens_of_foldlM hrun
    rw [Progress.eq_of_finish? hfinish] at htokens
    exact htokens.symm
  · rintro rfl
    exact ofTokens?_tokens value

/-! ## Splitting texts -/

/-- A text starts apart if it does with more behind it. -/
theorem StartsApart.of_append {text rest : List Char} (h : StartsApart (text ++ rest)) :
    StartsApart text := by
  cases text with
  | nil => exact startsApart_nil
  | cons c text => exact startsApart_cons (h c rfl)

namespace Lexes

variable {tokens more : List Token} {text : List Char} {t : Token}

/-- A text is split before and after one of its tokens. -/
theorem split (h : Lexes (tokens ++ t :: more) text) :
    ∃ first chars rest, text = first ++ (chars ++ rest) ∧ Lexes tokens first ∧ t.IsWritten chars ∧
      Lexes more rest := by
  generalize hall : tokens ++ t :: more = all at h
  induction h generalizing tokens with
  | nil => simp at hall
  | @blank c _ text hblank _ ih =>
    obtain ⟨first, chars, rest, rfl, hfirst, hrest⟩ := ih hall
    exact ⟨c :: first, chars, rest, rfl, hfirst.blank hblank, hrest⟩
  | @token t' _ chars' text hwritten hapart h ih =>
    cases tokens with
    | nil =>
      obtain ⟨rfl, rfl⟩ := List.cons.inj hall
      exact ⟨[], chars', text, rfl, .nil, hwritten, h⟩
    | cons t'' tokens =>
      obtain ⟨rfl, hmore⟩ := List.cons.inj hall
      obtain ⟨first, chars, rest, rfl, hfirst, hrest⟩ := ih hmore
      exact ⟨chars' ++ first, chars, rest, by rw [List.append_assoc],
        hfirst.token hwritten fun hword => (hapart hword).of_append, hrest⟩

/-- A token that is no word starts apart. -/
theorem startsApart_of_isWritten {chars : List Char} (hwritten : t.IsWritten chars)
    (hword : t.isWord = false) (rest : List Char) : StartsApart (chars ++ rest) := by
  cases t with
  | quoted text =>
    obtain ⟨_, _, rfl, -⟩ := isQuoted_iff.1 hwritten
    exact startsApart_cons rfl
  | null | bool | number => cases hword
  | _ =>
    obtain ⟨-, rfl⟩ := hwritten
    exact startsApart_cons rfl

end Lexes

section

variable {tokens more : List Token} {text : List Char} {t : Token}

/-- Without tokens there are only blanks. -/
theorem lexes_nil_iff : Lexes [] text ↔ IsBlanks text := by
  refine ⟨Lexes.isBlanks, fun h => ?_⟩
  simpa using Lexes.nil.blanks h

/-- A text is split at a token that is no word. -/
theorem lexes_append_cons_iff (hword : t.isWord = false) :
    Lexes (tokens ++ t :: more) text ↔ ∃ first chars rest, text = first ++ (chars ++ rest) ∧
      Lexes tokens first ∧ t.IsWritten chars ∧ Lexes more rest := by
  refine ⟨Lexes.split, ?_⟩
  rintro ⟨first, chars, rest, rfl, hfirst, hwritten, hrest⟩
  refine hfirst.append (hrest.token hwritten (by simp [hword])) ?_
  exact Lexes.startsApart_of_isWritten hwritten hword rest

/-- A text is split at a separator or a bracket. -/
theorem lexes_punctuation_iff {c : Char} (ht : Token.ofPunctuation? c = some t) :
    Lexes (tokens ++ t :: more) text ↔ ∃ first rest, text = first ++ c :: rest ∧
      Lexes tokens first ∧ Lexes more rest := by
  have hwritten := Token.of_ofPunctuation? ht
  rw [lexes_append_cons_iff hwritten.2]
  constructor
  · rintro ⟨first, chars, rest, rfl, hfirst, hchars, hrest⟩
    obtain rfl := (hwritten.1 _).1 hchars
    exact ⟨first, rest, rfl, hfirst, hrest⟩
  · rintro ⟨first, rest, rfl, hfirst, hrest⟩
    exact ⟨first, [c], rest, rfl, hfirst, (hwritten.1 _).2 rfl, hrest⟩

/-- A text that begins with a separator or a bracket. -/
theorem lexes_punctuation_cons_iff {c : Char} (ht : Token.ofPunctuation? c = some t) :
    Lexes (t :: more) text ↔ ∃ before rest, text = before ++ c :: rest ∧ IsBlanks before ∧
      Lexes more rest := by
  rw [← List.nil_append (t :: more), lexes_punctuation_iff ht]
  simp only [lexes_nil_iff]

/-- The text of a single token is that token with blanks around it. -/
theorem lexes_singleton_iff : Lexes [t] text ↔ ∃ before chars after,
    text = before ++ (chars ++ after) ∧ IsBlanks before ∧ t.IsWritten chars ∧ IsBlanks after := by
  constructor
  · intro h
    rw [← List.nil_append [t]] at h
    obtain ⟨before, chars, after, rfl, hbefore, hwritten, hafter⟩ := h.split
    exact ⟨before, chars, after, rfl, hbefore.isBlanks, hwritten, hafter.isBlanks⟩
  · rintro ⟨before, chars, after, rfl, hbefore, hwritten, hafter⟩
    have hapart : StartsApart after := fun c hc =>
      isWordChar_of_isSpace (hafter c (List.mem_of_mem_head? hc))
    exact .blanks hbefore (.token hwritten (fun _ => hapart) (lexes_nil_iff.2 hafter))

/-- A text in brackets, with blanks around the brackets. -/
theorem lexes_between_iff {opening closing : Token} {openingChar closingChar : Char}
    (hopening : Token.ofPunctuation? openingChar = some opening)
    (hclosing : Token.ofPunctuation? closingChar = some closing) :
    Lexes (opening :: (tokens ++ [closing])) text ↔ ∃ before inner after,
      text = before ++ (openingChar :: (inner ++ [closingChar]) ++ after) ∧ IsBlanks before ∧
        Lexes tokens inner ∧ IsBlanks after := by
  rw [lexes_punctuation_cons_iff hopening]
  simp only [lexes_punctuation_iff hclosing, lexes_nil_iff]
  constructor
  · rintro ⟨before, _, rfl, hbefore, inner, after, rfl, hinner, hafter⟩
    exact ⟨before, inner, after, by simp, hbefore, hinner, hafter⟩
  · rintro ⟨before, inner, after, rfl, hbefore, hinner, hafter⟩
    exact ⟨before, _, by simp, hbefore, inner, after, rfl, hinner, hafter⟩

/-- A text that begins with a key. -/
theorem lexes_quoted_cons_iff {key : Option String} : Lexes (.quoted key :: more) text ↔
    ∃ before chars rest, text = before ++ (chars ++ rest) ∧ IsBlanks before ∧ IsQuoted key chars ∧
      Lexes more rest := by
  rw [← List.nil_append (_ :: more), lexes_append_cons_iff rfl]
  simp only [lexes_nil_iff]
  rfl

end

/-! ## Values in texts -/

namespace Value

variable {text chars : List Char} {value : Value}

/-- A padded value stands between blanks. -/
theorem padded_iff : value.Padded text ↔ ∃ before chars after, text = before ++ (chars ++ after) ∧
    IsBlanks before ∧ value.Spelled chars ∧ IsBlanks after := by
  constructor
  · rintro ⟨hbefore, h, hafter⟩
    exact ⟨_, _, _, rfl, hbefore, h, hafter⟩
  · rintro ⟨before, chars, after, rfl, hbefore, h, hafter⟩
    exact ⟨hbefore, h, hafter⟩

/-- One item is spelled by itself. -/
theorem spelledItems_singleton_iff : SpelledItems [value] text ↔ value.Padded text := by
  constructor
  · rintro (h | ⟨-, hrest⟩)
    · exact h
    · cases hrest
  · exact .last

/-- A comma stands between the first item and the others. -/
theorem spelledItems_cons_cons_iff {next : Value} {items : List Value} :
    SpelledItems (value :: next :: items) text ↔ ∃ first rest, text = first ++ ',' :: rest ∧
      value.Padded first ∧ SpelledItems (next :: items) rest := by
  constructor
  · rintro (_ | ⟨h, hrest⟩)
    exact ⟨_, _, rfl, h, hrest⟩
  · rintro ⟨first, rest, rfl, h, hrest⟩
    exact .cons h hrest

/-- One member is spelled by itself. -/
theorem spelledMembers_singleton_iff {m : Option String × Value} :
    SpelledMembers [m] text ↔ SpelledMember m text := by
  constructor
  · rintro (h | ⟨-, hrest⟩)
    · exact h
    · cases hrest
  · exact .last

/-- A comma stands between the first member and the others. -/
theorem spelledMembers_cons_cons_iff {m next : Option String × Value}
    {members : List (Option String × Value)} :
    SpelledMembers (m :: next :: members) text ↔ ∃ first rest, text = first ++ ',' :: rest ∧
      SpelledMember m first ∧ SpelledMembers (next :: members) rest := by
  constructor
  · rintro (_ | ⟨h, hrest⟩)
    exact ⟨_, _, rfl, h, hrest⟩
  · rintro ⟨first, rest, rfl, h, hrest⟩
    exact .cons h hrest

/-- A member is its key, a colon and its value, with blanks between them. -/
theorem spelledMember_iff {key : Option String} : SpelledMember (key, value) text ↔
    ∃ before chars after rest, text = before ++ (chars ++ (after ++ ':' :: rest)) ∧
      IsBlanks before ∧ IsQuoted key chars ∧ IsBlanks after ∧ value.Padded rest := by
  constructor
  · rintro ⟨hbefore, hkey, hafter, h⟩
    exact ⟨_, _, _, _, rfl, hbefore, hkey, hafter, h⟩
  · rintro ⟨before, chars, after, rest, rfl, hbefore, hkey, hafter, h⟩
    exact ⟨hbefore, hkey, hafter, h⟩

/-- A value that is written as one token. -/
theorem lexes_iff_of_isWritten {t : Token} (h : ∀ chars, t.IsWritten chars ↔ value.Spelled chars) :
    Lexes [t] text ↔ value.Padded text := by
  simp only [lexes_singleton_iff, padded_iff, h]

/-- A value that is written in brackets. -/
theorem lexes_iff_of_between {opening closing : Token} {tokens : List Token}
    (openingChar closingChar : Char) (hopening : Token.ofPunctuation? openingChar = some opening)
    (hclosing : Token.ofPunctuation? closingChar = some closing)
    (h : ∀ chars, value.Spelled chars ↔ ∃ inner, chars = openingChar :: (inner ++ [closingChar]) ∧
      Lexes tokens inner) :
    Lexes (opening :: (tokens ++ [closing])) text ↔ value.Padded text := by
  rw [lexes_between_iff hopening hclosing, padded_iff]
  simp only [h]
  constructor
  · rintro ⟨before, inner, after, rfl, hbefore, hinner, hafter⟩
    exact ⟨before, _, after, rfl, hbefore, ⟨inner, rfl, hinner⟩, hafter⟩
  · rintro ⟨before, _, after, rfl, hbefore, ⟨inner, rfl, hinner⟩, hafter⟩
    exact ⟨before, inner, after, rfl, hbefore, hinner, hafter⟩

mutual

/-- A text has the tokens of a value exactly if it is that value with blanks around it. -/
theorem lexes_tokens_iff (value : Value) (text : List Char) :
    Lexes value.tokens text ↔ value.Padded text := by
  cases value with
  -- the four kinds of values with one token are written by that token
  | null =>
    refine lexes_iff_of_isWritten fun chars => ⟨?_, ?_⟩
    · rintro ⟨-, rfl⟩
      exact .null
    · rintro ⟨⟩
      exact ⟨trivial, rfl⟩
  | bool b =>
    refine lexes_iff_of_isWritten fun chars => ⟨?_, ?_⟩
    · rintro ⟨-, rfl⟩
      cases b
      · exact .false
      · exact .true
    · rintro (_ | _) <;> exact ⟨trivial, rfl⟩
  | number word =>
    refine lexes_iff_of_isWritten fun chars => ⟨?_, ?_⟩
    · rintro ⟨hnumber, rfl⟩
      exact .number (isNumber_iff.1 hnumber)
    · rintro (_ | _ | _ | h)
      exact ⟨isNumber_iff.2 h, rfl⟩
  | string s =>
    refine lexes_iff_of_isWritten fun chars => ⟨.string, ?_⟩
    rintro (_ | _ | _ | _ | h)
    exact h
  | array items =>
    -- between brackets stand blanks, or items that are spelled by induction
    refine lexes_iff_of_between '[' ']' rfl rfl fun chars => ?_
    cases items with
    | nil =>
      rw [itemTokens]
      simp only [lexes_nil_iff]
      constructor
      · rintro (_ | _ | _ | _ | _ | hblanks | h)
        · exact ⟨_, rfl, hblanks⟩
        · cases h
      · rintro ⟨blanks, rfl, hblanks⟩
        exact .emptyArray hblanks
    | cons item items =>
      simp only [lexes_itemTokens_iff (item :: items) (List.cons_ne_nil _ _)]
      constructor
      · rintro (_ | _ | _ | _ | _ | _ | h)
        exact ⟨_, rfl, h⟩
      · rintro ⟨inner, rfl, h⟩
        exact .array h
  | object members =>
    refine lexes_iff_of_between '{' '}' rfl rfl fun chars => ?_
    cases members with
    | nil =>
      rw [memberTokens]
      simp only [lexes_nil_iff]
      constructor
      · rintro (_ | _ | _ | _ | _ | _ | _ | hblanks | h)
        · exact ⟨_, rfl, hblanks⟩
        · cases h
      · rintro ⟨blanks, rfl, hblanks⟩
        exact .emptyObject hblanks
    | cons m members =>
      simp only [lexes_memberTokens_iff (m :: members) (List.cons_ne_nil _ _)]
      constructor
      · rintro (_ | _ | _ | _ | _ | _ | _ | _ | h)
        exact ⟨_, rfl, h⟩
      · rintro ⟨inner, rfl, h⟩
        exact .object h

/-- The tokens of items are those of texts that spell the items. -/
theorem lexes_itemTokens_iff (items : List Value) (hitems : items ≠ []) (text : List Char) :
    Lexes (itemTokens items) text ↔ SpelledItems items text := by
  cases items with
  | nil => exact absurd rfl hitems
  | cons item items =>
    cases items with
    | nil =>
      rw [itemTokens, furtherItemTokens, List.append_nil, lexes_tokens_iff item,
        spelledItems_singleton_iff]
    | cons next items =>
      have hfurther : furtherItemTokens (next :: items) = .comma :: itemTokens (next :: items) :=
        rfl
      rw [itemTokens, hfurther, lexes_punctuation_iff (c := ',') rfl, spelledItems_cons_cons_iff]
      simp only [lexes_tokens_iff item, lexes_itemTokens_iff (next :: items) (List.cons_ne_nil _ _)]

/-- The tokens of members are those of texts that spell the members. -/
theorem lexes_memberTokens_iff (members : List (Option String × Value)) (hmembers : members ≠ [])
    (text : List Char) : Lexes (memberTokens members) text ↔ SpelledMembers members text := by
  cases members with
  | nil => exact absurd rfl hmembers
  | cons m members =>
    obtain ⟨key, value⟩ := m
    -- a single member is its key, a colon and a value, which is spelled by induction
    have hmember : ∀ text, Lexes (tokensOfMember (key, value)) text ↔
        SpelledMember (key, value) text := by
      intro text
      rw [tokensOfMember, lexes_quoted_cons_iff, spelledMember_iff]
      simp only [lexes_punctuation_cons_iff (c := ':') rfl, lexes_tokens_iff value]
      constructor
      · rintro ⟨before, chars, _, rfl, hbefore, hkey, after, rest, rfl, hafter, h⟩
        exact ⟨before, chars, after, rest, rfl, hbefore, hkey, hafter, h⟩
      · rintro ⟨before, chars, after, rest, rfl, hbefore, hkey, hafter, h⟩
        exact ⟨before, chars, _, rfl, hbefore, hkey, after, rest, rfl, hafter, h⟩
    cases members with
    | nil =>
      have htokens : memberTokens [(key, value)] = tokensOfMember (key, value) := by
        simp [memberTokens, furtherMemberTokens, tokensOfMember]
      rw [htokens, hmember, spelledMembers_singleton_iff]
    | cons next members =>
      have htokens : memberTokens ((key, value) :: next :: members) =
          tokensOfMember (key, value) ++ .comma :: memberTokens (next :: members) := by
        obtain ⟨nextKey, nextValue⟩ := next
        simp [memberTokens, furtherMemberTokens, tokensOfMember]
      rw [htokens, lexes_punctuation_iff (c := ',') rfl, spelledMembers_cons_cons_iff]
      simp only [hmember, lexes_memberTokens_iff (next :: members) (List.cons_ne_nil _ _)]

end

/-- **Reading accepts the documents of the grammar**, and gives the value that the text is, with
blanks around it. -/
theorem parse?_eq_some_iff {text : List Char} {value : Value} :
    parse? text = some value ↔ value.Padded text := by
  rw [parse?, Option.bind_eq_some_iff, ← lexes_tokens_iff]
  constructor
  · rintro ⟨tokens, hscan, hread⟩
    rw [← ofTokens?_eq_some_iff.1 hread]
    exact Token.scan?_eq_some_iff.1 hscan
  · intro h
    exact ⟨value.tokens, Token.scan?_eq_some_iff.2 h, ofTokens?_tokens value⟩

/-- A text is refused exactly if it is no document. -/
theorem parse?_eq_none_iff {text : List Char} : parse? text = none ↔ ¬IsDocument text := by
  simp only [Option.eq_none_iff_forall_ne_some, Ne, parse?_eq_some_iff, IsDocument, not_exists]

end Value

end RelationalAvro.Json
