import RelationalAvro.Proofs.Json.Literals
import RelationalAvro.Text.Blank
import RelationalAvro.Text.Segments

/-!
# Lines and open brackets

Read character by character, a text opens and closes brackets and braces, except in string literals.
Its outline is what stands open, and on lines of what indentation that was opened. `IsLaidOut` says
what the indentation of a line has to do with the outline at its beginning: a line stands two spaces
deeper than the one that opened the innermost bracket, unless it begins by closing that.

A text is put together of pieces that begin and end somewhere in a line. So the rule is proved of
pieces: `Goes` says that reading a piece takes a reader from one spot to another, and that the lines
begun on the way are in their places. What is so of a whole text makes it laid out:
`isLaidOut_of_goes`.
-/

namespace RelationalAvro.Json

open Text (isBlank segments)

/-! ## Outlines -/

/-- A bracket or brace that stands open: what closes it, and how many spaces lead the line on which
it was opened. -/
structure Opened where
  closing : Char
  spaces : Nat
  deriving DecidableEq, Repr

/-- What has come of the text before some place: where the place is as to string literals, and what
stands open there, innermost first. -/
structure Outline where
  place : Place := .outside
  opened : List Opened := []
  deriving DecidableEq, Repr

/-- What closes the bracket or brace that `c` is. -/
def closing? : Char → Option Char
  | '[' => some ']'
  | '{' => some '}'
  | _ => none

/-- Does `c` close a bracket or a brace? -/
def isClosing (c : Char) : Bool :=
  c == ']' || c == '}'

/-- The outline after `c` on a line led by `spaces` spaces, unless `c` closes something else than
what was opened last. -/
def Outline.after (spaces : Nat) (outline : Outline) (c : Char) : Option Outline :=
  match outline with
  | ⟨.outside, opened⟩ =>
    if isClosing c then
      match opened with
      | [] => none
      | innermost :: outer => if innermost.closing = c then some ⟨.outside, outer⟩ else none
    else some ⟨Place.outside.after c, (closing? c).toList.map (⟨·, spaces⟩) ++ opened⟩
  | ⟨place, opened⟩ => some ⟨place.after c, opened⟩

/-- How many spaces lead the line. -/
def leadingSpaces (line : List Char) : Nat :=
  (line.takeWhile (· = ' ')).length

/-- The outline after a line. -/
def Outline.afterLine (outline : Outline) (line : List Char) : Option Outline :=
  line.foldlM (Outline.after (leadingSpaces line)) outline

/-- The outline after the lines of a text, from its beginning. -/
def outline? (lines : List (List Char)) : Option Outline :=
  lines.foldlM Outline.afterLine {}

/-- The lines of a text. -/
def linesOf (text : List Char) : List (List Char) :=
  segments '\n' text

/-- How many spaces are due before `c` at the beginning of a line, where `innermost` was opened
last: as many as lead the line of that if `c` closes something, and otherwise two more. -/
def Opened.spacesBefore (innermost : Opened) (c : Char) : Nat :=
  if isClosing c then innermost.spaces else innermost.spaces + 2

/-- The lines of the text are indented by what stands open where they begin. -/
structure IsLaidOut (text : List Char) : Prop where
  /-- No space leads the first line. -/
  flush : ∀ line ∈ (linesOf text).head?, leadingSpaces line = 0
  /-- Every later line begins outside of string literals, with something open, and is led by the
  spaces that are due before the first character that is none. -/
  indented : ∀ before line after, linesOf text = before ++ line :: after → before ≠ [] →
    ∃ innermost outer c, outline? before = some ⟨.outside, innermost :: outer⟩ ∧
      line.find? (· ≠ ' ') = some c ∧ leadingSpaces line = innermost.spacesBefore c
  /-- No line is blank or ends with a blank. -/
  filled : ∀ line ∈ linesOf text, ∃ c ∈ line.getLast?, isBlank c = false
  /-- All that is opened is closed again, the innermost first. -/
  balanced : outline? (linesOf text) = some {}

/-! ## Reading pieces -/

/-- Where a reader stands in a text: the outline there, how many spaces lead the line, and the
character read last. -/
structure Spot where
  outline : Outline
  spaces : Nat
  last : Char

/-- Reading the text takes a reader from spot to spot. Each line break comes with the spaces that
lead the next line, and with a character that is not blank on both sides. -/
inductive Goes : Spot → List Char → Spot → Prop
  | nil {spot : Spot} : Goes spot [] spot
  | char {outline next : Outline} {spaces : Nat} {last c : Char} {rest : List Char} {stop : Spot}
      (hbreak : c ≠ '\n') (hnext : outline.after spaces c = some next)
      (hrest : Goes ⟨next, spaces, c⟩ rest stop) : Goes ⟨outline, spaces, last⟩ (c :: rest) stop
  | line {innermost : Opened} {outer : List Opened} {spaces n : Nat} {last c : Char}
      {rest : List Char} {stop : Spot} (hlast : isBlank last = false) (hc : isBlank c = false)
      (hn : n = innermost.spacesBefore c)
      (hrest : Goes ⟨⟨.outside, innermost :: outer⟩, n, ' '⟩ (c :: rest) stop) :
      Goes ⟨⟨.outside, innermost :: outer⟩, spaces, last⟩
        ('\n' :: (List.replicate n ' ' ++ c :: rest)) stop

variable {start middle stop : Spot} {text rest : List Char}

/-- Pieces are read one after the other. -/
theorem Goes.append (h : Goes start text middle) (hrest : Goes middle rest stop) :
    Goes start (text ++ rest) stop := by
  induction h with
  | nil => exact hrest
  | char hbreak hnext _ ih => exact .char hbreak hnext (ih hrest)
  | line hlast hc hn _ ih =>
    rw [List.cons_append, List.append_assoc]
    exact .line hlast hc hn (ih hrest)

/-- Characters that change nothing one by one change nothing together. -/
theorem foldlM_after_eq_some {spaces : Nat} {outline : Outline}
    (h : ∀ c ∈ text, Outline.after spaces outline c = some outline) :
    text.foldlM (Outline.after spaces) outline = some outline := by
  induction text with
  | nil => rfl
  | cons c text ih =>
    rw [List.forall_mem_cons] at h
    rw [List.foldlM_cons, h.1]
    exact ih h.2

/-- A text without line breaks is read on its line. -/
theorem goes_of_foldlM {outline next : Outline} {spaces : Nat} {last : Char} (hbreak : '\n' ∉ text)
    (h : text.foldlM (Outline.after spaces) outline = some next) :
    Goes ⟨outline, spaces, last⟩ text ⟨next, spaces, text.getLast?.getD last⟩ := by
  induction text generalizing outline last with
  | nil =>
    obtain rfl : outline = next := Option.some.inj h
    exact .nil
  | cons c text ih =>
    rw [List.mem_cons, not_or] at hbreak
    rw [List.foldlM_cons] at h
    obtain ⟨middle, hmiddle, hrest⟩ := Option.bind_eq_some_iff.1 h
    rw [List.getLast?_cons, Option.getD_some]
    exact .char (Ne.symm hbreak.1) hmiddle (ih hbreak.2 hrest)

/-! ## From pieces to lines -/

theorem ne_space_of_not_isBlank {c : Char} (h : isBlank c = false) : c ≠ ' ' := by
  rintro rfl
  exact absurd h (by decide)

theorem ne_newline_of_not_isBlank {c : Char} (h : isBlank c = false) : c ≠ '\n' := by
  rintro rfl
  exact absurd h (by decide)

/-- The lines that come after an outline are in their places, and end with another outline. -/
inductive InPlace : Outline → List (List Char) → Outline → Prop
  | nil {outline : Outline} : InPlace outline [] outline
  | cons {innermost : Opened} {outer : List Opened} {c : Char} {line : List Char}
      {lines : List (List Char)} {next stop : Outline} (hfirst : line.find? (· ≠ ' ') = some c)
      (hspaces : leadingSpaces line = innermost.spacesBefore c)
      (hnext : Outline.afterLine ⟨.outside, innermost :: outer⟩ line = some next)
      (hrest : InPlace next lines stop) :
      InPlace ⟨.outside, innermost :: outer⟩ (line :: lines) stop

/-- Lines in their places are read from the first outline to the last. -/
theorem InPlace.foldlM_eq {lines : List (List Char)} {start stop : Outline}
    (h : InPlace start lines stop) : lines.foldlM Outline.afterLine start = some stop := by
  induction h with
  | nil => rfl
  | cons _ _ hnext _ ih => rw [List.foldlM_cons, hnext]; exact ih

/-- Each of the lines is in its place after those before it. -/
theorem InPlace.exists_outline {before after : List (List Char)} {line : List Char}
    {start stop : Outline} (h : InPlace start (before ++ line :: after) stop) :
    ∃ innermost outer c,
      before.foldlM Outline.afterLine start = some ⟨.outside, innermost :: outer⟩ ∧
      line.find? (· ≠ ' ') = some c ∧ leadingSpaces line = innermost.spacesBefore c := by
  induction before generalizing start with
  | nil =>
    cases h with
    | cons hfirst hspaces _ _ => exact ⟨_, _, _, rfl, hfirst, hspaces⟩
  | cons first before ih =>
    cases h with
    | cons _ _ hnext hrest =>
      obtain ⟨innermost, outer, c, hbefore, hline⟩ := ih hrest
      exact ⟨innermost, outer, c, by rw [List.foldlM_cons, hnext]; exact hbefore, hline⟩

section

variable {c : Char} (hc : c ≠ '\n') {first : List Char} {lines : List (List Char)}
include hc

/-- A character that is no line break stands on the first line. -/
theorem linesOf_cons (h : linesOf text = first :: lines) :
    linesOf (c :: text) = (c :: first) :: lines := by
  have hnot : '\n' ∉ [c] := by simpa using hc.symm
  exact Text.segments_append_of_not_mem hnot h

/-- The first line of a text begins with the first character, if that is no line break. -/
theorem exists_eq_cons_of_linesOf_cons (h : linesOf (c :: text) = first :: lines) :
    ∃ tail, first = c :: tail := by
  obtain ⟨tail, more, htext⟩ := List.exists_cons_of_ne_nil (Text.segments_ne_nil '\n' text)
  exact ⟨tail, (List.cons.inj (h.symm.trans (linesOf_cons hc htext))).1⟩

end

section

variable {n : Nat} {c : Char} (hc : c ≠ ' ')
include hc

/-- The spaces before a character that is none are counted. -/
theorem leadingSpaces_replicate_append :
    leadingSpaces (List.replicate n ' ' ++ c :: rest) = n := by
  simp [leadingSpaces, List.takeWhile_append_of_pos, hc]

/-- The first character behind spaces is found. -/
theorem find?_replicate_append :
    (List.replicate n ' ' ++ c :: rest).find? (· ≠ ' ') = some c := by
  simp [List.find?_append, hc]

end

/-- Leading spaces open and close nothing. -/
theorem foldlM_after_replicate (spaces n : Nat) (opened : List Opened) (rest : List Char) :
    (List.replicate n ' ' ++ rest).foldlM (Outline.after spaces) ⟨.outside, opened⟩ =
      rest.foldlM (Outline.after spaces) ⟨.outside, opened⟩ := by
  have hspaces : (List.replicate n ' ').foldlM (Outline.after spaces) ⟨.outside, opened⟩ =
      some ⟨.outside, opened⟩ :=
    foldlM_after_eq_some fun c hc => by rw [List.eq_of_mem_replicate hc]; rfl
  rw [List.foldlM_append, hspaces]
  rfl

/-- The lines of a piece: the first goes on with the line of the reader, and the others are in their
places. All lines end with a character that is not blank if the reader stops at one. -/
theorem Goes.exists_lines (h : Goes start text stop) :
    ∃ first lines next, linesOf text = first :: lines ∧
      first.foldlM (Outline.after start.spaces) start.outline = some next ∧
      InPlace next lines stop.outline ∧
      (isBlank stop.last = false → ∀ line ∈ (start.last :: first) :: lines,
        ∃ c ∈ line.getLast?, isBlank c = false) := by
  induction h with
  -- what comes first goes on with the line of the reader, so the first line is not in its place yet
  | @nil spot => exact ⟨[], [], spot.outline, rfl, rfl, .nil, fun hstop => by simpa using hstop⟩
  | @char _ _ _ _ c rest _ hbreak hnext _ ih =>
    obtain ⟨first, lines, next, hlines, hfirst, hplace, hfilled⟩ := ih
    refine ⟨c :: first, lines, next, linesOf_cons hbreak hlines, ?_, hplace, fun hstop => ?_⟩
    · rw [List.foldlM_cons, hnext]
      exact hfirst
    · rw [List.forall_mem_cons, List.getLast?_cons_cons]
      exact List.forall_mem_cons.1 (hfilled hstop)
  | @line innermost outer _ n last c rest _ hlast hc hn hrest ih =>
    -- a line begins here: its spaces and its first character say that it is in its place
    have hspace := ne_space_of_not_isBlank hc
    have hspaces : '\n' ∉ List.replicate n ' ' := fun hmem =>
      absurd (List.eq_of_mem_replicate hmem) (by decide)
    obtain ⟨first, lines, next, hlines, hfirst, hplace, hfilled⟩ := ih
    obtain ⟨tail, rfl⟩ := exists_eq_cons_of_linesOf_cons (ne_newline_of_not_isBlank hc) hlines
    refine ⟨[], (List.replicate n ' ' ++ c :: tail) :: lines, _, ?_, rfl,
      .cons (find?_replicate_append hspace) ?_ ?_ hplace, fun hstop => ?_⟩
    · exact (Text.segments_append_separator '\n' [] _).trans
        (congrArg ([] :: ·) (Text.segments_append_of_not_mem hspaces hlines))
    · rw [leadingSpaces_replicate_append hspace, hn]
    · rw [Outline.afterLine, leadingSpaces_replicate_append hspace, foldlM_after_replicate]
      exact hfirst
    · have hfilled := List.forall_mem_cons.1 (hfilled hstop)
      refine List.forall_mem_cons.2 ⟨⟨last, rfl, hlast⟩, List.forall_mem_cons.2 ⟨?_, hfilled.2⟩⟩
      simpa [List.getLast?_cons] using hfilled.1

/-- A text that a reader can go through from a beginning that is not blank to an end that is not,
with nothing open at either, is laid out. -/
theorem isLaidOut_of_goes {c last stop : Char} (hc : isBlank c = false)
    (hstop : isBlank stop = false)
    (h : Goes ⟨{}, 0, last⟩ (c :: text) ⟨{}, 0, stop⟩) : IsLaidOut (c :: text) := by
  obtain ⟨first, lines, next, hlines, hfirst, hplace, hfilled⟩ := h.exists_lines
  obtain ⟨tail, rfl⟩ := exists_eq_cons_of_linesOf_cons (ne_newline_of_not_isBlank hc) hlines
  have hflush : leadingSpaces (c :: tail) = 0 :=
    leadingSpaces_replicate_append (n := 0) (ne_space_of_not_isBlank hc)
  have hafter : Outline.afterLine {} (c :: tail) = some next := by
    rw [Outline.afterLine, hflush]
    exact hfirst
  refine ⟨?_, ?_, ?_, ?_⟩
  · rw [hlines]
    rintro line ⟨⟩
    exact hflush
  · -- a later line stands among those behind the first
    intro before line after hsplit hne
    cases before with
    | nil => exact absurd rfl hne
    | cons line before =>
      rw [hlines] at hsplit
      obtain ⟨rfl, rfl⟩ := List.cons.inj hsplit
      obtain ⟨innermost, outer, c, hbefore, hline⟩ := hplace.exists_outline
      exact ⟨innermost, outer, c, by rw [outline?, List.foldlM_cons, hafter]; exact hbefore, hline⟩
  · rw [hlines]
    have hfilled := List.forall_mem_cons.1 (hfilled hstop)
    exact List.forall_mem_cons.2 ⟨by simpa using hfilled.1, hfilled.2⟩
  · rw [outline?, hlines, List.foldlM_cons, hafter]
    exact hplace.foldlM_eq

end RelationalAvro.Json
