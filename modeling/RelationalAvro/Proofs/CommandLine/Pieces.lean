import Mathlib.Logic.ExistsUnique
import RelationalAvro.Proofs.CommandLine.Arguments

/-!
# Cutting a command line

The arguments in front of a double dash are cut into pieces: an option, with its value attached or
as the next argument, or a positional argument. What follows the double dash is left as it is
(`Line`). Arguments that have words can be cut in one way and no other, so every statement on the
pieces is one on the arguments: `exists_unique_line`.
-/

namespace RelationalAvro.CommandLine

/-! ## Names of options -/

/-- The name of an option that takes a value. -/
def Setting.name : Setting → String
  | .space => "namespace"
  | .typeMapping => "type-mapping"
  | .defaultScale => "default-scale"

/-- The name of an option that takes none. -/
def Flag.name : Flag → String
  | .perRecord => "inline-enums-per-record"
  | .print => "stdout"

section

variable {name argument value : String} {key : Setting} {flag : Flag}

/-- Only the name of an option names it. -/
theorem Setting.ofName?_eq_some_iff : Setting.ofName? name = some key ↔ name = key.name := by
  constructor
  · intro h
    unfold Setting.ofName? at h
    split at h <;> cases h <;> rfl
  · rintro rfl
    cases key <;> rfl

/-- Only the name of a flag names it. -/
theorem Flag.ofName?_eq_some_iff : Flag.ofName? name = some flag ↔ name = flag.name := by
  constructor
  · intro h
    unfold Flag.ofName? at h
    split at h <;> cases h <;> rfl
  · rintro rfl
    cases flag <;> rfl

@[simp] theorem Setting.ofName?_name (key : Setting) : Setting.ofName? key.name = some key :=
  ofName?_eq_some_iff.2 rfl

@[simp] theorem Flag.ofName?_name (flag : Flag) : Flag.ofName? flag.name = some flag :=
  ofName?_eq_some_iff.2 rfl

/-- Options differ in their names. -/
theorem Setting.name_injective {key other : Setting} (h : key.name = other.name) : key = other :=
  Option.some.inj ((ofName?_name key).symm.trans (ofName?_eq_some_iff.2 h))

theorem Flag.name_injective {flag other : Flag} (h : flag.name = other.name) : flag = other :=
  Option.some.inj ((ofName?_name flag).symm.trans (ofName?_eq_some_iff.2 h))

/-- The name of an option names no flag. -/
theorem Flag.ofName?_settingName (key : Setting) : Flag.ofName? key.name = none := by
  cases key <;> rfl

/-- Flags and options differ in their names. -/
theorem Flag.name_ne_settingName (flag : Flag) (key : Setting) : flag.name ≠ key.name := by
  cases flag <;> cases key <;> decide

/-- Names hold no equals sign, so the first one in an argument comes before the value. -/
theorem Setting.equals_not_mem_name (key : Setting) : '=' ∉ key.name.toList := by
  cases key <;> decide

/-- The name of a flag holds no equals sign. -/
theorem Flag.equals_not_mem_name (flag : Flag) : '=' ∉ flag.name.toList := by
  cases flag <;> decide

/-! ## What an argument names -/

/-- The argument is two dashes and a name without an equals sign, and then the value if there is
one. -/
theorem named?_eq_some_iff {value : Option String} :
    named? argument = some (name, value) ↔ '=' ∉ name.toList ∧
      argument = "--" ++ name ++ (value.elim "" fun value => "=" ++ value) := by
  constructor
  · intro h
    unfold named? at h
    split at h
    · rename_i text htext
      -- what comes behind the first equals sign is the value, whatever it holds
      cases hsplit : Text.splitFirst '=' text with
      | none =>
        simp only [hsplit, Option.some.injEq, Prod.mk.injEq] at h
        obtain ⟨rfl, rfl⟩ := h
        refine ⟨by simpa using Text.splitFirst_eq_none_iff.1 hsplit, String.toList_inj.1 ?_⟩
        simp [htext]
      | some halves =>
        simp only [hsplit, Option.some.injEq, Prod.mk.injEq] at h
        obtain ⟨rfl, rfl⟩ := h
        obtain ⟨rfl, hname⟩ := Text.splitFirst_eq_some hsplit
        refine ⟨by simpa using hname, String.toList_inj.1 ?_⟩
        simp [htext]
    · cases h
  · rintro ⟨hname, rfl⟩
    cases value with
    | none => simp [named?, Text.splitFirst_eq_none_iff.2 hname]
    | some value => simp [named?, Text.splitFirst_append_cons hname]

/-- A plain argument names nothing. -/
theorem named?_eq_none_of_isPlain (h : isPlain argument = true) : named? argument = none := by
  unfold named?
  split
  · rename_i text htext
    obtain rfl : argument = "-" := by simpa [isPlain, htext] using h
    simp at htext
  · rfl

end

/-! ## Pieces -/

/-- A piece of a command line: an option, whose value is attached or stands apart, or a positional
argument. -/
inductive Piece where
  | flag (mark : Flag)
  | attached (key : Setting) (value : String)
  | apart (key : Setting) (value : String) (takes : key.takes value = true)
  | positional (text : String) (plain : isPlain text = true)
  deriving DecidableEq

namespace Piece

/-- The first argument of a piece. -/
def first : Piece → String
  | .flag mark => "--" ++ mark.name
  | .attached key value => "--" ++ key.name ++ "=" ++ value
  | .apart key _ _ => "--" ++ key.name
  | .positional text _ => text

/-- The arguments of a piece. -/
def arguments (piece : Piece) : List String :=
  match piece with
  | .apart _ value _ => [piece.first, value]
  | _ => [piece.first]

/-- The word that a piece is. -/
def word : Piece → Word
  | .flag mark => .flag mark
  | .attached key value => .setting key value
  | .apart key value _ => .setting key value
  | .positional text _ => .positional text

/-- The text of a positional argument. -/
def positional? (piece : Piece) : Option String :=
  piece.word.positional?

/-- What the first argument of a piece names. -/
def named : Piece → Option (String × Option String)
  | .flag mark => some (mark.name, none)
  | .attached key value => some (key.name, some value)
  | .apart key _ _ => some (key.name, none)
  | .positional _ _ => none

/-- The first argument of a piece names what the piece names. -/
theorem named?_first (piece : Piece) : named? piece.first = piece.named := by
  cases piece with
  | flag mark => exact named?_eq_some_iff.2 ⟨mark.equals_not_mem_name, by simp [first]⟩
  | attached key value =>
    exact named?_eq_some_iff.2 ⟨key.equals_not_mem_name, by simp [first, String.append_assoc]⟩
  | apart key value takes => exact named?_eq_some_iff.2 ⟨key.equals_not_mem_name, by simp [first]⟩
  | positional text plain => exact named?_eq_none_of_isPlain plain

/-- No piece begins with the two dashes that end the options. -/
theorem first_ne_dashes (piece : Piece) : piece.first ≠ "--" := by
  intro h
  have hnamed := piece.named?_first
  have hdashes : named? "--" = some ("", none) := by decide
  rw [h, hdashes] at hnamed
  cases piece with
  | flag mark => cases mark <;> simp [named, Flag.name] at hnamed
  | attached key value => simp [named] at hnamed
  | apart key value takes => cases key <;> simp [named, Setting.name] at hnamed
  | positional text plain => simp [named] at hnamed

/-- In front of other arguments, a piece is read as its word. -/
theorem ofArguments?_append (piece : Piece) (rest : List String) :
    Word.ofArguments? (piece.arguments ++ rest) =
      (Word.ofArguments? rest).map (piece.word :: ·) := by
  have hnamed := piece.named?_first
  cases piece with
  | flag mark =>
    refine ofArguments?_cons_single (first_ne_dashes _) ?_ rest
    simp [Word.single?, hnamed, named, word]
  | attached key value =>
    refine ofArguments?_cons_single (first_ne_dashes _) ?_ rest
    simp [Word.single?, hnamed, named, word]
  | apart key value takes =>
    refine ofArguments?_cons_paired (first_ne_dashes _) ?_ takes rest
    simp [Setting.opened?, hnamed, named, Flag.ofName?_settingName]
  | positional text plain =>
    refine ofArguments?_cons_single (first_ne_dashes _) ?_ rest
    simp [Word.single?, first, named?_eq_none_of_isPlain plain, plain, word]

/-- The first argument of a piece comes first. -/
theorem head?_arguments (piece : Piece) (rest : List String) :
    (piece.arguments ++ rest).head? = some piece.first := by
  cases piece <;> rfl

/-- Which piece comes first is up to the arguments. -/
theorem eq_of_append {piece other : Piece} {rest further : List String}
    (h : piece.arguments ++ rest = other.arguments ++ further) :
    piece = other ∧ rest = further := by
  have hnamed : piece.named = other.named := by
    have hfirst : some piece.first = some other.first := by
      rw [← head?_arguments piece rest, h, head?_arguments]
    rw [← named?_first, Option.some.inj hfirst, named?_first]
  cases piece <;> cases other
  case flag.flag mark other =>
    obtain rfl : mark = other := Flag.name_injective (by simpa [named] using hnamed)
    exact ⟨rfl, by simpa [arguments] using h⟩
  case attached.attached key value other further =>
    obtain ⟨hname, rfl⟩ : key.name = other.name ∧ value = further := by simpa [named] using hnamed
    obtain rfl := Setting.name_injective hname
    exact ⟨rfl, by simpa [arguments] using h⟩
  case apart.apart key value takes other further takes' =>
    obtain rfl : key = other := Setting.name_injective (by simpa [named] using hnamed)
    obtain ⟨-, rfl, hrest⟩ : _ ∧ value = further ∧ rest = _ := by simpa [arguments] using h
    exact ⟨rfl, hrest⟩
  case positional.positional text plain other plain' =>
    obtain ⟨rfl, hrest⟩ : text = other ∧ rest = _ := by simpa [arguments, first] using h
    exact ⟨rfl, hrest⟩
  -- no flag has the name of an option that takes a value
  case flag.apart mark key value takes => simp [named, Flag.name_ne_settingName] at hnamed
  case apart.flag key value takes mark =>
    simp [named, (Flag.name_ne_settingName _ _).symm] at hnamed
  all_goals simp [named] at hnamed

/-- An argument that is a word by itself is a piece by itself. -/
theorem exists_of_single? {argument : String} {word : Word}
    (h : Word.single? argument = some word) :
    ∃ piece : Piece, piece.arguments = [argument] := by
  unfold Word.single? at h
  rcases hnamed : named? argument with _ | ⟨name, _ | value⟩
  · rw [hnamed] at h
    obtain ⟨plain, -⟩ := Option.ite_none_right_eq_some.1 h
    exact ⟨.positional argument plain, rfl⟩
  · rw [hnamed] at h
    obtain ⟨mark, hmark, -⟩ := Option.map_eq_some_iff.1 h
    obtain rfl := Flag.ofName?_eq_some_iff.1 hmark
    obtain ⟨-, rfl⟩ := named?_eq_some_iff.1 hnamed
    exact ⟨.flag mark, by simp [arguments, first]⟩
  · rw [hnamed] at h
    obtain ⟨key, hkey, -⟩ := Option.map_eq_some_iff.1 h
    obtain rfl := Setting.ofName?_eq_some_iff.1 hkey
    obtain ⟨-, rfl⟩ := named?_eq_some_iff.1 hnamed
    exact ⟨.attached key value, by simp [arguments, first, String.append_assoc]⟩

/-- An argument that waits for a value is the name of an option. -/
theorem eq_of_opened? {argument : String} {key : Setting}
    (h : Setting.opened? argument = some key) :
    argument = "--" ++ key.name := by
  unfold Setting.opened? at h
  split at h
  · rename_i name hnamed
    obtain ⟨-, hkey⟩ := Option.ite_none_left_eq_some.1 h
    obtain rfl := Setting.ofName?_eq_some_iff.1 hkey
    obtain ⟨-, rfl⟩ := named?_eq_some_iff.1 hnamed
    simp
  · cases h

end Piece

/-! ## Lines -/

/-- A command line that is cut: its pieces, and what follows the double dash if there is one. -/
structure Line where
  pieces : List Piece
  rest : Option (List String) := none

namespace Line

/-- The arguments of a line. -/
def arguments (line : Line) : List String :=
  line.pieces.flatMap Piece.arguments ++ line.rest.elim [] fun texts => "--" :: texts

/-- The words of a line. What follows the double dash is positional. -/
def words (line : Line) : List Word :=
  line.pieces.map Piece.word ++ line.rest.elim [] fun texts => texts.map .positional

/-- The arguments of a line are read as its words. -/
theorem ofArguments?_arguments (line : Line) :
    Word.ofArguments? line.arguments = some line.words := by
  obtain ⟨pieces, rest⟩ := line
  induction pieces with
  | nil => cases rest <;> simp [arguments, words, Word.ofArguments?]
  | cons piece pieces ih =>
    have hcons : (⟨piece :: pieces, rest⟩ : Line).arguments =
        piece.arguments ++ (⟨pieces, rest⟩ : Line).arguments := by
      simp [arguments]
    rw [hcons, piece.ofArguments?_append, ih]
    rfl

/-- A line can be put together in one way only. -/
theorem arguments_injective : Function.Injective arguments := by
  rintro ⟨pieces, rest⟩ ⟨pieces', rest'⟩ h
  -- no piece begins like a double dash, so the pieces of both lines end together
  have hends : ∀ (piece : Piece) (pieces : List Piece) (rest rest' : Option (List String)),
      (⟨piece :: pieces, rest⟩ : Line).arguments ≠ (⟨[], rest'⟩ : Line).arguments := by
    intro piece pieces rest rest' h
    have hhead := congrArg List.head? h
    simp only [arguments, List.flatMap_cons, List.append_assoc, Piece.head?_arguments] at hhead
    cases rest' with
    | none => simp at hhead
    | some texts => exact piece.first_ne_dashes (by simpa using hhead)
  induction pieces generalizing pieces' with
  | nil =>
    cases pieces' with
    | nil => cases rest <;> cases rest' <;> simp_all [arguments]
    | cons piece pieces' => exact (hends _ _ _ _ h.symm).elim
  | cons piece pieces ih =>
    cases pieces' with
    | nil => exact (hends _ _ _ _ h).elim
    | cons piece' pieces' =>
      simp only [arguments, List.flatMap_cons, List.append_assoc] at h
      obtain ⟨rfl, hrest⟩ := Piece.eq_of_append h
      obtain ⟨rfl, rfl⟩ := Line.mk.inj (ih pieces' hrest)
      rfl

/-- Arguments that spell words can be cut. -/
theorem exists_of_spells {arguments : List String} {words : List Word}
    (h : Spells arguments words) :
    ∃ line : Line, line.arguments = arguments := by
  induction h with
  | nil => exact ⟨⟨[], none⟩, rfl⟩
  | ended texts => exact ⟨⟨[], some texts⟩, rfl⟩
  | single hargument hword hrest ih =>
    obtain ⟨piece, hpiece⟩ := Piece.exists_of_single? hword
    obtain ⟨line, rfl⟩ := ih
    exact ⟨⟨piece :: line.pieces, line.rest⟩, by simp [Line.arguments, hpiece]⟩
  | @paired argument value key arguments words hargument hkey hvalue hrest ih =>
    obtain rfl := Piece.eq_of_opened? hkey
    obtain ⟨line, rfl⟩ := ih
    exact ⟨⟨.apart key value hvalue :: line.pieces, line.rest⟩,
      by simp [Line.arguments, Piece.arguments, Piece.first]⟩

end Line

/-- **Arguments that have words can be cut**, in one way. -/
theorem exists_unique_line {arguments : List String} {words : List Word}
    (h : Word.ofArguments? arguments = some words) :
    ∃! line : Line, line.arguments = arguments := by
  obtain ⟨line, hline⟩ := Line.exists_of_spells (ofArguments?_eq_some_iff.1 h)
  exact ⟨line, hline, fun other hother => Line.arguments_injective (hother.trans hline.symm)⟩

end RelationalAvro.CommandLine
