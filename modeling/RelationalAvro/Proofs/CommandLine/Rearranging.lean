import Mathlib.Logic.Relation
import RelationalAvro.CommandLine.Run
import RelationalAvro.Proofs.CommandLine.Pieces
import RelationalAvro.Proofs.CommandLine.Printing
import RelationalAvro.Proofs.Config.Rows

/-!
# Rearranging a command line

Options may be moved among themselves and past positional arguments, values may be attached, and a
double dash may be put behind the last option (`Line.Step`). Words are permuted by that, but
positional ones stay in order (`AreReordered`), so the same is asked for as before, with the type
mappings in another order (`AreReordered.exists_ofWords?`). Type mappings are collected in a table,
which does not know the order that they came in (`Options.config_of_perm`), so the run is the same.

The main statement is `run_rearranged`.
-/

namespace RelationalAvro

/-! ## Mappings in another order -/

/-- Stems are added in any order. -/
theorem TypeTable.add_right_comm (table : TypeTable) (c s c' s' : String) :
    (table.add c s).add c' s' = (table.add c' s').add c s := by
  refine TypeTable.ext (fun x => ?_) fun x y => ?_
  · simp only [add, mem_categories_modify]
    exact or_left_comm
  · simp only [owns_add]
    exact or_left_comm

/-- The table with stems added one after the other, each with its category. -/
def TypeTable.addEach (table : TypeTable) (mappings : List (String × String)) : TypeTable :=
  mappings.foldl (fun table mapping => table.add mapping.1 mapping.2) table

/-- Mappings may be added in any order. -/
theorem TypeTable.addEach_of_perm {mappings other : List (String × String)}
    (h : mappings.Perm other) (table : TypeTable) : table.addEach mappings = table.addEach other :=
  h.foldl_eq' (fun _ _ _ _ table => table.add_right_comm ..) table

/-- Steps that add mappings never fail, and change the table alone. -/
theorem Draft.foldlM_apply_add (draft : Draft) (mappings : List (String × String)) :
    (mappings.map fun mapping => Step.add mapping.1 mapping.2).foldlM apply draft =
      .ok { draft with table := draft.table.addEach mappings } := by
  induction mappings generalizing draft with
  | nil => rfl
  | cons mapping rest ih => exact ih _

namespace CommandLine

open Files (Host Simulated)

namespace Options

/-- The configuration does not depend on the order of the type mappings. -/
theorem config_of_perm {options : Options} {mappings : List (String × String)}
    (h : mappings.Perm options.mappings) :
    ({ options with mappings } : Options).config = options.config := by
  simp only [config, Draft.run, steps, List.foldlM_append, Draft.foldlM_apply_add,
    TypeTable.addEach_of_perm h]

end Options

section

variable {m : Type → Type} [Monad m] [Host m]

/-- The run is settled by the configuration and by where the model is and its documents go. -/
theorem run_of_perm {options : Options} {mappings : List (String × String)}
    (h : mappings.Perm options.mappings) :
    (run { options with mappings } : m Report) = run options := by
  have hperform : (perform { options with mappings } : ExceptT Fault m String) =
      perform options := by
    unfold perform
    rw [Options.config_of_perm h]
  rw [run, hperform, run]

end

/-! ## Words in another order -/

section

variable {α β : Type} {list other : List α}

/-- A list with at most one member has no other order. -/
theorem atMostOne?_of_perm (h : list.Perm other) : atMostOne? list = atMostOne? other := by
  match list, other, h with
  | [], _, h => rw [List.nil_perm.1 h]
  | [x], _, h => rw [List.singleton_perm.1 h]
  | x :: y :: rest, other, h =>
    have hlength := h.length_eq
    match other with
    | [] => simp at hlength
    | [z] => simp at hlength
    | _ :: _ :: _ => rfl

/-- A function that may fail gives the same images of a rearranged list, rearranged. -/
theorem exists_mapM_of_perm {f : α → Option β} {images : List β} (h : list.Perm other)
    (himages : list.mapM f = some images) :
    ∃ others, other.mapM f = some others ∧ images.Perm others := by
  induction h generalizing images with
  | nil => exact ⟨images, himages, .refl _⟩
  | cons a _ ih =>
    simp only [List.mapM_cons, Option.bind_eq_bind, Option.bind_eq_some_iff, Option.pure_def,
      Option.some.injEq] at himages ⊢
    obtain ⟨b, hb, rest, hrest, rfl⟩ := himages
    obtain ⟨others, hothers, hperm⟩ := ih hrest
    exact ⟨_, ⟨b, hb, others, hothers, rfl⟩, hperm.cons b⟩
  | swap a a' list =>
    simp only [List.mapM_cons, Option.bind_eq_bind, Option.bind_eq_some_iff, Option.pure_def,
      Option.some.injEq] at himages ⊢
    obtain ⟨b', hb', _, ⟨b, hb, rest, hrest, rfl⟩, rfl⟩ := himages
    exact ⟨_, ⟨b, hb, _, ⟨b', hb', rest, hrest, rfl⟩, rfl⟩, .swap b b' rest⟩
  | trans _ _ ih ih' =>
    obtain ⟨middle, hmiddle, hperm⟩ := ih himages
    obtain ⟨others, hothers, hperm'⟩ := ih' hmiddle
    exact ⟨others, hothers, hperm.trans hperm'⟩

end

section

variable {words other : List Word} {options : Options}

/-- The words are in another order, but the positional ones among them are not. -/
structure AreReordered (words other : List Word) : Prop where
  perm : words.Perm other
  positional : words.filterMap Word.positional? = other.filterMap Word.positional?

/-- A flag is there wherever it stands. -/
theorem hasFlag?_of_perm (h : words.Perm other) (flag : Flag) :
    hasFlag? flag words = hasFlag? flag other := by
  rw [hasFlag?, atMostOne?_of_perm (h.filter _), hasFlag?]

/-- Words in another order ask for the same, with the mappings in another order. -/
theorem AreReordered.exists_ofWords? (h : AreReordered words other)
    (hwords : Options.ofWords? words = some options) :
    ∃ mappings, List.Perm mappings options.mappings ∧
      Options.ofWords? other = some { options with mappings } := by
  have hvalues : ∀ setting, (valuesOf setting words).Perm (valuesOf setting other) := fun setting =>
    h.perm.filterMap _
  obtain ⟨⟨hspace, hmappings, ⟨scales, hscales, hscale⟩, hrecord⟩, hprint, hplaces⟩ :=
    ofWords?_eq_some_iff.1 hwords
  obtain ⟨mappings, hmappings', hperm⟩ := exists_mapM_of_perm (hvalues .typeMapping) hmappings
  obtain ⟨scales', hscales', hscalesPerm⟩ := exists_mapM_of_perm (hvalues .defaultScale) hscales
  -- what is said at most once has no order
  rw [atMostOne?_of_perm (hvalues .space)] at hspace
  rw [atMostOne?_of_perm hscalesPerm] at hscale
  rw [hasFlag?_of_perm h.perm] at hrecord hprint
  rw [h.positional] at hplaces
  exact ⟨mappings, hperm.symm, ofWords?_eq_some_iff.2
    ⟨⟨hspace, hmappings', ⟨scales', hscales', hscale⟩, hrecord⟩, hprint, hplaces⟩⟩

end

/-! ## Lines in another order -/

namespace Line

/-- One rearrangement of a command line: options are moved, a value is attached, or a double dash is
put behind the last option. -/
inductive Step : Line → Line → Prop
  | moved {pieces further : List Piece} {rest : Option (List String)}
      (hpieces : pieces.Perm further)
      (horder : pieces.filterMap Piece.positional? = further.filterMap Piece.positional?) :
      Step ⟨pieces, rest⟩ ⟨further, rest⟩
  | attached {before after : List Piece} {key : Setting} {value : String}
      {takes : key.takes value = true} {rest : Option (List String)} :
      Step ⟨before ++ .apart key value takes :: after, rest⟩
        ⟨before ++ .attached key value :: after, rest⟩
  | ended {before last : List Piece} (hlast : ∀ piece ∈ last, piece.positional?.isSome) :
      Step ⟨before ++ last, none⟩ ⟨before, some (last.filterMap Piece.positional?)⟩

/-- Any number of rearrangements. -/
def Rearranges : Line → Line → Prop :=
  Relation.ReflTransGen Step

/-- Positional pieces are words by their texts. -/
theorem map_word_of_positional {last : List Piece} (h : ∀ piece ∈ last, piece.positional?.isSome) :
    last.map Piece.word = (last.filterMap Piece.positional?).map .positional := by
  induction last with
  | nil => rfl
  | cons piece rest ih =>
    have hpiece := h piece List.mem_cons_self
    have hrest := ih fun other hother => h other (List.mem_cons_of_mem _ hother)
    cases piece with
    | positional text plain => rw [List.map_cons, hrest]; rfl
    | _ => simp [Piece.positional?, Piece.word, Word.positional?] at hpiece

variable {line other : Line}

/-- A step reorders the words. -/
theorem Step.words (h : Step line other) : AreReordered line.words other.words := by
  cases h with
  | moved hpieces horder =>
    refine ⟨(hpieces.map _).append_right _, ?_⟩
    rw [Line.words, Line.words, List.filterMap_append, List.filterMap_append, List.filterMap_map,
      List.filterMap_map]
    exact congrArg (· ++ _) horder
  | attached => exact ⟨.of_eq (by simp [Line.words, Piece.word]), by simp [Line.words, Piece.word]⟩
  | ended hlast =>
    have hwords := map_word_of_positional hlast
    exact ⟨.of_eq (by simp [Line.words, hwords]), by simp [Line.words, hwords]⟩

/-- A chain of steps reorders the words. -/
theorem Rearranges.words (h : line.Rearranges other) : AreReordered line.words other.words := by
  induction h with
  | refl => exact ⟨.refl _, rfl⟩
  | tail _ hstep ih =>
    exact ⟨ih.perm.trans hstep.words.perm, ih.positional.trans hstep.words.positional⟩

end Line

/-- **Neither the order of options nor their spelling matters.** -/
theorem run_rearranged {arguments : List String} {options : Options}
    (h : Options.ofArguments? arguments = some options) :
    (∃! line : Line, line.arguments = arguments) ∧
    ∀ line rearranged : Line, line.arguments = arguments → line.Rearranges rearranged →
      ∃ further, Options.ofArguments? rearranged.arguments = some further ∧
        ∀ world, (run further : Simulated Report).run world =
          (run options : Simulated Report).run world := by
  obtain ⟨words, hwords, hoptions⟩ := Option.bind_eq_some_iff.1 h
  refine ⟨exists_unique_line hwords, fun line rearranged hline hrearranges => ?_⟩
  subst hline
  obtain rfl : line.words = words := Option.some.inj (line.ofArguments?_arguments.symm.trans hwords)
  obtain ⟨mappings, hmappings, hfurther⟩ := hrearranges.words.exists_ofWords? hoptions
  refine ⟨{ options with mappings }, ?_, fun world => by rw [run_of_perm hmappings]⟩
  rw [Options.ofArguments?, rearranged.ofArguments?_arguments]
  exact hfurther

/-- Two mappings and a negative scale, between and behind the positional arguments. -/
def scatteredLine : Line where
  pieces := [.positional "m" (by decide), .apart .typeMapping "int=a" (by decide),
    .positional "out" (by decide), .apart .defaultScale "-1" (by decide),
    .attached .typeMapping "int=b"]

/-- The same with the scale attached, the mappings in the other order, and the positional arguments
behind a double dash. -/
def gatheredLine : Line where
  pieces := [.attached .typeMapping "int=b", .attached .defaultScale "-1",
    .apart .typeMapping "int=a" (by decide)]
  rest := some ["m", "out"]

/-- Three steps gather the scattered line. -/
theorem rearranges_gatheredLine : scatteredLine.Rearranges gatheredLine := by
  have hattached : scatteredLine.Step { pieces := [.positional "m" (by decide),
      .apart .typeMapping "int=a" (by decide), .positional "out" (by decide),
      .attached .defaultScale "-1", .attached .typeMapping "int=b"] } :=
    @Line.Step.attached [_, _, _] [_] _ _ _ _
  have hmoved : Line.Step { pieces := [.positional "m" (by decide),
      .apart .typeMapping "int=a" (by decide), .positional "out" (by decide),
      .attached .defaultScale "-1", .attached .typeMapping "int=b"] }
      { pieces := gatheredLine.pieces ++
        [.positional "m" (by decide), .positional "out" (by decide)] } :=
    .moved (by decide) rfl
  have hended : Line.Step { pieces := gatheredLine.pieces ++
      [.positional "m" (by decide), .positional "out" (by decide)] } gatheredLine :=
    .ended (by decide)
  exact ((Relation.ReflTransGen.single hattached).tail hmoved).tail hended

/-- The gathered line asks for its mappings in another order, and does the same. -/
theorem run_rearranged_gatheredLine : ∃ options further,
    Options.ofArguments? ["m", "--type-mapping", "int=a", "out", "--default-scale", "-1",
      "--type-mapping=int=b"] = some options ∧
    Options.ofArguments? ["--type-mapping=int=b", "--default-scale=-1", "--type-mapping", "int=a",
      "--", "m", "out"] = some further ∧
    further ≠ options ∧ ∀ world, (run further : Simulated Report).run world =
      (run options : Simulated Report).run world := by
  obtain ⟨options, hoptions, hmappings⟩ : ∃ options, Options.ofArguments? scatteredLine.arguments =
      some options ∧ options.mappings = [("int", "a"), ("int", "b")] := ⟨_, rfl, rfl⟩
  obtain ⟨further, hfurther, hsame⟩ :=
    (run_rearranged hoptions).2 scatteredLine gatheredLine rfl rearranges_gatheredLine
  have hother : (Options.ofArguments? gatheredLine.arguments).map Options.mappings =
      some [("int", "b"), ("int", "a")] := rfl
  refine ⟨options, further, hoptions, hfurther, ?_, hsame⟩
  rintro rfl
  simp [hfurther, hmappings] at hother

end CommandLine

end RelationalAvro
