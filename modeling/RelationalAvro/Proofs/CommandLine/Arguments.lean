import RelationalAvro.CommandLine.Options

/-!
# Arguments and their words

Each argument in front of a double dash is a word by itself, or an option whose value is the next
argument (`Spells`). So the words of arguments that stand one after the other stand one after the
other as well (`ofArguments?_append`), and an argument can be put between others or taken away
without a change to their words.

Two such changes turn a command line that writes files into one that prints: the flag for printing
is put somewhere in front of any double dash, and the directory may be taken away (`AlsoPrints`).
What is asked for stays the same in everything else: `options_of_alsoPrints`.
-/

namespace RelationalAvro.CommandLine

/-! ## Words one by one -/

/-- The word that an argument is by itself. -/
def Word.single? (argument : String) : Option Word :=
  match named? argument with
  | some (name, some value) => (Setting.ofName? name).map (.setting · value)
  | some (name, none) => (Flag.ofName? name).map .flag
  | none => if isPlain argument then some (.positional argument) else none

/-- The option whose value the next argument must be. -/
def Setting.opened? (argument : String) : Option Setting :=
  match named? argument with
  | some (name, none) => if (Flag.ofName? name).isSome then none else Setting.ofName? name
  | _ => none

/-- The arguments are those words, in order. -/
inductive Spells : List String → List Word → Prop
  | nil : Spells [] []
  | ended (arguments : List String) : Spells ("--" :: arguments) (arguments.map .positional)
  | single {argument : String} {word : Word} {arguments : List String} {words : List Word}
      (hargument : argument ≠ "--") (hword : Word.single? argument = some word)
      (hrest : Spells arguments words) : Spells (argument :: arguments) (word :: words)
  | paired {argument value : String} {key : Setting} {arguments : List String} {words : List Word}
      (hargument : argument ≠ "--") (hkey : Setting.opened? argument = some key)
      (hvalue : key.takes value = true) (hrest : Spells arguments words) :
      Spells (argument :: value :: arguments) (.setting key value :: words)

section

variable {argument value : String}

/-- An argument that is a word by itself comes before the words of the rest. -/
theorem ofArguments?_cons_single {word : Word} (hargument : argument ≠ "--")
    (hword : Word.single? argument = some word) (rest : List String) :
    Word.ofArguments? (argument :: rest) = (Word.ofArguments? rest).map (word :: ·) := by
  rcases hnamed : named? argument with _ | ⟨name, _ | value⟩
  · have hplain : isPlain argument = true ∧ .positional argument = word := by
      simpa [Word.single?, hnamed] using hword
    simp [Word.ofArguments?, hargument, hnamed, hplain]
  · obtain ⟨mark, hmark, rfl⟩ : ∃ mark, Flag.ofName? name = some mark ∧ .flag mark = word := by
      simpa [Word.single?, hnamed] using hword
    simp [Word.ofArguments?, hargument, hnamed, hmark]
  · obtain ⟨key, hkey, rfl⟩ : ∃ key, Setting.ofName? name = some key ∧
        .setting key value = word := by
      simpa [Word.single?, hnamed] using hword
    simp [Word.ofArguments?, hargument, hnamed, hkey]

/-- An option takes the argument after it as its value. -/
theorem ofArguments?_cons_paired {key : Setting} (hargument : argument ≠ "--")
    (hkey : Setting.opened? argument = some key) (hvalue : key.takes value = true)
    (rest : List String) :
    Word.ofArguments? (argument :: value :: rest) =
      (Word.ofArguments? rest).map (.setting key value :: ·) := by
  rcases hnamed : named? argument with _ | ⟨name, _ | attached⟩
  · simp [Setting.opened?, hnamed] at hkey
  · obtain ⟨hmark, hkey⟩ : Flag.ofName? name = none ∧ Setting.ofName? name = some key := by
      simpa [Setting.opened?, hnamed] using hkey
    simp [Word.ofArguments?, hargument, hnamed, hmark, hkey, hvalue]
  · simp [Setting.opened?, hnamed] at hkey

end

/-- Arguments have the words that they spell, and no others. -/
theorem ofArguments?_eq_some_iff {arguments : List String} {words : List Word} :
    Word.ofArguments? arguments = some words ↔ Spells arguments words := by
  constructor
  · intro h
    induction arguments using Word.ofArguments?.induct generalizing words with
    | case1 =>
      obtain rfl : [] = words := by simpa [Word.ofArguments?] using h
      exact .nil
    | case2 rest =>
      obtain rfl : rest.map .positional = words := by simpa [Word.ofArguments?] using h
      exact .ended rest
    | case3 argument rest hargument name value hnamed key hkey ih =>
      have hword : Word.single? argument = some (.setting key value) := by
        simp [Word.single?, hnamed, hkey]
      rw [ofArguments?_cons_single hargument hword, Option.map_eq_some_iff] at h
      obtain ⟨words, hwords, rfl⟩ := h
      exact .single hargument hword (ih hwords)
    | case4 argument rest hargument name value hnamed hkey =>
      simp [Word.ofArguments?, hargument, hnamed, hkey] at h
    | case5 argument hargument name hnamed mark rest hmark ih =>
      have hword : Word.single? argument = some (.flag mark) := by
        simp [Word.single?, hnamed, hmark]
      rw [ofArguments?_cons_single hargument hword, Option.map_eq_some_iff] at h
      obtain ⟨words, hwords, rfl⟩ := h
      exact .single hargument hword (ih hwords)
    | case6 argument hargument name hnamed key value rest hkey hmark htakes ih =>
      have hopened : Setting.opened? argument = some key := by
        simp [Setting.opened?, hnamed, hmark, hkey]
      rw [ofArguments?_cons_paired hargument hopened htakes, Option.map_eq_some_iff] at h
      obtain ⟨words, hwords, rfl⟩ := h
      exact .paired hargument hopened htakes (ih hwords)
    | case7 argument hargument name hnamed key value rest hkey hmark htakes =>
      simp [Word.ofArguments?, hargument, hnamed, hkey, hmark, htakes] at h
    | case8 argument rest hargument name hnamed hmark hkey =>
      -- neither a flag, nor an option with an argument after it
      have hflag : Flag.ofName? name = none := Option.eq_none_iff_forall_not_mem.2 hmark
      cases hsetting : Setting.ofName? name with
      | none => simp [Word.ofArguments?, hargument, hnamed, hflag, hsetting] at h
      | some key =>
        cases rest with
        | nil => simp [Word.ofArguments?, hargument, hnamed, hflag, hsetting] at h
        | cons value rest => exact (hkey key value rest hflag hsetting rfl).elim
    | case9 argument rest hargument hnamed hplain ih =>
      have hword : Word.single? argument = some (.positional argument) := by
        simp [Word.single?, hnamed, hplain]
      rw [ofArguments?_cons_single hargument hword, Option.map_eq_some_iff] at h
      obtain ⟨words, hwords, rfl⟩ := h
      exact .single hargument hword (ih hwords)
    | case10 argument rest hargument hnamed hplain =>
      simp [Word.ofArguments?, hargument, hnamed, hplain] at h
  · intro h
    induction h with
    | nil => rfl
    | ended arguments => simp [Word.ofArguments?]
    | single hargument hword hrest ih =>
      rw [ofArguments?_cons_single hargument hword, ih, Option.map_some]
    | paired hargument hkey hvalue hrest ih =>
      rw [ofArguments?_cons_paired hargument hkey hvalue, ih, Option.map_some]

/-! ## Arguments one after the other -/

section

variable {before : List String} {words : List Word}

/-- The value of an option is never one of the texts that change how arguments are read. -/
theorem takes_eq_false (key : Setting) : key.takes "--" = false ∧ key.takes "--stdout" = false := by
  cases key <;> decide

/-- In front of a double dash, words come one after the other as the arguments do. -/
theorem ofArguments?_append (h : Spells before words) (hdash : "--" ∉ before)
    (after : List String) :
    Word.ofArguments? (before ++ after) = (Word.ofArguments? after).map (words ++ ·) := by
  induction h with
  | nil => simp
  | ended arguments => simp at hdash
  | single hargument hword hrest ih =>
    rw [List.cons_append, ofArguments?_cons_single hargument hword,
      ih fun hmem => hdash (List.mem_cons_of_mem _ hmem), Option.map_map]
    rfl
  | paired hargument hkey hvalue hrest ih =>
    rw [List.cons_append, List.cons_append, ofArguments?_cons_paired hargument hkey hvalue,
      ih fun hmem => hdash (List.mem_cons_of_mem _ (List.mem_cons_of_mem _ hmem)), Option.map_map]
    rfl

/-- After a double dash, every argument is positional. -/
theorem ofArguments?_append_of_mem (h : Spells before words) (hdash : "--" ∈ before)
    (after : List String) :
    Word.ofArguments? (before ++ after) = some (words ++ after.map .positional) := by
  induction h with
  | nil => simp at hdash
  | ended arguments => simp [Word.ofArguments?]
  | single hargument hword hrest ih =>
    have hrest := ih ((List.mem_cons.1 hdash).resolve_left (Ne.symm hargument))
    rw [List.cons_append, ofArguments?_cons_single hargument hword, hrest]
    rfl
  | @paired argument value key arguments words hargument hkey hvalue hrest ih =>
    have hdash := (List.mem_cons.1 hdash).resolve_left (Ne.symm hargument)
    have hne : "--" ≠ value := by
      rintro rfl
      simp [(takes_eq_false key).1] at hvalue
    rw [List.cons_append, List.cons_append, ofArguments?_cons_paired hargument hkey hvalue,
      ih ((List.mem_cons.1 hdash).resolve_left hne)]
    rfl

/-- The flag for printing splits the arguments where it stands, unless a double dash comes first. -/
theorem Spells.split_print {after : List String}
    (h : Spells (before ++ "--stdout" :: after) words) (hdash : "--" ∉ before) :
    ∃ first second, Spells before first ∧ Spells after second ∧
      words = first ++ .flag .print :: second := by
  generalize harguments : before ++ "--stdout" :: after = arguments at h
  induction h generalizing before with
  | nil => simp at harguments
  | ended arguments =>
    cases before with
    | nil => simp at harguments
    | cons argument before => simp_all
  | @single argument word arguments words hargument hword hrest ih =>
    cases before with
    | nil =>
      obtain ⟨rfl, rfl⟩ := List.cons.inj harguments
      obtain rfl : .flag .print = word := Option.some.inj hword
      exact ⟨[], words, .nil, hrest, rfl⟩
    | cons argument' before =>
      obtain ⟨rfl, rfl⟩ := List.cons.inj harguments
      obtain ⟨first, second, hfirst, hsecond, rfl⟩ :=
        ih (fun hmem => hdash (List.mem_cons_of_mem _ hmem)) rfl
      exact ⟨word :: first, second, .single hargument hword hfirst, hsecond, rfl⟩
  -- the flag is not the value of an option, which takes nothing that begins with dashes
  | @paired argument value key arguments words hargument hkey hvalue hrest ih =>
    match before with
    | [] =>
      obtain ⟨rfl, -⟩ := List.cons.inj harguments
      cases hkey
    | [argument'] =>
      obtain ⟨-, htail⟩ := List.cons.inj harguments
      obtain ⟨rfl, -⟩ := List.cons.inj htail
      simp [(takes_eq_false key).2] at hvalue
    | argument' :: value' :: before =>
      obtain ⟨rfl, htail⟩ := List.cons.inj harguments
      obtain ⟨rfl, rfl⟩ := List.cons.inj htail
      obtain ⟨first, second, hfirst, hsecond, rfl⟩ :=
        ih (fun hmem => hdash (List.mem_cons_of_mem _ (List.mem_cons_of_mem _ hmem))) rfl
      exact ⟨.setting key value' :: first, second, .paired hargument hkey hvalue hfirst,
        hsecond, rfl⟩

end

/-! ## Writing and printing -/

/-- The arguments are `arguments`, with or without the second positional one. -/
inductive MayDropDirectory (arguments : List String) : List String → Prop
  | kept : MayDropDirectory arguments arguments
  | dropped {before after : List String} {words : List Word} {model directory : String}
      (harguments : arguments = before ++ directory :: after)
      (hbefore : Word.ofArguments? before = some words)
      (hmodel : words.filterMap Word.positional? = [model])
      (hdirectory : Word.ofArguments? (before ++ [directory]) =
        some (words ++ [.positional directory])) :
      MayDropDirectory arguments (before ++ after)

/-- The arguments `printing` are `writing` with the flag for printing in front of any double dash,
and with or without the directory. -/
def AlsoPrints (writing printing : List String) : Prop :=
  ∃ before after, "--" ∉ before ∧ MayDropDirectory writing (before ++ after) ∧
    printing = before ++ "--stdout" :: after

/-- The words ask for the options, as far as these do not say what is read, where documents go and
whether they are printed. -/
structure AsksFor (words : List Word) (options : Options) : Prop where
  space : atMostOne? (valuesOf .space words) = some options.space
  mappings : (valuesOf .typeMapping words).mapM typeMapping? = some options.mappings
  defaultScale : ∃ scales, (valuesOf .defaultScale words).mapM int64? = some scales ∧
    atMostOne? scales = some options.defaultScale
  perRecord : hasFlag? .perRecord words = some options.perRecord

/-- What the words ask for, part by part. -/
theorem ofWords?_eq_some_iff {words : List Word} {options : Options} :
    Options.ofWords? words = some options ↔
      AsksFor words options ∧ hasFlag? .print words = some options.print ∧
        places? options.print (words.filterMap Word.positional?) =
          some (options.model, options.directory) := by
  simp only [Options.ofWords?, Option.bind_eq_bind, Option.bind_eq_some_iff, Option.pure_def,
    Option.some.injEq, Prod.exists]
  constructor
  · rintro ⟨space, hspace, mappings, hmappings, scales, hscales, defaultScale, hscale, perRecord,
      hrecord, print, hprint, model, directory, hplaces, rfl⟩
    exact ⟨⟨hspace, hmappings, ⟨scales, hscales, hscale⟩, hrecord⟩, hprint, hplaces⟩
  · rintro ⟨⟨hspace, hmappings, ⟨scales, hscales, hscale⟩, hrecord⟩, hprint, hplaces⟩
    exact ⟨_, hspace, _, hmappings, scales, hscales, _, hscale, _, hrecord, _, hprint, _, _,
      hplaces, rfl⟩

section

variable {first second : List Word} {word : Word} {options : Options}

/-- A word that says nothing on a matter can be left out. -/
theorem filterMap_insert {α : Type} {f : Word → Option α} (h : f word = none)
    (first second : List Word) :
    (first ++ word :: second).filterMap f = (first ++ second).filterMap f := by
  rw [List.filterMap_append, List.filterMap_cons_none h, List.filterMap_append]

/-- A word that is filtered out may as well not be there. -/
theorem filter_insert {f : Word → Bool} (h : f word = false) (first second : List Word) :
    (first ++ word :: second).filter f = (first ++ second).filter f := by
  rw [List.filter_append, List.filter_cons_of_neg (by simp [h]), List.filter_append]

/-- Positional arguments and the flag for printing have no part in this. -/
theorem asksFor_insert_iff (hvalue : ∀ setting, word.valueOf? setting = none)
    (hflag : word ≠ .flag .perRecord) :
    AsksFor (first ++ word :: second) options ↔ AsksFor (first ++ second) options := by
  have hvalues : ∀ setting, valuesOf setting (first ++ word :: second) =
      valuesOf setting (first ++ second) := fun setting => filterMap_insert (hvalue setting) ..
  have hrecord : hasFlag? .perRecord (first ++ word :: second) =
      hasFlag? .perRecord (first ++ second) := by
    rw [hasFlag?, filter_insert (decide_eq_false hflag), hasFlag?]
  constructor
  · rintro ⟨hspace, hmappings, hscale, hperRecord⟩
    rw [hvalues] at hspace hmappings
    exact ⟨hspace, hmappings, hvalues .defaultScale ▸ hscale, hrecord ▸ hperRecord⟩
  · rintro ⟨hspace, hmappings, hscale, hperRecord⟩
    rw [← hvalues] at hspace hmappings
    exact ⟨hspace, hmappings, hvalues .defaultScale ▸ hscale, hrecord ▸ hperRecord⟩

/-- No word is left for a flag exactly if the flag is not among the words. -/
theorem filter_flag_eq_nil_iff {flag : Flag} {words : List Word} :
    words.filter (fun word => word = .flag flag) = [] ↔ .flag flag ∉ words := by
  rw [List.filter_eq_nil_iff]
  constructor
  · intro h hmem
    simpa using h _ hmem
  · rintro h word hword hflag
    exact h (of_decide_eq_true hflag ▸ hword)

/-- A flag is absent exactly if it is not among the words. -/
theorem hasFlag?_eq_some_false_iff {flag : Flag} {words : List Word} :
    hasFlag? flag words = some false ↔ .flag flag ∉ words := by
  rw [hasFlag?, ← filter_flag_eq_nil_iff]
  generalize words.filter (fun word => word = .flag flag) = flags
  rcases flags with _ | ⟨word, _ | _⟩ <;> simp [atMostOne?]

/-- A flag said once is there. -/
theorem hasFlag?_insert {flag : Flag} (h : .flag flag ∉ first ++ second) :
    hasFlag? flag (first ++ .flag flag :: second) = some true := by
  rw [List.mem_append, not_or] at h
  rw [hasFlag?, List.filter_append, filter_flag_eq_nil_iff.2 h.1,
    List.filter_cons_of_pos (by simp), filter_flag_eq_nil_iff.2 h.2]
  rfl

/-- Words without the flag for printing ask for the same with it, but to print it. -/
theorem ofWords?_insert_print {directory : Option String} (h : AsksFor (first ++ second) options)
    (hflag : .flag .print ∉ first ++ second)
    (hplaces : places? true ((first ++ second).filterMap Word.positional?) =
      some (options.model, directory)) :
    Options.ofWords? (first ++ .flag .print :: second) =
      some { options with print := true, directory } := by
  have hasks : AsksFor (first ++ .flag .print :: second) options :=
    (asksFor_insert_iff (fun _ => rfl) (by decide)).2 h
  rw [ofWords?_eq_some_iff, filterMap_insert rfl]
  exact ⟨⟨hasks.space, hasks.mappings, hasks.defaultScale, hasks.perRecord⟩, hasFlag?_insert hflag,
    hplaces⟩

/-- Where documents are written, there are two places. -/
theorem places?_eq_some_of_not_print {texts : List String} {model : String}
    {directory : Option String} (h : places? false texts = some (model, directory)) :
    ∃ place, texts = [model, place] ∧ directory = some place ∧ place.isEmpty = false := by
  rcases texts with _ | ⟨text, _ | ⟨place, _ | _⟩⟩
  · simp [places?] at h
  · simp [places?] at h
  · by_cases hempty : place.isEmpty = true
    · simp [places?, hempty] at h
    · obtain ⟨rfl, rfl⟩ : text = model ∧ some place = directory := by
        simpa [places?, hempty] using h
      exact ⟨place, rfl, rfl, by simpa using hempty⟩
  · simp [places?] at h

end

/-- Without the directory, the arguments have the same words without that one. -/
theorem MayDropDirectory.words_eq {writing kept : List String} {words further : List Word}
    (h : MayDropDirectory writing kept) (hwords : Word.ofArguments? writing = some words)
    (hfurther : Word.ofArguments? kept = some further) :
    further = words ∨ ∃ before after model directory,
      words = before ++ .positional directory :: after ∧
      before.filterMap Word.positional? = [model] ∧ further = before ++ after := by
  cases h with
  | kept => exact .inl (Option.some.inj (hfurther.symm.trans hwords))
  | @dropped before after first model directory harguments hbefore hmodel hdirectory =>
    subst harguments
    have hspells := ofArguments?_eq_some_iff.1 hbefore
    by_cases hdash : "--" ∈ before
    · rw [ofArguments?_append_of_mem hspells hdash] at hwords hfurther
      exact .inr ⟨first, after.map .positional, model, directory, (Option.some.inj hwords).symm,
        hmodel, (Option.some.inj hfurther).symm⟩
    · rw [ofArguments?_append hspells hdash, Option.map_eq_some_iff] at hwords hfurther hdirectory
      obtain ⟨rest, hrest, rfl⟩ := hwords
      obtain ⟨later, hlater, rfl⟩ := hfurther
      -- the directory is a word by itself, so what comes after it is read as without it
      obtain ⟨alone, halone, heq⟩ := hdirectory
      obtain rfl := List.append_cancel_left heq
      obtain ⟨hnot, hsingle⟩ : directory ≠ "--" ∧
          Word.single? directory = some (.positional directory) := by
        cases ofArguments?_eq_some_iff.1 halone with
        | single hargument hword _ => exact ⟨hargument, hword⟩
      rw [ofArguments?_cons_single hnot hsingle, hlater, Option.map_some] at hrest
      obtain rfl := Option.some.inj hrest
      exact .inr ⟨first, later, model, directory, rfl, hmodel, rfl⟩

/-- **Writing and printing ask for the same**, but for the directory, which printing can do without.
-/
theorem options_of_alsoPrints {writing printing : List String} {options printed : Options}
    (h : AlsoPrints writing printing) (hwriting : Options.ofArguments? writing = some options)
    (hprint : options.print = false) (hprinting : Options.ofArguments? printing = some printed) :
    ∃ directory, options.directory = some directory ∧
      (printed = { options with print := true } ∨
        printed = { options with print := true, directory := none }) := by
  obtain ⟨before, after, hdash, hkept, rfl⟩ := h
  obtain ⟨words, hwords, hoptions⟩ := Option.bind_eq_some_iff.1 hwriting
  obtain ⟨words', hwords', hprinted⟩ := Option.bind_eq_some_iff.1 hprinting
  obtain ⟨first, second, hfirst, hsecond, rfl⟩ :=
    (ofArguments?_eq_some_iff.1 hwords').split_print hdash
  have hfurther : Word.ofArguments? (before ++ after) = some (first ++ second) := by
    rw [ofArguments?_append hfirst hdash, ofArguments?_eq_some_iff.2 hsecond, Option.map_some]
  obtain ⟨hasks, hflag, hplaces⟩ := ofWords?_eq_some_iff.1 hoptions
  rw [hprint, hasFlag?_eq_some_false_iff] at hflag
  rw [hprint] at hplaces
  obtain ⟨place, hpositional, hdirectory, hempty⟩ := places?_eq_some_of_not_print hplaces
  refine ⟨place, hdirectory, ?_⟩
  -- the words without the flag are those of the writing line, or lack its directory
  obtain rfl | ⟨start, rest, model, directory, rfl, hmodel, hsplit⟩ :=
    hkept.words_eq hwords hfurther
  · left
    have hplaces' : places? true ((first ++ second).filterMap Word.positional?) =
        some (options.model, options.directory) := by
      simp [hpositional, places?, hempty, hdirectory]
    exact Option.some.inj (hprinted.symm.trans (ofWords?_insert_print hasks hflag hplaces'))
  · right
    rw [asksFor_insert_iff (fun _ => rfl) (by simp), ← hsplit] at hasks
    have hflag' : .flag .print ∉ first ++ second := by
      rw [hsplit]
      simpa using hflag
    have hplaces' : places? true ((first ++ second).filterMap Word.positional?) =
        some (options.model, none) := by
      have htext : (Word.positional directory).positional? = some directory := rfl
      rw [List.filterMap_append, hmodel, List.filterMap_cons_some htext] at hpositional
      simp only [List.cons_append, List.nil_append, List.cons.injEq] at hpositional
      obtain ⟨rfl, -, hnone⟩ := hpositional
      rw [hsplit, List.filterMap_append, hmodel, hnone]
      rfl
    exact Option.some.inj (hprinted.symm.trans (ofWords?_insert_print hasks hflag' hplaces'))

end RelationalAvro.CommandLine
