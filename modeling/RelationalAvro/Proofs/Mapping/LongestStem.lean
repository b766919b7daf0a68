import RelationalAvro.Proofs.Config.Drafting
import RelationalAvro.Proofs.Mapping.StemMatching

/-!
# The longest stem of a column type

A column type is taken by the category that has the longest stem its lower case begins with, and by
the smallest category if several have that stem: `Config.typeOf_longestStem`. Stems of one text are
beginnings of each other, so it does not matter in what their lengths are counted.

One more stem in a table concerns the texts that begin with it and no others. It takes over those
for which it is the longest stem, and those that it shares with a greater category:
`Draft.typeOf_oneMoreStem`.
-/

namespace RelationalAvro

open Avro (AvroType)

namespace Config

variable {config : Config} {category columnType : String}

/-- The category is the one that takes the lower-cased column type by some stem. -/
theorem category?_eq_some_iff : config.category? columnType = some category ↔
    ∃ stem, config.table.Takes (Text.lowercase columnType).toList category stem := by
  rw [category?, Text.toList_lowercase, TypeTable.selectBy_eq_some_iff growsWithTexts_utf8ByteSize]

/-- What becomes of a column type in a category: a bare name if no logical type is called so, and
else the logical type over its base. Only the arguments of a decimal can be at fault. -/
structure IsTypedBy (config : Config) (category columnType : String) : Prop where
  typeOf_eq : config.typeOf columnType = config.typeIn category columnType
  bare : logicalBase? category = none → config.typeOf columnType = .ok (.named category)
  logical : ∀ base, logicalBase? category = some base →
    (∃ precision scale size,
      config.typeOf columnType = .ok (.logical base category precision scale size)) ∨
    (category = "decimal" ∧ ∃ fault,
      decimalArguments config.defaultScale columnType = .error fault ∧
      config.typeOf columnType = .error fault)

/-- A category that is found types the column. -/
theorem isTypedBy_of_category? (h : config.category? columnType = some category) :
    config.IsTypedBy category columnType := by
  have htype := typeOf_eq_of_category? h
  refine ⟨htype, fun hbase => by rw [htype, typeIn, hbase], fun base hbase => ?_⟩
  by_cases hdecimal : category = "decimal"
  · subst hdecimal
    obtain rfl : "bytes" = base := Option.some.inj hbase
    rw [htype, typeIn_decimal]
    cases decimalArguments config.defaultScale columnType with
    | error fault => exact .inr ⟨rfl, fault, rfl, rfl⟩
    | ok arguments => exact .inl ⟨_, _, _, rfl⟩
  · refine .inl ⟨none, none, sizeOf? category, ?_⟩
    rw [htype, typeIn, hbase]
    exact if_neg hdecimal

/-- A column type whose lower case is `text` has the type that the stems in `text` decide. -/
structure IsDecidedByStems (config : Config) (columnType : String) (text : List Char) : Prop where
  unmapped_iff : config.typeOf columnType = .error (.unmappedType columnType) ↔
    ∀ category stem, config.table.Owns category stem → ¬stem.toList <+: text
  /-- Where there is a stem, one category has the longest one and is the smallest to have it. -/
  taken_once : ∀ category stem, config.table.Owns category stem → stem.toList <+: text →
    ∃! category, ∃ stem, config.table.Takes text category stem
  typed : ∀ category stem, config.table.Takes text category stem →
    config.IsTypedBy category columnType
  /-- Bytes and characters select alike. -/
  measures_agree : config.table.selectBy String.utf8ByteSize text =
    config.table.selectBy String.length text
  /-- Stems of the same number of bytes are the same stem. -/
  eq_of_size_eq : ∀ category stem other s, config.table.Owns category stem →
    config.table.Owns other s → stem.toList <+: text → s.toList <+: text →
    stem.utf8ByteSize = s.utf8ByteSize → stem = s
  /-- A category without stems takes nothing. -/
  stemless : ∀ category, (∀ stem, ¬config.table.Owns category stem) →
    config.category? columnType ≠ some category

/-- **The longest stem decides, and of several categories that have it the smallest.** -/
theorem typeOf_longestStem (config : Config) (columnType : String) :
    config.IsDecidedByStems columnType (Text.lowercase columnType).toList where
  unmapped_iff := by
    rw [typeOf_eq_unmappedType_iff, and_iff_right rfl, Text.toList_lowercase]
  taken_once _ _ howns hbegins := TypeTable.exists_unique_takes howns hbegins
  typed category stem htakes := isTypedBy_of_category? (category?_eq_some_iff.2 ⟨stem, htakes⟩)
  measures_agree :=
    TypeTable.selectBy_eq_selectBy growsWithTexts_utf8ByteSize growsWithTexts_length
  eq_of_size_eq _ _ _ _ _ _ hstem hs := growsWithTexts_utf8ByteSize.eq_of_eq hstem hs
  stemless category hnone hselect := by
    obtain ⟨stem, htakes⟩ := category?_eq_some_iff.1 hselect
    exact hnone stem htakes.owns

end Config

/-! ## One more stem -/

namespace TypeTable

variable {table : TypeTable} {text : List Char} {category stem : String}

/-- The second table has all that the first one has, and one more stem. -/
def HasOneMore (table : TypeTable) (category stem : String) (other : TypeTable) : Prop :=
  ∀ c s, other.Owns c s ↔ (c = category ∧ s = stem) ∨ table.Owns c s

variable {other : TypeTable} (h : table.HasOneMore category stem other)
include h

/-- A text that does not begin with the new stem is selected for as before. -/
theorem HasOneMore.selectBy_eq (measure : String → Nat) (hmeasure : GrowsWithTexts measure)
    (hstem : ¬stem.toList <+: text) :
    other.selectBy measure text = table.selectBy measure text := by
  have howns : ∀ c s, s.toList <+: text → (other.Owns c s ↔ table.Owns c s) := by
    intro c s hbegins
    refine (h c s).trans (or_iff_right ?_)
    rintro ⟨-, rfl⟩
    exact hstem hbegins
  refine Option.ext fun c => ?_
  rw [selectBy_eq_some_iff hmeasure, selectBy_eq_some_iff hmeasure]
  exact exists_congr fun s => ⟨Takes.congr howns, Takes.congr fun c s hs => (howns c s hs).symm⟩

/-- What takes a text afterwards is the new stem or what took it before. -/
theorem HasOneMore.takes_cases {c s : String} (htakes : other.Takes text c s) :
    (c = category ∧ s = stem) ∨ table.Takes text c s := by
  refine ((h c s).1 htakes.owns).imp_right fun howns => ⟨howns, htakes.begins, ?_, ?_⟩
  · exact fun c s hs => htakes.longest c s ((h c s).2 (.inr hs))
  · exact fun c hlt hs => htakes.smallest c hlt ((h c _).2 (.inr hs))

/-- A text that begins with a longer stem is taken as before. -/
theorem HasOneMore.takes_of_longer {c s : String} (hstem : stem.toList <+: text)
    (htakes : table.Takes text c s) (hlonger : stem.length < s.length) : other.Takes text c s := by
  refine ⟨(h c s).2 (.inr htakes.owns), htakes.begins, fun c' s' howns hbegins => ?_,
    fun c' hlt howns => ?_⟩
  · rcases (h c' s').1 howns with ⟨-, rfl⟩ | howns
    · exact growsWithTexts_length.prefix_of_le hbegins htakes.begins hlonger.le
    · exact htakes.longest c' s' howns hbegins
  · rcases (h c' s).1 howns with ⟨-, rfl⟩ | howns
    · exact hlonger.false
    · exact htakes.smallest c' hlt howns

/-- A text all of whose other stems are shorter is taken by the new one. -/
theorem HasOneMore.takes_of_shorter (hstem : stem.toList <+: text)
    (hshorter : ∀ c s, table.Owns c s → s.toList <+: text → s.length < stem.length) :
    other.Takes text category stem := by
  refine ⟨(h category stem).2 (.inl ⟨rfl, rfl⟩), hstem, fun c s howns hbegins => ?_,
    fun c hlt howns => ?_⟩
  · rcases (h c s).1 howns with ⟨-, rfl⟩ | howns
    · exact List.prefix_rfl
    · exact growsWithTexts_length.prefix_of_le hbegins hstem (hshorter c s howns hbegins).le
  · rcases (h c stem).1 howns with ⟨rfl, -⟩ | howns
    · exact lt_irrefl c hlt
    · exact (hshorter c stem howns hstem).false

/-- A text that was taken by the same stem goes to the smaller one of the two categories. -/
theorem HasOneMore.takes_of_shared {c : String} (htakes : table.Takes text c stem) :
    other.Takes text (min c category) stem := by
  refine ⟨?_, htakes.begins, fun c' s howns hbegins => ?_, fun c' hlt howns => ?_⟩
  · rcases min_choice c category with hmin | hmin
    · rw [hmin, h]
      exact .inr htakes.owns
    · rw [hmin, h]
      exact .inl ⟨rfl, rfl⟩
  · rcases (h c' s).1 howns with ⟨-, rfl⟩ | howns
    · exact List.prefix_rfl
    · exact htakes.longest c' s howns hbegins
  · rw [lt_min_iff] at hlt
    rcases (h c' stem).1 howns with ⟨rfl, -⟩ | howns
    · exact lt_irrefl c' hlt.2
    · exact htakes.smallest c' hlt.1 howns

end TypeTable

namespace Config

variable {before after : Config} {category stem columnType : String}

/-- Configurations with the same scale differ only in the category that they select. -/
theorem typeOf_eq_of_category?_eq (hscale : after.defaultScale = before.defaultScale)
    (h : after.category? columnType = before.category? columnType) :
    after.typeOf columnType = before.typeOf columnType := by
  rw [typeOf, typeOf, h]
  cases before.category? columnType with
  | none => rfl
  | some category =>
    dsimp only
    rw [typeIn, typeIn, hscale]

/-- What one more stem does to a column type whose lower case is `text`. -/
structure ChangesByStem (before after : Config) (category stem columnType : String)
    (text : List Char) : Prop where
  /-- Where the text does not begin with the stem, nothing. -/
  unconcerned : ¬stem.toList <+: text → after.typeOf columnType = before.typeOf columnType
  /-- Else the category is the one from before or the one of the stem. -/
  selected : stem.toList <+: text → ∃ c, after.category? columnType = some c ∧
    (before.category? columnType = some c ∨ c = category)
  /-- It is the one of the stem if all other stems of the text are shorter, or there are none. -/
  won : stem.toList <+: text →
    (∀ c s, before.table.Owns c s → s.toList <+: text → s.length < stem.length) →
    after.category? columnType = some category
  /-- It is the one from before if the text begins with a longer stem. -/
  kept : stem.toList <+: text → ∀ c s, before.table.Owns c s → s.toList <+: text →
    stem.length < s.length → ∃ c, before.category? columnType = some c ∧
      after.category? columnType = some c ∧ after.typeOf columnType = before.typeOf columnType
  /-- It is the smaller one if the text was taken by the same stem. -/
  shared : ∀ c, before.table.Takes text c stem →
    after.category? columnType = some (min c category)

/-- How the category of a column type changes by one more stem. -/
theorem changesByStem (htable : before.table.HasOneMore category stem after.table)
    (hscale : after.defaultScale = before.defaultScale) (columnType : String) :
    ChangesByStem before after category stem columnType (Text.lowercase columnType).toList := by
  refine ⟨fun hstem => ?_, fun hstem => ?_, fun hstem hshorter => ?_,
    fun hstem c s howns hbegins hlonger => ?_, fun c htakes => ?_⟩
  · refine typeOf_eq_of_category?_eq hscale ?_
    rw [category?, category?, ← Text.toList_lowercase,
      htable.selectBy_eq _ growsWithTexts_utf8ByteSize hstem]
  · obtain ⟨c, ⟨s, htakes⟩, -⟩ :=
      TypeTable.exists_unique_takes ((htable category stem).2 (.inl ⟨rfl, rfl⟩)) hstem
    refine ⟨c, category?_eq_some_iff.2 ⟨s, htakes⟩, ?_⟩
    rcases htable.takes_cases htakes with ⟨hc, -⟩ | hbefore
    · exact .inr hc
    · exact .inl (category?_eq_some_iff.2 ⟨s, hbefore⟩)
  · exact category?_eq_some_iff.2 ⟨stem, htable.takes_of_shorter hstem hshorter⟩
  · -- the stem that takes the text is at least as long as this one
    obtain ⟨c', ⟨s', htakes⟩, -⟩ := TypeTable.exists_unique_takes howns hbegins
    have hle : s.length ≤ s'.length := (htakes.longest c s howns hbegins).length_le
    have hafter := htable.takes_of_longer hstem htakes (hlonger.trans_le hle)
    have hselect := category?_eq_some_iff.2 ⟨s', htakes⟩
    have hselect' := category?_eq_some_iff.2 ⟨s', hafter⟩
    exact ⟨c', hselect, hselect', typeOf_eq_of_category?_eq hscale (hselect'.trans hselect.symm)⟩
  · exact category?_eq_some_iff.2 ⟨stem, htable.takes_of_shared htakes⟩

end Config

namespace Draft

/-- A built table has one stem more if its draft has. -/
theorem hasOneMore_build (draft : Draft) (category stem : String) :
    draft.build.table.HasOneMore (Text.lowercase category) (Text.lowercase stem)
      (draft.after (.add category stem)).build.table := by
  have htable : ∀ draft : Draft, draft.build.table = draft.table.map Text.lowercase := fun _ => rfl
  have hadd : (draft.after (.add category stem)).table = draft.table.add category stem := rfl
  intro c s
  rw [htable, htable, hadd, TypeTable.owns_map, TypeTable.owns_map]
  simp only [TypeTable.owns_add]
  constructor
  · rintro ⟨c, s, ⟨rfl, rfl⟩ | howns, rfl, rfl⟩
    · exact .inl ⟨rfl, rfl⟩
    · exact .inr ⟨c, s, howns, rfl, rfl⟩
  · rintro (⟨rfl, rfl⟩ | ⟨c, s, howns, rfl, rfl⟩)
    · exact ⟨category, stem, .inl ⟨rfl, rfl⟩, rfl, rfl⟩
    · exact ⟨c, s, .inr howns, rfl, rfl⟩

/-- **One more stem changes no more than it must**: only column types that begin with it, and of
these only those that begin with no longer stem. -/
theorem typeOf_oneMoreStem (steps : List Step) (category stem columnType : String) :
    Config.ChangesByStem (buildAll steps) (buildAll (steps ++ [.add category stem]))
      (Text.lowercase category) (Text.lowercase stem) columnType
      (Text.lowercase columnType).toList := by
  have hafter : buildAll (steps ++ [.add category stem]) =
      ((afterAll steps).after (.add category stem)).build := by
    rw [buildAll, List.foldl_concat, afterAll]
  rw [hafter]
  exact Config.changesByStem (hasOneMore_build (afterAll steps) category stem) rfl columnType

end Draft

end RelationalAvro
