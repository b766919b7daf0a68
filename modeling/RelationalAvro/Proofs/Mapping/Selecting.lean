import Mathlib.Data.List.MinMax
import Mathlib.Data.String.Basic
import RelationalAvro.Mapping.Selection
import RelationalAvro.Proofs.Config.Rows

/-!
# Which category is selected

The rows of a type table that have a stem the text begins with are its candidates, and the first
candidate of the greatest measure is selected (`TypeTable.selectBy_eq_argmax`). Rows stand in
increasing order, so the first of several is the one of the smallest category.

Of two stems of one text, one begins the other. A measure that grows from a text to a longer one
therefore compares them as their lengths do, and what is selected can be said without a measure: the
category whose stem all others begin (`TypeTable.Takes`). The main statement is
`TypeTable.selectBy_eq_some_iff`.
-/

namespace RelationalAvro

/-- Of the greatest entries of a list, `argmax` gives the one that stands before the others. -/
theorem eq_or_rel_of_argmax {α : Type} [DecidableEq α] {before : α → α → Prop} {measure : α → Nat}
    {list : List α} {best a : α} (hlist : list.Pairwise before)
    (hbest : list.argmax measure = some best) (ha : a ∈ list) (hle : measure best ≤ measure a) :
    best = a ∨ before best a := by
  have hmem := List.argmax_mem hbest
  rcases (List.index_of_argmax hbest ha hle).lt_or_eq with hlt | heq
  · have hbefore := List.pairwise_iff_getElem.1 hlist _ _ (List.idxOf_lt_length_of_mem hmem)
      (List.idxOf_lt_length_of_mem ha) hlt
    rw [List.getElem_idxOf, List.getElem_idxOf] at hbefore
    exact .inr hbefore
  · exact .inl ((List.idxOf_inj hmem).1 heq)

variable {measure : String → Nat} {text : List Char}

/-! ## The longest stem of a category -/

/-- There is no longest stem exactly if no stem begins the text. -/
theorem TextSet.longest?_eq_none_iff {stems : TextSet} :
    stems.longest? measure text = none ↔ ∀ stem ∈ stems, ¬stem.toList <+: text := by
  simp [longest?, List.max?_eq_none_iff, List.filter_eq_nil_iff, mem_def]

/-- The longest length is that of a stem that begins the text, and no such stem is longer. -/
theorem TextSet.longest?_eq_some_iff {stems : TextSet} {n : Nat} :
    stems.longest? measure text = some n ↔
      (∃ stem ∈ stems, stem.toList <+: text ∧ measure stem = n) ∧
      ∀ stem ∈ stems, stem.toList <+: text → measure stem ≤ n := by
  rw [longest?, List.max?_eq_some_iff, List.forall_mem_map]
  simp [mem_def, and_assoc]

namespace TypeTable

variable {table : TypeTable} {category stem : String}

/-! ## Candidates -/

/-- The categories that have a stem the text begins with, each with the greatest measure of such a
stem. -/
def candidates (measure : String → Nat) (table : TypeTable) (text : List Char) :
    List (String × Nat) :=
  table.rows.filterMap fun row => (row.2.longest? measure text).map (row.1, ·)

/-- The first candidate of the greatest measure is selected. -/
theorem selectBy_eq_argmax (measure : String → Nat) (table : TypeTable) (text : List Char) :
    table.selectBy measure text =
      ((table.candidates measure text).argmax Prod.snd).map Prod.fst := by
  rw [selectBy, List.argmax, candidates, List.foldl_filterMap]
  congr 2
  funext found row
  unfold better
  cases row.2.longest? measure text with
  | none => rfl
  | some n => cases found <;> rfl

/-- A candidate is a category with the length of its longest stem that begins the text. -/
theorem mem_candidates_iff {n : Nat} :
    (category, n) ∈ table.candidates measure text ↔
      (∃ stem, table.Owns category stem ∧ stem.toList <+: text ∧ measure stem = n) ∧
      ∀ stem, table.Owns category stem → stem.toList <+: text → measure stem ≤ n := by
  have hrow : (category, n) ∈ table.candidates measure text ↔
      ∃ stems, (category, stems) ∈ table.rows ∧ stems.longest? measure text = some n := by
    simp [candidates]
  rw [hrow]
  constructor
  · rintro ⟨stems, hmem, hlongest⟩
    simpa only [owns_iff_of_mem hmem] using TextSet.longest?_eq_some_iff.1 hlongest
  · rintro ⟨⟨stem, howns, hstem⟩, hle⟩
    obtain ⟨stems, hstems, -⟩ := id howns
    have hmem := stems?_eq_some_iff.1 hstems
    simp only [owns_iff_of_mem hmem] at howns hle
    exact ⟨stems, hmem, TextSet.longest?_eq_some_iff.2 ⟨⟨stem, howns, hstem⟩, hle⟩⟩

/-- A stem that the text begins with makes its category a candidate. -/
theorem exists_mem_candidates (measure : String → Nat) (howns : table.Owns category stem)
    (hstem : stem.toList <+: text) :
    ∃ n, (category, n) ∈ table.candidates measure text ∧ measure stem ≤ n := by
  obtain ⟨stems, hstems, hmem⟩ := id howns
  obtain ⟨n, hn⟩ : ∃ n, stems.longest? measure text = some n :=
    Option.ne_none_iff_exists'.1 fun hnone => TextSet.longest?_eq_none_iff.1 hnone stem hmem hstem
  have hcandidate : (category, n) ∈ table.candidates measure text :=
    List.mem_filterMap.2 ⟨(category, stems), stems?_eq_some_iff.1 hstems, by simp [hn]⟩
  exact ⟨n, hcandidate, (mem_candidates_iff.1 hcandidate).2 stem howns hstem⟩

/-- Candidates stand in the order of their categories. -/
theorem increasing_candidates (measure : String → Nat) (table : TypeTable) (text : List Char) :
    (table.candidates measure text).Pairwise fun a b => a.1 < b.1 := by
  refine List.Pairwise.filterMap _ (fun row other hlt a ha b hb => ?_)
    (List.pairwise_map.1 table.increasing)
  obtain ⟨n, -, rfl⟩ := Option.map_eq_some_iff.1 ha
  obtain ⟨m, -, rfl⟩ := Option.map_eq_some_iff.1 hb
  exact hlt

/-- No category is selected exactly if the text begins with no stem of the table. -/
theorem selectBy_eq_none_iff (measure : String → Nat) :
    table.selectBy measure text = none ↔
      ∀ category stem, table.Owns category stem → ¬stem.toList <+: text := by
  rw [selectBy_eq_argmax, Option.map_eq_none_iff, List.argmax_eq_none,
    List.eq_nil_iff_forall_not_mem]
  constructor
  · intro h category stem howns hstem
    obtain ⟨n, hmem, -⟩ := exists_mem_candidates measure howns hstem
    exact h _ hmem
  · rintro h ⟨category, n⟩ hmem
    obtain ⟨⟨stem, howns, hstem, -⟩, -⟩ := mem_candidates_iff.1 hmem
    exact h category stem howns hstem

/-- The category selected has a stem that the text begins with. -/
theorem exists_owns_of_selectBy (h : table.selectBy measure text = some category) :
    ∃ stem, table.Owns category stem ∧ stem.toList <+: text := by
  rw [selectBy_eq_argmax] at h
  obtain ⟨⟨_, n⟩, hbest, rfl⟩ := Option.map_eq_some_iff.1 h
  obtain ⟨⟨stem, howns, hstem, -⟩, -⟩ := mem_candidates_iff.1 (List.argmax_mem hbest)
  exact ⟨stem, howns, hstem⟩

/-- The category selected is one of the table. -/
theorem selectBy_mem (h : table.selectBy measure text = some category) :
    category ∈ table.rows.map Prod.fst := by
  obtain ⟨stem, howns, -⟩ := exists_owns_of_selectBy h
  obtain ⟨row, hrow, rfl, -⟩ := owns_iff_exists_mem.1 howns
  exact List.mem_map_of_mem hrow

end TypeTable

/-! ## Measures -/

/-- The measure of a text is greater than that of what the text begins with. -/
def GrowsWithTexts (measure : String → Nat) : Prop :=
  ∀ stem text : String, stem.toList <+: text.toList → stem ≠ text → measure stem < measure text

/-- A longer text has more bytes. -/
theorem growsWithTexts_utf8ByteSize : GrowsWithTexts String.utf8ByteSize := by
  rintro stem text ⟨rest, hrest⟩ hne
  have htext : stem ++ String.ofList rest = text := String.toList_injective (by simpa using hrest)
  have hpos : (String.ofList rest).utf8ByteSize ≠ 0 := by
    rw [Ne, String.utf8ByteSize_eq_zero_iff]
    intro hnil
    rw [hnil, String.append_empty] at htext
    exact hne htext
  rw [← htext, String.utf8ByteSize_append]
  omega

/-- A longer text has more characters. -/
theorem growsWithTexts_length : GrowsWithTexts String.length := by
  intro stem text hbegins hne
  refine lt_of_le_of_ne hbegins.length_le fun hlength => hne ?_
  exact String.toList_injective (hbegins.eq_of_length hlength)

/-- Of two stems of one text, the one of the lesser measure begins the other. -/
theorem GrowsWithTexts.prefix_of_le (h : GrowsWithTexts measure) {first second : String}
    (hfirst : first.toList <+: text) (hsecond : second.toList <+: text)
    (hle : measure first ≤ measure second) : first.toList <+: second.toList := by
  rcases List.prefix_or_prefix_of_prefix hfirst hsecond with hbegins | hbegins
  · exact hbegins
  · by_cases heq : second = first
    · exact heq ▸ List.prefix_rfl
    · have hlt := h second first hbegins heq
      omega

/-- Stems of one text that have the same measure are the same. -/
theorem GrowsWithTexts.eq_of_eq (h : GrowsWithTexts measure) {first second : String}
    (hfirst : first.toList <+: text) (hsecond : second.toList <+: text)
    (heq : measure first = measure second) : first = second := by
  by_contra hne
  have hlt := h first second (h.prefix_of_le hfirst hsecond heq.le) hne
  omega

namespace TypeTable

variable {table other : TypeTable} {category stem : String}

/-! ## The category that takes a text -/

/-- The category takes the text by one of its stems: every stem of the table that the text begins
with begins that stem, and no smaller category has it. -/
structure Takes (table : TypeTable) (text : List Char) (category stem : String) : Prop where
  owns : table.Owns category stem
  begins : stem.toList <+: text
  longest : ∀ c s, table.Owns c s → s.toList <+: text → s.toList <+: stem.toList
  smallest : ∀ c, c < category → ¬table.Owns c stem

/-- At most one category takes a text, and by one stem. -/
theorem Takes.unique {c s : String} (h : table.Takes text category stem)
    (h' : table.Takes text c s) : category = c ∧ stem = s := by
  have hstem : stem = s := by
    have hbegins := h'.longest _ _ h.owns h.begins
    have hlonger := h.longest _ _ h'.owns h'.begins
    exact String.toList_injective
      (hbegins.eq_of_length (hbegins.length_le.antisymm hlonger.length_le))
  subst hstem
  refine ⟨?_, rfl⟩
  have hnot : ¬category < c := fun hlt => h'.smallest _ hlt h.owns
  have hnot' : ¬c < category := fun hlt => h.smallest _ hlt h'.owns
  exact le_antisymm (not_lt.1 hnot') (not_lt.1 hnot)

/-- The category selected takes the text. -/
theorem exists_takes_of_selectBy (hmeasure : GrowsWithTexts measure)
    (h : table.selectBy measure text = some category) : ∃ stem, table.Takes text category stem := by
  rw [selectBy_eq_argmax] at h
  obtain ⟨⟨_, n⟩, hbest, rfl⟩ := Option.map_eq_some_iff.1 h
  obtain ⟨⟨stem, howns, hstem, rfl⟩, -⟩ := mem_candidates_iff.1 (List.argmax_mem hbest)
  refine ⟨stem, howns, hstem, fun c s hs hbegins => ?_, fun c hlt hc => ?_⟩
  · obtain ⟨n, hn, hle⟩ := exists_mem_candidates measure hs hbegins
    exact hmeasure.prefix_of_le hbegins hstem (hle.trans (List.le_of_mem_argmax hn hbest))
  · -- a smaller category with this stem stands before the one selected
    obtain ⟨n, hn, hle⟩ := exists_mem_candidates measure hc hstem
    rcases eq_or_rel_of_argmax (increasing_candidates measure table text) hbest hn hle with
      heq | hgt
    · exact hlt.ne (Prod.mk.inj heq).1.symm
    · exact lt_asymm hlt hgt

/-- **The category selected is the one that takes the text**, by whatever measure grows with texts.
-/
theorem selectBy_eq_some_iff (hmeasure : GrowsWithTexts measure) :
    table.selectBy measure text = some category ↔ ∃ stem, table.Takes text category stem := by
  refine ⟨exists_takes_of_selectBy hmeasure, ?_⟩
  rintro ⟨stem, htakes⟩
  cases hselect : table.selectBy measure text with
  | none => exact absurd htakes.begins ((selectBy_eq_none_iff measure).1 hselect _ _ htakes.owns)
  | some selected =>
    obtain ⟨s, hselected⟩ := exists_takes_of_selectBy hmeasure hselect
    rw [(htakes.unique hselected).1]

/-- A text that begins with a stem is taken by one category. -/
theorem exists_unique_takes (howns : table.Owns category stem) (hstem : stem.toList <+: text) :
    ∃! category, ∃ stem, table.Takes text category stem := by
  obtain ⟨selected, hselect⟩ : ∃ selected, table.selectBy String.length text = some selected :=
    Option.ne_none_iff_exists'.1 fun hnone =>
      (selectBy_eq_none_iff String.length).1 hnone category stem howns hstem
  refine ⟨selected, exists_takes_of_selectBy growsWithTexts_length hselect, ?_⟩
  rintro c ⟨s, hs⟩
  obtain ⟨_, htakes⟩ := exists_takes_of_selectBy growsWithTexts_length hselect
  exact (hs.unique htakes).1

/-- Measures that grow with texts select alike. -/
theorem selectBy_eq_selectBy {measure' : String → Nat} (h : GrowsWithTexts measure)
    (h' : GrowsWithTexts measure') : table.selectBy measure text = table.selectBy measure' text :=
  Option.ext fun _ => (selectBy_eq_some_iff h).trans (selectBy_eq_some_iff h').symm

/-- Only the stems that the text begins with count. -/
theorem Takes.congr (h : ∀ c s, s.toList <+: text → (table.Owns c s ↔ other.Owns c s))
    (htakes : table.Takes text category stem) : other.Takes text category stem where
  owns := (h _ _ htakes.begins).1 htakes.owns
  begins := htakes.begins
  longest c s hs hbegins := htakes.longest c s ((h c s hbegins).2 hs) hbegins
  smallest c hlt hc := htakes.smallest c hlt ((h c stem htakes.begins).2 hc)

end TypeTable

end RelationalAvro
