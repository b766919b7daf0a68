/-!
# Repeated texts

The first text of a list that occurred earlier in it. A scan that remembers what it has seen finds
it; `firstRepeated?_eq_head?` says which one it is by position.
-/

namespace RelationalAvro

/-- The first text of the list that is in `seen` or occurs earlier in the list. -/
def firstRepeatedAfter (seen : List String) : List String → Option String
  | [] => none
  | text :: rest => if text ∈ seen then some text else firstRepeatedAfter (text :: seen) rest

/-- The first text of the list that occurs earlier in it. -/
def firstRepeated? (texts : List String) : Option String :=
  firstRepeatedAfter [] texts

/-- Nothing is repeated after texts seen before if no text comes twice or was seen. -/
private theorem firstRepeatedAfter_eq_none_iff {seen texts : List String} :
    firstRepeatedAfter seen texts = none ↔ texts.Nodup ∧ ∀ x ∈ texts, x ∉ seen := by
  induction texts generalizing seen with
  | nil => simp [firstRepeatedAfter]
  | cons text rest ih =>
    rw [firstRepeatedAfter]
    by_cases h : text ∈ seen
    · simp [h]
    · rw [if_neg h, ih]
      simp only [List.mem_cons, not_or, List.nodup_cons, forall_eq_or_imp]
      constructor
      · rintro ⟨hrest, hseen⟩
        exact ⟨⟨fun hmem => (hseen text hmem).1 rfl, hrest⟩, h, fun x hx => (hseen x hx).2⟩
      · rintro ⟨⟨hmem, hrest⟩, -, hseen⟩
        exact ⟨hrest, fun x hx => ⟨fun he => hmem (he ▸ hx), hseen x hx⟩⟩

/-- Nothing is repeated exactly in a list without duplicates. -/
theorem firstRepeated?_eq_none_iff {texts : List String} :
    firstRepeated? texts = none ↔ texts.Nodup := by
  simp [firstRepeated?, firstRepeatedAfter_eq_none_iff]

/-! ## Repetitions by position -/

/-- The texts that occur earlier in the list, once for each place where they come again. -/
def repetitions (texts : List String) : List String :=
  (texts.mapIdx fun i text => if text ∈ texts.take i then [text] else []).flatten

/-- The first repetition is the first text that is among those seen or those before it. -/
private theorem firstRepeatedAfter_eq_head? (seen texts : List String) :
    firstRepeatedAfter seen texts =
      (texts.mapIdx fun i text =>
        if text ∈ seen ∨ text ∈ texts.take i then [text] else []).flatten.head? := by
  induction texts generalizing seen with
  | nil => rfl
  | cons text rest ih =>
    rw [firstRepeatedAfter, List.mapIdx_cons]
    by_cases h : text ∈ seen
    · simp [h]
    · -- what the scan has seen now is what it had seen and the text just passed
      rw [if_neg h, ih]
      simp [h, List.mem_cons, or_assoc, or_left_comm]

/-- The scan finds the first repetition. -/
theorem firstRepeated?_eq_head? (texts : List String) :
    firstRepeated? texts = (repetitions texts).head? := by
  simp [firstRepeated?, repetitions, firstRepeatedAfter_eq_head?]

/-- Texts have no repetitions exactly if they are distinct. -/
theorem repetitions_eq_nil_iff {texts : List String} : repetitions texts = [] ↔ texts.Nodup := by
  rw [← List.head?_eq_none_iff, ← firstRepeated?_eq_head?, firstRepeated?_eq_none_iff]

/-- What stands before the first repetition is new and distinct. -/
private theorem firstRepeatedAfter_eq_some_iff {seen texts : List String} {text : String} :
    firstRepeatedAfter seen texts = some text ↔
      ∃ before after, texts = before ++ text :: after ∧ before.Nodup ∧ (∀ x ∈ before, x ∉ seen) ∧
        (text ∈ seen ∨ text ∈ before) := by
  constructor
  · intro h
    induction texts generalizing seen with
    | nil => cases h
    -- either the scan stops at the first text, or it goes on having seen that
    | cons first rest ih =>
      rw [firstRepeatedAfter] at h
      by_cases hseen : first ∈ seen
      · obtain rfl : first = text := by simpa [hseen] using h
        exact ⟨[], rest, rfl, .nil, by simp, .inl hseen⟩
      · rw [if_neg hseen] at h
        obtain ⟨before, after, rfl, hnodup, hnew, hmem⟩ := ih h
        have hfirst : first ∉ before := fun hmem => hnew first hmem List.mem_cons_self
        refine ⟨first :: before, after, rfl, List.nodup_cons.2 ⟨hfirst, hnodup⟩, ?_, ?_⟩
        · rw [List.forall_mem_cons]
          exact ⟨hseen, fun x hx hmem => hnew x hx (List.mem_cons_of_mem first hmem)⟩
        · rw [List.mem_cons] at hmem ⊢
          exact or_left_comm.1 (or_assoc.1 hmem)
  · rintro ⟨before, after, rfl, hnodup, hnew, hmem⟩
    induction before generalizing seen with
    | nil =>
      rw [List.nil_append, firstRepeatedAfter, if_pos (hmem.resolve_right List.not_mem_nil)]
    | cons first before ih =>
      rw [List.nodup_cons] at hnodup
      rw [List.forall_mem_cons] at hnew
      rw [List.cons_append, firstRepeatedAfter, if_neg hnew.1]
      refine ih hnodup.2 (fun x hx hmem => ?_) ?_
      · rcases List.mem_cons.1 hmem with rfl | hmem
        · exact hnodup.1 hx
        · exact hnew.2 x hx hmem
      · rw [List.mem_cons] at hmem ⊢
        exact or_assoc.2 (or_left_comm.1 hmem)

/-- The first repetition is the text that ends a beginning without duplicates. -/
theorem firstRepeated?_eq_some_iff {texts : List String} {text : String} :
    firstRepeated? texts = some text ↔
      ∃ before after, texts = before ++ text :: after ∧ before.Nodup ∧ text ∈ before := by
  simp [firstRepeated?, firstRepeatedAfter_eq_some_iff]

/-! ## Names without repetitions -/

/-- Where no name is repeated, what is found under a name is what is listed under it. -/
theorem lookup_eq_some_iff_mem {α : Type} {entries : List (String × α)} {name : String} {value : α}
    (h : (entries.map Prod.fst).Nodup) :
    entries.lookup name = some value ↔ (name, value) ∈ entries := by
  rw [List.lookup_eq_some_iff]
  constructor
  · rintro ⟨before, after, rfl, -⟩
    simp
  · intro hmem
    obtain ⟨before, after, rfl⟩ := List.append_of_mem hmem
    refine ⟨before, after, rfl, fun entry hentry => bne_iff_ne.2 fun heq => ?_⟩
    rw [List.map_append, List.nodup_append] at h
    exact h.2.2 entry.1 (List.mem_map_of_mem hentry) name (by simp) heq.symm

/-- A name is found exactly if some entry has it. -/
theorem isSome_lookup_iff {α : Type} {entries : List (String × α)} {name : String} :
    (entries.lookup name).isSome ↔ name ∈ entries.map Prod.fst := by
  rw [← Option.ne_none_iff_isSome, ne_eq, List.lookup_eq_none_iff]
  simp

end RelationalAvro
