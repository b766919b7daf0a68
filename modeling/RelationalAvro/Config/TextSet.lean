/-!
# Sets of texts

A finite set of texts is kept as the list of its members in increasing order of code points, so that
sets with the same members are the same value.
-/

namespace RelationalAvro

/-- A finite set of texts, as its members in increasing order. -/
structure TextSet where
  members : List String
  increasing : members.Pairwise (· < ·)

namespace TextSet

instance : Membership String TextSet :=
  ⟨fun set text => text ∈ set.members⟩

theorem mem_def {set : TextSet} {text : String} : text ∈ set ↔ text ∈ set.members := Iff.rfl

theorem increasing_nil : ([] : List String).Pairwise (· < ·) :=
  .nil

/-- The set without members. -/
def empty : TextSet :=
  ⟨[], increasing_nil⟩

/-- The increasing list with `text` in its place. -/
def place (text : String) : List String → List String
  | [] => [text]
  | next :: rest =>
    if text < next then text :: next :: rest
    else if text = next then next :: rest
    else next :: place text rest

/-- Placing a text adds it and keeps what was there. -/
theorem mem_place {text x : String} {list : List String} :
    x ∈ place text list ↔ x = text ∨ x ∈ list := by
  induction list with
  | nil => simp [place]
  | cons next rest ih =>
    rw [place]
    split
    · simp
    · split
      · rename_i h
        simp [h]
      · simp only [List.mem_cons, ih]
        exact or_left_comm

/-- Of two different texts one comes first. -/
theorem lt_of_not_lt_of_ne {a b : String} (h : ¬a < b) (hne : a ≠ b) : b < a :=
  Std.not_le.1 fun hle => hne (Std.le_antisymm hle (Std.not_lt.1 h))

/-- A text placed in an increasing list leaves it increasing. -/
theorem increasing_place {text : String} {list : List String} (h : list.Pairwise (· < ·)) :
    (place text list).Pairwise (· < ·) := by
  induction list with
  | nil => simp [place]
  | cons next rest ih =>
    rw [List.pairwise_cons] at h
    rw [place]
    split
    · rename_i hlt
      refine List.pairwise_cons.2 ⟨fun x hx => ?_, List.pairwise_cons.2 h⟩
      rcases List.mem_cons.1 hx with rfl | hx
      · exact hlt
      · exact String.lt_trans hlt (h.1 x hx)
    · split
      · exact List.pairwise_cons.2 h
      · rename_i hlt hne
        refine List.pairwise_cons.2 ⟨fun x hx => ?_, ih h.2⟩
        rcases mem_place.1 hx with rfl | hx
        · exact lt_of_not_lt_of_ne hlt hne
        · exact h.1 x hx

/-- The set with `text` in it. -/
def insert (set : TextSet) (text : String) : TextSet :=
  ⟨place text set.members, increasing_place set.increasing⟩

/-- The set with all the texts of the list in it. -/
def insertAll (set : TextSet) (texts : List String) : TextSet :=
  texts.foldl insert set

/-- The set of the texts of a list, in any order and with any repetitions. -/
def ofList (texts : List String) : TextSet :=
  empty.insertAll texts

/-- Nothing is in the empty set. -/
@[simp] theorem not_mem_empty {text : String} : ¬text ∈ empty := by
  simp [mem_def, empty]

/-- What is in a set after a text was inserted. -/
@[simp] theorem mem_insert {set : TextSet} {text x : String} :
    x ∈ set.insert text ↔ x = text ∨ x ∈ set :=
  mem_place

/-- What is in a set after texts were inserted. -/
@[simp] theorem mem_insertAll {set : TextSet} {texts : List String} {x : String} :
    x ∈ set.insertAll texts ↔ x ∈ texts ∨ x ∈ set := by
  induction texts generalizing set with
  | nil => simp [insertAll]
  | cons text rest ih =>
    have h : set.insertAll (text :: rest) = (set.insert text).insertAll rest := rfl
    rw [h, ih, mem_insert, List.mem_cons]
    exact or_left_comm.trans or_assoc.symm

/-- The set of a list holds the members of the list. -/
@[simp] theorem mem_ofList {texts : List String} {x : String} : x ∈ ofList texts ↔ x ∈ texts := by
  simp [ofList]

/-- Increasing lists with the same members are equal. -/
theorem eq_of_mem_iff {a b : List String} (ha : a.Pairwise (· < ·)) (hb : b.Pairwise (· < ·))
    (h : ∀ x, x ∈ a ↔ x ∈ b) : a = b := by
  induction a generalizing b with
  | nil =>
    cases b with
    | nil => rfl
    | cons y ys => simpa using h y
  | cons x xs ih =>
    cases b with
    | nil => simpa using h x
    | cons y ys =>
      rw [List.pairwise_cons] at ha hb
      -- the least texts are the same, since each is in the other list
      have hxy : x = y := by
        rcases List.mem_cons.1 ((h x).1 (List.mem_cons_self ..)) with hx | hx
        · exact hx
        · rcases List.mem_cons.1 ((h y).2 (List.mem_cons_self ..)) with hy | hy
          · exact hy.symm
          · exact absurd (hb.1 x hx) (String.lt_asymm (ha.1 y hy))
      subst hxy
      rw [ih ha.2 hb.2 fun z => ?_]
      constructor
      · intro hz
        rcases List.mem_cons.1 ((h z).1 (List.mem_cons_of_mem _ hz)) with rfl | hz'
        · exact absurd (ha.1 z hz) (String.lt_irrefl z)
        · exact hz'
      · intro hz
        rcases List.mem_cons.1 ((h z).2 (List.mem_cons_of_mem _ hz)) with rfl | hz'
        · exact absurd (hb.1 z hz) (String.lt_irrefl z)
        · exact hz'

/-- Sets with the same members are equal. -/
theorem ext {a b : TextSet} (h : ∀ x, x ∈ a ↔ x ∈ b) : a = b := by
  cases a
  cases b
  simp only [mk.injEq]
  exact eq_of_mem_iff ‹_› ‹_› h

end TextSet

end RelationalAvro
