import RelationalAvro.Files.Tree

/-!
# Writing files

Where a path leads depends on nothing but which places hold directories, and writing a file makes
and removes none (`Tree.CanWrite.sameDirectories`). So files that are written one after another are
all written where their paths lead from the start, and what a place holds in the end is the last
content written there: `Tree.Writes.at?_cases`.
-/

namespace RelationalAvro.Files.Tree

/-! ## Walks -/

/-- The trees have directories in the same places. -/
def SameDirectories (first second : Tree) : Prop :=
  ∀ x, first.at? x = some .directory ↔ second.at? x = some .directory

theorem SameDirectories.trans {first second third : Tree} (h : first.SameDirectories second)
    (h' : second.SameDirectories third) : first.SameDirectories third :=
  fun x => (h x).trans (h' x)

theorem SameDirectories.symm {first second : Tree} (h : first.SameDirectories second) :
    second.SameDirectories first :=
  fun x => (h x).symm

/-- A step leads into a directory that is there. -/
theorem enter_eq_some_iff {tree : Tree} {location place : Location} {step : String} :
    tree.enter location step = some place ↔
      next location step = some place ∧ tree.at? place = some .directory := by
  unfold enter
  cases next location step with
  | none => simp
  | some there =>
    dsimp only
    constructor
    · intro h
      split at h
      · obtain rfl := Option.some.inj h
        exact ⟨rfl, ‹_›⟩
      · cases h
    · rintro ⟨hnext, hdirectory⟩
      obtain rfl := Option.some.inj hnext
      simp [hdirectory]

/-- A step leads to the same place where directories are the same. -/
theorem SameDirectories.enter_eq {first second : Tree} (h : first.SameDirectories second)
    (location : Location) (step : String) :
    first.enter location step = second.enter location step :=
  Option.ext fun place => by rw [enter_eq_some_iff, enter_eq_some_iff, h place]

/-- Paths lead to the same place where directories are the same. -/
theorem SameDirectories.locateFrom_eq {first second : Tree} (h : first.SameDirectories second)
    (location : Location) (steps : List String) :
    first.locateFrom location steps = second.locateFrom location steps := by
  induction location, steps using locateFrom.induct first with
  | case1 => rfl
  | case2 => rfl
  | case3 location step further rest hnone =>
    rw [locateFrom, locateFrom, ← h.enter_eq, hnone]
  | case4 location step further rest place hplace ih =>
    rw [locateFrom, locateFrom, ← h.enter_eq, hplace]
    exact ih

/-- A path leads to the same place in both trees. -/
theorem SameDirectories.locate_eq {first second : Tree} (h : first.SameDirectories second)
    (steps : List String) : first.locate steps = second.locate steps :=
  h.locateFrom_eq [] steps

/-- A path whose last step is a name leads to a place of that name. -/
theorem exists_eq_append_of_locateFrom {tree : Tree} {location place : Location} {name : String}
    (hdot : name ≠ ".") (hdots : name ≠ "..") (steps : List String)
    (h : tree.locateFrom location (steps ++ [name]) = some place) :
    ∃ directory, place = directory ++ [name] := by
  induction steps generalizing location with
  | nil =>
    rw [List.nil_append, locateFrom, next, if_neg hdot, if_neg hdots] at h
    split at h
    · cases h
    · exact ⟨location, (Option.some.inj h).symm⟩
  | cons step rest ih =>
    obtain ⟨further, more, hmore⟩ := List.exists_cons_of_ne_nil (l := rest ++ [name]) (by simp)
    rw [List.cons_append, hmore, locateFrom] at h
    split at h
    · cases h
    · rw [← hmore] at h
      exact ih h

/-! ## Writing one file -/

variable {tree after : Tree} {working place : Location} {path : String} {content : ByteArray}

/-- A file can be written at the path, which leads to `place`. -/
structure CanWrite (tree : Tree) (working : Location) (path : String) (place : Location) :
    Prop where
  possible : isImpossible path = false
  not_slash : endsInSlash path = false
  located : tree.locate (stepsFrom working path) = some place
  not_directory : tree.at? place ≠ some .directory

/-- Writing a file puts it where the path leads. -/
theorem write?_eq_some_iff :
    tree.write? working path content = some after ↔
      ∃ place, tree.CanWrite working path place ∧ after = tree.put place (.file content) := by
  unfold write?
  -- the path is looked at first, then what is at the place it leads to
  by_cases hpath : (isImpossible path || endsInSlash path) = true
  · rw [if_pos hpath]
    constructor
    · simp
    · rintro ⟨place, h, -⟩
      simp [h.possible, h.not_slash] at hpath
  · rw [if_neg hpath]
    rw [Bool.or_eq_true, not_or, Bool.not_eq_true, Bool.not_eq_true] at hpath
    cases hplace : tree.locate (stepsFrom working path) with
    | none =>
      constructor
      · simp
      · rintro ⟨place, h, -⟩
        exact absurd (hplace.symm.trans h.located) (by simp)
    | some place =>
      dsimp only
      constructor
      · intro h
        split at h
        · cases h
        · rename_i hnot
          exact ⟨place, ⟨hpath.1, hpath.2, hplace, hnot⟩, (Option.some.inj h).symm⟩
      · rintro ⟨there, h, rfl⟩
        obtain rfl : place = there := Option.some.inj (hplace.symm.trans h.located)
        have hnot := h.not_directory
        split
        · contradiction
        · rfl

namespace CanWrite

/-- No file is written to the root. -/
theorem ne_nil (h : tree.CanWrite working path place) : place ≠ [] := by
  rintro rfl
  exact h.not_directory (at?_nil tree)

/-- Writing a file changes one place. -/
theorem at?_put (h : tree.CanWrite working path place) (x : Location) :
    (tree.put place (.file content)).at? x =
      if x = place then some (.file content) else tree.at? x :=
  Tree.at?_put h.ne_nil

/-- Writing a file makes and removes no directories. -/
theorem sameDirectories (h : tree.CanWrite working path place) :
    tree.SameDirectories (tree.put place (.file content)) := by
  intro x
  rw [h.at?_put]
  by_cases hx : x = place
  · subst hx
    simp [h.not_directory]
  · rw [if_neg hx]

/-- Whether a file can be written depends on directories alone. -/
theorem congr {other : Tree} (h : tree.CanWrite working path place)
    (hsame : tree.SameDirectories other) : other.CanWrite working path place where
  possible := h.possible
  not_slash := h.not_slash
  located := (hsame.locate_eq _).symm.trans h.located
  not_directory hdirectory := h.not_directory ((hsame place).2 hdirectory)

/-- What is read at the path is the file at the place where the path leads. -/
theorem read?_eq_some_iff (h : tree.CanWrite working path place) :
    tree.read? working path = some content ↔ tree.at? place = some (.file content) := by
  unfold read?
  rw [if_neg (by simp [h.possible, h.not_slash]), h.located]
  dsimp only
  split
  · rename_i file hfile
    simp [hfile]
  · rename_i hnone
    simpa using hnone content

end CanWrite

/-! ## Writing several files -/

/-- The files, paths with contents, can be written one after another, and `after` is the tree in the
end. -/
inductive Writes (working : Location) : Tree → List (String × ByteArray) → Tree → Prop
  | nil {tree : Tree} : Writes working tree [] tree
  | cons {tree next after : Tree} {path : String} {content : ByteArray}
      {files : List (String × ByteArray)} (h : tree.write? working path content = some next)
      (hrest : Writes working next files after) :
      Writes working tree ((path, content) :: files) after

namespace Writes

variable {files : List (String × ByteArray)}

/-- Writing files changes no directories. -/
theorem sameDirectories (h : Writes working tree files after) : tree.SameDirectories after := by
  induction h with
  | nil => exact fun _ => Iff.rfl
  | cons hwrite _ ih =>
    obtain ⟨place, hcan, rfl⟩ := write?_eq_some_iff.1 hwrite
    exact hcan.sameDirectories.trans ih

/-- Each file could have been written at the start, where its path leads. -/
theorem canWrite (h : Writes working tree files after) :
    ∀ file ∈ files, ∃ place, tree.CanWrite working file.1 place := by
  induction h with
  | nil => simp
  | cons hwrite _ ih =>
    obtain ⟨place, hcan, rfl⟩ := write?_eq_some_iff.1 hwrite
    rw [List.forall_mem_cons]
    refine ⟨⟨place, hcan⟩, fun file hfile => ?_⟩
    obtain ⟨there, hthere⟩ := ih file hfile
    exact ⟨there, hthere.congr hcan.sameDirectories.symm⟩

/-- A place holds the last content written there, or else what it held before. -/
theorem at?_cases (h : Writes working tree files after) (x : Location) :
    (∃ earlier path content later, files = earlier ++ (path, content) :: later ∧
      tree.locate (stepsFrom working path) = some x ∧
      (∀ file ∈ later, tree.locate (stepsFrom working file.1) ≠ some x) ∧
      after.at? x = some (.file content)) ∨
    (∀ file ∈ files, tree.locate (stepsFrom working file.1) ≠ some x) ∧
      after.at? x = tree.at? x := by
  induction h with
  | nil => exact .inr ⟨by simp, rfl⟩
  | @cons tree next after path content files hwrite _ ih =>
    obtain ⟨place, hcan, rfl⟩ := write?_eq_some_iff.1 hwrite
    simp only [← hcan.sameDirectories.locate_eq] at ih
    obtain ⟨earlier, path', content', later, rfl, hlast⟩ | ⟨hnone, hsame⟩ := ih
    · exact .inl ⟨(path, content) :: earlier, path', content', later, rfl, hlast⟩
    · by_cases hx : x = place
      · -- nothing comes after the first file here
        subst hx
        rw [hcan.at?_put, if_pos rfl] at hsame
        exact .inl ⟨[], path, content, files, rfl, hcan.located, hnone, hsame⟩
      · rw [hcan.at?_put, if_neg hx] at hsame
        refine .inr ⟨List.forall_mem_cons.2 ⟨fun hlocated => hx ?_, hnone⟩, hsame⟩
        exact Option.some.inj (hlocated.symm.trans hcan.located)

/-- What is read at the path of a file that was written is the last content that was written where
the path leads. -/
theorem read?_of_mem (h : Writes working tree files after) {file : String × ByteArray}
    (hfile : file ∈ files) :
    ∃ earlier last later, files = earlier ++ last :: later ∧
      after.locate (stepsFrom working last.1) = after.locate (stepsFrom working file.1) ∧
      (∀ other ∈ later,
        after.locate (stepsFrom working other.1) ≠ after.locate (stepsFrom working file.1)) ∧
      after.read? working file.1 = some last.2 := by
  obtain ⟨place, hcan⟩ := h.canWrite file hfile
  have hafter := hcan.congr h.sameDirectories
  simp only [← h.sameDirectories.locate_eq, hcan.located]
  obtain ⟨earlier, path, content, later, hsplit, hlocated, hlater, hat⟩ | ⟨hnone, -⟩ :=
    h.at?_cases place
  · exact ⟨earlier, (path, content), later, hsplit, hlocated, hlater,
      hafter.read?_eq_some_iff.2 hat⟩
  · exact absurd hcan.located (hnone file hfile)

end Writes

end RelationalAvro.Files.Tree
