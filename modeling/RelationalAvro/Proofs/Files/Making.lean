import Mathlib.Data.List.Induction
import Mathlib.Data.List.Infix
import RelationalAvro.Proofs.Files.Writing

/-!
# Making directories

In a directory tree everything but the root lies in a directory (`Tree.IsClosed`). There, making the
directories on the way to a place goes wrong only if a file is in the way, and since nothing can lie
beyond a file, it goes wrong before anything is made. Otherwise it changes the way to the place and
nothing else: `Tree.makeDirectories_cases`.

All this is about ordinary steps, which lead down to a name that is not too long.
-/

namespace RelationalAvro.Files

/-- A step that is no dot step and not too long for a name. -/
structure IsOrdinary (step : String) : Prop where
  not_dot : step ≠ "."
  not_dots : step ≠ ".."
  fits : step.utf8ByteSize ≤ maxNameBytes

namespace Tree

/-- An ordinary step goes down. -/
theorem next_of_isOrdinary {step : String} (h : IsOrdinary step) (location : Location) :
    next location step = some (location ++ [step]) := by
  rw [next, if_neg h.not_dot, if_neg h.not_dots, if_neg (Nat.not_lt.2 h.fits)]

/-- Everything but the root lies in a directory. -/
def IsClosed (tree : Tree) : Prop :=
  ∀ location name, tree.at? (location ++ [name]) ≠ none → tree.at? location = some .directory

/-- A file is in the way to the place, or at it. -/
def IsObstructed (tree : Tree) (place : Location) : Prop :=
  ∃ x content, x <+: place ∧ tree.at? x = some (.file content)

/-- All the way to the place there are directories in `after`, and everything else is as in
`before`. -/
structure Opens (before after : Tree) (place : Location) : Prop where
  on_way : ∀ x, x <+: place → after.at? x = some .directory
  elsewhere : ∀ x, ¬x <+: place → after.at? x = before.at? x

theorem isClosed_empty : IsClosed {} := fun location name hat =>
  absurd (by simp [at?]) hat

section

variable {tree : Tree} {location place : Location}

/-- Whatever lies further on lies beyond a directory. -/
theorem IsClosed.directory_of_append (h : tree.IsClosed) {further : List String}
    (hne : further ≠ []) (hat : tree.at? (location ++ further) ≠ none) :
    tree.at? location = some .directory := by
  induction further using List.reverseRecOn with
  | nil => exact absurd rfl hne
  | append_singleton init name ih =>
    rw [← List.append_assoc] at hat
    have hinit := h _ _ hat
    by_cases hnil : init = []
    · simpa [hnil] using hinit
    · exact ih hnil (by simp [hinit])

/-- The way to a directory leads through directories. -/
theorem IsClosed.directory_of_prefix (h : tree.IsClosed) (hplace : tree.at? place = some .directory)
    {x : Location} (hx : x <+: place) : tree.at? x = some .directory := by
  obtain ⟨further, rfl⟩ := hx
  by_cases hnil : further = []
  · simpa [hnil] using hplace
  · exact h.directory_of_append hnil (by simp [hplace])

/-- A directory made in a directory leaves the tree closed. -/
theorem IsClosed.put_directory {name : String} (h : tree.IsClosed)
    (hlocation : tree.at? location = some .directory) :
    (tree.put (location ++ [name]) .directory).IsClosed := by
  intro l n hat
  rw [at?_put (by simp)] at hat ⊢
  split at hat
  · rename_i heq
    obtain ⟨rfl, -⟩ := List.append_inj' heq rfl
    rw [if_neg (by simp), hlocation]
  · rw [h l n hat, ite_self]

/-- A file written into a directory lies in one. -/
theorem locateFrom_append_singleton {steps : List String} {name : String}
    (hsteps : ∀ s ∈ steps, IsOrdinary s) (hname : IsOrdinary name)
    (hway : ∀ x, x <+: steps → tree.at? (location ++ x) = some .directory) :
    tree.locateFrom location (steps ++ [name]) = some (location ++ (steps ++ [name])) := by
  induction steps generalizing location with
  | nil => exact next_of_isOrdinary hname location
  | cons step rest ih =>
    rw [List.forall_mem_cons] at hsteps
    have henter : tree.enter location step = some (location ++ [step]) :=
      enter_eq_some_iff.2 ⟨next_of_isOrdinary hsteps.1 location, hway [step] ⟨rest, rfl⟩⟩
    have hway' : ∀ x, x <+: rest → tree.at? (location ++ [step] ++ x) = some .directory := by
      intro x hx
      rw [List.append_assoc]
      exact hway (step :: x) (List.cons_prefix_cons.2 ⟨rfl, hx⟩)
    have hrest := ih hsteps.2 hway'
    -- the step is not the last one, since the name is still to come
    obtain ⟨further, more, hmore⟩ := List.exists_cons_of_ne_nil (l := rest ++ [name]) (by simp)
    rw [List.cons_append, hmore, locateFrom, henter]
    rw [hmore] at hrest
    simpa using hrest

/-- Through directories, steps down to a name lead to the place that they spell. -/
theorem locate_append_singleton {name : String} (hsteps : ∀ s ∈ place, IsOrdinary s)
    (hname : IsOrdinary name) (hway : ∀ x, x <+: place → tree.at? x = some .directory) :
    tree.locate (place ++ [name]) = some (place ++ [name]) :=
  locateFrom_append_singleton hsteps hname hway

end

/-! ## Making what is missing -/

/-- From a directory on, either a file is in the way and nothing is made, or the way is opened. -/
theorem ensureFrom_cases {tree : Tree} {location : Location} {steps : List String}
    (hclosed : tree.IsClosed) (hsteps : ∀ s ∈ steps, IsOrdinary s)
    (hway : ∀ x, x <+: location → tree.at? x = some .directory) :
    (tree.IsObstructed (location ++ steps) ∧ tree.ensureFrom location steps = (false, tree)) ∨
    (¬tree.IsObstructed (location ++ steps) ∧
      ∃ after, tree.ensureFrom location steps = (true, after) ∧
        tree.Opens after (location ++ steps)) := by
  induction steps generalizing tree location with
  | nil =>
    rw [List.append_nil]
    refine .inr ⟨?_, tree, rfl, hway, fun _ _ => rfl⟩
    rintro ⟨x, content, hx, hfile⟩
    exact absurd ((hway x hx).symm.trans hfile) (by simp)
  | cons step rest ih =>
    rw [List.forall_mem_cons] at hsteps
    have hnext := next_of_isOrdinary hsteps.1 location
    have hsplit : location ++ step :: rest = (location ++ [step]) ++ rest := by simp
    have hreached : location ++ [step] <+: location ++ step :: rest :=
      hsplit ▸ List.prefix_append ..
    cases hplace : tree.at? (location ++ [step]) with
    | some node =>
      cases node with
      | file content =>
        refine .inl ⟨⟨_, content, hreached, hplace⟩, ?_⟩
        rw [ensureFrom, enterOrMake, hnext]
        simp only [hplace]
      | directory =>
        -- the step is there already: the tree stays as it is
        have hstep : tree.ensureFrom location (step :: rest) =
            tree.ensureFrom (location ++ [step]) rest := by
          rw [ensureFrom, enterOrMake, hnext]
          simp only [hplace]
        rw [hstep, hsplit]
        refine ih hclosed hsteps.2 fun x hx => ?_
        rcases List.prefix_concat_iff.1 hx with rfl | hx
        · exact hplace
        · exact hway x hx
    | none =>
      -- the step is made: what comes after it is missing too
      have hlocation := hway location (List.prefix_refl location)
      have hput : ∀ x, (tree.put (location ++ [step]) .directory).at? x =
          if x = location ++ [step] then some .directory else tree.at? x :=
        fun x => at?_put (by simp)
      have hstep : tree.ensureFrom location (step :: rest) =
          (tree.put (location ++ [step]) .directory).ensureFrom (location ++ [step]) rest := by
        rw [ensureFrom, enterOrMake, hnext]
        simp only [hplace]
      have hway' : ∀ x, x <+: location ++ [step] →
          (tree.put (location ++ [step]) .directory).at? x = some .directory := by
        intro x hx
        rw [hput]
        rcases List.prefix_concat_iff.1 hx with rfl | hx
        · rw [if_pos rfl]
        · rw [hway x hx, ite_self]
      rw [hstep, hsplit]
      obtain ⟨⟨x, content, hx, hfile⟩, -⟩ | ⟨hfree, after, hafter, hopens⟩ :=
        ih (hclosed.put_directory hlocation) hsteps.2 hway'
      · exfalso
        rcases List.prefix_or_prefix_of_prefix hx
          (List.prefix_append (location ++ [step]) rest) with
          hx | ⟨further, rfl⟩
        · exact absurd ((hway' x hx).symm.trans hfile) (by simp)
        · by_cases hnil : further = []
          · rw [hput, hnil, List.append_nil, if_pos rfl] at hfile
            cases hfile
          · rw [hput, if_neg (by simpa using hnil)] at hfile
            have hdirectory := hclosed.directory_of_append hnil (hfile ▸ Option.some_ne_none _)
            simp [hplace] at hdirectory
      · refine .inr ⟨?_, after, hafter, hopens.on_way, fun x hx => ?_⟩
        · rintro ⟨x, content, hx, hfile⟩
          refine hfree ⟨x, content, hx, ?_⟩
          rw [hput, if_neg, hfile]
          rintro rfl
          simp [hplace] at hfile
        · rw [hopens.elsewhere x hx, hput, if_neg]
          rintro rfl
          exact hx (List.prefix_append ..)

/-- **Making directories** in a directory tree: either a file is in the way and nothing is made, or
the way is opened. -/
theorem makeDirectories_cases {tree : Tree} {working : Location} {path : String}
    (hclosed : tree.IsClosed) (hworking : tree.at? working = some .directory)
    (hsteps : ∀ s ∈ stepsFrom working path, IsOrdinary s)
    (hpath : path = "" ∨ isImpossible path = false) :
    (tree.IsObstructed (stepsFrom working path) ∧
      tree.makeDirectories working path = (false, tree)) ∨
    (¬tree.IsObstructed (stepsFrom working path) ∧
      ∃ after, tree.makeDirectories working path = (true, after) ∧
        tree.Opens after (stepsFrom working path)) := by
  rcases hpath with rfl | hpath
  · -- the empty path is the working directory, to which nothing has to be made
    have hhere : stepsFrom working "" = working := List.append_nil working
    have hway := fun x (hx : x <+: working) => hclosed.directory_of_prefix hworking hx
    rw [hhere]
    refine .inr ⟨?_, tree, rfl, hway, fun _ _ => rfl⟩
    rintro ⟨x, content, hx, hfile⟩
    exact absurd ((hway x hx).symm.trans hfile) (by simp)
  · have hempty : path.isEmpty = false := by
      simp only [isImpossible, Bool.or_eq_false_iff] at hpath
      exact hpath.1.1
    have hlast : (stepsFrom working path).getLast? ≠ some "." := fun hlast =>
      (hsteps _ (List.mem_of_getLast? hlast)).not_dot rfl
    rw [makeDirectories, if_neg (by simp [hempty]), if_neg (by simp [hpath]), ensure, if_neg hlast]
    exact @ensureFrom_cases tree [] _ hclosed hsteps (by simp)

/-! ## Files stay -/

/-- The trees have the same files. -/
def SameFiles (first second : Tree) : Prop :=
  ∀ x content, first.at? x = some (.file content) ↔ second.at? x = some (.file content)

theorem SameFiles.refl (tree : Tree) : tree.SameFiles tree := fun _ _ => Iff.rfl

theorem SameFiles.trans {first second third : Tree} (h : first.SameFiles second)
    (h' : second.SameFiles third) : first.SameFiles third :=
  fun x content => (h x content).trans (h' x content)

/-- A directory put where nothing was changes no files. -/
theorem sameFiles_put_directory {tree : Tree} {place : Location} (h : tree.at? place = none) :
    tree.SameFiles (tree.put place .directory) := by
  have hplace : place ≠ [] := by
    rintro rfl
    simp at h
  intro x content
  rw [at?_put hplace]
  by_cases hx : x = place
  · simp [hx, h]
  · rw [if_neg hx]

/-- Making directories changes no files. -/
theorem sameFiles_ensureFrom (tree : Tree) (location : Location) (steps : List String) :
    tree.SameFiles (tree.ensureFrom location steps).2 := by
  induction steps generalizing tree location with
  | nil => exact .refl tree
  | cons step rest ih =>
    rw [ensureFrom, enterOrMake]
    cases next location step with
    | none => exact .refl tree
    | some place =>
      cases hplace : tree.at? place with
      | none => simpa [hplace] using (sameFiles_put_directory hplace).trans (ih _ place)
      | some node =>
        cases node with
        | directory => simpa [hplace] using ih tree place
        | file content => simpa [hplace] using SameFiles.refl tree

/-- Making directories makes, changes and removes no file, whether it succeeds or not. -/
theorem sameFiles_makeDirectories (tree : Tree) (working : Location) (path : String) :
    tree.SameFiles (tree.makeDirectories working path).2 := by
  unfold makeDirectories ensure
  split
  · exact .refl tree
  · split
    · exact .refl tree
    · split
      · have hfiles := sameFiles_ensureFrom tree []
          ((stepsFrom working path).filter fun step => step ≠ ".").dropLast
        split <;> rename_i heq <;> rwa [heq] at hfiles
      · exact sameFiles_ensureFrom tree [] _

end Tree

end RelationalAvro.Files
