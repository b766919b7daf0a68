import RelationalAvro.Files.Path

/-!
# Directory trees

A tree of directories and files, known by their locations: the names that lead to them from the
root. A path is walked step by step from the root, first to the working directory unless it starts
at the root itself, and every step but the last must lead to a directory. The dot steps stay, and
the double dot steps go up, except at the root, where they stay as well.
-/

namespace RelationalAvro.Files

/-- What can be at a location. -/
inductive Node where
  | directory
  | file (content : ByteArray)

/-- The directories below the root, and the files. -/
structure Tree where
  nodes : List (Location × Node) := []

/-- The bytes that a name may have. -/
def maxNameBytes : Nat :=
  255

namespace Tree

/-- What is at the location. -/
def at? (tree : Tree) (location : Location) : Option Node :=
  if location = [] then some .directory else tree.nodes.lookup location

/-- The tree with `node` at the location, whatever was there. -/
def put (tree : Tree) (location : Location) (node : Node) : Tree :=
  { nodes := tree.nodes.filter (fun entry => entry.1 ≠ location) ++ [(location, node)] }

/-- The tree with `node` at the location and directories all the way to it. -/
def plant (tree : Tree) (location : Location) (node : Node) : Tree :=
  let above := (List.range location.length).tail.map location.take
  (above.foldl (fun tree place => tree.put place .directory) tree).put location node

/-- The root is a directory. -/
@[simp] theorem at?_nil (tree : Tree) : tree.at? [] = some .directory := rfl

/-- A node put at the end, after all others at its location are gone, is the one found there. -/
private theorem lookup_filter_append (nodes : List (Location × Node)) (location x : Location)
    (node : Node) :
    (nodes.filter (fun entry => entry.1 ≠ location) ++ [(location, node)]).lookup x =
      if x = location then some node else nodes.lookup x := by
  induction nodes with
  | nil =>
    by_cases hx : x = location
    · simp [hx]
    · simp [List.lookup_cons, hx, beq_eq_false_iff_ne.2 hx]
  | cons entry rest ih =>
    obtain ⟨place, content⟩ := entry
    by_cases hp : place = location
    · -- an old node at the location is dropped before the new one is put at the end
      subst hp
      rw [List.filter_cons_of_neg (by simp), ih]
      by_cases hx : x = place
      · simp [hx]
      · simp [hx, List.lookup_cons, beq_eq_false_iff_ne.2 hx]
    · rw [List.filter_cons_of_pos (by simpa using hp), List.cons_append, List.lookup_cons, ih,
        List.lookup_cons]
      by_cases hx : x = place
      · subst hx
        simp [hp]
      · simp [beq_eq_false_iff_ne.2 hx]

/-- Putting something at a location changes that location only. -/
theorem at?_put {tree : Tree} {location x : Location} {node : Node} (h : location ≠ []) :
    (tree.put location node).at? x = if x = location then some node else tree.at? x := by
  unfold at? put
  by_cases hx : x = []
  · subst hx
    simp [Ne.symm h]
  · simp only [hx, if_false]
    exact lookup_filter_append tree.nodes location x node

/-! ## Walking -/

/-- Where a step leads, whether anything is there or not. A name that is too long leads nowhere. -/
def next (location : Location) (step : String) : Option Location :=
  if step = "." then some location
  else if step = ".." then some location.dropLast
  else if maxNameBytes < step.utf8ByteSize then none
  else some (location ++ [step])

/-- Where a step leads, which must be a directory. -/
def enter (tree : Tree) (location : Location) (step : String) : Option Location :=
  match next location step with
  | none => none
  | some place =>
    match tree.at? place with
    | some .directory => some place
    | _ => none

/-- Where steps from a location lead, through directories up to the last step, which may lead to
anything or nothing. -/
def locateFrom (tree : Tree) (location : Location) : List String → Option Location
  | [] => some location
  | [step] => next location step
  | step :: further :: rest =>
    match tree.enter location step with
    | none => none
    | some place => locateFrom tree place (further :: rest)

/-- Where steps lead from the root. -/
def locate (tree : Tree) (steps : List String) : Option Location :=
  tree.locateFrom [] steps

/-- Do the steps lead to a directory? -/
def hasDirectory (tree : Tree) (steps : List String) : Bool :=
  match tree.locate steps with
  | none => false
  | some place =>
    match tree.at? place with
    | some .directory => true
    | _ => false

/-! ## Reading and writing -/

/-- The content of the file at the path. -/
def read? (tree : Tree) (working : Location) (path : String) : Option ByteArray :=
  if isImpossible path || endsInSlash path then none
  else
    match tree.locate (stepsFrom working path) with
    | none => none
    | some place =>
      match tree.at? place with
      | some (.file content) => some content
      | _ => none

/-- The tree with a file at the path, new or in place of an older one. Its directory must be there,
and it must not be a directory itself. -/
def write? (tree : Tree) (working : Location) (path : String) (content : ByteArray) : Option Tree :=
  if isImpossible path || endsInSlash path then none
  else
    match tree.locate (stepsFrom working path) with
    | none => none
    | some place =>
      match tree.at? place with
      | some .directory => none
      | _ => some (tree.put place (.file content))

/-- Where a step leads and the tree with a directory there, made if nothing is there yet. -/
def enterOrMake (tree : Tree) (location : Location) (step : String) : Option (Location × Tree) :=
  match next location step with
  | none => none
  | some place =>
    match tree.at? place with
    | some .directory => some (place, tree)
    | some (.file _) => none
    | none => some (place, tree.put place .directory)

/-- Sees to it that the steps from a location lead through directories, and says if they do
afterwards. What is made before something in the way is met stays. -/
def ensureFrom (tree : Tree) (location : Location) : List String → Bool × Tree
  | [] => (true, tree)
  | step :: rest =>
    match tree.enterOrMake location step with
    | none => (false, tree)
    | some (place, tree) => ensureFrom tree place rest

/-- Sees to it that the steps lead to a directory, and says if they do afterwards. A dot step at the
end asks for a directory that is there already: for it only the way to that directory is made. -/
def ensure (tree : Tree) (steps : List String) : Bool × Tree :=
  if steps.getLast? = some "." then
    match tree.ensureFrom [] (steps.filter fun step => step ≠ ".").dropLast with
    | (true, tree) => (tree.hasDirectory steps, tree)
    | (false, tree) => (false, tree)
  else tree.ensureFrom [] steps

/-- Sees to it that there is a directory at the path, and says if there is one afterwards. The empty
path needs none. -/
def makeDirectories (tree : Tree) (working : Location) (path : String) : Bool × Tree :=
  if path.isEmpty then (true, tree)
  else if isImpossible path then (false, tree)
  else tree.ensure (stepsFrom working path)

end Tree

end RelationalAvro.Files
