import RelationalAvro.Files.Tree

/-!
# Surroundings of a run

A run reads files, reads its standard input, makes directories and writes files. It does so through
`Host`, so that the same program runs on the file system and on a directory tree in memory.
-/

namespace RelationalAvro.Files

/-- The surroundings of a run, in the effect `m`. What fails gives nothing, or false. -/
class Host (m : Type → Type) where
  /-- The content of a file. -/
  readFile? : String → m (Option ByteArray)
  /-- The whole of the standard input. -/
  readInput : m ByteArray
  /-- Make a directory and the directories on the way to it, as far as they are missing. -/
  makeDirectories : String → m Bool
  /-- Make or replace a file. -/
  writeFile : String → ByteArray → m Bool

/-- A directory tree, a working directory in it, and a standard input. -/
structure World where
  tree : Tree := {}
  working : Location := []
  input : ByteArray := .empty

/-- A run on a directory tree in memory. -/
abbrev Simulated := StateM World

instance : Host Simulated where
  readFile? path := fun world => (world.tree.read? world.working path, world)
  readInput := fun world => (world.input, world)
  makeDirectories path := fun world =>
    let (made, tree) := world.tree.makeDirectories world.working path
    (made, { world with tree })
  writeFile path content := fun world =>
    match world.tree.write? world.working path content with
    | none => (false, world)
    | some tree => (true, { world with tree })

end RelationalAvro.Files
