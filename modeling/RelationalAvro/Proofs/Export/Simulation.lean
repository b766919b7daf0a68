import RelationalAvro.Export
import RelationalAvro.Proofs.Files.Writing

/-!
# Runs in memory

On a directory tree in memory a run is a function: from a world to an outcome and the world it
leaves behind (`simulate`). Loading a model leaves the world as it is (`simulate_loadModel`).
Documents are written one after another up to the first that cannot be written
(`simulate_mapM_writeDocument_cases`), after the directory has been made and if no name is repeated.
-/

namespace RelationalAvro

open Files (Host Simulated World)
open Model (Database)

/-- The outcome of a run in memory, and the world afterwards. -/
def simulate {α : Type} (run : ExceptT Fault Simulated α) (world : World) :
    Except Fault α × World :=
  StateT.run run.run world

section

variable {α β : Type} (world : World)

/-- What needs no surroundings leaves them as they are. -/
theorem simulate_liftExcept (outcome : Except Fault α) :
    simulate (liftM outcome) world = (outcome, world) := rfl

theorem simulate_lift (action : Simulated α) :
    simulate (liftM action) world = (.ok (action world).1, (action world).2) := rfl

/-- One run after another: the second goes on in the world that the first leaves behind, unless the
first ends in a fault. -/
theorem simulate_bind (run : ExceptT Fault Simulated α) (f : α → ExceptT Fault Simulated β) :
    simulate (run >>= f) world = match simulate run world with
      | (.ok a, next) => simulate (f a) next
      | (.error fault, next) => (.error fault, next) := by
  unfold simulate
  rw [ExceptT.run_bind, StateT.run_bind]
  rcases StateT.run run.run world with ⟨_ | _, next⟩ <;> rfl

end

/-! ## Loading -/

/-- The bytes that are to be read at the path, or on standard input if the path is a dash. -/
def Files.World.bytes? (world : World) (path : String) : Option ByteArray :=
  if path = "-" then some world.input else world.tree.read? world.working path

/-- The model at the path, or on standard input if the path is a dash. -/
def Files.World.model (world : World) (path : String) : Except Fault Database :=
  match world.bytes? path with
  | none => .error .inaccessible
  | some bytes => Database.ofBytes bytes

/-- Loading gives the model of the world and leaves the world as it is. -/
theorem simulate_loadModel (path : String) (world : World) :
    simulate (loadModel path) world = (world.model path, world) := by
  have hread : simulate (readModel path) world = (match world.bytes? path with
      | none => .error .inaccessible
      | some bytes => .ok bytes, world) := by
    unfold readModel World.bytes?
    by_cases hpath : path = "-"
    · rw [if_pos hpath, if_pos hpath]
      rfl
    · rw [if_neg hpath, if_neg hpath, simulate_bind, simulate_lift]
      dsimp only [Host.readFile?]
      cases world.tree.read? world.working path <;> rfl
  rw [loadModel, simulate_bind, hread, World.model]
  cases world.bytes? path <;> rfl

/-- Loading and converting a model leave the world as it is. -/
theorem simulate_loadModel_convert {α : Type} (config : Config) (path : String)
    (f : List Document → ExceptT Fault Simulated α) (world : World) :
    simulate (do
      let database ← loadModel path
      let documents ← Converter.convert { config } database
      f documents) world =
    match world.model path >>= Converter.convert { config } with
      | .ok documents => simulate (f documents) world
      | .error fault => (.error fault, world) := by
  rw [simulate_bind, simulate_loadModel]
  cases world.model path with
  | error fault => rfl
  | ok database =>
    have hconvert : (Except.ok database >>= Converter.convert { config }) =
        Converter.convert { config } database := rfl
    dsimp only
    rw [simulate_bind, simulate_liftExcept, hconvert]
    cases Converter.convert { config } database <;> rfl

/-! ## Writing -/

/-- The path of the file of a document in the directory. -/
def Document.pathIn (directory : String) (document : Document) : String :=
  Files.join directory document.fileName

/-- The file of a document in the directory: its path and its content. -/
def Document.entryIn (directory : String) (document : Document) : String × ByteArray :=
  (document.pathIn directory, document.content)

/-- A demand fails if nothing was done, and what the attempt left stays. -/
theorem simulate_demand (done : Simulated Bool) (world : World) :
    simulate (demand done) world = match done world with
      | (true, next) => (.ok (), next)
      | (false, next) => (.error .inaccessible, next) := by
  rw [demand, simulate_bind, simulate_lift]
  rcases done world with ⟨_ | _, next⟩ <;> rfl

/-- A document is written if its file can be. -/
theorem simulate_writeDocument (directory : String) (document : Document) (world : World) :
    simulate (writeDocument directory document) world =
      match world.tree.write? world.working (document.pathIn directory) document.content with
      | none => (.error .inaccessible, world)
      | some tree => (.ok (document.pathIn directory), { world with tree }) := by
  rw [writeDocument, simulate_bind, simulate_demand]
  simp only [Host.writeFile, Document.pathIn]
  cases world.tree.write? world.working (Files.join directory document.fileName)
    document.content <;> rfl

/-- Either all documents are written, or those up to one whose file cannot be written. -/
theorem simulate_mapM_writeDocument_cases (directory : String) (documents : List Document)
    (world : World) :
    (∃ tree, world.tree.Writes world.working (documents.map (Document.entryIn directory)) tree ∧
      simulate (documents.mapM (writeDocument directory)) world =
        (.ok (documents.map (Document.pathIn directory)), { world with tree })) ∨
    (∃ earlier blocked later tree, documents = earlier ++ blocked :: later ∧
      world.tree.Writes world.working (earlier.map (Document.entryIn directory)) tree ∧
      tree.write? world.working (blocked.pathIn directory) blocked.content = none ∧
      simulate (documents.mapM (writeDocument directory)) world =
        (.error .inaccessible, { world with tree })) := by
  induction documents generalizing world with
  | nil => exact .inl ⟨world.tree, .nil, rfl⟩
  | cons document rest ih =>
    rw [List.mapM_cons, simulate_bind, simulate_writeDocument]
    -- the first document is blocked itself, or the rest goes on in the tree with its file
    cases hwrite : world.tree.write? world.working (document.pathIn directory) document.content with
    | none => exact .inr ⟨[], document, rest, world.tree, rfl, .nil, hwrite, rfl⟩
    | some next =>
      dsimp only
      rw [simulate_bind]
      obtain ⟨tree, hwrites, hrun⟩ | ⟨earlier, blocked, later, tree, rfl, hwrites, hnone, hrun⟩ :=
        ih { world with tree := next }
      · exact .inl ⟨tree, .cons hwrite hwrites, by rw [hrun]; rfl⟩
      · exact .inr ⟨document :: earlier, blocked, later, tree, rfl, .cons hwrite hwrites, hnone,
          by rw [hrun]⟩

/-- Unless a name is repeated, the directory is made and then the documents are written. -/
theorem simulate_writeDocuments (directory : String) (documents : List Document) (world : World) :
    simulate (writeDocuments directory documents) world =
      match firstRepeated? (documents.map Document.name),
        world.tree.makeDirectories world.working directory with
      | some name, _ => (.error (.duplicateOutput name), world)
      | none, (false, tree) => (.error .inaccessible, { world with tree })
      | none, (true, tree) =>
        simulate (documents.mapM (writeDocument directory)) { world with tree } := by
  unfold writeDocuments
  cases firstRepeated? (documents.map Document.name) with
  | some name => rfl
  | none =>
    dsimp only
    rw [simulate_bind, simulate_demand]
    simp only [Host.makeDirectories]
    rcases world.tree.makeDirectories world.working directory with ⟨_ | _, tree⟩ <;> rfl

end RelationalAvro
