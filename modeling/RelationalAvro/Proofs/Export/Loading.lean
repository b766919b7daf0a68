import RelationalAvro.Proofs.Export.Simulation
import RelationalAvro.Proofs.Model.RoundTrip

/-!
# Loading what was written

A run that loads the text written for a model gets that model (`loadModel_write`), whatever strings
and settings it has. So a text that is loaded, written and loaded again comes to rest: neither the
model nor its text changes any more.
-/

namespace RelationalAvro

open Files (World)
open Model (Database)

/-- What is to be read at the path is the text written for the database. -/
def Files.World.HasWritten (world : World) (path : String) (database : Database) : Prop :=
  world.bytes? path = some database.write.toUTF8

/-- A written database is the model that is loaded. -/
theorem Files.World.HasWritten.model_eq {world : World} {path : String} {database : Database}
    (h : world.HasWritten path database) : world.model path = .ok database := by
  rw [World.model, h]
  exact Database.ofBytes_write database

/-- **Models read back**: loading the text of a database gives the database, and for a database that
has been loaded, from whatever text, writing and loading it again changes nothing. -/
theorem loadModel_write :
    (∀ (database : Database) (path : String) (world : World), world.HasWritten path database →
      simulate (loadModel path) world = (.ok database, world)) ∧
    ∀ (source path : String) (first second : World) (loaded : Database),
      (simulate (loadModel source) first).1 = .ok loaded → second.HasWritten path loaded →
      ∃ again, simulate (loadModel path) second = (.ok again, second) ∧
        again = loaded ∧ again.write = loaded.write := by
  have hback : ∀ (database : Database) (path : String) (world : World),
      world.HasWritten path database → simulate (loadModel path) world = (.ok database, world) :=
    fun database path world h => by rw [simulate_loadModel, h.model_eq]
  exact ⟨hback, fun _ path _ second loaded _ h => ⟨loaded, hback loaded path second h, rfl, rfl⟩⟩

/-- A database with a quotation mark, a control character and an empty text in it. -/
def oddDatabase : Database :=
  .ofTables
    [{ name := "say \"x\"\n", otherName := some "", columns := [
      { name := "\x01", columnType := "int", settings := { notNull := true, unique := true } }] }]
    [.ofNames "" ["∀", "\\"]]

/-- From a file, and from standard input after it has been loaded from that file. -/
theorem loadModel_write_oddDatabase :
    let file : World := { tree := Files.Tree.put {} ["odd.json"] (.file oddDatabase.write.toUTF8) }
    let input : World := { input := oddDatabase.write.toUTF8 }
    simulate (loadModel "odd.json") file = (.ok oddDatabase, file) ∧
      ∃ again, simulate (loadModel "-") input = (.ok again, input) ∧
        again = oddDatabase ∧ again.write = oddDatabase.write := by
  intro file input
  -- the content is left open here, so that it is not evaluated
  have hfile : ∀ content, World.bytes?
      { tree := Files.Tree.put {} ["odd.json"] (.file content) } "odd.json" = some content :=
    fun _ => rfl
  have hinput : ∀ content, World.bytes? { input := content } "-" = some content := fun _ => rfl
  have hload := loadModel_write.1 oddDatabase "odd.json" file (hfile _)
  exact ⟨hload, loadModel_write.2 "odd.json" "-" file input oddDatabase (by rw [hload]) (hinput _)⟩

end RelationalAvro
