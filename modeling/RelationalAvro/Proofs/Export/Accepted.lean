import RelationalAvro.Proofs.Export.Simulation
import RelationalAvro.Proofs.Json.Parsing
import RelationalAvro.Proofs.Model.Refusals
import RelationalAvro.Proofs.Model.RoundTrip

/-!
# Which texts are loaded

A run that loads a text gets a database exactly if the text spells it (`loadModel_eq_ok_iff`), and
it ends in a fault exactly if the text is malformed (`loadModel_eq_malformed_iff`). Both are said by
the grammar of documents and by what gives a record; how the text is read does not enter.
-/

namespace RelationalAvro

open Files (World)
open Json (IsDocument Value)
open Model (Database Kind Reaches)

namespace Model

/-- The text is a document whose value gives the database. -/
def Database.SpelledBy (database : Database) (text : String) : Prop :=
  ∃ value, database.GivenBy value ∧ value.Padded text.toList

/-- The text is no document, or some record of the document is faulty. -/
def IsMalformed (text : String) : Prop :=
  ¬IsDocument text.toList ∨ ∃ value kind part, value.Padded text.toList ∧
    Reaches .database value kind part ∧ kind.IsFaulty part

/-- A text gives a database exactly if it spells it. -/
theorem Database.parse?_eq_some_iff {text : String} {database : Database} :
    parse? text = some database ↔ database.SpelledBy text := by
  rw [parse?, Option.bind_eq_some_iff, SpelledBy]
  refine exists_congr fun value => ?_
  rw [Value.parse?_eq_some_iff, ofValue?_eq_some_iff, and_comm]

/-- A text gives no database exactly if it is malformed. -/
theorem Database.parse?_eq_none_iff {text : String} : parse? text = none ↔ IsMalformed text := by
  rw [parse?, IsMalformed, ← Value.parse?_eq_none_iff]
  cases hvalue : Value.parse? text.toList with
  | none => simp
  | some value =>
    have hunique : ∀ other, Value.Padded other text.toList ↔ other = value := by
      intro other
      rw [← Value.parse?_eq_some_iff, hvalue, Option.some.injEq, eq_comm]
    simp [hunique, ofValue?_eq_none_iff]

end Model

/-- What is to be read at the path is the text. -/
def Files.World.HasText (world : World) (path text : String) : Prop :=
  world.bytes? path = some text.toUTF8

/-- What a run loads when it is to read the text. -/
theorem Files.World.HasText.model_eq {world : World} {path text : String}
    (h : world.HasText path text) : world.model path = match Database.parse? text with
      | none => .error .malformedModel
      | some database => .ok database := by
  rw [World.model, h]
  exact Database.ofBytes_toUTF8 text

/-- **A text is loaded as the database that it spells**, in whatever way it spells it. -/
theorem loadModel_eq_ok_iff (text path : String) (world : World) (database : Database)
    (h : world.HasText path text) :
    simulate (loadModel path) world = (.ok database, world) ↔ database.SpelledBy text := by
  rw [simulate_loadModel, h.model_eq, ← Database.parse?_eq_some_iff]
  cases Database.parse? text <;> simp

/-- A database with a table in one schema and with another schema that is empty. -/
def spelledDatabase : Database where
  schemas := [
    { tables := [{ name := "t", note := some "\t", columns := [
      { name := "id", columnType := "int", settings := { null := true, unique := true } }] }] },
    {}]

/-- A spelling of it with records as objects and as arrays, with escapes and blanks, with an unknown
key twice, for half of a surrogate pair and for a large number, and with a repeated setting. -/
def spelledText : String :=
  "\n\x7b\"x\":\"\\ud800\",\"schem\\u0061s\":[\x7b\"tables\":[[\"t\",null,\"\\t\",[\x7b"
    ++ "\"settings\":[\"unique\",\x7b\"null\":null\x7d,\"unique\"],\"type\":\"int\",\"name\":\"id\"\x7d"
    ++ "]]]\x7d\t,[]],\"x\":1e999\x7d "

/-- From standard input. -/
theorem loadModel_spelledText :
    World.HasText { input := spelledText.toUTF8 } "-" spelledText ∧
      simulate (loadModel "-") { input := spelledText.toUTF8 } =
        (.ok spelledDatabase, { input := spelledText.toUTF8 }) := by
  -- the content is left open here, so that it is not evaluated
  have hinput : ∀ content, World.bytes? { input := content } "-" = some content := fun _ => rfl
  have hread : Database.parse? spelledText = some spelledDatabase := by
    unfold Database.parse? spelledText
    -- the characters of a short text are found much faster
    simp only [String.toList_append]
    decide +kernel
  have hspelled := Database.parse?_eq_some_iff.1 hread
  exact ⟨hinput _, (loadModel_eq_ok_iff spelledText "-" _ spelledDatabase (hinput _)).2 hspelled⟩

/-- **Nothing malformed is loaded**, and nothing else is refused. -/
theorem loadModel_eq_malformed_iff (text path : String) (world : World)
    (h : world.HasText path text) :
    simulate (loadModel path) world = (.error .malformedModel, world) ↔ Model.IsMalformed text := by
  rw [simulate_loadModel, h.model_eq, ← Database.parse?_eq_none_iff]
  cases Database.parse? text <;> simp

/-- A database of two tables, the second of which is named twice, once with an escape in the key. -/
def twiceNamedText : String :=
  "\x7b\"schemas\":[\x7b\"tables\":[[\"s\"],\x7b\"name\":\"t\",\"n\\u0061me\":\"t\"\x7d]\x7d]\x7d"

/-- A repeated name, and a document that something follows. -/
theorem loadModel_twiceNamedText :
    let malformed : List String := [twiceNamedText, "\x7b\x7d 0"]
    ∀ text ∈ malformed, World.HasText { input := text.toUTF8 } "-" text ∧
      simulate (loadModel "-") { input := text.toUTF8 } =
        (.error .malformedModel, { input := text.toUTF8 }) := by
  intro malformed text htext
  have hinput : ∀ content, World.bytes? { input := content } "-" = some content := fun _ => rfl
  have hnone : ∀ text ∈ malformed, Database.parse? text = none := by decide +kernel
  have hmalformed := Database.parse?_eq_none_iff.1 (hnone text htext)
  exact ⟨hinput _, (loadModel_eq_malformed_iff text "-" _ (hinput _)).2 hmalformed⟩

end RelationalAvro
