import RelationalAvro.Conversion.Document
import RelationalAvro.Files.Host
import RelationalAvro.Model.Loaded

/-!
# Loading models and writing documents

A model is loaded from a file or from standard input. Documents are written one file each into a
directory, which is made if it is missing. Repeated names are found before anything is touched; a
file that cannot be written ends the run, and the files before it stay.
-/

namespace RelationalAvro

open Files (Host)
open Model (Database)

/-- The name of the file of a document. -/
def Document.fileName (document : Document) : String :=
  document.name ++ ".avsc"

/-- The content of the file of a document. -/
def Document.content (document : Document) : ByteArray :=
  (document.text ++ "\n").toUTF8

/-- The model that bytes give. -/
def Model.Database.ofBytes (bytes : ByteArray) : Except Fault Database :=
  match String.fromUTF8? bytes with
  | none => .error .inaccessible
  | some text =>
    match Database.parse? text with
    | none => .error .malformedModel
    | some database => .ok database

section

variable {m : Type → Type} [Monad m] [Host m]

/-- Ends the run if something could not be done. -/
def demand (done : m Bool) : ExceptT Fault m Unit := do
  unless ← done do throw .inaccessible

/-- The bytes of the model at the path, or of standard input if the path is a dash. -/
def readModel (path : String) : ExceptT Fault m ByteArray := do
  if path = "-" then (Host.readInput : m ByteArray)
  else
    match ← (Host.readFile? path : m (Option ByteArray)) with
    | some bytes => return bytes
    | none => throw .inaccessible

/-- The model at the path, or on standard input if the path is a dash. -/
def loadModel (path : String) : ExceptT Fault m Database := do
  let bytes ← readModel path
  Database.ofBytes bytes

/-- Writes the file of a document, and says at which path. -/
def writeDocument (directory : String) (document : Document) : ExceptT Fault m String := do
  let path := Files.join directory document.fileName
  demand (Host.writeFile path document.content)
  return path

/-- Writes the files of documents, and says at which paths. -/
def writeDocuments (directory : String) (documents : List Document) :
    ExceptT Fault m (List String) := do
  match firstRepeated? (documents.map Document.name) with
  | some name => throw (.duplicateOutput name)
  | none =>
    demand (Host.makeDirectories directory)
    documents.mapM (writeDocument directory)

/-- Converts the model at a path into files, and says at which paths. -/
def exportModel (config : Config) (model directory : String) : ExceptT Fault m (List String) := do
  let database ← loadModel model
  let documents ← Converter.convert { config } database
  writeDocuments directory documents

end

end RelationalAvro
