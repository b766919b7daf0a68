import RelationalAvro.CommandLine.Options
import RelationalAvro.Export

/-!
# Running a command line

A run settles the configuration, loads the model and converts it. Then it writes files, or it prints
the documents with an empty line between each two.
-/

namespace RelationalAvro.CommandLine

open Files (Host)

/-- How a run ends: its exit status and what it prints on the two outputs. -/
structure Report where
  status : Nat
  output : String
  errors : String
  deriving DecidableEq, Repr

/-- What is printed for documents. -/
def listing (documents : List Document) : String :=
  "\n\n".intercalate (documents.map Document.text) ++ "\n"

/-- The report of a run that printed `output`, or ended in a fault. -/
def Report.ofOutcome : Except Fault String → Report
  | .ok output => { status := 0, output, errors := "" }
  | .error fault => { status := 1, output := "", errors := "Error: " ++ fault.message ++ "\n" }

section

variable {m : Type → Type} [Monad m] [Host m]

/-- Does what the options ask for, and gives what is to be printed. -/
def perform (options : Options) : ExceptT Fault m String := do
  let config ← (options.config : Except Fault Config)
  match options.directory, options.print with
  | some directory, false =>
    let _ ← exportModel config options.model directory
    return ""
  | _, _ =>
    let database ← loadModel options.model
    let documents ← Converter.convert { config } database
    return listing documents

/-- Does what the options ask for and reports on it. -/
def run (options : Options) : m Report := do
  return Report.ofOutcome (← (perform options).run)

end

end RelationalAvro.CommandLine
