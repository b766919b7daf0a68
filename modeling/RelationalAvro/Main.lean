import RelationalAvro.CommandLine.Run

/-!
# The program

The outermost layer: the file system as the surroundings of a run, and the exit status.
-/

namespace RelationalAvro

open Files (Host)

/-- How the program is called. -/
def usage : String :=
  "usage: MODEL [OUT_DIR] [--namespace NAMESPACE] [--type-mapping AVRO=TYPE]... "
    ++ "[--default-scale N] [--inline-enums-per-record] [--stdout]"

/-- Does `action` succeed? -/
private def succeeds (action : IO Unit) : IO Bool := do
  try
    action
    return true
  catch _ => return false

/-- All bytes that are left on the stream, after those already read. -/
private partial def drain (stream : IO.FS.Stream) (read : ByteArray) : IO ByteArray := do
  let more ← stream.read 65536
  if more.isEmpty then return read else drain stream (read ++ more)

instance : Host IO where
  readFile? path := do
    try
      return some (← IO.FS.readBinFile path)
    catch _ => return none
  readInput := do drain (← IO.getStdin) .empty
  makeDirectories path := if path.isEmpty then return true else succeeds (IO.FS.createDirAll path)
  writeFile path content := succeeds (IO.FS.writeBinFile path content)

end RelationalAvro

open RelationalAvro in
/-- Runs the command line and exits with 0 on success, 1 on a fault and 2 if the command line itself
is at fault. A request for help counts as the latter: it gets the usage and the status 2. -/
def main (arguments : List String) : IO UInt32 := do
  match CommandLine.Options.ofArguments? arguments with
  | none =>
    IO.eprintln RelationalAvro.usage
    return 2
  | some options =>
    let report ← CommandLine.run options
    IO.print report.output
    IO.eprint report.errors
    return report.status.toUInt32
