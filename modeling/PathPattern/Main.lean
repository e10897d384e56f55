import PathPattern.CommandLine.Run

/-!
# The program

Reads the metadata files that the arguments name, runs the command, and prints what the run
leaves behind.
-/

namespace PathPattern.CommandLine

/-- What a path leads to on disk. -/
def diskEntry (path : String) : IO Entry := do
  try
    let bytes ← IO.FS.readBinFile path
    match String.fromUTF8? bytes with
    | some content => return .text content
    | none => return .binary
  catch
    | .noFileOrDirectory .. => return .missing
    | _ => return .directory

/-- Runs the program on the disk and prints the outcome. -/
def runOnDisk (arguments : List String) : IO UInt32 := do
  let found ← (filesRead arguments).mapM fun path => return (path, ← diskEntry path)
  let outcome := run (fun path => (found.lookup path).getD .missing) arguments
  IO.print outcome.out
  IO.eprint outcome.err
  return outcome.status.toUInt32

end PathPattern.CommandLine

/-- Runs the program with its arguments. -/
def main (arguments : List String) : IO UInt32 := PathPattern.CommandLine.runOnDisk arguments
