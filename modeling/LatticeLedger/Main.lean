import LatticeLedger.Arguments

/-!
# The program

The commands run on the files of the system. Results go to standard output, errors to standard
error, and the exit code tells a good verdict from a bad one and from an error.
-/

namespace LatticeLedger

/-- A failure of the system as a file error. -/
def FileError.ofSystem : IO.Error → FileError
  | .noFileOrDirectory .. => .notFound
  | error => .other (toString error)

instance : FileSystem IO where
  readText path := do
    try return decodeText (← IO.FS.readBinFile path)
    catch error => return .error (.ofSystem error)
  writeText path text := do
    try
      IO.FS.writeFile path text
      return .ok ()
    catch error => return .error (.ofSystem error)

end LatticeLedger

/-- Runs the command that the arguments name. -/
def main (arguments : List String) : IO UInt32 := do
  let ending ← (LatticeLedger.runArguments arguments : IO LatticeLedger.Ending)
  IO.print ending.stdout
  match ending.message with
  | some message => IO.eprintln message
  | none => if ending.code = 2 then IO.eprint LatticeLedger.usage
  return ending.code.toUInt32
