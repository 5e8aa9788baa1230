import Worksheet.Command.Line

/-! # The program

  Reads files from the disk, prints what a command answers, and reports errors apart from it.
-/

namespace Worksheet

/-- Why the system says that a file cannot be read. -/
def ReadError.ofSystem : IO.Error → ReadError
  | .noFileOrDirectory .. => .notFound
  | .inappropriateType _ code _ => if code = 20 then .notDirectory else .isDirectory
  | .invalidArgument _ 36 _ => .nameTooLong
  | e => .other (toString e)

/-- The files on the disk. -/
def diskFiles : FileAccess IO where
  read := fun path => do
    try
      let bytes ← IO.FS.readBinFile (String.ofList path)
      return .ok bytes.toList
    catch e => return .error (.ofSystem e)
  locate := fun path => do
    try
      let place ← IO.FS.realPath (String.ofList path)
      return place.toString.toList
    catch _ =>
      if path.head? = some '/' then return path
      else return (← IO.currentDir).toString.toList ++ '/' :: path

end Worksheet

open Worksheet in
/-- Runs the program and ends it with its exit code. -/
def main (args : List String) : IO UInt32 := do
  let outcome ← CommandLine.run diskFiles (args.map String.toList)
  match outcome with
  | .printed text => IO.print (String.ofList text)
  | .failed e => IO.eprintln ("Error: " ++ e.message)
  | .misused => IO.eprint (String.ofList CommandLine.usage)
  return outcome.code.toUInt32
