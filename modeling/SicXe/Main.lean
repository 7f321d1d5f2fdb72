/-
This file holds the command line program.
-/

import SicXe.Command.Run

namespace SicXe

/-- The status of a path in the working directory. -/
def fileStatus (path : String) : IO FileStatus := do
  let place := (← IO.currentDir) / path
  if path.isEmpty || !(← place.pathExists) then return .absent
  else if ← place.isDir then return .directory
  else return .file

def fileErrorOf : IO.Error → FileError
  | .noFileOrDirectory .. => .missing
  | .inappropriateType .. => .notDirectory
  | .invalidArgument .. => .nameTooLong
  | _ => .denied

instance : Files IO where
  standardCatalog := "/usr/local/share/sicxe_asm/data/inst.data".toList
  status path := fileStatus (String.ofList path)
  read path := do
    if (← fileStatus (String.ofList path)) = .directory then return .error .isDirectory
    try
      return .ok (← IO.FS.readBinFile (String.ofList path)).toList
    catch error => return .error (fileErrorOf error)
  write path bytes := do
    if (← fileStatus (String.ofList path)) = .directory then return .error .isDirectory
    try
      IO.FS.writeBinFile (String.ofList path) bytes.toByteArray
      return .ok ()
    catch error => return .error (fileErrorOf error)

end SicXe

def main (arguments : List String) : IO UInt32 := do
  match ← SicXe.Command.run (arguments.map String.toList) with
  | .ok outcome =>
    (← IO.getStdout).putStr outcome.standardOutput
    (← IO.getStderr).putStr outcome.standardError
    return UInt32.ofNat outcome.exitCode
  | .error failure =>
    (← IO.getStderr).putStr (failure.message ++ "\n")
    return 1
