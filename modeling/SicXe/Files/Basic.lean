/-
This file holds what the program asks of a file system.
-/

import SicXe.Text.Utf8

namespace SicXe

/-- Why a file cannot be read or written. -/
inductive FileError where
  | missing
  | denied
  | notDirectory
  | isDirectory
  | nameTooLong
  deriving DecidableEq, Repr

def FileError.code : FileError → Nat
  | missing => 2
  | denied => 13
  | notDirectory => 20
  | isDirectory => 21
  | nameTooLong => 36

def FileError.reason : FileError → String
  | missing => "No such file or directory"
  | denied => "Permission denied"
  | notDirectory => "Not a directory"
  | isDirectory => "Is a directory"
  | nameTooLong => "File name too long"

/-- What stands at a path. -/
inductive FileStatus where
  | absent
  | file
  | directory
  deriving DecidableEq, Repr

class Files (m : Type → Type) where
  /-- The path of the standard catalog. -/
  standardCatalog : Text
  status : Text → m FileStatus
  read : Text → m (Except FileError Text.Bytes)
  write : Text → Text.Bytes → m (Except FileError Unit)

end SicXe
