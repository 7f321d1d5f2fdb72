/-
This file holds the paths of files.
-/

import SicXe.Text.Basic

namespace SicXe.Path

/-- The null character ends a path, so no path holds one. -/
def isWellFormed (path : Text) : Bool :=
  !path.contains '\x00'

/-- The part that a path has before its first component; exactly two slashes are kept. -/
def rootOf (path : Text) : Text :=
  match path.takeWhile (· == '/') with
  | [] => []
  | ['/', '/'] => ['/', '/']
  | _ => ['/']

/-- The components that matter: neither empty nor a single dot. -/
def components (path : Text) : List Text :=
  (List.splitOn '/' path).filter fun part => part != [] && part != ['.']

/-- The shortest way to write a path; the empty path is the working directory. -/
def normal (path : Text) : Text :=
  match rootOf path ++ Text.join '/' (components path) with
  | [] => ['.']
  | shown => shown

/-- The name without its last extension; a dot at either end begins none. -/
def stem (name : Text) : Text :=
  match Text.cut? '.' name.reverse with
  | some (extension, before) =>
    if extension = [] ∨ before = [] then name else before.reverse
  | none => name

/-- The last component of a path gets another extension. -/
def withExtension (path extension : Text) : Text :=
  match Text.cut? '/' path.reverse with
  | some (name, directory) => directory.reverse ++ '/' :: (stem name.reverse ++ extension)
  | none => stem path ++ extension

end SicXe.Path
