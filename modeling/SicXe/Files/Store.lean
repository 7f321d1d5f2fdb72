/-
This file holds file systems in memory.
-/

import SicXe.Catalog.Standard
import SicXe.Files.Basic

namespace SicXe

/-- The directories and the files with their bytes.
A place is the list of the components that lead to it from the working directory, or from the
root if a slash comes first; two dots come first above the working directory. -/
structure FileStore where
  directories : List (List Text) := []
  files : List (List Text × Text.Bytes) := []
  deriving DecidableEq, Repr

namespace FileStore

/-- What a path leads to; a free place is one where a file can be created. -/
inductive Target where
  | directory (path : List Text)
  | file (path : List Text)
  | free (path : List Text)
  deriving DecidableEq, Repr

/-- The working directory and those above it are always there. -/
def isDirectory (store : FileStore) (place : List Text) : Bool :=
  place.all (· == "..".toList) || store.directories.contains place

def content? (store : FileStore) (place : List Text) : Option Text.Bytes :=
  store.files.lookup place

/-- The directory above another; the root is above itself. -/
def above (here : List Text) : List Text :=
  match here.getLast? with
  | none | some ['.', '.'] => here ++ ["..".toList]
  | some ['/'] => here
  | some _ => here.dropLast

/-- The most bytes that a component has. -/
def maximumName : Nat := 255

/-- The most bytes that a path has. -/
def maximumPath : Nat := 4095

/-- The components are followed one after the other; two dots lead back. -/
def follow (store : FileStore) (here : List Text) : List Text → Except FileError Target
  | [] => .ok (.directory here)
  | part :: rest =>
    if part = [] ∨ part = ['.'] then store.follow here rest
    else if part = ['.', '.'] then store.follow (above here) rest
    else if maximumName < (Text.encodeUtf8 part).length then .error .nameTooLong
    else
      let next := here ++ [part]
      if store.isDirectory next then store.follow next rest
      else match store.content? next, rest with
        | some _, [] => .ok (.file next)
        | some _, _ => .error .notDirectory
        | none, [] => .ok (.free next)
        | none, _ => .error .missing

/-- Nothing stands at the empty path; a slash in front leads from the root. -/
def find (store : FileStore) (path : Text) : Except FileError Target :=
  if maximumPath < (Text.encodeUtf8 path).length then .error .nameTooLong
  else match path with
    | [] => .error .missing
    | '/' :: rest => store.follow ["/".toList] (List.splitOn '/' rest)
    | _ => store.follow [] (List.splitOn '/' path)

def status (store : FileStore) (path : Text) : FileStatus :=
  match store.find path with
  | .ok (.directory _) => .directory
  | .ok (.file _) => .file
  | _ => .absent

def read (store : FileStore) (path : Text) : Except FileError Text.Bytes :=
  match store.find path with
  | .error error => .error error
  | .ok (.directory _) => .error .isDirectory
  | .ok (.free _) => .error .missing
  | .ok (.file place) =>
    match store.content? place with
    | some bytes => .ok bytes
    | none => .error .missing

/-- The bytes replace those of the file, or make a new file behind the others. -/
def put (store : FileStore) (place : List Text) (bytes : Text.Bytes) : FileStore :=
  { store with
    files := if (store.content? place).isSome then
        store.files.map fun file => if file.1 = place then (place, bytes) else file
      else store.files ++ [(place, bytes)] }

def write (store : FileStore) (path : Text) (bytes : Text.Bytes) : Except FileError FileStore :=
  match store.find path with
  | .error error => .error error
  | .ok (.directory _) => .error .isDirectory
  | .ok (.free place) | .ok (.file place) => .ok (store.put place bytes)

/-- The files in and below the working directory. -/
def listing (store : FileStore) : List (List Text × Text.Bytes) :=
  store.files.filter fun file => file.1.head? != some "/".toList && file.1.head? != some "..".toList

/-- A directory is made with all directories above it. -/
def addDirectory (store : FileStore) (path : List Text) : FileStore :=
  let made := (List.range path.length).map fun above => path.take (above + 1)
  { store with directories := store.directories ++ made }

/-- A file is made with all directories above it. -/
def addFile (store : FileStore) (path : List Text) (bytes : Text.Bytes) : FileStore :=
  (store.addDirectory path.dropLast).put path bytes

/-- The components behind the root that lead to the standard catalog. -/
def standardParts : List Text := ["sicxe_asm".toList, "data".toList, "inst.data".toList]

/-- Nothing stands in the working directory, and little below the root besides the standard
catalog. -/
def initial : FileStore :=
  addFile
    { directories := [["/".toList], ["/".toList, "dev".toList], ["/".toList, "tmp".toList]]
      files := [(["/".toList, "dev".toList, "null".toList], [])] }
    ("/".toList :: standardParts) (Text.encodeUtf8 Catalog.standardText)

instance : Files (StateM FileStore) where
  standardCatalog := '/' :: Text.join '/' standardParts
  status path store := (store.status path, store)
  read path store := (store.read path, store)
  write path bytes store :=
    match store.write path bytes with
    | .ok changed => (.ok (), changed)
    | .error error => (.error error, store)

end FileStore

end SicXe
