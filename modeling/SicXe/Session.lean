/-
This file holds sessions: an assembler that keeps its catalog and its last result.
-/

import SicXe.Assembly
import SicXe.Task

namespace SicXe

variable {m : Type → Type} [Monad m] [Files m]

def Catalog.ofFile (path : Text) : Task m Catalog := do
  let text ← Task.readText (Path.normal path)
  (Catalog.load (Text.lines text)).mapError Failure.catalog

/-- The standard catalog is loaded like any other. -/
def Catalog.loadStandard : Task m Catalog :=
  Catalog.ofFile (Files.standardCatalog m)

def Assembly.ofFile (settings : Settings) (path : Text) : Task m Assembly := do
  let shown := Path.normal path
  let source ← Task.readText shown
  Task.report (.sourceRead shown)
  (Assembly.ofText settings shown source).mapError Failure.assembly

/-- The symbol table is written; the path is told as it was given. -/
def Assembly.saveSymbols (assembly : Assembly) (path : Text) : Task m Text := do
  Task.writeText (Path.normal path) assembly.symbolText
  Task.report (.symbolsWritten path)
  return assembly.symbolText

def Assembly.saveObject (assembly : Assembly) (path : Text) : Task m Text := do
  Task.writeText (Path.normal path) assembly.objectText
  Task.report (.objectWritten path)
  return assembly.objectText

structure Session where
  catalog : Catalog
  strict : Bool := false
  last : Option Assembly := none

namespace Session

/-- A session without a catalog of its own has the standard one. -/
def start (strict : Bool) : Task m Session := do
  return { catalog := ← Catalog.loadStandard, strict }

def settings (session : Session) : Settings :=
  { catalog := session.catalog, strict := session.strict }

/-- A failed assembly leaves the last result as it was. -/
def keep (session : Session) (outcome : Logged Failure Assembly) : Session :=
  match outcome.result with
  | .ok assembly => { session with last := some assembly }
  | .error _ => session

/-- A failed loading leaves the catalog as it was. -/
def adopt (session : Session) (outcome : Logged Failure Catalog) : Session :=
  match outcome.result with
  | .ok catalog => { session with catalog }
  | .error _ => session

def buildLines (session : Session) (file : Text) (lines : List Text) :
    Logged Failure Assembly :=
  (Assembly.ofLines session.settings file lines).mapError Failure.assembly

def buildText (session : Session) (file source : Text) : Logged Failure Assembly :=
  session.buildLines file (Text.lines source)

def buildFile (session : Session) (path : Text) : Task m Assembly :=
  Assembly.ofFile session.settings path

def result (session : Session) : Except Failure Assembly :=
  match session.last with
  | some assembly => .ok assembly
  | none => .error .nothingAssembled

def saveSymbols (session : Session) (path : Text) : Task m Text := do
  let assembly ← Logged.ofExcept session.result
  assembly.saveSymbols path

def saveObject (session : Session) (path : Text) : Task m Text := do
  let assembly ← Logged.ofExcept session.result
  assembly.saveObject path

end Session

/-- One text is assembled with the standard catalog, which is loaded for it. -/
def buildOnce (file source : Text) (strict : Bool) : Task m Assembly := do
  let catalog ← Catalog.loadStandard
  (Assembly.ofText { catalog, strict } file source).mapError Failure.assembly

/-- One file is assembled with the standard catalog, which is loaded for it. -/
def buildFileOnce (path : Text) (strict : Bool) : Task m Assembly := do
  let catalog ← Catalog.loadStandard
  Assembly.ofFile { catalog, strict } path

/-- The modules of an assembly once more, after another catalog is loaded. -/
def Assembly.remakeAfterLoading (assembly : Assembly) (strict : Bool) (lines : List Text) :
    Logged Failure (List (List Record)) := do
  let _ ← (Catalog.load lines).mapError Failure.catalog
  (assembly.remake strict).mapError Failure.assembly

end SicXe
