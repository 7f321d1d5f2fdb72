/-
This file assembles programs and writes their symbol tables and object programs.
-/

import SicXe.Encoding
import SicXe.Layout
import SicXe.ObjectModule

namespace SicXe

/-- How a program is assembled. -/
structure Settings where
  catalog : Catalog
  strict : Bool := false
  verbose : Bool := false

/-- A program with its sections and their object modules. -/
structure Assembly where
  file : Text
  catalog : Catalog
  sections : List Section
  modules : List (List Record)
  deriving DecidableEq, Repr

namespace Assembly

open Numeral

def moduleOf (encoder : Encoder) (part : Section) :
    Logged AssemblyError (Section × List Record) := do
  let part ← encoder.codeSection part
  let records ← part.records encoder.catalog
  Logged.report (.sectionEmitted part.name records.length)
  return (part, records)

/-- The sections are encoded one after the other. -/
def modulesOf (encoder : Encoder) :
    List Section → Logged AssemblyError (List (Section × List Record))
  | [] => pure []
  | part :: rest => do
    let first ← moduleOf encoder part
    let later ← modulesOf encoder rest
    return first :: later

def records (assembly : Assembly) : List Record :=
  assembly.modules.flatten

def ofLines (settings : Settings) (file : Text) (lines : List Text) :
    Logged AssemblyError Assembly := do
  Logged.reportIf settings.verbose (.consoleSource file)
  let layout ← Layout.ofLines settings.catalog file lines
  let sections := layout.sections
  Logged.reportIf settings.verbose
    (.consoleLayout (sections.flatMap (·.entries)).length sections.length)
  let modules ← modulesOf ⟨settings.catalog, file, settings.strict⟩ sections
  let assembly : Assembly :=
    ⟨file, settings.catalog, modules.map Prod.fst, modules.map Prod.snd⟩
  Logged.report (.assembled assembly.sections.length assembly.records.length)
  return assembly

def ofText (settings : Settings) (file : Text) (source : Text) :
    Logged AssemblyError Assembly :=
  ofLines settings file (Text.lines source)

/-- The modules once more, with the catalog of the assembly. -/
def remake (assembly : Assembly) (strict : Bool) : Logged AssemblyError (List (List Record)) := do
  let modules ← modulesOf ⟨assembly.catalog, assembly.file, strict⟩ assembly.sections
  return modules.map Prod.snd

/-- An address without padding; a negative one is shown in 24 bits. -/
def hexAddress (address : Int) : Text :=
  Hex.ofNat (if address < 0 then (address % 0x1000000).toNat else address.toNat)

/-- A line for each symbol, and a blank line after each section. -/
def symbolText (assembly : Assembly) : Text :=
  Text.unlines (assembly.sections.flatMap fun part =>
    part.symbols.entries.map (fun (name, address) => name ++ '\t' :: hexAddress address) ++ [[]])

/-- A line for each record, and a blank line after each end. -/
def objectText (assembly : Assembly) : Text :=
  Text.unlines (assembly.records.flatMap fun record =>
    if record.isFinish then [record.line, []] else [record.line])

def tables (assembly : Assembly) : List SymbolTable :=
  assembly.sections.map (·.symbols)

end Assembly

end SicXe
