/-
This file holds instruction catalogs and loads them from lines of text.
-/

import SicXe.Catalog.Instruction
import SicXe.Logged
import SicXe.Table

namespace SicXe

abbrev Catalog := Table Instruction

namespace Catalog

/-- A line that holds no instruction, with its number. -/
structure Fault where
  line : Nat
  text : Text
  flaw : Instruction.Flaw
  deriving DecidableEq, Repr

/-- A message about a numbered line; without a number the message stands alone. -/
def faultMessage (line : Int) (message : String) (text : Text) : String :=
  if line = 0 then message else s!"line {line}: {message}: {String.ofList (Text.quoted text)}"

def Fault.message (fault : Fault) : String :=
  faultMessage fault.line fault.flaw.message fault.text

/-- Blank lines and lines that begin with a hash hold no instruction. -/
def isIgnored (line : Text) : Bool :=
  line.isEmpty || line.head? == some '#'

def add (catalog : Catalog) (line : Nat) (instruction : Instruction) : Logged Fault Catalog := do
  Logged.reportIf (catalog.contains instruction.mnemonic)
    (.instructionReplaced line instruction.mnemonic)
  return catalog.set instruction.mnemonic instruction

def addLine (catalog : Catalog) (number : Nat) (raw : Text) : Logged Fault Catalog :=
  let line := Text.strip raw
  if isIgnored line then pure catalog
  else match Instruction.ofLine line with
    | .error flaw => Logged.fail ⟨number, line, flaw⟩
    | .ok instruction => catalog.add number instruction

/-- The lines are numbered from the given number on. -/
def loadFrom (catalog : Catalog) : Nat → List Text → Logged Fault Catalog
  | _, [] => pure catalog
  | number, line :: rest => do
    let catalog ← catalog.addLine number line
    catalog.loadFrom (number + 1) rest

def load (lines : List Text) : Logged Fault Catalog := do
  let catalog ← Catalog.loadFrom Table.empty 1 lines
  Logged.report (.catalogLoaded catalog.size)
  return catalog

/-- The number of operands of an instruction, or minus one. -/
def operandCount (catalog : Catalog) (name : Text) : Int :=
  match catalog.get? name with
  | some instruction => instruction.operandCount.val
  | none => -1

end Catalog

end SicXe
