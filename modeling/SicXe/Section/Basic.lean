/-
This file holds control sections: their statements and their tables.
-/

import SicXe.Section.LiteralTable
import SicXe.Section.Patch
import SicXe.Statement.Basic

namespace SicXe

/-- A statement of a section, the literals placed at it, and its object code. -/
structure Entry extends Statement where
  pool : List Text := []
  code : Text := []
  deriving DecidableEq, Repr

/-- A control section, the unit that a linker moves. -/
structure Section where
  index : Nat := 0
  name : Text := []
  start : Int := 0
  counter : Int := 0
  symbols : SymbolTable := {}
  literals : LiteralTable := {}
  externals : SymbolTable := {}
  patches : List Patch := []
  entries : List Entry := []
  deriving DecidableEq, Repr

namespace Section

/-- The bytes of all statements and all literals. -/
def length (part : Section) : Int :=
  part.entries.foldr (fun entry total => entry.size + total) 0 + part.literals.poolSize

def isExternal (part : Section) (name : Text) : Bool :=
  part.externals.contains name

/-- A statement refers to an external symbol if one of its names is external. -/
def mentionsExternal (part : Section) (statement : Statement) : Bool :=
  statement.operand.any (·.symbols.any part.isExternal)

def moveBy (part : Section) (size : Int) : Section :=
  { part with counter := part.counter + size }

def append (part : Section) (entry : Entry) : Section :=
  { part with entries := part.entries ++ [entry] }

/-- The section is empty and its counter stands at its start. -/
def opened (index : Nat) (name : Text) (start : Int) : Section :=
  { index, name, start, counter := start }

end Section

end SicXe
