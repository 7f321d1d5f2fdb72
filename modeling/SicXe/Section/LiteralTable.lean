/-
This file holds the literals of a section, which get their addresses in pools.
-/

import SicXe.Constant
import SicXe.Section.SymbolTable

namespace SicXe

/-- The addresses of the literals, and the names of those that a pool holds. -/
structure LiteralTable where
  addresses : SymbolTable := {}
  placed : List Text := []
  deriving DecidableEq, Repr

namespace LiteralTable

variable {ε : Type}

def names (table : LiteralTable) : List Text :=
  table.addresses.names

/-- The address of a literal, or minus one. -/
def lookup (table : LiteralTable) (name : Text) : Int :=
  table.addresses.lookup name

/-- A literal is registered without an address. -/
def register (table : LiteralTable) (name : Text) : Logged ε LiteralTable := do
  let addresses ← table.addresses.define name 0
  return { table with addresses }

/-- The literal gets its address in a pool. -/
def place (table : LiteralTable) (name : Text) (address : Int) : LiteralTable where
  addresses := table.addresses.amend (withoutMark name) address
  placed := table.placed ++ [withoutMark name]

def isPlaced (table : LiteralTable) (name : Text) : Bool :=
  table.placed.contains (withoutMark name)

/-- The literals that wait for a pool, in the order of their registration. -/
def waiting (table : LiteralTable) : List Text :=
  table.names.filter (!table.placed.contains ·)

def poolSize (table : LiteralTable) : Nat :=
  table.names.foldr (fun name total => Literal.size name + total) 0

end LiteralTable

end SicXe
