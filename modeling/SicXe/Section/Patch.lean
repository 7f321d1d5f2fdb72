/-
This file holds the patches that a linker applies to object code.
-/

import SicXe.Logged

namespace SicXe

/-- A signed symbol is added to the field at the location, which has `width` half-bytes. -/
structure Patch where
  symbol : Text
  location : Int
  width : Int
  deriving DecidableEq, Repr

namespace Patch

variable {ε : Type}

def add (patches : List Patch) (patch : Patch) : Logged ε (List Patch) := do
  Logged.report (.patchAdded patch.symbol patch.location patch.width)
  return patches ++ [patch]

/-- A negative index counts from the end. -/
def at? (patches : List Patch) (index : Int) : Option Patch :=
  let position := if index < 0 then index + patches.length else index
  if position < 0 then none else patches[position.toNat]?

end Patch

end SicXe
