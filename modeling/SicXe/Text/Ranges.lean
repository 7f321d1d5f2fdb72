/-
This file holds classes of characters as lists of code point ranges.
-/

import SicXe.Text.Basic

namespace SicXe.Text

/-- A closed range of code points. -/
structure Range where
  first : Nat
  last : Nat
  deriving DecidableEq, Repr

def Range.holds (range : Range) (char : Char) : Bool :=
  range.first ≤ char.toNat && char.toNat ≤ range.last

/-- A character belongs to the class if one of the ranges holds it. -/
def inRanges (ranges : List Range) (char : Char) : Bool :=
  ranges.any (·.holds char)

theorem inRangesIff (ranges : List Range) (char : Char) :
    inRanges ranges char = true ↔
      ∃ range ∈ ranges, range.first ≤ char.toNat ∧ char.toNat ≤ range.last := by
  simp [inRanges, Range.holds]

end SicXe.Text
