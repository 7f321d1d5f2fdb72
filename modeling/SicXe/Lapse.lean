/-
This file holds accesses to parts that a value may lack. No program is to blame for such a lapse: it
is the assembler that asks for what is not there.
-/

import SicXe.Text.Quoted

namespace SicXe

/-- A part that is asked for and not there. -/
inductive Lapse where
  | item (position : Nat)
  | key (name : Text)
  | operand
  | pair (parts : Nat)
  deriving DecidableEq, Repr

def Lapse.message : Lapse → String
  | item _ => "list index out of range"
  | key name => String.ofList (Text.quoted name)
  | operand => "'NoneType' object has no attribute 'symbols'"
  | pair parts =>
    if parts < 2 then s!"not enough values to unpack (expected 2, got {parts})"
    else "too many values to unpack (expected 2)"

variable {α : Type}

/-- The item at a position, counted from zero. -/
def itemAt (items : List α) (position : Nat) : Except Lapse α :=
  match items[position]? with
  | some item => .ok item
  | none => .error (.item position)

/-- The two parts of what has to have two. -/
def pairOf : List α → Except Lapse (α × α)
  | [first, second] => .ok (first, second)
  | parts => .error (.pair parts.length)

end SicXe
