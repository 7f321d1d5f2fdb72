/-
This file holds the six addressing bits of an instruction.
-/

import SicXe.Text.Basic

namespace SicXe

/-- The bits `n`, `i`, `x`, `b`, `p` and `e`, in the order of the instruction word. -/
structure Addressing where
  n : Bool := false
  i : Bool := false
  x : Bool := false
  b : Bool := false
  p : Bool := false
  e : Bool := false
  deriving DecidableEq, Repr

namespace Addressing

/-- The names of the bits. -/
inductive Flag where
  | n
  | i
  | x
  | b
  | p
  | e
  deriving DecidableEq, Repr

def none : Addressing := {}

def put (bits : Addressing) (value : Bool) : Flag → Addressing
  | .n => { bits with n := value }
  | .i => { bits with i := value }
  | .x => { bits with x := value }
  | .b => { bits with b := value }
  | .p => { bits with p := value }
  | .e => { bits with e := value }

def set (bits : Addressing) (flag : Flag) : Addressing :=
  bits.put true flag

def clear (bits : Addressing) (flag : Flag) : Addressing :=
  bits.put false flag

def isImmediate (bits : Addressing) : Bool := bits.i && !bits.n

def isIndirect (bits : Addressing) : Bool := bits.n && !bits.i

def isSimple (bits : Addressing) : Bool := bits.n && bits.i

/-- The bits `n` and `i` as a number, which is added to the opcode byte. -/
def ni (bits : Addressing) : Nat :=
  2 * bits.n.toNat + bits.i.toNat

/-- The bits `x`, `b`, `p` and `e` as a number, the third digit of the instruction. -/
def xbpe (bits : Addressing) : Nat :=
  8 * bits.x.toNat + 4 * bits.b.toNat + 2 * bits.p.toNat + bits.e.toNat

def toNat (bits : Addressing) : Nat :=
  16 * bits.ni + bits.xbpe

/-- The bits that spell a number below sixty-four. -/
def ofNat (value : Nat) : Addressing where
  n := value.testBit 5
  i := value.testBit 4
  x := value.testBit 3
  b := value.testBit 2
  p := value.testBit 1
  e := value.testBit 0

/-- One character a bit: its name when it is on, a dash when it is off. -/
def text (bits : Addressing) : Text :=
  [if bits.n then 'n' else '-', if bits.i then 'i' else '-', if bits.x then 'x' else '-',
   if bits.b then 'b' else '-', if bits.p then 'p' else '-', if bits.e then 'e' else '-']

theorem ofNatToNat (bits : Addressing) : ofNat bits.toNat = bits := by
  rcases bits with ⟨n, i, x, b, p, e⟩
  cases n <;> cases i <;> cases x <;> cases b <;> cases p <;> cases e <;> decide

theorem niLt (bits : Addressing) : bits.ni < 4 := by
  rcases bits with ⟨n, i, x, b, p, e⟩
  cases n <;> cases i <;> simp [ni]

theorem xbpeLt (bits : Addressing) : bits.xbpe < 16 := by
  rcases bits with ⟨n, i, x, b, p, e⟩
  cases x <;> cases b <;> cases p <;> cases e <;> simp [xbpe]

end Addressing

end SicXe
