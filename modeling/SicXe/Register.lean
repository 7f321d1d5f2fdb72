/-
This file holds the registers that instructions of two bytes name.
-/

import SicXe.Lapse

namespace SicXe

inductive Register where
  | a
  | x
  | l
  | b
  | s
  | t
  | f
  | pc
  | sw
  deriving DecidableEq, Repr

namespace Register

def all : List Register := [a, x, l, b, s, t, f, pc, sw]

def name : Register → Text
  | a => "A".toList
  | x => "X".toList
  | l => "L".toList
  | b => "B".toList
  | s => "S".toList
  | t => "T".toList
  | f => "F".toList
  | pc => "PC".toList
  | sw => "SW".toList

def code : Register → Nat
  | a => 0
  | x => 1
  | l => 2
  | b => 3
  | s => 4
  | t => 5
  | f => 6
  | pc => 8
  | sw => 9

def ofName? (name : Text) : Option Register :=
  all.find? (·.name == name)

def isName (name : Text) : Bool :=
  (ofName? name).isSome

/-- The code under a name, which has to name a register. -/
def codeOf (name : Text) : Except Lapse Nat :=
  match ofName? name with
  | some register => .ok register.code
  | none => .error (.key name)

theorem codeOfName {name : Text} (named : isName name = true) :
    ∃ code, codeOf name = .ok code := by
  obtain ⟨register, found⟩ := Option.isSome_iff_exists.1 named
  exact ⟨register.code, by rw [codeOf, found]⟩

theorem ofNameName (register : Register) : ofName? register.name = some register := by
  cases register <;> rfl

theorem nameOfName {name : Text} {register : Register} (found : ofName? name = some register) :
    register.name = name := by
  simpa using List.find?_some found

end Register

end SicXe
