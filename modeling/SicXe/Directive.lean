/-
This file holds the directives, the operators that are no instructions.
-/

import SicXe.Text.Basic

namespace SicXe

inductive Directive where
  | start
  | csect
  | equ
  | ltorg
  | finish
  | extdef
  | extref
  | byte
  | word
  | resb
  | resw
  deriving DecidableEq, Repr

namespace Directive

def all : List Directive :=
  [start, csect, equ, ltorg, finish, extdef, extref, byte, word, resb, resw]

def name : Directive → Text
  | start => "START".toList
  | csect => "CSECT".toList
  | equ => "EQU".toList
  | ltorg => "LTORG".toList
  | finish => "END".toList
  | extdef => "EXTDEF".toList
  | extref => "EXTREF".toList
  | byte => "BYTE".toList
  | word => "WORD".toList
  | resb => "RESB".toList
  | resw => "RESW".toList

def ofName? (name : Text) : Option Directive :=
  all.find? (·.name == name)

/-- The directive opens a control section. -/
def opensSection : Directive → Bool
  | start | csect => true
  | _ => false

/-- The directive places the literals that wait for an address. -/
def placesLiterals : Directive → Bool
  | ltorg | finish => true
  | _ => false

/-- The directive reserves storage and emits nothing. -/
def reserves : Directive → Bool
  | resb | resw => true
  | _ => false

theorem ofNameName (directive : Directive) : ofName? directive.name = some directive := by
  cases directive <;> rfl

theorem nameOfName {name : Text} {directive : Directive}
    (found : ofName? name = some directive) : directive.name = name := by
  simpa using List.find?_some found

theorem ofNameEqSomeIff (name : Text) (directive : Directive) :
    ofName? name = some directive ↔ name = directive.name :=
  ⟨fun found => (nameOfName found).symm, fun same => same ▸ ofNameName directive⟩

end Directive

end SicXe
