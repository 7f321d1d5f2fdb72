/-
This file holds source statements.
-/

import SicXe.Addressing
import SicXe.Operand

namespace SicXe

/-- A statement with its location, its fields, and what follows from them alone. -/
structure Statement where
  location : Int := 0
  label : Text := []
  operator : Text := []
  extended : Bool := false
  operands : List Text := []
  operand : Option Operand := none
  comment : Text := []
  addressing : Addressing := {}
  size : Int := 0
  line : Int := 0
  source : Text := []
  deriving DecidableEq, Repr

namespace Statement

/-- The label that marks a comment line. -/
def commentLabel : Text := ['.']

def isComment (statement : Statement) : Bool :=
  statement.label = commentLabel

def isLabelled (statement : Statement) : Bool :=
  !statement.label.isEmpty && !statement.isComment

/-- The directive that the operator names, if any. -/
def directive? (statement : Statement) : Option Directive :=
  Directive.ofName? statement.operator

/-- The operand of a statement that has to have one. -/
def heldOperand (statement : Statement) : Except Lapse Operand :=
  match statement.operand with
  | some operand => .ok operand
  | none => .error .operand

def place (statement : Statement) (file : Text) : Place :=
  ⟨file, statement.line⟩

/-- The statement on one line, for people; a size with too many digits cannot be shown. -/
def describe (statement : Statement) : Except Numeral.Fault String :=
  (Numeral.Decimal.write statement.size).map fun size =>
    let location := String.ofList (Numeral.Hex.padded 4 statement.location)
    let label := if statement.label.isEmpty then "-" else String.ofList statement.label
    let marker := if statement.extended then "+" else ""
    let operands := String.ofList (Text.join ',' statement.operands)
    s!"SourceToken($" ++ s!"{location} {label} {marker}{String.ofList statement.operator} " ++
      s!"{operands} size={String.ofList size} {String.ofList statement.addressing.text})"

end Statement

end SicXe
