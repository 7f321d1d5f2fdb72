/-
This file holds the operands of statements and the forms that they take.
-/

import SicXe.Catalog.Basic
import SicXe.Constant
import SicXe.Register

namespace SicXe

/-- What an operand says. -/
inductive Operand.Form where
  | register (name : Text)
  | number (value : Int)
  | immediateValue (value : Int)
  | immediateSymbol (name : Text)
  | indirect (name : Text)
  | literal (name : Text)
  | counter
  | difference (left right : Text)
  | symbol (name : Text)
  | constant (constant : Constant)
  deriving DecidableEq, Repr

/-- An operand as it is written, and its form. -/
structure Operand where
  text : Text
  form : Operand.Form
  deriving DecidableEq, Repr

/-- A decimal number, or what is wrong with the text. -/
def readNumber (text : Text) : Except LineError Int :=
  match Numeral.Decimal.read? text with
  | some value => .ok value
  | none => .error (.problem (.invalidNumber text))

namespace Operand

/-- A text that begins like a number is taken for one. -/
def beginsLikeNumber : Text → Bool
  | '-' :: char :: _ => Text.isDigit char
  | char :: _ => Text.isDigit char
  | [] => false

/-- The names of the symbols that an operand refers to. -/
def Form.symbols : Form → List Text
  | immediateSymbol [] => []
  | immediateSymbol name | indirect name | symbol name => [name]
  | difference left right => [left, right]
  | _ => []

def symbols (operand : Operand) : List Text :=
  operand.form.symbols

/-- The names on both sides of the first minus sign. -/
def Form.ofDifference (text : Text) : Except Lapse Form :=
  (pairOf (Text.splitAtMost '-' 1 text)).map fun (left, right) =>
    difference (Text.strip left) (Text.strip right)

/-- The form of an operand that stands for an address. -/
def Form.ofAddress (text : Text) : Except LineError Form :=
  match text with
  | '#' :: body =>
    if beginsLikeNumber body then (readNumber body).map immediateValue
    else .ok (immediateSymbol body)
  | '@' :: name => .ok (indirect name)
  | '=' :: name => .ok (literal name)
  | ['*'] => .ok counter
  | _ =>
    if beginsLikeNumber text then (readNumber text).map number
    else if text.contains '-' then ofDifference text
    else .ok (symbol text)

/-- Instructions of two bytes take registers and counts, `BYTE` takes a constant, and all
else takes an address. -/
def Form.ofText (text operator : Text) (instruction : Option Instruction) :
    Except LineError Form :=
  if instruction.map (·.format) = some .two then
    if Register.isName text then .ok (register text) else (readNumber text).map number
  else match Constant.ofText? text with
    | some found =>
      if operator = Directive.name .byte then .ok (constant found) else ofAddress text
    | none => ofAddress text

def ofText (text operator : Text) (instruction : Option Instruction) : Except LineError Operand :=
  (Form.ofText text operator instruction).map fun form => ⟨text, form⟩

end Operand

end SicXe
