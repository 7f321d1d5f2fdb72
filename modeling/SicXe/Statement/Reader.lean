/-
This file reads statements from source lines.
The fields of a line are separated by tabs: label, operator, operands and comment.
-/

import SicXe.Statement.Basic
import SicXe.Text.Lines

namespace SicXe.Statement

def separator : Char := '\t'

/-- The fields of a line, without its line end. -/
def fieldsOf (raw : Text) : List Text :=
  List.splitOn separator (Text.dropLineEnd raw)

/-- The label stands in the first field. -/
def labelIn (fields : List Text) : Except Lapse Text :=
  (itemAt fields 0).map Text.strip

/-- The other fields may be missing. -/
def fieldAt (fields : List Text) (index : Nat) : Text :=
  if present : index < fields.length then Text.strip fields[index] else []

/-- A plus sign in front of the operator asks for the extended form. -/
def splitMarker : Text → Bool × Text
  | '+' :: operator => (true, operator)
  | operator => (false, operator)

/-- Commas separate up to three operands; a constant may hold commas and stands alone. -/
def operandTexts (operator field : Text) : List Text :=
  if field = [] then []
  else if operator = Directive.name .byte ∨ (Constant.ofLiteral? field).isSome then [field]
  else (Text.splitAtMost ',' 2 field).map Text.strip

/-- The bytes that a statement takes. -/
def sizeFor (extended : Bool) (instruction : Option Instruction) (operator : Text)
    (operands : List Text) (operand : Option Operand) : Except LineError Int :=
  if extended then .ok 4
  else match instruction with
    | some found => .ok found.format.size
    | none =>
      match Directive.ofName? operator, operands with
      | some .resb, [] => .error (.problem (.missingCount .resb))
      | some .resb, count :: _ => readNumber count
      | some .resw, [] => .error (.problem (.missingCount .resw))
      | some .resw, count :: _ => (readNumber count).map (· * 3)
      | some .byte, _ =>
        match operand with
        | some ⟨_, .constant constant⟩ => .ok constant.size
        | _ => .ok 1
      | some .word, _ => .ok 3
      | _, _ => .ok 0

/-- Instructions of three bytes are relative to the program counter unless they are extended
or their operand is immediate. -/
def addressingOf (extended : Bool) (instruction : Option Instruction) (operands : List Text) :
    Addressing :=
  if instruction.map (·.format) = some .three then
    match operands with
    | [] => { n := true, i := true, e := extended }
    | first :: others =>
      let immediate := first.head? == some '#'
      let indirect := first.head? == some '@'
      { n := !immediate
        i := !indirect
        x := others.head? == some (Register.name .x)
        p := !extended && !immediate
        e := extended }
  else { e := extended }

/-- The third field of an instruction without operands is its comment. -/
def takesNoOperand (instruction : Option Instruction) : Bool :=
  instruction.any (·.operandCount.val = 0)

/-- A line is read at a location, and a comment line has a comment only. -/
def ofFields (catalog : Catalog) (location line : Int) (source : Text) (fields : List Text) :
    Except LineError Statement := do
  let label ← labelIn fields
  if label = commentLabel then
    return { location, label, line, source, comment := Text.join separator fields.tail }
  else
    let (extended, operator) := splitMarker (fieldAt fields 1)
    let instruction := catalog.get? operator
    let bare := takesNoOperand instruction
    let operands := if bare then [] else operandTexts operator (fieldAt fields 2)
    let comment := Text.join separator (fields.drop (if bare then 2 else 3))
    let operand ← match operands with
      | [] => pure none
      | first :: _ => (Operand.ofText first operator instruction).map some
    let size ← sizeFor extended instruction operator operands operand
    let addressing := addressingOf extended instruction operands
    return { location, label, operator, extended, operands, operand, comment, addressing,
             size, line, source }

/-- A problem is told with the line that has it. -/
def read (catalog : Catalog) (file : Text) (location line : Int) (raw : Text) :
    Except AssemblyError Statement :=
  let source := Text.dropLineEnd raw
  (ofFields catalog location line source (fieldsOf raw)).mapError
    (LineError.told ⟨file, line⟩ source)

end SicXe.Statement
