/-
This file holds the instructions of a catalog and reads them from catalog lines.
-/

import SicXe.Numeral.Hex
import SicXe.Text.Quoted
import SicXe.Text.Upper

namespace SicXe

/-- An instruction takes one, two or three bytes; an extended one of three takes four. -/
inductive Format where
  | one
  | two
  | three
  deriving DecidableEq, Repr

def Format.size : Format → Nat
  | one => 1
  | two => 2
  | three => 3

def Format.ofInt? : Int → Option Format
  | 1 => some one
  | 2 => some two
  | 3 => some three
  | _ => none

structure Instruction where
  mnemonic : Text
  format : Format
  opcode : UInt8
  operandCount : Fin 4
  deriving DecidableEq, Repr

namespace Instruction

/-- The instruction on one line, for people. -/
def describe (instruction : Instruction) : String :=
  s!"InstructionSpec({String.ofList instruction.mnemonic}, format={instruction.format.size}, " ++
    "opcode=$" ++ String.ofList (Numeral.Hex.field 2 instruction.opcode.toNat) ++
    s!", operands={instruction.operandCount.val})"

/-- The instruction as a line of a catalog. -/
def line (instruction : Instruction) : Text :=
  Text.join ' ' [instruction.mnemonic, Numeral.Decimal.ofNat instruction.format.size,
    Numeral.Hex.field 2 instruction.opcode.toNat,
    Numeral.Decimal.ofNat instruction.operandCount.val]

/-- Why a catalog line holds no instruction. -/
inductive Flaw where
  | fieldCount
  | number
  | format (value : Int)
  | opcode (value : Int)
  | operandCount (value : Int)
  deriving DecidableEq, Repr

def Flaw.message : Flaw → String
  | fieldCount => "expected 4 fields"
  | number => "invalid number"
  | format value => s!"invalid format {value}"
  | opcode value => "opcode $" ++ String.ofList (Numeral.Hex.ofInt value) ++ " out of range"
  | operandCount value => s!"invalid operand count {value}"

/-- The three numbers of a line are checked in their order. -/
def ofFields (mnemonic : Text) (format opcode operandCount : Int) : Except Flaw Instruction :=
  match Format.ofInt? format with
  | none => .error (.format format)
  | some shape =>
    if 0 ≤ opcode ∧ opcode ≤ 0xFF then
      if inRange : 0 ≤ operandCount ∧ operandCount ≤ 3 then
        .ok ⟨Text.upper mnemonic, shape, UInt8.ofNat opcode.toNat,
          ⟨operandCount.toNat, by omega⟩⟩
      else .error (.operandCount operandCount)
    else .error (.opcode opcode)

/-- A line holds a name, a format, an opcode in hexadecimal and a number of operands. -/
def ofLine (line : Text) : Except Flaw Instruction :=
  match Text.words line with
  | [mnemonic, format, opcode, operandCount] =>
    match Numeral.Decimal.read? format, Numeral.Hex.read? opcode,
        Numeral.Decimal.read? operandCount with
    | some format, some opcode, some operandCount => ofFields mnemonic format opcode operandCount
    | _, _, _ => .error .number
  | _ => .error .fieldCount

end Instruction

end SicXe
