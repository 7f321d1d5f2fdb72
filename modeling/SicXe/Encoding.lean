/-
This file gives statements their object code.
-/

import SicXe.AddressExpression
import SicXe.Section.Basic

namespace SicXe

open Numeral

/-- What the encoding of a section depends on: in strict mode a symbol without a value is an
error, and otherwise a warning. -/
structure Encoder where
  catalog : Catalog
  file : Text
  strict : Bool := false

namespace Encoder

def report (encoder : Encoder) (part : Section) (statement : Statement) (name : Text) :
    Logged AssemblyError Unit :=
  let place := statement.place encoder.file
  if encoder.strict then
    Logged.fail (.source ⟨.undefinedSymbol name part.name, some place, some statement.source⟩)
  else Logged.report (.undefinedSymbol place name part.name)

/-- The value of a symbol; one that is not external is reported if its value is minus one, be it
undefined or defined so. -/
def valueOf (encoder : Encoder) (part : Section) (statement : Statement) (name : Text) :
    Logged AssemblyError Int := do
  let value := part.symbols.lookup name
  if value = -1 ∧ part.isExternal name = false then encoder.report part statement name
  return value

/-- The number that an operand stands for. -/
def target (encoder : Encoder) (part : Section) (statement : Statement) :
    Operand.Form → Logged AssemblyError Int
  | .literal name => pure (part.literals.lookup name)
  | .immediateValue value | .number value => pure value
  | .immediateSymbol name | .indirect name | .symbol name => encoder.valueOf part statement name
  | .difference left right => do
    let minuend ← encoder.valueOf part statement left
    let subtrahend ← encoder.valueOf part statement right
    return minuend - subtrahend
  | .register _ | .counter | .constant _ => pure 0

/-- A linker fills the fields of extended instructions and of external symbols; the operand of
an extended instruction is resolved all the same, for its reports. -/
def displacement (encoder : Encoder) (part : Section) (statement : Statement)
    (instruction : Instruction) : Logged AssemblyError Int :=
  match statement.operand with
  | none => pure 0
  | some operand =>
    if instruction.operandCount.val = 0 ∨ part.mentionsExternal statement = true then pure 0
    else do
      let address ← encoder.target part statement operand.form
      if statement.extended then return 0
      else if statement.addressing.p then return address - (statement.location + statement.size)
      else return address

/-- The opcode gives way to the bits `n` and `i` in its two lowest places. -/
def firstByte (instruction : Instruction) (addressing : Addressing) : Nat :=
  instruction.opcode.toNat / 4 * 4 + addressing.ni

/-- Three bytes, or four if the statement is extended. -/
def longCode (encoder : Encoder) (part : Section) (statement : Statement)
    (instruction : Instruction) : Logged AssemblyError Text := do
  let value ← encoder.displacement part statement instruction
  return Hex.field 2 (firstByte instruction statement.addressing) ++
    Hex.digit statement.addressing.xbpe :: Hex.field (if statement.extended then 5 else 3) value

def firstRegister : Option Operand → Except Lapse Int
  | some ⟨_, .register name⟩ => (Register.codeOf name).map Int.ofNat
  | some ⟨_, .number value⟩ => .ok value
  | _ => .ok 0

/-- The instructions that store their count less one. -/
def shifts : List Text := ["SHIFTL".toList, "SHIFTR".toList]

def secondRegister (encoder : Encoder) (statement : Statement) (instruction : Instruction) :
    Except AssemblyError Int :=
  match statement.operands with
  | _ :: second :: _ =>
    if instruction.operandCount.val < 2 then .ok 0
    else if Register.isName second then ((Register.codeOf second).map Int.ofNat).mapError .lapse
    else
      (readNumber second).map (fun count =>
        if instruction.mnemonic ∈ shifts then count - 1 else count)
      |>.mapError (LineError.told (statement.place encoder.file) statement.source)
  | _ => .ok 0

/-- The opcode and two half-bytes for registers or counts. -/
def shortCode (encoder : Encoder) (statement : Statement) (instruction : Instruction) :
    Except AssemblyError Text := do
  let first ← firstRegister statement.operand
  let second ← encoder.secondRegister statement instruction
  return Hex.field 2 instruction.opcode.toNat ++ Hex.field 1 first ++ Hex.field 1 second

def instructionCode (encoder : Encoder) (part : Section) (statement : Statement)
    (instruction : Instruction) : Logged AssemblyError Text :=
  if statement.extended ∨ instruction.format = .three then
    encoder.longCode part statement instruction
  else if instruction.format = .two then
    encoder.shortCode statement instruction
  else pure (Hex.field 2 instruction.opcode.toNat)

/-- A constant or a number of one byte. -/
def byteCode (statement : Statement) : Text :=
  match statement.operand with
  | some ⟨_, .constant constant⟩ => constant.code
  | some ⟨_, .number value⟩ => Hex.field 2 value
  | _ => []

def reportMissing (encoder : Encoder) (part : Section) (statement : Statement) :
    List Text → Logged AssemblyError Unit
  | [] => pure ()
  | name :: rest => do
    if part.symbols.contains name = false then encoder.report part statement name
    reportMissing encoder part statement rest

/-- The value of an expression in three bytes. -/
def wordCode (encoder : Encoder) (part : Section) (statement : Statement) :
    Logged AssemblyError Text :=
  match statement.operands with
  | [] => pure (Hex.field 6 0)
  | expression :: _ =>
    if part.mentionsExternal statement then pure (Hex.field 6 0)
    else do
      let value ← AddressExpression.evaluate expression statement.location part.symbols
        (some (statement.place encoder.file)) (some statement.source)
      let operand ← statement.heldOperand
      encoder.reportMissing part statement operand.symbols
      return Hex.field 6 value

/-- The object code of a statement, as hexadecimal digits. -/
def code (encoder : Encoder) (part : Section) (statement : Statement) :
    Logged AssemblyError Text :=
  if statement.isComment ∨ statement.operator = [] then pure []
  else match encoder.catalog.get? statement.operator with
    | some instruction => encoder.instructionCode part statement instruction
    | none =>
      match statement.directive? with
      | some .byte => pure (byteCode statement)
      | some .word => encoder.wordCode part statement
      | _ => pure []

def codeEntries (encoder : Encoder) (part : Section) :
    List Entry → Logged AssemblyError (List Entry)
  | [] => pure []
  | entry :: rest => do
    let code ← encoder.code part entry.toStatement
    let later ← codeEntries encoder part rest
    return { entry with code } :: later

def codeSection (encoder : Encoder) (part : Section) : Logged AssemblyError Section := do
  let entries ← encoder.codeEntries part part.entries
  return { part with entries }

end Encoder

end SicXe
