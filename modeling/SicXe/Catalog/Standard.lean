/-
This file holds the instructions of the standard machine.
-/

import SicXe.Catalog.Basic
import SicXe.Text.Lines

namespace SicXe.Catalog

def standardInstructions : List Instruction :=
  [⟨"ADD".toList, .three, 0x18, 1⟩,
   ⟨"ADDF".toList, .three, 0x58, 1⟩,
   ⟨"ADDR".toList, .two, 0x90, 2⟩,
   ⟨"AND".toList, .three, 0x40, 1⟩,
   ⟨"CLEAR".toList, .two, 0xB4, 1⟩,
   ⟨"COMP".toList, .three, 0x28, 1⟩,
   ⟨"COMPF".toList, .three, 0x88, 1⟩,
   ⟨"COMPR".toList, .two, 0xA0, 2⟩,
   ⟨"DIV".toList, .three, 0x24, 1⟩,
   ⟨"DIVF".toList, .three, 0x64, 1⟩,
   ⟨"DIVR".toList, .two, 0x9C, 2⟩,
   ⟨"FIX".toList, .one, 0xC4, 0⟩,
   ⟨"FLOAT".toList, .one, 0xC0, 0⟩,
   ⟨"HIO".toList, .one, 0xF4, 0⟩,
   ⟨"J".toList, .three, 0x3C, 1⟩,
   ⟨"JEQ".toList, .three, 0x30, 1⟩,
   ⟨"JGT".toList, .three, 0x34, 1⟩,
   ⟨"JLT".toList, .three, 0x38, 1⟩,
   ⟨"JSUB".toList, .three, 0x48, 1⟩,
   ⟨"LDA".toList, .three, 0x00, 1⟩,
   ⟨"LDB".toList, .three, 0x68, 1⟩,
   ⟨"LDCH".toList, .three, 0x50, 1⟩,
   ⟨"LDF".toList, .three, 0x70, 1⟩,
   ⟨"LDL".toList, .three, 0x08, 1⟩,
   ⟨"LDS".toList, .three, 0x6C, 1⟩,
   ⟨"LDT".toList, .three, 0x74, 1⟩,
   ⟨"LDX".toList, .three, 0x04, 1⟩,
   ⟨"LPS".toList, .three, 0xD0, 1⟩,
   ⟨"MUL".toList, .three, 0x20, 1⟩,
   ⟨"MULF".toList, .three, 0x60, 1⟩,
   ⟨"MULR".toList, .two, 0x98, 2⟩,
   ⟨"NORM".toList, .one, 0xC8, 0⟩,
   ⟨"OR".toList, .three, 0x44, 1⟩,
   ⟨"RD".toList, .three, 0xD8, 1⟩,
   ⟨"RMO".toList, .two, 0xAC, 2⟩,
   ⟨"RSUB".toList, .three, 0x4C, 0⟩,
   ⟨"SHIFTL".toList, .two, 0xA4, 2⟩,
   ⟨"SHIFTR".toList, .two, 0xA8, 2⟩,
   ⟨"SIO".toList, .one, 0xF0, 0⟩,
   ⟨"SSK".toList, .three, 0xEC, 1⟩,
   ⟨"STA".toList, .three, 0x0C, 1⟩,
   ⟨"STB".toList, .three, 0x78, 1⟩,
   ⟨"STCH".toList, .three, 0x54, 1⟩,
   ⟨"STF".toList, .three, 0x80, 1⟩,
   ⟨"STI".toList, .three, 0xD4, 1⟩,
   ⟨"STL".toList, .three, 0x14, 1⟩,
   ⟨"STS".toList, .three, 0x7C, 1⟩,
   ⟨"STSW".toList, .three, 0xE8, 1⟩,
   ⟨"STT".toList, .three, 0x84, 1⟩,
   ⟨"STX".toList, .three, 0x10, 1⟩,
   ⟨"SUB".toList, .three, 0x1C, 1⟩,
   ⟨"SUBF".toList, .three, 0x5C, 1⟩,
   ⟨"SUBR".toList, .two, 0x94, 2⟩,
   ⟨"SVC".toList, .two, 0xB0, 1⟩,
   ⟨"TD".toList, .three, 0xE0, 1⟩,
   ⟨"TIO".toList, .one, 0xF8, 0⟩,
   ⟨"TIX".toList, .three, 0x2C, 1⟩,
   ⟨"TIXR".toList, .two, 0xB8, 1⟩,
   ⟨"WD".toList, .three, 0xDC, 1⟩]

def standard : Catalog :=
  ⟨standardInstructions.map fun instruction => (instruction.mnemonic, instruction)⟩

/-- The standard catalog as a text, with one instruction on a line. -/
def standardText : Text :=
  Text.unlines (standardInstructions.map Instruction.line)

end SicXe.Catalog
