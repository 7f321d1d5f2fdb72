/-
This file says when object code fills the bytes of its statement, two digits each. The code of an
instruction always does. That of data misses them if a constant has an odd digit or a wide
character, or if a marker asks for four bytes.
-/

import SicXe.Proofs.Code.Width

namespace SicXe

open Numeral

namespace Constant

/-- Each byte of the constant has its two digits: no digit is left over, unless upper case adds
one to it, or no character needs more than a byte. -/
def fillsBytes : Constant → Bool
  | hex digits => (Text.upper digits).length = digits.length + digits.length % 2
  | chars payload => payload.all (·.toNat ≤ 0xFF)

/-- A character has at least two digits, and more if it needs more than a byte. -/
theorem charDigitsLength (char : Char) :
    2 ≤ (charDigits char).length ∧ ((charDigits char).length = 2 ↔ char.toNat ≤ 0xFF) := by
  have width : (Hex.ofNat char.toNat).length ≤ 2 ↔ char.toNat < 16 ^ 2 := by
    rw [Hex.ofNat, List.length_map]
    exact Nat.length_toDigits_le_iff (by decide) (by decide)
  have padded : (charDigits char).length = max 2 (Hex.ofNat char.toNat).length :=
    List.length_leftpad
  omega

/-- One wide character is enough to make the code too long, since none makes it shorter. -/
theorem charsLength (payload : Text) :
    2 * payload.length ≤ (payload.flatMap charDigits).length ∧
      ((payload.flatMap charDigits).length = 2 * payload.length ↔
        payload.all (·.toNat ≤ 0xFF) = true) := by
  induction payload with
  | nil => simp
  | cons first rest inductionHypothesis =>
    obtain ⟨least, exact⟩ := inductionHypothesis
    obtain ⟨firstLeast, firstExact⟩ := charDigitsLength first
    rw [List.flatMap_cons, List.length_append, List.length_cons, List.all_cons, Bool.and_eq_true,
      decide_eq_true_eq, ← exact, ← firstExact]
    omega

theorem codeLengthIff (constant : Constant) :
    constant.code.length = 2 * constant.size ↔ constant.fillsBytes = true := by
  cases constant with
  | hex digits =>
    simp only [code, size, fillsBytes, decide_eq_true_eq]
    omega
  | chars payload => exact (charsLength payload).2

/-- Hexadecimal digits fill their bytes if their number is even. -/
theorem fillsBytesOfDigits {digits : Text} (all : digits.all isPayloadDigit = true) :
    (hex digits).fillsBytes = true ↔ digits.length % 2 = 0 := by
  simp only [fillsBytes, decide_eq_true_eq, (upperDigits all).1]
  omega

end Constant

/-- A literal that is no constant has neither bytes nor digits. -/
theorem Literal.codeLengthIff (literal : Text) :
    (Literal.code literal).length = 2 * Literal.size literal ↔
      ∀ constant ∈ Constant.ofLiteral? literal, constant.fillsBytes = true := by
  unfold Literal.code Literal.size
  cases Constant.ofLiteral? literal with
  | none => simp
  | some constant => simpa using constant.codeLengthIff

namespace Statement

/-- The constant of a `BYTE`. -/
def byteConstant? (statement : Statement) : Option Constant :=
  if statement.directive? = some .byte then statement.constant? else none

/-- The statement is an instruction, or data whose digits happen to fill its bytes: the constant
fills its own, or the four bytes that a marker asks for. -/
def FillsSize (catalog : Catalog) (statement : Statement) : Prop :=
  (catalog.get? statement.operator).isSome = true ∨
    (statement.extended = false ∧
      ∀ constant ∈ statement.byteConstant?, constant.fillsBytes = true) ∨
    (statement.extended = true ∧
      ∃ constant ∈ statement.byteConstant?, constant.code.length = 8)

instance (catalog : Catalog) (statement : Statement) : Decidable (statement.FillsSize catalog) :=
  inferInstanceAs (Decidable (_ ∨ _ ∨ _))

variable {catalog : Catalog} {statement : Statement}

/-- Data without a constant fills its bytes unless it has a marker. -/
theorem fillsSizeOfPlain (unknown : catalog.get? statement.operator = none)
    (none : statement.byteConstant? = none) :
    statement.FillsSize catalog ↔ statement.extended = false := by
  simp [FillsSize, unknown, none]

theorem fillsSizeOfConstant {constant : Constant}
    (unknown : catalog.get? statement.operator = none)
    (held : statement.byteConstant? = some constant) :
    statement.FillsSize catalog ↔
      if statement.extended then constant.code.length = 8 else constant.fillsBytes = true := by
  cases extended : statement.extended <;> simp [FillsSize, unknown, held, extended]

end Statement

namespace Encoder

variable {encoder : Encoder} {part : Section} {statement : Statement} {code : Text}

theorem byteCodeLengthIff {catalog : Catalog} (coherent : statement.Coherent catalog)
    (unknown : catalog.get? statement.operator = none) (byte : statement.directive? = some .byte)
    (written : byteCode statement ≠ []) :
    ((byteCode statement).length : Int) = 2 * statement.size ↔ statement.FillsSize catalog := by
  have size := coherent.sizeOfByte unknown byte
  have constants : statement.byteConstant? = statement.constant? := if_pos byte
  unfold byteCode at written ⊢
  split at written
  · next text constant operand =>
    have held : statement.constant? = some constant := by rw [Statement.constant?, operand]
    rw [Statement.fillsSizeOfConstant unknown (constants.trans held), size, held]
    cases statement.extended with
    | true =>
      rw [if_pos rfl, if_pos rfl]
      omega
    | false =>
      rw [if_neg Bool.false_ne_true, if_neg Bool.false_ne_true, ← constant.codeLengthIff,
        Option.elim_some]
      omega
  · next text value operand =>
    have none : statement.constant? = none := by rw [Statement.constant?, operand]
    have digits : (Hex.field 2 value).length = 2 := Hex.fieldLength (by decide) value
    rw [Statement.fillsSizeOfPlain unknown (constants.trans none), size, none]
    cases statement.extended <;> simp [digits]
  · contradiction

theorem wordCodeLengthIff {catalog : Catalog} (coherent : statement.Coherent catalog)
    (unknown : catalog.get? statement.operator = none) (word : statement.directive? = some .word)
    (coded : (encoder.wordCode part statement).value? = some code) :
    (code.length : Int) = 2 * statement.size ↔ statement.FillsSize catalog := by
  have none : statement.byteConstant? = none := if_neg (by rw [word]; decide)
  rw [Statement.fillsSizeOfPlain unknown none, coherent.sizeOfWord unknown word,
    (wordCodeWidth coded).length]
  cases statement.extended <;> simp

/-- The object code of a statement, if it has any, fills the bytes of its size exactly under the
condition on its operator, its marker and its constant. -/
theorem codeLengthIff (reading : statement.IsRead encoder.catalog)
    (coded : (encoder.code part statement).value? = some code) (written : code ≠ []) :
    (code.length : Int) = 2 * statement.size ↔ statement.FillsSize encoder.catalog := by
  obtain ⟨plain, _, ⟨instruction, known, codes⟩ | ⟨unknown, ⟨byte, rfl⟩ | ⟨word, codes⟩⟩⟩ :=
    codeCases coded written
  · have always : statement.FillsSize encoder.catalog := .inl (by rw [known]; rfl)
    refine iff_of_true ?_ always
    rw [(instructionCodeWidth codes).length, (reading.coherent plain).sizeOfInstruction known]
    cases statement.extended <;> simp
  · exact byteCodeLengthIff (reading.coherent plain) unknown byte written
  · exact wordCodeLengthIff (reading.coherent plain) unknown word codes

end Encoder

end SicXe
