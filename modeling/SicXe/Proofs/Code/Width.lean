/-
This file says how many digits the object code of a statement has: two for each byte of its size.
-/

import SicXe.Encoding
import SicXe.Proofs.Code.Bytes
import SicXe.Proofs.Outcome
import SicXe.Proofs.Statement.Reading

namespace SicXe

open Numeral

namespace Statement

def constant? (statement : Statement) : Option Constant :=
  match statement.operand with
  | some ⟨_, .constant constant⟩ => some constant
  | _ => none

/-- If the statement is a `BYTE`, its constant is plain; a `BYTE` or `WORD` has no marker. -/
def PlainData (statement : Statement) : Prop :=
  (statement.directive? = some .byte →
    ∀ constant ∈ statement.constant?, constant.isPlain = true) ∧
  (statement.directive? = some .byte ∨ statement.directive? = some .word →
    statement.extended = false)

instance (statement : Statement) : Decidable statement.PlainData :=
  inferInstanceAs (Decidable (_ ∧ _))

variable {catalog : Catalog} {statement : Statement}

/-- A marker asks for four bytes; without one an instruction has the bytes of its format. -/
theorem Coherent.sizeOfInstruction {instruction : Instruction}
    (coherent : statement.Coherent catalog)
    (known : catalog.get? statement.operator = some instruction) :
    statement.size = if statement.extended then 4 else (instruction.format.size : Int) := by
  have size := coherent.size
  rw [known] at size
  cases extended : statement.extended <;>
    simp only [sizeFor, extended, Bool.false_eq_true, if_false, if_true,
      Except.ok.injEq] at size ⊢ <;> exact size.symm

theorem Coherent.sizeOfByte (coherent : statement.Coherent catalog)
    (unknown : catalog.get? statement.operator = none) (byte : statement.directive? = some .byte) :
    statement.size = if statement.extended then 4
      else statement.constant?.elim 1 fun constant => (constant.size : Int) := by
  have size := coherent.size
  rw [unknown] at size
  cases extended : statement.extended with
  | true =>
    simp only [sizeFor, extended, if_true, Except.ok.injEq] at size ⊢
    exact size.symm
  | false =>
    simp only [sizeFor, extended, show Directive.ofName? statement.operator = some .byte from byte,
      Bool.false_eq_true, if_false] at size ⊢
    unfold constant?
    generalize statement.operand = operand at size ⊢
    rcases operand with _ | ⟨text, form⟩
    · exact (Except.ok.inj size).symm
    · cases form <;> exact (Except.ok.inj size).symm

theorem Coherent.sizeOfWord (coherent : statement.Coherent catalog)
    (unknown : catalog.get? statement.operator = none) (word : statement.directive? = some .word) :
    statement.size = if statement.extended then 4 else 3 := by
  have size := coherent.size
  rw [unknown] at size
  cases extended : statement.extended <;>
    simp only [sizeFor, extended, show Directive.ofName? statement.operator = some .word from word,
      Bool.false_eq_true, if_false, if_true, Except.ok.injEq] at size ⊢ <;> exact size.symm

end Statement

namespace Encoder

variable {encoder : Encoder} {part : Section} {statement : Statement} {code : Text}

/-- The opcode byte, the digit of the four bits, and a field of three or five digits. -/
theorem longCodeWidth {instruction : Instruction}
    (coded : (encoder.longCode part statement instruction).value? = some code) :
    IsCode (if statement.extended then 4 else 3) code := by
  simp only [longCode, Logged.valueBind, Logged.valuePure, Option.bind_eq_some_iff,
    Option.some.injEq] at coded
  obtain ⟨value, _, rfl⟩ := coded
  have bits : Hex.IsDigit (Hex.digit statement.addressing.xbpe) :=
    ⟨_, statement.addressing.xbpeLt, rfl⟩
  have opcode := IsCode.field (by decide : 0 < 1) (firstByte instruction statement.addressing)
  have later (digits : Nat) (positive : 0 < digits) (odd : digits % 2 = 1) :
      IsCode ((digits + 1) / 2)
        (Hex.digit statement.addressing.xbpe :: Hex.field digits value) := by
    refine ⟨?_, ?_⟩
    · rw [List.length_cons, Hex.fieldLength positive]
      omega
    · intro char inside
      rcases List.mem_cons.1 inside with same | deeper
      · exact same ▸ bits
      · rw [Hex.field, if_neg (by omega)] at deeper
        exact Hex.lowDigitsDigits _ _ char deeper
  cases statement.extended
  · exact opcode.append (later 3 (by decide) (by decide))
  · exact opcode.append (later 5 (by decide) (by decide))

/-- Behind its first three digits, a long instruction holds its displacement. -/
theorem longCodeField {instruction : Instruction}
    (coded : (encoder.longCode part statement instruction).value? = some code) :
    ∃ value, (encoder.displacement part statement instruction).value? = some value ∧
      code.drop 3 = Hex.field (if statement.extended then 5 else 3) value := by
  simp only [longCode, Logged.valueBind, Logged.valuePure, Option.bind_eq_some_iff,
    Option.some.injEq] at coded
  obtain ⟨value, displaced, rfl⟩ := coded
  have opcode : (Hex.field 2 (firstByte instruction statement.addressing)).length = 2 :=
    Hex.fieldLength (by decide) _
  refine ⟨value, displaced, ?_⟩
  rw [List.drop_append, opcode, List.drop_of_length_le (by omega)]
  rfl

theorem shortCodeToOption (statement : Statement) (instruction : Instruction) :
    (encoder.shortCode statement instruction).toOption =
      (firstRegister statement.operand).toOption.bind fun first =>
        (encoder.secondRegister statement instruction).toOption.map fun second =>
          Hex.field 2 instruction.opcode.toNat ++ Hex.field 1 first ++ Hex.field 1 second := by
  unfold shortCode
  cases firstRegister statement.operand with
  | error lapse => rfl
  | ok first => cases encoder.secondRegister statement instruction <;> rfl

theorem shortCodeWidth {instruction : Instruction}
    (coded : (encoder.shortCode statement instruction).toOption = some code) : IsCode 2 code := by
  rw [shortCodeToOption] at coded
  obtain ⟨first, _, coded⟩ := Option.bind_eq_some_iff.1 coded
  obtain ⟨second, _, rfl⟩ := Option.map_eq_some_iff.1 coded
  refine ⟨by simp [Hex.fieldLength], ?_⟩
  intro char inside
  simp only [List.mem_append, Hex.field, if_neg (by decide : ¬ (2 = 0)),
    if_neg (by decide : ¬ (1 = 0))] at inside
  rcases inside with (opcode | first) | last
  · exact Hex.lowDigitsDigits _ _ char opcode
  · exact Hex.lowDigitsDigits _ _ char first
  · exact Hex.lowDigitsDigits _ _ char last

theorem instructionCodeWidth {instruction : Instruction}
    (coded : (encoder.instructionCode part statement instruction).value? = some code) :
    IsCode (if statement.extended then 4 else instruction.format.size) code := by
  unfold instructionCode at coded
  split at coded
  · next long =>
    have width := longCodeWidth coded
    cases extended : statement.extended with
    | true => simpa [extended] using width
    | false =>
      have three : instruction.format = .three := by simpa [extended] using long
      simpa [extended, three, Format.size] using width
  · next short =>
    obtain ⟨plain, notThree⟩ := not_or.1 short
    rw [if_neg plain]
    split at coded
    · next two =>
      rw [Logged.valueLift] at coded
      rw [two]
      exact shortCodeWidth coded
    · next notTwo =>
      have one : instruction.format = .one := by
        cases format : instruction.format with
        | one => rfl
        | two => exact absurd format notTwo
        | three => exact absurd format notThree
      obtain rfl := Option.some.inj coded
      rw [one]
      exact IsCode.field (by decide : 0 < 1) _

/-- A constant has its own size, and a number takes one byte. -/
theorem byteCodeWidth {catalog : Catalog} (coherent : statement.Coherent catalog)
    (data : statement.PlainData) (unknown : catalog.get? statement.operator = none)
    (byte : statement.directive? = some .byte) (coded : byteCode statement ≠ []) :
    ∃ size : Nat, statement.size = size ∧ IsCode size (byteCode statement) := by
  have size := coherent.sizeOfByte unknown byte
  rw [data.2 (.inl byte), if_neg Bool.false_ne_true] at size
  unfold byteCode at coded ⊢
  split at coded
  · next text constant operand =>
    have held : statement.constant? = some constant := by rw [Statement.constant?, operand]
    rw [held] at size
    exact ⟨_, size, Constant.isCodeOfPlain (data.1 byte constant held)⟩
  · next text value operand =>
    have none : statement.constant? = none := by rw [Statement.constant?, operand]
    rw [none] at size
    exact ⟨1, size, IsCode.field (by decide : 0 < 1) value⟩
  · contradiction

theorem wordCodeWidth (coded : (encoder.wordCode part statement).value? = some code) :
    IsCode 3 code := by
  unfold wordCode at coded
  split at coded
  · obtain rfl := Option.some.inj coded
    exact IsCode.field (by decide : 0 < 3) _
  · split at coded
    · obtain rfl := Option.some.inj coded
      exact IsCode.field (by decide : 0 < 3) _
    · simp only [Logged.valueBind, Logged.valuePure, Option.bind_eq_some_iff,
        Option.some.injEq] at coded
      obtain ⟨value, _, operand, _, _, _, rfl⟩ := coded
      exact IsCode.field (by decide : 0 < 3) value

/-- Object code comes from an instruction, a `BYTE` or a `WORD`. -/
theorem codeCases (coded : (encoder.code part statement).value? = some code)
    (written : code ≠ []) :
    statement.isComment = false ∧ statement.operator ≠ [] ∧
      ((∃ instruction, encoder.catalog.get? statement.operator = some instruction ∧
          (encoder.instructionCode part statement instruction).value? = some code) ∨
        (encoder.catalog.get? statement.operator = none ∧
          ((statement.directive? = some .byte ∧ byteCode statement = code) ∨
            (statement.directive? = some .word ∧
              (encoder.wordCode part statement).value? = some code)))) := by
  unfold Encoder.code at coded
  split at coded
  · exact absurd (Option.some.inj coded).symm written
  · next named =>
    obtain ⟨plain, named⟩ := not_or.1 named
    refine ⟨by simpa using plain, named, ?_⟩
    split at coded
    · next instruction known => exact .inl ⟨instruction, known, coded⟩
    · next unknown =>
      refine .inr ⟨unknown, ?_⟩
      split at coded
      · next byte => exact .inl ⟨byte, Option.some.inj coded⟩
      · next word => exact .inr ⟨word, coded⟩
      · exact absurd (Option.some.inj coded).symm written

/-- The object code of a statement, if it has any, fills the bytes of its size. -/
theorem codeWidth (reading : statement.IsRead encoder.catalog) (data : statement.PlainData)
    (coded : (encoder.code part statement).value? = some code) (written : code ≠ []) :
    ∃ size : Nat, statement.size = size ∧ IsCode size code := by
  obtain ⟨plain, _, ⟨instruction, known, codes⟩ | ⟨unknown, ⟨byte, rfl⟩ | ⟨word, codes⟩⟩⟩ :=
    codeCases coded written
  · refine ⟨_, ?_, instructionCodeWidth codes⟩
    rw [(reading.coherent plain).sizeOfInstruction known]
    cases statement.extended <;> rfl
  · exact byteCodeWidth (reading.coherent plain) data unknown byte written
  · have size := (reading.coherent plain).sizeOfWord unknown word
    rw [data.2 (.inr word)] at size
    exact ⟨3, size, wordCodeWidth codes⟩

/-- No code is made for a directive other than `BYTE` and `WORD`. -/
theorem codeOfDirective {directive : Directive}
    (undirected : encoder.catalog.get? directive.name = none)
    (found : statement.directive? = some directive) (notByte : directive ≠ .byte)
    (notWord : directive ≠ .word) : (encoder.code part statement).value? = some [] := by
  have operator : statement.operator = directive.name := (Directive.nameOfName found).symm
  unfold Encoder.code
  split
  · rfl
  · rw [operator, undirected, found]
    cases directive with
    | byte => exact absurd rfl notByte
    | word => exact absurd rfl notWord
    | _ => rfl

end Encoder

end SicXe
