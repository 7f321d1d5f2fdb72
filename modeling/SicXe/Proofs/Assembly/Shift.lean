/-
This file encodes sections that stand behind others: neither the numbers of lines nor those of
sections change a code or a record, but for the end of the first section.
-/

import SicXe.Proofs.Assembly.Sections
import SicXe.Proofs.Code.Width
import SicXe.Proofs.Layout.Shift
import SicXe.Proofs.Module.Emission

namespace SicXe

open Numeral

namespace Encoder

variable {encoder : Encoder} {sections lines : Nat}

/-- A symbol without a value stops the encoding in strict mode only, wherever it is used. -/
theorem valueReport (part : Section) (statement : Statement) (name : Text) :
    (encoder.report part statement name).value? = if encoder.strict then none else some () := by
  unfold report
  cases encoder.strict <;> rfl

theorem valueOfShifted (part : Section) (statement : Statement) (name : Text) :
    (encoder.valueOf (part.shifted sections lines) (statement.shifted lines) name).value? =
      (encoder.valueOf part statement name).value? := by
  have valueOf (part : Section) (statement : Statement) :
      (encoder.valueOf part statement name).value? =
        if part.symbols.lookup name = -1 ∧ part.isExternal name = false ∧ encoder.strict = true
        then none else some (part.symbols.lookup name) := by
    unfold Encoder.valueOf
    by_cases missing : part.symbols.lookup name = -1 ∧ part.isExternal name = false
    · simp only [if_pos missing, Logged.valueBind, valueReport, Logged.valuePure]
      cases encoder.strict <;> simp [missing]
    · simp only [← and_assoc, missing, false_and, if_false]
      rfl
  rw [valueOf, valueOf]
  rfl

theorem targetShifted (part : Section) (statement : Statement) (form : Operand.Form) :
    (encoder.target (part.shifted sections lines) (statement.shifted lines) form).value? =
      (encoder.target part statement form).value? := by
  cases form with
  | immediateSymbol name | indirect name | symbol name => exact valueOfShifted part statement name
  | difference left right =>
    simp only [target, Logged.valueBind, valueOfShifted]
  | _ => rfl

theorem displacementShifted (part : Section) (statement : Statement) (instruction : Instruction) :
    (encoder.displacement (part.shifted sections lines) (statement.shifted lines)
      instruction).value? = (encoder.displacement part statement instruction).value? := by
  unfold displacement
  rw [Statement.operandShifted]
  cases statement.operand with
  | none => rfl
  | some operand =>
    change Logged.value? (ite (instruction.operandCount.val = 0 ∨
      part.mentionsExternal statement = true) _ _) = _
    split
    · rfl
    · simp only [Logged.valueBind, targetShifted]
      rfl

theorem longCodeShifted (part : Section) (statement : Statement) (instruction : Instruction) :
    (encoder.longCode (part.shifted sections lines) (statement.shifted lines) instruction).value? =
      (encoder.longCode part statement instruction).value? := by
  simp only [longCode, Logged.valueBind, displacementShifted]
  rfl

theorem shortCodeShifted (statement : Statement) (instruction : Instruction) :
    (encoder.shortCode (statement.shifted lines) instruction).toOption =
      (encoder.shortCode statement instruction).toOption := by
  have second : (encoder.secondRegister (statement.shifted lines) instruction).toOption =
      (encoder.secondRegister statement instruction).toOption := by
    unfold secondRegister
    rw [Statement.operandsShifted]
    cases statement.operands with
    | nil => rfl
    | cons first others =>
      cases others with
      | nil => rfl
      | cons second rest =>
        simp only
        split
        · rfl
        · split
          · rfl
          · cases readNumber second <;> rfl
  rw [shortCodeToOption, shortCodeToOption, second]
  rfl

theorem reportMissingShifted (part : Section) (statement : Statement) (names : List Text) :
    (encoder.reportMissing (part.shifted sections lines) (statement.shifted lines) names).value? =
      (encoder.reportMissing part statement names).value? := by
  induction names with
  | nil => rfl
  | cons name rest inductionHypothesis =>
    unfold reportMissing
    change Logged.value? (ite (part.symbols.contains name = false) _ _) = _
    split
    · simp only [Logged.valueBind, valueReport, inductionHypothesis]
    · exact inductionHypothesis

theorem wordCodeShifted (part : Section) (statement : Statement) :
    (encoder.wordCode (part.shifted sections lines) (statement.shifted lines)).value? =
      (encoder.wordCode part statement).value? := by
  unfold wordCode
  rw [Statement.operandsShifted]
  cases statement.operands with
  | nil => rfl
  | cons expression rest =>
    change Logged.value? (ite (part.mentionsExternal statement = true) _ _) = _
    simp only
    split
    · rfl
    · simp only [Logged.valueBind, Logged.valueLift]
      congr 1
      · exact AddressExpression.evaluateToOption _ _ _ _ _ _ _
      · funext value
        congr 1
        funext operand
        exact congrArg (Option.bind · _) (reportMissingShifted part statement _)

theorem instructionCodeShifted (part : Section) (statement : Statement)
    (instruction : Instruction) :
    (encoder.instructionCode (part.shifted sections lines) (statement.shifted lines)
      instruction).value? = (encoder.instructionCode part statement instruction).value? := by
  unfold instructionCode
  rw [Statement.extendedShifted]
  by_cases long : statement.extended = true ∨ instruction.format = .three
  · rw [if_pos long, if_pos long, longCodeShifted]
  · rw [if_neg long, if_neg long]
    by_cases two : instruction.format = .two
    · rw [if_pos two, if_pos two, Logged.valueLift, Logged.valueLift, shortCodeShifted]
    · rw [if_neg two, if_neg two]

/-- The code of a statement does not depend on what stands before its section. -/
theorem codeShifted (part : Section) (statement : Statement) :
    (encoder.code (part.shifted sections lines) (statement.shifted lines)).value? =
      (encoder.code part statement).value? := by
  unfold Encoder.code
  rw [Statement.isCommentShifted, Statement.operatorShifted, Statement.directiveShifted]
  split
  · rfl
  · cases encoder.catalog.get? statement.operator with
    | some instruction => exact instructionCodeShifted part statement instruction
    | none =>
      cases statement.directive? with
      | none => rfl
      | some directive =>
        cases directive with
        | word => exact wordCodeShifted part statement
        | _ => rfl

theorem codeEntriesShifted (part : Section) (entries : List Entry) :
    (encoder.codeEntries (part.shifted sections lines) (entries.map (·.shifted lines))).value? =
      (encoder.codeEntries part entries).value?.map (List.map (·.shifted lines)) := by
  induction entries with
  | nil => rfl
  | cons entry rest inductionHypothesis =>
    have code : (encoder.code (part.shifted sections lines)
        (entry.shifted lines).toStatement).value? =
        (encoder.code part entry.toStatement).value? := codeShifted part entry.toStatement
    simp only [List.map_cons, codeEntries, Logged.valueBind, Logged.valuePure, code,
      inductionHypothesis]
    cases (encoder.code part entry.toStatement).value? with
    | none => rfl
    | some digits => cases (encoder.codeEntries part rest).value? <;> rfl

end Encoder

namespace Section

variable {sections lines : Nat}

theorem lengthShifted (part : Section) : (part.shifted sections lines).length = part.length := by
  unfold length
  change (part.entries.map (·.shifted lines)).foldr _ 0 + _ = _
  rw [List.foldr_map]
  rfl

theorem isolatedShifted (part : Section) (entry : Entry) :
    (part.shifted sections lines).isolated? (entry.shifted lines) = part.isolated? entry := by
  unfold isolated?
  rw [lengthShifted]
  rfl

theorem emitShifted (part : Section) (pending : Option Run) (entries : List Entry) :
    (part.shifted sections lines).emit pending (entries.map (·.shifted lines)) =
      part.emit pending entries := by
  have joins (entry : Entry) : pending.bind (·.extend? (entry.shifted lines)) =
      pending.bind (·.extend? entry) := rfl
  induction entries generalizing pending with
  | nil => rfl
  | cons entry rest inductionHypothesis =>
    have same (next : Option Run) :
        (part.shifted sections lines).emit next (rest.map (·.shifted lines)) =
          part.emit next rest :=
      inductionHypothesis next (fun _ => rfl)
    have begins : Run.begin? (entry.shifted lines) = Run.begin? entry := rfl
    simp only [List.map_cons, emitCons, joins, isolatedShifted, begins, same]

/-- The records of a module whose section is not the first one of a program. -/
def unentered (records : List Record) : List Record :=
  records.dropLast ++ [.finish none]

/-- Behind other sections, a section that was the first loses its entry point, and all else
stays. -/
theorem recordsShifted (part : Section) (catalog : Catalog) (some : sections ≠ 0) :
    (part.shifted sections lines).records catalog =
      (part.records catalog).map fun records =>
        if part.index = 0 then unentered records else records := by
  unfold records
  change ((part.shifted sections lines).emit none (part.entries.map (·.shifted lines))).map _ = _
  rw [emitShifted]
  -- Only the end of the module looks at the number of the section.
  have finish : (part.shifted sections lines).finishRecord catalog = .finish none := by
    unfold finishRecord
    rw [if_neg (by change sections + part.index ≠ 0; omega)]
  have finishOther (other : part.index ≠ 0) : part.finishRecord catalog = .finish none := by
    unfold finishRecord
    rw [if_neg other]
  cases part.emit none part.entries with
  | error error => rfl
  | ok emission =>
    simp only [Except.map, finish]
    split
    · rw [unentered, List.dropLast_concat]
      rfl
    · next other =>
      rw [finishOther other]
      rfl

end Section

namespace Assembly

variable {encoder : Encoder} {sections lines : Nat}

/-- A section with its records, behind other sections and lines. -/
def shiftModule (sections lines : Nat) (module : Section × List Record) : Section × List Record :=
  (module.1.shifted sections lines,
    if module.1.index = 0 then Section.unentered module.2 else module.2)

theorem moduleOfShifted (part : Section) (some : sections ≠ 0) :
    (moduleOf encoder (part.shifted sections lines)).value? =
      (moduleOf encoder part).value?.map (shiftModule sections lines) := by
  rw [moduleOfValue, moduleOfValue]
  change ((encoder.codeEntries (part.shifted sections lines)
    (part.entries.map (·.shifted lines))).value?).bind _ = _
  rw [Encoder.codeEntriesShifted]
  cases (encoder.codeEntries part part.entries).value? with
  | none => rfl
  | some entries =>
    have shape : { part.shifted sections lines with entries := entries.map (·.shifted lines) } =
      Section.shifted sections lines { part with entries } := rfl
    simp only [Option.map_some, Option.bind_some, shape, Section.recordsShifted _ _ some,
      Option.map_map]
    cases Section.records { part with entries } encoder.catalog <;> rfl

theorem modulesOfAppend (first second : List Section) :
    (modulesOf encoder (first ++ second)).value? =
      (modulesOf encoder first).value?.bind fun before =>
        (modulesOf encoder second).value?.map (before ++ ·) := by
  induction first with
  | nil =>
    change (modulesOf encoder second).value? = (modulesOf encoder second).value?.map id
    rw [Option.map_id_fun, id]
  | cons part rest inductionHypothesis =>
    simp only [List.cons_append, modulesOf, Logged.valueBind, Logged.valuePure,
      inductionHypothesis]
    cases (moduleOf encoder part).value? with
    | none => rfl
    | some module =>
      cases (modulesOf encoder rest).value? with
      | none => rfl
      | some before => cases (modulesOf encoder second).value? <;> rfl

theorem modulesOfShifted (parts : List Section) (some : sections ≠ 0) :
    (modulesOf encoder (parts.map (·.shifted sections lines))).value? =
      (modulesOf encoder parts).value?.map (List.map (shiftModule sections lines)) := by
  induction parts with
  | nil => rfl
  | cons part rest inductionHypothesis =>
    simp only [List.map_cons, modulesOf, Logged.valueBind, Logged.valuePure, inductionHypothesis,
      moduleOfShifted part some]
    cases (moduleOf encoder part).value? with
    | none => rfl
    | some module => cases (modulesOf encoder rest).value? <;> rfl

end Assembly

end SicXe
