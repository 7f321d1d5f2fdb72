/-
This file loads catalogs from files. A catalog that is written with one instruction on a line is
loaded as it was, and so is the standard one.
-/

import SicXe.Proofs.Catalog.Lines
import SicXe.Proofs.Files.Task
import SicXe.Proofs.Numeral.Field
import SicXe.Proofs.Text.Lines
import SicXe.Proofs.Text.Utf8
import SicXe.Session

namespace SicXe

open Numeral

namespace Instruction

/-- The name can stand on a catalog line, and it is read there as it is. -/
structure IsWritable (instruction : Instruction) : Prop where
  word : Text.IsWord instruction.mnemonic
  unmarked : instruction.mnemonic.head? ≠ some '#'
  upper : Text.upper instruction.mnemonic = instruction.mnemonic

variable {instruction : Instruction}

theorem isWritableIff : instruction.IsWritable ↔
    Text.IsWord instruction.mnemonic ∧ instruction.mnemonic.head? ≠ some '#' ∧
      Text.upper instruction.mnemonic = instruction.mnemonic :=
  ⟨fun writable => ⟨writable.word, writable.unmarked, writable.upper⟩,
    fun ⟨word, unmarked, upper⟩ => ⟨word, unmarked, upper⟩⟩

instance : Decidable instruction.IsWritable :=
  decidable_of_iff' _ isWritableIff

theorem readDigit : ∀ number < 4, Decimal.read? (Decimal.ofNat number) = some (number : Int) ∧
    Text.IsWord (Decimal.ofNat number) := by
  decide

theorem readOpcode (opcode : UInt8) :
    Hex.read? (Hex.field 2 opcode.toNat) = some (opcode.toNat : Int) ∧
      Text.IsWord (Hex.field 2 opcode.toNat) := by
  have positive : 0 < 2 := by decide
  have small := opcode.toNat_lt
  have digitSolid : ∀ value < 16, Text.isBlank (Hex.digit value) = false := by decide
  refine ⟨?_, ?_, List.any_eq_false.2 ?_⟩
  · rw [Hex.readField positive]
    congr 1
    omega
  · exact List.ne_nil_of_length_pos (by rw [Hex.fieldLength positive]; decide)
  · intro char inside
    obtain ⟨value, bound, rfl⟩ := Hex.fieldDigits positive _ char inside
    simp [digitSolid value bound]

/-- The name and the three numbers of the instruction are words. -/
theorem wordsOfLine (writable : instruction.IsWritable) :
    ∀ word ∈ [instruction.mnemonic, Decimal.ofNat instruction.format.size,
      Hex.field 2 instruction.opcode.toNat, Decimal.ofNat instruction.operandCount.val],
      Text.IsWord word := by
  obtain ⟨formatRange, _, countRange⟩ := instruction.numbersInRange
  simp only [List.forall_mem_cons]
  exact ⟨writable.word, (readDigit _ (by omega)).2, (readOpcode _).2, (readDigit _ (by omega)).2,
    List.forall_mem_nil _⟩

theorem ofLineLine (writable : instruction.IsWritable) :
    ofLine instruction.line = .ok instruction := by
  obtain ⟨formatRange, _, countRange⟩ := instruction.numbersInRange
  have made := ofLineOfWords (Text.wordsJoin (wordsOfLine writable)) (readDigit _ (by omega)).1
    (readOpcode _).1 (readDigit _ (by omega)).1
  exact made.trans (ofFieldsEqOk.2 ⟨writable.upper.symm, rfl, rfl, rfl⟩)

/-- The line of an instruction is no remark. -/
theorem keptLine (writable : instruction.IsWritable) :
    Catalog.isIgnored (Text.strip instruction.line) = false := by
  have words : Text.words (Text.strip instruction.line) = _ :=
    (Text.wordsStrip _).trans (Text.wordsJoin (wordsOfLine writable))
  cases stripped : Text.strip instruction.line with
  | nil =>
    rw [stripped] at words
    contradiction
  | cons first rest =>
    rw [Catalog.isIgnored, Bool.eq_false_iff]
    intro ignored
    obtain rfl : first = '#' := by simpa using ignored
    have solid : Text.isBlank '#' = false := by decide
    obtain ⟨word, others, marked⟩ := Text.headWords solid rest
    rw [stripped, marked] at words
    exact writable.unmarked (by rw [← (List.cons.inj words).1]; rfl)

end Instruction

namespace Catalog

/-- Instructions of new names are added behind the others. -/
theorem addAllFresh {catalog : Catalog} {instructions : List Instruction}
    (fresh : (catalog.names ++ instructions.map (·.mnemonic)).Nodup) :
    catalog.addAll instructions =
      ⟨catalog.entries ++ instructions.map fun instruction =>
        (instruction.mnemonic, instruction)⟩ := by
  induction instructions generalizing catalog with
  | nil => simp [addAll]
  | cons instruction rest inductionHypothesis =>
    have missing : Table.contains catalog instruction.mnemonic = false := by
      rw [Bool.eq_false_iff, Table.contains, Ne, List.contains_iff_mem]
      intro listed
      have twice := (List.nodup_append.1 fresh).2.2 _ listed _ List.mem_cons_self
      exact twice rfl
    rw [addAll, List.foldl_cons, Table.set, if_neg (by simp [missing])]
    refine (inductionHypothesis ?_).trans ?_
    · rw [Table.namesAppend, List.append_assoc]
      exact fresh
    · rw [Table.append, List.append_assoc, List.map_cons]
      rfl

/-- A catalog is loaded from its lines as it was written. -/
theorem loadWritten {instructions : List Instruction}
    (writable : ∀ instruction ∈ instructions, instruction.IsWritable)
    (distinct : (instructions.map (·.mnemonic)).Nodup) :
    (load (instructions.map Instruction.line)).result =
      .ok ⟨instructions.map fun instruction => (instruction.mnemonic, instruction)⟩ := by
  have sound : ∀ line ∈ instructions.map Instruction.line, IsSound line := by
    intro line listed
    obtain ⟨instruction, member, rfl⟩ := List.mem_map.1 listed
    exact soundIff.2 (.inr ⟨instruction, Instruction.ofLineLine (writable _ member)⟩)
  have found : (instructions.map Instruction.line).filterMap instruction? = instructions := by
    rw [List.filterMap_map]
    refine (List.filterMap_congr fun instruction member => ?_).trans List.filterMap_some
    have kept := Instruction.keptLine (writable instruction member)
    rw [Function.comp_apply, instruction?, kept, Instruction.ofLineLine (writable _ member)]
    rfl
  have fresh : ((Table.empty : Catalog).names ++ instructions.map (·.mnemonic)).Nodup := distinct
  rw [resultLoad, loadFromSound sound, found, addAllFresh fresh]
  rfl

/-- A catalog is loaded from its text as it was written. -/
theorem loadWrittenText {instructions : List Instruction}
    (writable : ∀ instruction ∈ instructions, instruction.IsWritable)
    (distinct : (instructions.map (·.mnemonic)).Nodup) :
    (load (Text.lines (Text.unifyLineEnds
      (Text.unlines (instructions.map Instruction.line))))).result =
      .ok ⟨instructions.map fun instruction => (instruction.mnemonic, instruction)⟩ := by
  have unbroken : ∀ line ∈ instructions.map Instruction.line, ∀ char ∈ line,
      Text.isLineBreak char = false := by
    intro line listed
    obtain ⟨instruction, member, rfl⟩ := List.mem_map.1 listed
    exact Text.wordsOnOneLine (Instruction.wordsOfLine (writable instruction member))
  rw [Text.unifyLineEndsUnlines unbroken, Text.linesUnlines unbroken,
    loadWritten writable distinct]

theorem writableStandard : ∀ instruction ∈ standardInstructions, instruction.IsWritable := by
  decide +kernel

theorem distinctStandard : (standardInstructions.map (·.mnemonic)).Nodup := by
  decide +kernel

section Files

variable {σ : Type} [Files (StateM σ)]

/-- The catalog that a file holds. -/
def inFile (store : σ) (path : Text) : Except Failure Catalog := do
  let text ← Files.textAt store path
  (load (Text.lines text)).result.mapError Failure.catalog

theorem inFileOfText {store : σ} {path text : Text} {catalog : Catalog}
    (found : Files.textAt store path = .ok text)
    (loaded : (load (Text.lines text)).result = .ok catalog) : inFile store path = .ok catalog := by
  rw [inFile, found]
  exact congrArg (Except.mapError Failure.catalog) loaded

variable [LawfulFiles σ]

theorem appliedOfFile {path : Text} (proper : Path.IsProper path) (store : σ) :
    (ofFile path : Task (StateM σ) Catalog).applied store = (inFile store path, store) := by
  unfold ofFile inFile
  rw [proper.normal, Task.appliedBind, Files.appliedReadText store proper]
  cases Files.textAt store path <;> rfl

/-- Where the file of the standard catalog holds its text, the standard catalog is loaded. -/
theorem appliedLoadStandard {store : σ}
    (installed : (Files.load store (Files.standardCatalog (StateM σ))).1 =
      .ok (Text.encodeUtf8 standardText)) :
    (loadStandard : Task (StateM σ) Catalog).applied store = (.ok standard, store) := by
  have text : Files.textAt store (Files.standardCatalog (StateM σ)) =
      .ok (Text.unifyLineEnds standardText) := by
    simp only [Files.textAt, installed, Text.decodeUtf8EncodeUtf8]
  have loaded : inFile store (Files.standardCatalog (StateM σ)) = .ok standard :=
    inFileOfText text (loadWrittenText writableStandard distinctStandard)
  rw [loadStandard, appliedOfFile LawfulFiles.standard, loaded]

end Files

example : (loadStandard : Task (StateM FileStore) Catalog).applied FileStore.initial =
    (.ok standard, FileStore.initial) :=
  appliedLoadStandard rfl

end Catalog

end SicXe
