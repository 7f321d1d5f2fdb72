/-
This file says which catalog comes from which lines. Either every line is sound, or the first line
that is not stops the loading; the last line of a name decides its instruction, and its first line
decides its place.
-/

import Mathlib.Data.List.Forall2
import SicXe.Proofs.Catalog.Load
import SicXe.Proofs.Table
import SicXe.Proofs.Text.Pieces

namespace SicXe

open Numeral

theorem Format.ofIntEqSome {value : Int} {format : Format} :
    Format.ofInt? value = some format ↔ value = format.size := by
  constructor
  · intro found
    unfold ofInt? at found
    split at found <;> cases found <;> rfl
  · rintro rfl
    cases format <;> rfl

namespace Instruction

/-- The line has four words, of which three stand for numbers in their ranges. -/
structure IsSpecification (line name : Text) (format opcode operandCount : Int) : Prop where
  words : ∃ formatWord opcodeWord countWord,
    Text.words line = [name, formatWord, opcodeWord, countWord] ∧
      Decimal.read? formatWord = some format ∧ Hex.read? opcodeWord = some opcode ∧
      Decimal.read? countWord = some operandCount
  formatRange : format = 1 ∨ format = 2 ∨ format = 3
  opcodeRange : 0 ≤ opcode ∧ opcode ≤ 0xFF
  countRange : 0 ≤ operandCount ∧ operandCount ≤ 3

/-- The line tells the numbers of the instruction, and its name up to the case of the letters. -/
def IsDescribed (line : Text) (instruction : Instruction) : Prop :=
  ∃ name, instruction.mnemonic = Text.upper name ∧
    IsSpecification line name instruction.format.size instruction.opcode.toNat
      instruction.operandCount.val

variable {name line : Text} {format opcode operandCount : Int} {instruction : Instruction}

theorem numbersInRange (instruction : Instruction) :
    (instruction.format.size = 1 ∨ instruction.format.size = 2 ∨ instruction.format.size = 3) ∧
      instruction.opcode.toNat ≤ 0xFF ∧ instruction.operandCount.val ≤ 3 := by
  have byte := instruction.opcode.toNat_lt
  refine ⟨?_, by omega, by omega⟩
  cases instruction.format <;> decide

theorem ofFieldsEqOk : ofFields name format opcode operandCount = .ok instruction ↔
    instruction.mnemonic = Text.upper name ∧ format = instruction.format.size ∧
      opcode = instruction.opcode.toNat ∧ operandCount = instruction.operandCount.val := by
  obtain ⟨mnemonic, shape, byte, count⟩ := instruction
  have byteRange : byte.toNat ≤ 0xFF := (numbersInRange ⟨mnemonic, shape, byte, count⟩).2.1
  constructor
  · intro made
    unfold ofFields at made
    split at made
    · contradiction
    · next found =>
      split at made
      · next opcodeRange =>
        split at made
        · next countRange =>
          obtain ⟨rfl, rfl, rfl, rfl⟩ := Instruction.mk.inj (Except.ok.inj made)
          refine ⟨rfl, Format.ofIntEqSome.1 found, ?_, by simp only; omega⟩
          rw [UInt8.toNat_ofNat']
          omega
        · contradiction
      · contradiction
  · rintro ⟨rfl, rfl, rfl, rfl⟩
    have opcodeRange : 0 ≤ (byte.toNat : Int) ∧ (byte.toNat : Int) ≤ 0xFF := by omega
    have countRange : 0 ≤ (count.val : Int) ∧ (count.val : Int) ≤ 3 := by omega
    simp only [ofFields, Format.ofIntEqSome.2 rfl, if_pos opcodeRange, dif_pos countRange]
    simp

theorem ofFieldsInRange (formatRange : format = 1 ∨ format = 2 ∨ format = 3)
    (opcodeRange : 0 ≤ opcode ∧ opcode ≤ 0xFF) (countRange : 0 ≤ operandCount ∧ operandCount ≤ 3)
    (name : Text) : ∃ instruction, ofFields name format opcode operandCount = .ok instruction := by
  obtain ⟨shape, found⟩ : ∃ shape, Format.ofInt? format = some shape := by
    rcases formatRange with rfl | rfl | rfl
    · exact ⟨.one, rfl⟩
    · exact ⟨.two, rfl⟩
    · exact ⟨.three, rfl⟩
  simp only [ofFields, found, if_pos opcodeRange, dif_pos countRange]
  exact ⟨_, rfl⟩

theorem ofLineOfWords {formatWord opcodeWord countWord : Text}
    (words : Text.words line = [name, formatWord, opcodeWord, countWord])
    (readFormat : Decimal.read? formatWord = some format)
    (readOpcode : Hex.read? opcodeWord = some opcode)
    (readCount : Decimal.read? countWord = some operandCount) :
    ofLine line = ofFields name format opcode operandCount := by
  simp only [ofLine, words, readFormat, readOpcode, readCount]

/-- A line is read as an instruction just if it describes the instruction. -/
theorem ofLineEqOk : ofLine line = .ok instruction ↔ IsDescribed line instruction := by
  constructor
  · intro made
    unfold ofLine at made
    split at made
    · next name formatWord opcodeWord countWord words =>
      split at made
      · next format opcode operandCount readFormat readOpcode readCount =>
        obtain ⟨named, rfl, rfl, rfl⟩ := ofFieldsEqOk.1 made
        obtain ⟨formatRange, opcodeRange, countRange⟩ := numbersInRange instruction
        exact ⟨name, named, ⟨_, _, _, words, readFormat, readOpcode, readCount⟩, by omega,
          by omega, by omega⟩
      · contradiction
    · contradiction
  · rintro ⟨name, named, ⟨_, _, _, words, readFormat, readOpcode, readCount⟩, _⟩
    rw [ofLineOfWords words readFormat readOpcode readCount]
    exact ofFieldsEqOk.2 ⟨named, rfl, rfl, rfl⟩

theorem IsSpecification.described
    (specification : IsSpecification line name format opcode operandCount) :
    ∃ instruction, IsDescribed line instruction := by
  obtain ⟨⟨_, _, _, words, readFormat, readOpcode, readCount⟩, formatRange, opcodeRange,
    countRange⟩ := specification
  obtain ⟨instruction, made⟩ := ofFieldsInRange formatRange opcodeRange countRange name
  rw [← ofLineOfWords words readFormat readOpcode readCount] at made
  exact ⟨instruction, ofLineEqOk.1 made⟩

theorem ofLineStrip (line : Text) : ofLine (Text.strip line) = ofLine line := by
  unfold ofLine
  rw [Text.wordsStrip]

end Instruction

namespace Catalog

/-- The line is ignored or specifies an instruction. -/
def IsSound (line : Text) : Prop :=
  isIgnored (Text.strip line) = true ∨
    ∃ name format opcode operandCount,
      Instruction.IsSpecification line name format opcode operandCount

/-- The instruction of a line that is not ignored. -/
def instruction? (line : Text) : Option Instruction :=
  if isIgnored (Text.strip line) then none else (Instruction.ofLine line).toOption

/-- The instructions are added one after the other. -/
def addAll (catalog : Catalog) (instructions : List Instruction) : Catalog :=
  instructions.foldl (fun catalog instruction => catalog.set instruction.mnemonic instruction)
    catalog

variable {catalog : Catalog} {line : Text}

theorem soundIff : IsSound line ↔ isIgnored (Text.strip line) = true ∨
    ∃ instruction, Instruction.ofLine line = .ok instruction := by
  constructor
  · rintro (ignored | ⟨_, _, _, _, specification⟩)
    · exact .inl ignored
    · obtain ⟨instruction, described⟩ := specification.described
      exact .inr ⟨instruction, Instruction.ofLineEqOk.2 described⟩
  · rintro (ignored | ⟨instruction, made⟩)
    · exact .inl ignored
    · obtain ⟨name, _, specification⟩ := Instruction.ofLineEqOk.1 made
      exact .inr ⟨name, _, _, _, specification⟩

theorem resultAddLine (catalog : Catalog) (number : Nat) (line : Text) :
    (catalog.addLine number line).result =
      if isIgnored (Text.strip line) then .ok catalog
      else match Instruction.ofLine line with
        | .error flaw => .error ⟨number, Text.strip line, flaw⟩
        | .ok instruction => .ok (catalog.addAll [instruction]) := by
  rw [addLine, Instruction.ofLineStrip]
  split
  · rfl
  · cases Instruction.ofLine line with
    | error flaw => rfl
    | ok instruction =>
      simp only [add, Logged.resultBind]
      cases catalog.contains instruction.mnemonic <;> rfl

/-- A sound line adds its instruction, if it has one. -/
theorem addLineSound (sound : IsSound line) (catalog : Catalog) (number : Nat) :
    (catalog.addLine number line).result = .ok (catalog.addAll (instruction? line).toList) := by
  rw [resultAddLine, instruction?]
  rcases soundIff.1 sound with ignored | ⟨instruction, made⟩
  · rw [if_pos ignored, if_pos ignored]
    rfl
  · rw [made]
    split <;> rfl

theorem addLineUnsound (unsound : ¬ IsSound line) (catalog : Catalog) (number : Nat) :
    ∃ flaw, (catalog.addLine number line).result = .error ⟨number, Text.strip line, flaw⟩ := by
  rw [soundIff, not_or] at unsound
  obtain ⟨kept, undescribed⟩ := unsound
  rw [resultAddLine, if_neg kept]
  cases made : Instruction.ofLine line with
  | error flaw => exact ⟨flaw, rfl⟩
  | ok instruction => exact absurd ⟨instruction, made⟩ undescribed

/-- Sound lines add their instructions in order. -/
theorem loadFromSound {lines : List Text} (sound : ∀ line ∈ lines, IsSound line)
    (catalog : Catalog) (number : Nat) :
    (catalog.loadFrom number lines).result =
      .ok (catalog.addAll (lines.filterMap instruction?)) := by
  induction lines generalizing catalog number with
  | nil => rfl
  | cons line rest inductionHypothesis =>
    obtain ⟨soundLine, soundRest⟩ := List.forall_mem_cons.1 sound
    rw [loadFrom, Logged.resultBind, addLineSound soundLine]
    refine (inductionHypothesis soundRest _ _).trans ?_
    cases found : instruction? line <;> simp [addAll, found]

/-- The first line that is not sound stops the loading with its number. -/
theorem loadFromUnsound {before after : List Text} (sound : ∀ earlier ∈ before, IsSound earlier)
    (unsound : ¬ IsSound line) (catalog : Catalog) (number : Nat) :
    ∃ flaw, (catalog.loadFrom number (before ++ line :: after)).result =
      .error ⟨number + before.length, Text.strip line, flaw⟩ := by
  induction before generalizing catalog number with
  | nil =>
    obtain ⟨flaw, failed⟩ := addLineUnsound unsound catalog number
    refine ⟨flaw, ?_⟩
    rw [List.nil_append, loadFrom, Logged.resultBind, failed]
    rfl
  | cons first rest inductionHypothesis =>
    obtain ⟨soundFirst, soundRest⟩ := List.forall_mem_cons.1 sound
    obtain ⟨flaw, failed⟩ :=
      inductionHypothesis soundRest (catalog.addAll (instruction? first).toList) (number + 1)
    refine ⟨flaw, ?_⟩
    rw [List.cons_append, loadFrom, Logged.resultBind, addLineSound soundFirst]
    refine failed.trans ?_
    rw [List.length_cons, Nat.add_assoc, Nat.add_comm 1]

theorem firstUnsound {lines : List Text} (flawed : ¬ ∀ line ∈ lines, IsSound line) :
    ∃ before line after, lines = before ++ line :: after ∧
      (∀ earlier ∈ before, IsSound earlier) ∧ ¬ IsSound line := by
  induction lines with
  | nil => exact absurd (List.forall_mem_nil _) flawed
  | cons first rest inductionHypothesis =>
    by_cases sound : IsSound first
    · rw [List.forall_mem_cons, not_and] at flawed
      obtain ⟨before, line, after, rfl, earlier, unsound⟩ := inductionHypothesis (flawed sound)
      exact ⟨first :: before, line, after, rfl, List.forall_mem_cons.2 ⟨sound, earlier⟩, unsound⟩
    · exact ⟨[], first, rest, rfl, List.forall_mem_nil _, sound⟩

theorem resultLoad (lines : List Text) :
    (load lines).result = (loadFrom Table.empty 1 lines).result := by
  rw [load, Logged.resultBind]
  cases (loadFrom Table.empty 1 lines).result <;> rfl

/-- The last instruction of a name counts. -/
theorem getAddAll (catalog : Catalog) (instructions : List Instruction) (name : Text) :
    (catalog.addAll instructions).get? name =
      ((instructions.filter (·.mnemonic = name)).getLast?).or (catalog.get? name) := by
  induction instructions generalizing catalog with
  | nil => rfl
  | cons instruction rest inductionHypothesis =>
    rw [addAll, List.foldl_cons]
    refine (inductionHypothesis _).trans ?_
    rw [Table.getSet]
    by_cases same : instruction.mnemonic = name
    · rw [if_pos same.symm, List.filter_cons_of_pos (by simpa using same), List.getLast?_cons,
        Option.some_or]
      cases (rest.filter (·.mnemonic = name)).getLast? <;> rfl
    · rw [if_neg (Ne.symm same), List.filter_cons_of_neg (by simpa using same)]

/-- The first instruction of a name decides its place. -/
theorem namesAddAll {earlier : List Text} (listed : catalog.names = earlier.eraseDups)
    (instructions : List Instruction) :
    (catalog.addAll instructions).names =
      (earlier ++ instructions.map (·.mnemonic)).eraseDups := by
  induction instructions generalizing catalog earlier with
  | nil => rw [List.map_nil, List.append_nil, ← listed]; rfl
  | cons instruction rest inductionHypothesis =>
    rw [addAll, List.foldl_cons, List.map_cons, List.append_cons]
    exact inductionHypothesis (Table.namesSet listed _ _)

/-- The instructions of sound lines are described by the lines that are not ignored. -/
theorem instructionsDescribed {lines : List Text} (sound : ∀ line ∈ lines, IsSound line) :
    List.Forall₂ Instruction.IsDescribed (lines.filter fun line => !isIgnored (Text.strip line))
      (lines.filterMap instruction?) := by
  induction lines with
  | nil => exact .nil
  | cons line rest inductionHypothesis =>
    obtain ⟨soundLine, soundRest⟩ := List.forall_mem_cons.1 sound
    have later := inductionHypothesis soundRest
    by_cases ignored : isIgnored (Text.strip line) = true
    · rw [List.filter_cons_of_neg (by simp [ignored]),
        List.filterMap_cons_none (by rw [instruction?, if_pos ignored])]
      exact later
    · obtain ⟨instruction, made⟩ := (soundIff.1 soundLine).resolve_left ignored
      have found : instruction? line = some instruction := by
        rw [instruction?, if_neg ignored, made]
        rfl
      rw [List.filter_cons_of_pos (by simp [ignored]), List.filterMap_cons_some found]
      exact .cons (Instruction.ofLineEqOk.1 made) later

/-- Iteration over the catalog shows each name once, where it came first. -/
theorem mnemonicsAddAll (instructions : List Instruction) :
    (addAll Table.empty instructions).entries.map (·.2.mnemonic) =
      (instructions.map (·.mnemonic)).eraseDups := by
  have names : (addAll Table.empty instructions).names = _ :=
    @namesAddAll Table.empty [] rfl instructions
  have distinct : (addAll Table.empty instructions).names.Nodup :=
    names ▸ Text.nodupEraseDups _
  refine Eq.trans (List.map_congr_left ?_) names
  -- An entry is what its name finds, and a name finds an instruction of that name.
  intro entry inside
  have found := (Table.memEntriesIff distinct).1 inside
  rw [getAddAll, show Table.get? Table.empty entry.1 = (none : Option Instruction) from rfl,
    Option.or_none] at found
  have chosen := (List.mem_filter.1 (List.mem_of_getLast? found)).2
  exact of_decide_eq_true chosen

/-- A catalog is loaded just if all lines are sound, and otherwise the first other line is blamed. A
loaded catalog has the instructions that its lines describe: the last line of a name decides what
the name finds, the first one where the instruction stands, and all numbers are in their ranges. -/
theorem linesDecideCatalog (lines : List Text) :
    ((∃ catalog, (load lines).result = .ok catalog) ↔ ∀ line ∈ lines, IsSound line) ∧
    (∀ fault, (load lines).result = .error fault →
      ∃ before line after, lines = before ++ line :: after ∧
        (∀ earlier ∈ before, IsSound earlier) ∧ ¬ IsSound line ∧
        fault.line = before.length + 1) ∧
    ∀ catalog, (load lines).result = .ok catalog → ∃ instructions,
      List.Forall₂ Instruction.IsDescribed (lines.filter fun line => !isIgnored (Text.strip line))
        instructions ∧
      (∀ name, catalog.get? name = (instructions.filter (·.mnemonic = name)).getLast?) ∧
      (catalog.entries.map (·.2.mnemonic)).Nodup ∧
      catalog.entries.map (·.2.mnemonic) = (instructions.map (·.mnemonic)).eraseDups ∧
      ∀ instruction ∈ catalog.entries.map (·.2),
        (instruction.format.size = 1 ∨ instruction.format.size = 2 ∨
          instruction.format.size = 3) ∧
        instruction.opcode.toNat ≤ 0xFF ∧ instruction.operandCount.val ≤ 3 := by
  rw [resultLoad]
  by_cases sound : ∀ line ∈ lines, IsSound line
  · rw [loadFromSound sound]
    refine ⟨⟨fun _ => sound, fun _ => ⟨_, rfl⟩⟩, fun _ failed => absurd failed (by simp), ?_⟩
    intro catalog loaded
    obtain rfl := Except.ok.inj loaded
    have mnemonics := mnemonicsAddAll (lines.filterMap instruction?)
    refine ⟨_, instructionsDescribed sound, fun name => ?_, ?_, mnemonics, ?_⟩
    · exact (getAddAll _ _ name).trans (Option.or_none)
    · rw [mnemonics]
      exact Text.nodupEraseDups _
    · exact fun instruction _ => instruction.numbersInRange
  · obtain ⟨before, line, after, rfl, earlier, unsound⟩ := firstUnsound sound
    obtain ⟨flaw, failed⟩ := @loadFromUnsound line before after earlier unsound Table.empty 1
    rw [failed]
    refine ⟨⟨fun loaded => ?_, fun all => absurd all sound⟩, ?_, ?_⟩
    · obtain ⟨catalog, loaded⟩ := loaded
      contradiction
    · intro fault same
      obtain rfl := Except.error.inj same
      exact ⟨before, line, after, rfl, earlier, unsound, Nat.add_comm 1 _⟩
    · intro catalog loaded
      contradiction

/-- A remark, a name in two spellings with another between them, and a blank line. -/
def respelledLines : List Text :=
  ["# name format opcode operands", "lda 3 00 1", " FIX\t1 C4 0 ", "", "LDA 3 0xFF 2"].map
    String.toList

/-- The fourth line has no format that exists. -/
def faultyLines : List Text :=
  respelledLines.take 3 ++ ["LDA 4 00 1".toList, "BAD".toList]

/-- The later spelling of a name replaces the earlier one in its place, and only the first of two
faulty lines is blamed. -/
theorem respelledNameReplaced :
    (∀ line ∈ respelledLines, IsSound line) ∧
    (∃ catalog, (load respelledLines).result = .ok catalog ∧
      catalog.entries.map (·.2.mnemonic) = ["LDA", "FIX"].map String.toList ∧
      (catalog.get? "LDA".toList).map (·.opcode) = some 0xFF) ∧
    (load faultyLines).result = .error ⟨4, "LDA 4 00 1".toList, .format 4⟩ ∧
    (∀ line ∈ faultyLines.take 3, IsSound line) ∧ ¬ IsSound "LDA 4 00 1".toList := by
  have evaluated : ∃ catalog ∈ (load respelledLines).value?,
      catalog.entries.map (·.2.mnemonic) = ["LDA", "FIX"].map String.toList ∧
      (catalog.get? "LDA".toList).map (·.opcode) = some 0xFF := by
    decide +kernel
  have failed : (load faultyLines).result = .error ⟨4, "LDA 4 00 1".toList, .format 4⟩ := by
    decide +kernel
  obtain ⟨catalog, loadedValue, names, opcode⟩ := evaluated
  have loaded := Logged.valueEqSome.1 loadedValue
  obtain ⟨before, line, after, shape, earlier, unsound, number⟩ :=
    (linesDecideCatalog faultyLines).2.1 _ failed
  have three : before.length = 3 := by
    have : 4 = before.length + 1 := number
    omega
  refine ⟨(linesDecideCatalog respelledLines).1.1 ⟨catalog, loaded⟩,
    ⟨catalog, loaded, names, opcode⟩, failed, ?_, ?_⟩
  · rwa [shape, List.take_left' three]
  · have fourth := congrArg (fun lines => (lines.drop 3).head?) shape
    simp only [List.drop_left' three] at fourth
    rwa [Option.some.inj fourth]

end Catalog

end SicXe
