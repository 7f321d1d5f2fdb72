/-
This file takes the object code of instructions apart. The digits of an instruction of three or
four bytes, read as bits, give back the opcode, the addressing bits, and a field that leads to the
target.
-/

import SicXe.Proofs.Catalog.Load
import SicXe.Proofs.Code.Width

namespace SicXe

open Numeral

/-- The digits of a number stand for its lowest bits, below those of the digits before them. -/
theorem Numeral.Hex.ofFieldAppend (text : Text) (count : Nat) (value : Int) :
    ofField? (text ++ lowDigits count value) = (ofField? text).map fun high =>
      high <<< (4 * count) + (BitVec.ofInt (4 * count) value).toNat := by
  induction count generalizing value with
  | zero => simp [lowDigits, lowDigitsOnto, BitVec.of_length_zero]
  | succ count inductionHypothesis =>
    rw [lowDigitsSucc, ← List.append_assoc, ofFieldSnoc (by omega), inductionHypothesis,
      Option.map_map]
    congr 1
    funext high
    have shifted : high <<< (4 * (count + 1)) = high <<< (4 * count) * 16 := by
      rw [Nat.mul_succ, Nat.shiftLeft_add, Nat.shiftLeft_eq _ 4]
    rw [Function.comp_apply, toNatOfIntSucc, shifted]
    omega

/-- An instruction of three or four bytes: the upper six bits of its opcode, the addressing bits,
and a field of twelve bits, or of twenty if the instruction is extended. -/
structure LongInstruction where
  opcode : Nat
  addressing : Addressing
  field : Nat
  deriving DecidableEq, Repr

namespace LongInstruction

/-- The field is less than this. -/
def fieldRange (extended : Bool) : Nat :=
  if extended then 0x100000 else 0x1000

def ofWord (extended : Bool) (word : Nat) : LongInstruction where
  opcode := word / fieldRange extended / 64
  addressing := Addressing.ofNat (word / fieldRange extended % 64)
  field := word % fieldRange extended

/-- The digits are those of one number, whose bits are taken apart. -/
def ofCode? (extended : Bool) (code : Text) : Option LongInstruction :=
  (Hex.ofField? code).map (ofWord extended)

/-- A field of twelve bits in two's complement. -/
def displacement (decoded : LongInstruction) : Int :=
  if decoded.field < 0x800 then decoded.field else decoded.field - 0x1000

theorem ofWordParts {extended : Bool} (opcode : Nat) (addressing : Addressing) {field : Nat}
    (bound : field < fieldRange extended) :
    ofWord extended ((opcode * 64 + addressing.toNat) * fieldRange extended + field) =
      ⟨opcode, addressing, field⟩ := by
  have bits : addressing.toNat < 64 := by
    have ni := addressing.niLt
    have xbpe := addressing.xbpeLt
    unfold Addressing.toNat
    omega
  have high : ((opcode * 64 + addressing.toNat) * fieldRange extended + field) /
      fieldRange extended = opcode * 64 + addressing.toNat := by
    rw [Nat.add_comm, Nat.add_mul_div_right _ _ (by omega), Nat.div_eq_of_lt bound, Nat.zero_add]
  have low : ((opcode * 64 + addressing.toNat) * fieldRange extended + field) %
      fieldRange extended = field := by
    rw [Nat.mul_add_mod', Nat.mod_eq_of_lt bound]
  have middle : (opcode * 64 + addressing.toNat) % 64 = addressing.toNat := by omega
  rw [ofWord, high, low, middle, Addressing.ofNatToNat]
  congr 1
  omega

/-- The digits of an instruction give back what they are made of; the field is that of the number
modulo its range. -/
theorem ofCodeLong (extended : Bool) (instruction : Instruction) (addressing : Addressing)
    (value : Int) :
    ofCode? extended (Hex.field 2 (Encoder.firstByte instruction addressing) ++
        Hex.digit addressing.xbpe :: Hex.field (if extended then 5 else 3) value) =
      some ⟨instruction.opcode.toNat / 4, addressing, (value % fieldRange extended).toNat⟩ := by
  have opcode := instruction.opcode.toNat_lt
  have ni := addressing.niLt
  have byte : (BitVec.ofInt 8 (Encoder.firstByte instruction addressing)).toNat =
      Encoder.firstByte instruction addressing := by
    rw [BitVec.ofInt_natCast, BitVec.toNat_ofNat]
    unfold Encoder.firstByte
    omega
  have front : Hex.ofField? (Hex.field 2 (Encoder.firstByte instruction addressing) ++
      [Hex.digit addressing.xbpe]) =
        some (instruction.opcode.toNat / 4 * 64 + addressing.toNat) := by
    rw [Hex.ofFieldSnoc addressing.xbpeLt, Hex.ofFieldField (by decide), byte]
    unfold Encoder.firstByte Addressing.toNat
    rw [Option.map_some]
    congr 1
    omega
  have behind (count : Nat) (positive : 0 < count) (range : fieldRange extended = 2 ^ (4 * count)) :
      ofCode? extended (Hex.field 2 (Encoder.firstByte instruction addressing) ++
          Hex.digit addressing.xbpe :: Hex.field count value) =
        some ⟨instruction.opcode.toNat / 4, addressing, (value % fieldRange extended).toNat⟩ := by
    have field : (BitVec.ofInt (4 * count) value).toNat = (value % fieldRange extended).toNat := by
      rw [BitVec.toNat_ofInt, range]
    have bound : (value % fieldRange extended).toNat < fieldRange extended := by
      rw [← field, range]
      exact (BitVec.ofInt (4 * count) value).isLt
    have digits : Hex.field count value = Hex.lowDigits count value :=
      if_neg (Nat.ne_of_gt positive)
    rw [ofCode?, digits, ← List.singleton_append, ← List.append_assoc, Hex.ofFieldAppend, front,
      Option.map_some, Option.map_some, Nat.shiftLeft_eq, ← range, field, ofWordParts _ _ bound]
  cases extended
  · exact behind 3 (by decide) rfl
  · exact behind 5 (by decide) rfl

end LongInstruction

/-- The number that an operand stands for, whether or not its names have values. -/
def Section.target (part : Section) : Operand.Form → Int
  | .literal name => part.literals.lookup name
  | .immediateValue value | .number value => value
  | .immediateSymbol name | .indirect name | .symbol name => part.symbols.lookup name
  | .difference left right => part.symbols.lookup left - part.symbols.lookup right
  | .register _ | .counter | .constant _ => 0

namespace Encoder

variable {encoder : Encoder} {part : Section} {statement : Statement} {instruction : Instruction}

theorem valueOfEqLookup {name : Text} {value : Int}
    (resolved : (encoder.valueOf part statement name).value? = some value) :
    value = part.symbols.lookup name := by
  unfold valueOf at resolved
  simp only [] at resolved
  split at resolved
  · simp only [Logged.valueBind, Logged.valuePure, Option.bind_eq_some_iff,
      Option.some.injEq] at resolved
    obtain ⟨_, _, same⟩ := resolved
    exact same.symm
  · exact (Option.some.inj resolved).symm

theorem targetEqTarget {form : Operand.Form} {value : Int}
    (resolved : (encoder.target part statement form).value? = some value) :
    value = part.target form := by
  cases form with
  | immediateSymbol name => exact valueOfEqLookup resolved
  | indirect name => exact valueOfEqLookup resolved
  | symbol name => exact valueOfEqLookup resolved
  | difference left right =>
    simp only [target, Logged.valueBind, Logged.valuePure, Option.bind_eq_some_iff,
      Option.some.injEq] at resolved
    obtain ⟨minuend, isMinuend, subtrahend, isSubtrahend, rfl⟩ := resolved
    rw [valueOfEqLookup isMinuend, valueOfEqLookup isSubtrahend]
    rfl
  | _ => exact (Option.some.inj resolved).symm

/-- The field is left to a linker, or it leads to the target. -/
theorem displacementCases {value : Int} (coherent : statement.Coherent encoder.catalog)
    (known : encoder.catalog.get? statement.operator = some instruction)
    (displaced : (encoder.displacement part statement instruction).value? = some value) :
    (statement.extended = true ∨ statement.operand = none ∨
      part.mentionsExternal statement = true → value = 0) ∧
    ∀ operand ∈ statement.operand, statement.extended = false →
      part.mentionsExternal statement = false → value =
        if statement.addressing.p then
          part.target operand.form - (statement.location + statement.size)
        else part.target operand.form := by
  unfold displacement at displaced
  split at displaced
  · next none =>
    obtain rfl := Option.some.inj displaced
    exact ⟨fun _ => rfl, fun operand member => by simp [none] at member⟩
  · next operand found =>
    have counted : instruction.operandCount.val ≠ 0 := by
      intro zero
      have bare := coherent.noOperand (coherent.bare (by rw [known]; exact decide_eq_true zero))
      rw [found] at bare
      contradiction
    split at displaced
    · next skipped =>
      obtain rfl := Option.some.inj displaced
      have external := skipped.resolve_left counted
      exact ⟨fun _ => rfl, fun _ _ _ internal => by simp [external] at internal⟩
    · next direct =>
      have internal := (not_or.1 direct).2
      simp only [Logged.valueBind, Option.bind_eq_some_iff] at displaced
      obtain ⟨address, resolved, rest⟩ := displaced
      obtain rfl := targetEqTarget resolved
      cases extended : statement.extended with
      | true =>
        rw [extended] at rest
        exact ⟨fun _ => (Option.some.inj rest).symm, fun _ _ short => by contradiction⟩
      | false =>
        rw [extended] at rest
        refine ⟨by simp [found, internal], ?_⟩
        rintro other same _ _
        obtain rfl := Option.some.inj (found.symm.trans same)
        split at rest
        · contradiction
        · split at rest
          · next relative => rw [if_pos relative]; exact (Option.some.inj rest).symm
          · next absolute => rw [if_neg absolute]; exact (Option.some.inj rest).symm

end Encoder

/-- A constant begins with its letter. -/
theorem Constant.headOfText {text : Text} {constant : Constant}
    (found : ofText? text = some constant) :
    text.head? ≠ some '#' ∧ text.head? ≠ some '@' := by
  unfold ofText? at found
  split at found
  · next letter rest =>
    have known : letter = 'X' ∨ letter = 'x' ∨ letter = 'C' ∨ letter = 'c' := by
      split at found
      · split at found
        · next hex => exact hex.elim .inl (.inr ∘ .inl)
        · split at found
          · next chars => exact .inr (.inr chars)
          · contradiction
      · contradiction
    rcases known with rfl | rfl | rfl | rfl <;> simp
  · contradiction

namespace Operand.Form

def isImmediate : Form → Bool
  | immediateValue _ | immediateSymbol _ => true
  | _ => false

def isIndirect : Form → Bool
  | indirect _ => true
  | _ => false

/-- The form agrees with the mark in front of the text. -/
def AgreesWith (form : Form) (text : Text) : Prop :=
  (form.isImmediate = true ↔ text.head? = some '#') ∧
    (form.isIndirect = true ↔ text.head? = some '@')

theorem agreesOfAddress {text : Text} {form : Form} (formed : ofAddress text = .ok form) :
    form.AgreesWith text := by
  have numbered {convert : Int → Form} {shown : Text}
      (read : (readNumber shown).map convert = .ok form) : ∃ value, form = convert value := by
    cases found : readNumber shown with
    | error problem => simp [found, Except.map] at read
    | ok value =>
      rw [found] at read
      exact ⟨value, (Except.ok.inj read).symm⟩
  rw [ofAddressEq] at formed
  split at formed
  · split at formed
    · obtain ⟨value, rfl⟩ := numbered formed
      simp [AgreesWith, isImmediate, isIndirect]
    · obtain rfl := Except.ok.inj formed
      simp [AgreesWith, isImmediate, isIndirect]
  · obtain rfl := Except.ok.inj formed
    simp [AgreesWith, isImmediate, isIndirect]
  · obtain rfl := Except.ok.inj formed
    simp [AgreesWith, isImmediate, isIndirect]
  · obtain rfl := Except.ok.inj formed
    simp [AgreesWith, isImmediate, isIndirect]
  · next notImmediate notIndirect _ _ =>
    have unmarked : text.head? ≠ some '#' ∧ text.head? ≠ some '@' := by
      refine ⟨fun marked => ?_, fun marked => ?_⟩
      · obtain ⟨rest, shape⟩ := List.head?_eq_some_iff.1 marked
        exact notImmediate rest shape
      · obtain ⟨rest, shape⟩ := List.head?_eq_some_iff.1 marked
        exact notIndirect rest shape
    split at formed
    · obtain ⟨value, rfl⟩ := numbered formed
      simp [AgreesWith, isImmediate, isIndirect, unmarked]
    · split at formed <;> obtain rfl := Except.ok.inj formed <;>
        simp [AgreesWith, isImmediate, isIndirect, unmarked]

theorem agreesOfText {text operator : Text} {instruction : Instruction} {form : Form}
    (format : instruction.format = .three)
    (formed : ofText text operator (some instruction) = .ok form) : form.AgreesWith text := by
  unfold ofText at formed
  rw [if_neg (by simp [format])] at formed
  split at formed
  · next found isConstant =>
    split at formed
    · obtain rfl := Except.ok.inj formed
      simp [AgreesWith, isImmediate, isIndirect, Constant.headOfText isConstant]
    · exact agreesOfAddress formed
  · exact agreesOfAddress formed

end Operand.Form

namespace Statement

/-- How the bits of an instruction follow from its line: the marker alone decides `e`, and the marks
of an operand decide the others. -/
structure BitsFollow (statement : Statement) (instruction : Instruction) (marked : Prop) :
    Prop where
  extended : statement.addressing.e = true ↔ marked
  base : statement.addressing.b = false
  apart : ¬ (statement.addressing.p = true ∧ statement.addressing.e = true)
  immediate : instruction.format = .three → ∀ operand ∈ statement.operand,
    (statement.addressing.isImmediate = true ↔ operand.text.head? = some '#') ∧
      statement.addressing.isImmediate = operand.form.isImmediate
  indirect : instruction.format = .three → ∀ operand ∈ statement.operand,
    (statement.addressing.isIndirect = true ↔ operand.text.head? = some '@') ∧
      statement.addressing.isIndirect = operand.form.isIndirect
  simple : instruction.format = .three → (statement.addressing.isSimple = true ↔
    ∀ operand ∈ statement.operand, operand.text.head? ≠ some '#' ∧ operand.text.head? ≠ some '@')
  indexed : instruction.format = .three → (statement.addressing.x = true ↔
    statement.operands[1]? = some (Register.name .x))
  relative : instruction.format = .three → (statement.addressing.p = true ↔
    statement.extended = false ∧ ∃ operand ∈ statement.operand, operand.text.head? ≠ some '#')

variable {catalog : Catalog} {statement : Statement} {instruction : Instruction} {marked : Prop}

theorem Coherent.bitsFollow (coherent : statement.Coherent catalog)
    (known : catalog.get? statement.operator = some instruction)
    (marker : statement.extended = true ↔ marked) : statement.BitsFollow instruction marked := by
  have bits := coherent.addressing
  rw [known] at bits
  by_cases format : instruction.format = .three
  · cases shape : statement.operands with
    | nil =>
      have none := coherent.noOperand shape
      rw [shape] at bits
      simp only [addressingOf, Option.map_some, format, if_true] at bits
      constructor <;> simp [bits, none, shape, marker, Addressing.isSimple]
    | cons first others =>
      obtain ⟨form, formed, operand⟩ := coherent.someOperand first others shape
      rw [known] at formed
      have agrees := Operand.Form.agreesOfText format formed
      rw [shape] at bits
      simp only [addressingOf, Option.map_some, format, if_true] at bits
      have immediate : statement.addressing.isImmediate = true ↔ first.head? = some '#' := by
        rw [bits]
        simp +contextual [Addressing.isImmediate]
      have indirect : statement.addressing.isIndirect = true ↔ first.head? = some '@' := by
        rw [bits]
        simp +contextual [Addressing.isIndirect]
      refine ⟨?_, ?_, ?_, ?_, ?_, ?_, ?_, ?_⟩
      · simp [bits, marker]
      · simp [bits]
      · simp +contextual [bits]
      · rintro _ _ member
        obtain rfl := Option.some.inj (operand.symm.trans member)
        exact ⟨immediate, Bool.eq_iff_iff.2 (immediate.trans agrees.1.symm)⟩
      · rintro _ _ member
        obtain rfl := Option.some.inj (operand.symm.trans member)
        exact ⟨indirect, Bool.eq_iff_iff.2 (indirect.trans agrees.2.symm)⟩
      · simp [bits, operand, Addressing.isSimple]
      · simp [bits, shape, List.head?_eq_getElem?]
      · simp [bits, operand]
  · have plain : statement.addressing = { e := statement.extended } := by
      rw [bits]
      unfold addressingOf
      rw [if_neg (by simpa using format)]
    constructor <;> simp [plain, format, marker]

theorem splitMarkerMarks (field : Text) :
    (splitMarker field).1 = true ↔ field.head? = some '+' := by
  unfold splitMarker
  split
  · simp
  · next unmarked =>
    refine iff_of_false Bool.false_ne_true fun marked => ?_
    obtain ⟨rest, shape⟩ := List.head?_eq_some_iff.1 marked
    exact unmarked rest shape

/-- A plus sign in front of the operator is the marker of the statement. -/
theorem markedOfRead {file raw : Text} {location line : Int}
    (found : read catalog file location line raw = .ok statement)
    (plain : statement.isComment = false) :
    statement.extended = true ↔ (fieldAt (fieldsOf raw) 1).head? = some '+' := by
  rcases ofFieldsCases (readEqOk.1 found) with ⟨comment, rfl⟩ | ⟨_, _, _, _, _, marks, _⟩
  · simp [isComment, comment] at plain
  · have same := congrArg Prod.fst marks
    rw [← splitMarkerMarks, ← same]

end Statement

/-- What is read off the code of an instruction. The field is zero where a linker fills it.
Elsewhere it is the target, or, if the instruction is relative, the way to it from the next
instruction; and this way leads back to the target if twelve bits hold it. -/
structure LongInstruction.ReadsBack (decoded : LongInstruction) (part : Section)
    (statement : Statement) (instruction : Instruction) : Prop where
  opcode : decoded.opcode = instruction.opcode.toNat / 4
  addressing : decoded.addressing = statement.addressing
  linked : statement.extended = true ∨ statement.operand = none ∨
    part.mentionsExternal statement = true → decoded.field = 0
  absolute : ∀ operand ∈ statement.operand, statement.extended = false →
    part.mentionsExternal statement = false → statement.addressing.p = false →
    (decoded.field : Int) = part.target operand.form % 0x1000
  relative : ∀ operand ∈ statement.operand, statement.extended = false →
    part.mentionsExternal statement = false → statement.addressing.p = true →
    (decoded.field : Int) = (part.target operand.form - (statement.location + 3)) % 0x1000
  reached : ∀ operand ∈ statement.operand, statement.extended = false →
    part.mentionsExternal statement = false → statement.addressing.p = true →
    -0x800 ≤ part.target operand.form - (statement.location + 3) →
    part.target operand.form - (statement.location + 3) ≤ 0x7FF →
    decoded.displacement + (statement.location + 3) = part.target operand.form

namespace Encoder

variable {encoder : Encoder} {part : Section} {statement : Statement} {instruction : Instruction}
  {code : Text}

theorem longCodeReadsBack (coherent : statement.Coherent encoder.catalog)
    (known : encoder.catalog.get? statement.operator = some instruction)
    (long : statement.extended = true ∨ instruction.format = .three)
    (coded : (encoder.longCode part statement instruction).value? = some code) :
    ∃ decoded, LongInstruction.ofCode? statement.extended code = some decoded ∧
      decoded.ReadsBack part statement instruction := by
  simp only [longCode, Logged.valueBind, Logged.valuePure, Option.bind_eq_some_iff,
    Option.some.injEq] at coded
  obtain ⟨value, displaced, rfl⟩ := coded
  obtain ⟨linked, direct⟩ := displacementCases coherent known displaced
  have short (plain : statement.extended = false) : statement.size = 3 ∧
      ((value % LongInstruction.fieldRange statement.extended).toNat : Int) = value % 0x1000 := by
    have three : instruction.format = .three := by simpa [plain] using long
    refine ⟨?_, ?_⟩
    · rw [coherent.sizeOfInstruction known, plain, three]
      rfl
    · rw [plain]
      exact Int.toNat_of_nonneg (Int.emod_nonneg _ (by decide))
  refine ⟨_, LongInstruction.ofCodeLong _ _ _ _, rfl, rfl, ?_, ?_, ?_, ?_⟩
  · intro left
    simp [linked left]
  · intro operand member plain internal absolute
    have field := direct operand member plain internal
    rw [if_neg (by simp [absolute])] at field
    rw [← field]
    exact (short plain).2
  · intro operand member plain internal relative
    have field := direct operand member plain internal
    rw [if_pos relative, (short plain).1] at field
    rw [← field]
    exact (short plain).2
  · intro operand member plain internal relative least most
    have field := direct operand member plain internal
    rw [if_pos relative, (short plain).1] at field
    have low := (short plain).2
    unfold LongInstruction.displacement
    dsimp only
    split <;> omega

/-- The object code of an instruction, with a catalog that is loaded from lines and in any section,
has two digits for each byte of the instruction. Read as bits, the code of a long instruction gives
back the opcode, the addressing bits and the way to the target, and the bits follow from the
line. -/
theorem instructionsReadBack {lines : List Text} {file raw : Text} {location line : Int}
    (loaded : (Catalog.load lines).result = .ok encoder.catalog)
    (read : Statement.read encoder.catalog file location line raw = .ok statement)
    (plain : statement.isComment = false)
    (known : encoder.catalog.get? statement.operator = some instruction)
    (coded : (encoder.code part statement).result = .ok code) :
    ((code.length : Int) = 2 * statement.size ∧ ∀ char ∈ code, Hex.IsDigit char) ∧
    (statement.extended = true ∨ instruction.format = .three →
      ∃ decoded, LongInstruction.ofCode? statement.extended code = some decoded ∧
        decoded.ReadsBack part statement instruction) ∧
    statement.BitsFollow instruction
      ((Statement.fieldAt (Statement.fieldsOf raw) 1).head? = some '+') := by
  have reading : statement.IsRead encoder.catalog := ⟨_, _, _, _, Statement.readEqOk.1 read⟩
  have coherent := reading.coherent plain
  have named : statement.operator ≠ [] := by
    intro empty
    rw [empty, Catalog.solidOfLoad (Logged.valueEqSome.2 loaded)] at known
    contradiction
  rw [← Logged.valueEqSome, Encoder.code, if_neg (by simp [plain, named]), known] at coded
  refine ⟨⟨?_, (instructionCodeWidth coded).digits⟩, ?_, ?_⟩
  · rw [(instructionCodeWidth coded).length, coherent.sizeOfInstruction known]
    cases statement.extended <;> rfl
  · intro long
    simp only [instructionCode, if_pos long] at coded
    exact longCodeReadsBack coherent known long coded
  · exact coherent.bitsFollow known (Statement.markedOfRead read plain)

/-- A load with an index, from a table that stands before it. -/
def backwardLoad : Statement where
  location := 0x1000
  operator := "LDA".toList
  operands := ["TABLE".toList, "X".toList]
  operand := some ⟨"TABLE".toList, .symbol "TABLE".toList⟩
  addressing := { n := true, i := true, x := true, p := true }
  size := 3
  line := 1
  source := "\tLDA\tTABLE,X".toList

/-- The section of the load knows where the table is. -/
def backwardSection : Section :=
  { symbols := ⟨[("TABLE".toList, 0xFED)]⟩ }

/-- The code of the load leads back to its table. -/
theorem backwardLoadReadsBack :
    ∃ catalog decoded, (Catalog.load ["LDA 3 00 1".toList]).result = .ok catalog ∧
      Statement.read catalog [] 0x1000 1 "\tLDA\tTABLE,X".toList = .ok backwardLoad ∧
      (Encoder.code ⟨catalog, [], true⟩ backwardSection backwardLoad).result =
        .ok "03AFEA".toList ∧
      LongInstruction.ofCode? false "03AFEA".toList = some decoded ∧
      decoded.opcode = 0 ∧ decoded.addressing = backwardLoad.addressing ∧
      decoded.displacement + 0x1003 = 0xFED := by
  have evaluated : ∃ catalog ∈ (Catalog.load ["LDA 3 00 1".toList]).value?,
      (Statement.read catalog [] 0x1000 1 "\tLDA\tTABLE,X".toList).toOption = some backwardLoad ∧
      (Encoder.code ⟨catalog, [], true⟩ backwardSection backwardLoad).value? =
        some "03AFEA".toList ∧
      ∃ instruction ∈ catalog.get? "LDA".toList, instruction.format = .three ∧
        instruction.opcode.toNat / 4 = 0 := by
    decide +kernel
  obtain ⟨catalog, loadedValue, readValue, codedValue, instruction, known, format, opcode⟩ :=
    evaluated
  have loaded := Logged.valueEqSome.1 loadedValue
  have coded := Logged.valueEqSome.1 codedValue
  have read : Statement.read catalog [] 0x1000 1 "\tLDA\tTABLE,X".toList = .ok backwardLoad := by
    generalize Statement.read catalog [] 0x1000 1 "\tLDA\tTABLE,X".toList = found at readValue ⊢
    cases found with
    | error error => contradiction
    | ok statement => exact congrArg _ (Option.some.inj readValue)
  obtain ⟨_, long, _⟩ := instructionsReadBack loaded read (by decide) known coded
  obtain ⟨decoded, reads, back⟩ := long (.inr format)
  refine ⟨catalog, decoded, loaded, read, coded, reads, back.opcode.trans opcode,
    back.addressing, ?_⟩
  exact back.reached _ rfl rfl rfl rfl (by decide) (by decide)

end Encoder

end SicXe
