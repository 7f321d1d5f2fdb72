/-
This file compares text records with the most bytes that one may hold. Runs of statements keep the
limit, and pools do not look at it.
-/

import SicXe.Catalog.Standard
import SicXe.Proofs.Assembly.LiteralReferences
import SicXe.Proofs.Code.Fill

namespace SicXe

open Numeral

namespace Record

variable {start : Int} {code : Text}

/-- The digits of a text record that tell the number of its bytes. -/
def lengthField (line : Text) : Text :=
  (line.drop 7).take 2

/-- The number that a text record tells is that of its bytes, which have two digits each. -/
def TellsLength : Record → Prop
  | text start code => ∃ count,
      Hex.ofField? (lengthField (text start code).line) = some count ∧ code.length = 2 * count
  | _ => True

/-- A text record has thirty bytes at most and tells their number. -/
def KeepsLimit : Record → Prop
  | text start code => code.length ≤ 60 ∧ (text start code).TellsLength
  | _ => True

theorem lengthFieldText (start : Int) (code : Text) :
    lengthField (text start code).line = Hex.field 2 (byteCount code) := by
  have address : (Hex.field 6 start).length = 6 := Hex.fieldLength (by decide) start
  have digits : (Hex.field 2 (byteCount code)).length = 2 := Hex.fieldLength (by decide) _
  simp only [lengthField, line, body, tag, List.drop_succ_cons, List.append_assoc]
  rw [List.drop_left' address, List.take_left' digits]

/-- The number is right if it fits into a byte and no digit is left over. -/
theorem tellsLengthText :
    (text start code).TellsLength ↔ code.length % 2 = 0 ∧ code.length < 512 := by
  have told : Hex.ofField? (lengthField (text start code).line) = some (code.length / 2 % 256) := by
    rw [lengthFieldText, Hex.ofFieldField (by decide), BitVec.ofInt_natCast]
    rfl
  rw [TellsLength, told]
  constructor
  · rintro ⟨count, same, length⟩
    obtain rfl := Option.some.inj same
    omega
  · rintro ⟨even, small⟩
    exact ⟨_, rfl, by omega⟩

theorem keepsLimitText :
    (text start code).KeepsLimit ↔ code.length ≤ 60 ∧ code.length % 2 = 0 := by
  rw [KeepsLimit, tellsLengthText]
  omega

end Record

/-- Statements that fill their bytes have two digits for each of them all. -/
theorem Entry.blockCodeLength {block : List Entry}
    (fill : ∀ entry ∈ block, (entry.code.length : Int) = 2 * entry.size) :
    ((block.flatMap (·.code)).length : Int) = 2 * sizes block := by
  induction block with
  | nil => rfl
  | cons entry rest inductionHypothesis =>
    have first := fill entry List.mem_cons_self
    have later := inductionHypothesis fun other inside => fill other (List.mem_cons_of_mem _ inside)
    rw [List.flatMap_cons, List.length_append, sizesCons]
    omega

/-- The bound on the size of a run is one on its digits if the statements fill their bytes. -/
theorem Run.Holds.keepsLimit {run : Run} {block : List Entry} (holds : run.Holds block)
    (fill : ∀ entry ∈ block, (entry.code.length : Int) = 2 * entry.size) :
    run.record.KeepsLimit := by
  have length := Entry.blockCodeLength fill
  have bounded : run.size ≤ 30 := holds.bounded
  rw [← holds.code, ← holds.size] at length
  refine Record.keepsLimitText.2 ?_
  omega

namespace Assembly

/-- A text record holds the code of consecutive statements, of thirty bytes at most by their sizes,
or that of a pool. It tells the number of its bytes exactly if there are fewer than 256 and no digit
is left over. Where the statements fill their bytes, all text records keep the limit exactly if all
pools do. -/
theorem textLimitsNeedSmallPools {settings : Settings} {file : Text} {lines : List Text}
    {assembly : Assembly} {part : Section} {records : List Record}
    (unplacing : ∀ directive : Directive, directive.placesLiterals = true →
      settings.catalog.get? directive.name = none)
    (assembled : (ofLines settings file lines).result = .ok assembly)
    (emitted : (part, records) ∈ assembly.sections.zip assembly.modules) :
    (∀ start code, .text start code ∈ records →
      ((∃ block, block <:+: part.entries ∧ Run.Holds ⟨start, code, Entry.sizes block⟩ block) ∨
        ∃ entry ∈ part.entries, entry.pool ≠ [] ∧
          .text start code = part.poolRecord entry.pool) ∧
      ((Record.text start code).TellsLength ↔ code.length % 2 = 0 ∧ code.length < 512)) ∧
    ((∀ entry ∈ part.entries, entry.code ≠ [] → entry.FillsSize settings.catalog) →
      ((∀ record ∈ records, record.KeepsLimit) ↔ ∀ entry ∈ part.entries,
        (entry.pool.flatMap Literal.code).length ≤ 60 ∧
          (entry.pool.flatMap Literal.code).length % 2 = 0)) := by
  obtain ⟨_, laid, _, _, origin⟩ := Assembly.origin assembled emitted
  refine ⟨?_, fun fills => ⟨?_, ?_⟩⟩
  · intro start code listed
    exact ⟨Section.textOfRecords origin.emitted listed, Record.tellsLengthText⟩
  · intro kept entry inside
    cases pooled : entry.pool with
    | nil => simp
    | cons name rest =>
      have record := origin.poolRecordEmitted unplacing inside (by simp [pooled])
      rw [← pooled]
      exact Record.keepsLimitText.1 (kept _ record)
  · intro small record listed
    cases record with
    | text start code =>
      rcases Section.textOfRecords origin.emitted listed with
        ⟨block, ⟨before, after, shape⟩, holds⟩ | ⟨entry, inside, _, same⟩
      · apply holds.keepsLimit
        intro entry member
        have inside : entry ∈ part.entries := by simp [← shape, member]
        have written := holds.written entry member
        exact (Encoder.codeLengthIff (origin.isRead inside) (origin.codeOf inside) written).2
          (fills entry inside written)
      · rw [same]
        exact Record.keepsLimitText.2 (small entry inside)
    | _ => trivial

/-- A section with two literals of sixteen bytes in one pool, and one with a literal of a byte. -/
def longPoolLines : List Text :=
  ["P\tSTART\t0", "\tLDA\t=C'ABCDEFGHIJKLMNOP'", "\tLDA\t=C'QRSTUVWXYZABCDEF'", "\tLTORG",
    "Q\tCSECT", "\tLDA\t=X'F1'", "\tEND\tP"].map String.toList

/-- The records of the second section keep the limit, and those of the first do not. -/
theorem longPoolExceeds :
    ∃ assembly first firstRecords second secondRecords,
      (ofLines ⟨Catalog.standard, true, false⟩ [] longPoolLines).result = .ok assembly ∧
      (first, firstRecords) ∈ assembly.sections.zip assembly.modules ∧
      (second, secondRecords) ∈ assembly.sections.zip assembly.modules ∧
      (¬ ∀ record ∈ firstRecords, record.KeepsLimit) ∧
      ∀ record ∈ secondRecords, record.KeepsLimit := by
  have unplacing : ∀ directive : Directive, directive.placesLiterals = true →
      Catalog.standard.get? directive.name = none := by
    intro directive _
    cases directive <;> decide
  have evaluated : ∃ assembly ∈
      (ofLines ⟨Catalog.standard, true, false⟩ [] longPoolLines).value?,
      (∃ pair ∈ assembly.sections.zip assembly.modules,
        (∀ entry ∈ pair.1.entries, entry.code ≠ [] → entry.FillsSize Catalog.standard) ∧
        ∃ entry ∈ pair.1.entries, (entry.pool.flatMap Literal.code).length = 64) ∧
      ∃ pair ∈ assembly.sections.zip assembly.modules,
        (∀ entry ∈ pair.1.entries, entry.code ≠ [] → entry.FillsSize Catalog.standard) ∧
        ∀ entry ∈ pair.1.entries, (entry.pool.flatMap Literal.code).length ≤ 60 ∧
          (entry.pool.flatMap Literal.code).length % 2 = 0 := by
    decide +kernel
  obtain ⟨assembly, value,
    ⟨⟨first, firstRecords⟩, firstEmitted, firstFills, entry, inside, length⟩,
    ⟨second, secondRecords⟩, secondEmitted, secondFills, small⟩ := evaluated
  have assembled := Logged.valueEqSome.1 value
  obtain ⟨_, long⟩ := textLimitsNeedSmallPools unplacing assembled firstEmitted
  obtain ⟨_, short⟩ := textLimitsNeedSmallPools unplacing assembled secondEmitted
  refine ⟨assembly, first, firstRecords, second, secondRecords, assembled, firstEmitted,
    secondEmitted, ?_, (short secondFills).2 small⟩
  intro kept
  have bound := ((long firstFills).1 kept entry inside).1
  omega

end Assembly

end SicXe
