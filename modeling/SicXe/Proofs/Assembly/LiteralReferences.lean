/-
This file says where a reference to a literal points: to the bytes of the literal in a pool, if a
pool follows its first mention, and else to the address zero.
-/

import SicXe.Catalog.Standard
import SicXe.Proofs.Assembly.Sections
import SicXe.Proofs.Code.Width
import SicXe.Proofs.Module.Emission
import SicXe.Proofs.Section.Pool

namespace SicXe

open Numeral

/-- The record is a text record with the digits at the address, two digits a byte. -/
def Record.Holds (record : Record) (address : Int) (digits : Text) : Prop :=
  match record with
  | .text start code => ∃ before after, code = before ++ digits ++ after ∧
      (before.length : Int) = 2 * (address - start)
  | _ => False

theorem Constant.unmarkedOfText {name : Text} (constant : (ofText? name).isSome = true) :
    Unmarked name := by
  unfold ofText? at constant
  split at constant
  · next letter rest =>
    intro marked
    obtain rfl := Option.some.inj marked
    split at constant <;> simp at constant
  · contradiction

theorem Section.mentionsExternalOfLiteral {statement : Statement} {text name : Text}
    (literal : statement.operand = some ⟨text, .literal name⟩) (part : Section) :
    part.mentionsExternal statement = false := by
  rw [Section.mentionsExternal, literal]
  rfl

/-- An instruction of three bytes with a literal counts from the next instruction. -/
theorem Statement.Coherent.relativeOfLiteral {catalog : Catalog} {statement : Statement}
    {text name : Text} {instruction : Instruction} (coherent : statement.Coherent catalog)
    (literal : statement.operand = some ⟨text, .literal name⟩)
    (known : catalog.get? statement.operator = some instruction)
    (format : instruction.format = .three) (short : statement.extended = false) :
    statement.size = 3 ∧ statement.addressing.p = true ∧ instruction.operandCount.val ≠ 0 := by
  obtain ⟨rest, operands, marked⟩ := coherent.textOfLiteral literal
  refine ⟨?_, ?_, ?_⟩
  · have sized := coherent.size
    rw [known, short] at sized
    have same : (instruction.format.size : Int) = statement.size := Except.ok.inj sized
    rw [← same, format]
    rfl
  · rw [coherent.addressing, known, short, operands, marked]
    simp [Statement.addressingOf, format]
  · intro none
    have bare := coherent.bare (by rw [known]; exact decide_eq_true none)
    rw [operands] at bare
    contradiction

/-- The displacement of a reference to a literal leads to the address of the literal. -/
theorem Encoder.codeOfLiteral {encoder : Encoder} {part : Section} {statement : Statement}
    {text name code : Text} {instruction : Instruction}
    (reading : statement.IsRead encoder.catalog)
    (literal : statement.operand = some ⟨text, .literal name⟩)
    (written : statement.operator ≠ [])
    (known : encoder.catalog.get? statement.operator = some instruction)
    (format : instruction.format = .three) (short : statement.extended = false)
    (coded : (encoder.code part statement).value? = some code) :
    code.drop 3 = Hex.field 3 (part.literals.lookup name - (statement.location + 3)) := by
  have plain := reading.plainOfOperand literal
  obtain ⟨size, relative, counted⟩ :=
    (reading.coherent plain).relativeOfLiteral literal known format short
  have displacement : encoder.displacement part statement instruction =
      pure (part.literals.lookup name - (statement.location + 3)) := by
    have internal := Section.mentionsExternalOfLiteral literal part
    simp only [Encoder.displacement, literal, counted, internal, target, short, relative, size]
    rfl
  rw [Encoder.code, if_neg (by simp [plain, written]), known] at coded
  simp only [instructionCode, format, or_true, if_true] at coded
  obtain ⟨value, displaced, field⟩ := longCodeField coded
  rw [displacement] at displaced
  rw [field, short, ← Option.some.inj displaced]
  rfl

namespace Section

variable {part : Section} {records : List Record} {name : Text}

/-- No literal of the section is marked, and the code of each has two digits a byte. -/
def AlignedLiterals (part : Section) : Prop :=
  ∀ name ∈ part.literals.names,
    Unmarked name ∧ (Literal.code name).length = 2 * Literal.size name

instance (part : Section) : Decidable part.AlignedLiterals :=
  inferInstanceAs (Decidable (∀ _ ∈ _, _ ≠ _ ∧ _ = _))

/-- A pool lists the literal, and its record, which is one of the given ones, holds the code of the
literal at the address. -/
def PoolHolds (part : Section) (records : List Record) (name : Text) (address : Int) : Prop :=
  ∃ entry ∈ part.entries, name ∈ entry.pool ∧ part.poolRecord entry.pool ∈ records ∧
    (part.poolRecord entry.pool).Holds address (Literal.code name)

theorem poolCodeLength {pool : List Text}
    (aligned : ∀ name ∈ pool, (Literal.code name).length = 2 * Literal.size name) :
    (pool.flatMap Literal.code).length = 2 * Literal.extent pool := by
  induction pool with
  | nil => rfl
  | cons name rest inductionHypothesis =>
    have first := aligned name List.mem_cons_self
    have later := inductionHypothesis fun other inside =>
      aligned other (List.mem_cons_of_mem _ inside)
    rw [List.flatMap_cons, List.length_append, first, later, Literal.extentCons]
    omega

/-- A statement with a pool has the record of the pool for its own. -/
theorem isolatedOfPlacing {entry : Entry} (plain : entry.isComment = false)
    (places : entry.placesLiterals = true) (pooled : entry.pool ≠ []) :
    part.isolated? entry = some [part.poolRecord entry.pool] := by
  obtain ⟨directive, found, placing⟩ := (Option.any_eq_true _ _).1 places
  unfold isolated?
  rw [if_neg (by simp [plain]), found]
  cases directive with
  | ltorg | finish => simp [pooled]
  | _ => contradiction

/-- The record of a pool holds each of its literals at the address that the table has for it. -/
theorem PoolsKept.poolRecordHolds (kept : part.PoolsKept) (aligned : part.AlignedLiterals)
    {entry : Entry} (member : entry ∈ part.entries) (listed : name ∈ entry.pool) :
    (part.poolRecord entry.pool).Holds (part.literals.lookup name) (Literal.code name) := by
  obtain ⟨before, after, shape⟩ := List.append_of_mem listed
  have own := kept.addressed entry member before name after shape
  have first : part.literals.lookup (entry.pool.headD []) = entry.location := by
    obtain ⟨head, rest, cut⟩ := List.exists_cons_of_ne_nil (List.ne_nil_of_mem listed)
    have place := kept.addressed entry member [] head rest cut
    rw [cut, List.headD_cons, place, Literal.extentNil]
    omega
  refine ⟨before.flatMap Literal.code, after.flatMap Literal.code, ?_, ?_⟩
  · rw [shape, List.flatMap_append, List.flatMap_cons, List.append_assoc]
  · have length : (before.flatMap Literal.code).length = 2 * Literal.extent before := by
      apply poolCodeLength
      intro other inside
      exact (aligned other (kept.heldOfPool member (by simp [shape, inside]))).2
    rw [length, own, first]
    omega

end Section

namespace Assembly.Origin

variable {encoder : Encoder} {laid part : Section} {records : List Record}

theorem pooledIff (origin : Origin encoder laid part records)
    (unmarked : ∀ name ∈ part.literals.names, Unmarked name) (name : Text) :
    name ∈ part.literals.placed ↔ Entry.poolFollows name part.entries = true := by
  rw [origin.shape] at unmarked ⊢
  rw [origin.built.pooledIff unmarked, Entry.poolFollows, Entry.poolFollows, List.dropWhile_map,
    List.any_map]
  rfl

/-- The record of a pool is emitted, unless its statement is an instruction. -/
theorem poolRecordEmitted (origin : Origin encoder laid part records)
    (unplacing : ∀ directive : Directive, directive.placesLiterals = true →
      encoder.catalog.get? directive.name = none)
    {entry : Entry} (inside : entry ∈ part.entries) (pooled : entry.pool ≠ []) :
    part.poolRecord entry.pool ∈ records := by
  obtain ⟨bare, member, rfl⟩ := origin.bareEntry inside
  have places : bare.placesLiterals = true := by
    rw [← Bool.not_eq_false]
    intro keeps
    exact pooled (origin.built.unpooled bare member keeps)
  obtain ⟨directive, found, placing⟩ := (Option.any_eq_true _ _).1 places
  have plain : bare.isComment = false := by
    rw [Bool.eq_false_iff]
    intro comment
    rw [(origin.built.isRead bare member).commentDirective comment] at found
    contradiction
  have empty : (encoder.coded laid bare).code = [] := by
    have none : (encoder.code laid bare.toStatement).value? = some [] := by
      apply Encoder.codeOfDirective (unplacing directive placing) found <;> rintro rfl <;>
        contradiction
    exact Option.some.inj ((origin.codes bare member).symm.trans none)
  obtain ⟨emission, emitted, rfl⟩ := Section.recordsCases origin.emitted
  have isolated := Section.emitIsolated emitted inside empty
    (Section.isolatedOfPlacing plain places pooled)
  simp [isolated List.mem_cons_self]

end Assembly.Origin

/-- A reference to a literal leads to the address that the table has for the literal. If a pool
follows the first mention of the literal, the record of a pool holds its code there; if none does,
the address is zero and no pool lists the literal. -/
theorem Assembly.literalReferencesNeedPools {settings : Settings} {file : Text}
    {lines : List Text} {assembly : Assembly} {part : Section} {records : List Record}
    {entry : Entry} {instruction : Instruction} {text name : Text}
    (unplacing : ∀ directive : Directive, directive.placesLiterals = true →
      settings.catalog.get? directive.name = none)
    (assembled : (ofLines settings file lines).result = .ok assembly)
    (emitted : (part, records) ∈ assembly.sections.zip assembly.modules)
    (aligned : part.AlignedLiterals) (member : entry ∈ part.entries)
    (literal : entry.operand = some ⟨text, .literal name⟩)
    (constant : (Constant.ofText? name).isSome = true) (written : entry.operator ≠ [])
    (known : settings.catalog.get? entry.operator = some instruction)
    (format : instruction.format = .three) (short : entry.extended = false) :
    entry.code.drop 3 = Hex.field 3 (part.literals.lookup name - (entry.location + 3)) ∧
      (part.PoolHolds records name (part.literals.lookup name) ↔
        Entry.poolFollows name part.entries = true) ∧
      (Entry.poolFollows name part.entries = false →
        part.literals.lookup name = 0 ∧ ∀ other ∈ part.entries, name ∉ other.pool) := by
  obtain ⟨_, laid, _, _, origin⟩ := Assembly.origin assembled emitted
  have unmarked : ∀ name ∈ part.literals.names, Unmarked name := fun name held =>
    (aligned name held).1
  have kept := origin.poolsKept unmarked
  have pooled := origin.pooledIff unmarked name
  have listed : name ∈ part.literals.placed ↔ ∃ other ∈ part.entries, name ∈ other.pool := by
    rw [kept.placed, List.mem_flatMap]
  obtain ⟨bare, bareMember, rfl⟩ := origin.bareEntry member
  refine ⟨?_, ⟨?_, ?_⟩, ?_⟩
  · rw [origin.literals]
    exact Encoder.codeOfLiteral (origin.built.isRead bare bareMember) literal written known format
      short (origin.codes bare bareMember)
  · rintro ⟨other, inside, lists, _⟩
    exact pooled.1 (listed.2 ⟨other, inside, lists⟩)
  · intro follows
    obtain ⟨other, inside, lists⟩ := listed.1 (pooled.2 follows)
    exact ⟨other, inside, lists,
      origin.poolRecordEmitted unplacing inside (List.ne_nil_of_mem lists),
      kept.poolRecordHolds aligned inside lists⟩
  · intro none
    have waits : name ∉ part.literals.placed := by
      rw [pooled, none]
      decide
    refine ⟨?_, fun other inside lists => waits (listed.2 ⟨other, inside, lists⟩)⟩
    apply kept.waiting name _ waits
    rw [origin.literals]
    apply (origin.built.memNames name).2
    refine List.any_eq_true.2 ⟨bare, bareMember, ?_⟩
    have mentioned : bare.operand = some ⟨text, .literal name⟩ := literal
    rw [Statement.mentions, mentioned]
    exact beq_iff_eq.2 (withoutMarkOfUnmarked (Constant.unmarkedOfText constant))

namespace Assembly

/-- A section with one literal before its pool and another behind it. -/
def halfPooled : List Text :=
  ["P\tSTART\t0", "\tLDA\t=C'EOF'", "\tLTORG", "\tLDA\t=X'05'", "Q\tCSECT", "\tEND\tP"].map
    String.toList

/-- The first literal is found in the pool, and the reference to the second leads to zero. -/
theorem halfPooledReferences :
    ∃ assembly part records,
      (ofLines ⟨Catalog.standard, true, false⟩ [] halfPooled).result = .ok assembly ∧
      (part, records) ∈ assembly.sections.zip assembly.modules ∧ part.AlignedLiterals ∧
      part.PoolHolds records "C'EOF'".toList 3 ∧
      part.literals.lookup "X'05'".toList = 0 ∧
      ¬ part.PoolHolds records "X'05'".toList 0 := by
  have unplacing : ∀ directive : Directive, directive.placesLiterals = true →
      Catalog.standard.get? directive.name = none := by
    intro directive _
    cases directive <;> decide
  have known : Catalog.standard.get? "LDA".toList = some ⟨"LDA".toList, .three, 0x00, 1⟩ := by
    decide
  have evaluated : ∃ assembly ∈
      (ofLines ⟨Catalog.standard, true, false⟩ [] halfPooled).value?,
      ∃ pair ∈ assembly.sections.zip assembly.modules, pair.1.AlignedLiterals ∧
        (∃ entry ∈ pair.1.entries, entry.operator = "LDA".toList ∧ entry.extended = false ∧
          entry.operand = some ⟨"=C'EOF'".toList, .literal "C'EOF'".toList⟩) ∧
        (∃ entry ∈ pair.1.entries, entry.operator = "LDA".toList ∧ entry.extended = false ∧
          entry.operand = some ⟨"=X'05'".toList, .literal "X'05'".toList⟩) ∧
        pair.1.literals.lookup "C'EOF'".toList = 3 ∧
        Entry.poolFollows "C'EOF'".toList pair.1.entries = true ∧
        Entry.poolFollows "X'05'".toList pair.1.entries = false := by
    decide +kernel
  obtain ⟨assembly, value, ⟨part, records⟩, emitted, aligned, ⟨first, firstMember, firstName,
    firstShort, firstLiteral⟩, ⟨second, secondMember, secondName, secondShort, secondLiteral⟩,
    address, follows, none⟩ := evaluated
  have assembled := Logged.valueEqSome.1 value
  obtain ⟨_, placed, _⟩ := literalReferencesNeedPools unplacing assembled emitted aligned
    firstMember firstLiteral (by decide) (by rw [firstName]; decide) (by rw [firstName, known]) rfl
    firstShort
  obtain ⟨_, waiting, zero⟩ := literalReferencesNeedPools unplacing assembled emitted aligned
    secondMember secondLiteral (by decide) (by rw [secondName]; decide)
    (by rw [secondName, known]) rfl secondShort
  refine ⟨assembly, part, records, assembled, emitted, aligned, ?_, (zero none).1, ?_⟩
  · rw [← address]
    exact placed.2 follows
  · rw [← (zero none).1, waiting, none]
    decide

end Assembly

end SicXe
