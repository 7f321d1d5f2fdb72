/-
This file follows the builder of records from turn to turn. Each turn begins at an index and leads
to the index of the next one, and the builder comes to an end because no turn leads back to where
it began.
-/

import SicXe.Catalog.Standard
import SicXe.Proofs.Assembly.Failures
import SicXe.Proofs.Catalog.Load
import SicXe.Proofs.Code.Fill

namespace SicXe

namespace Run

/-- The run takes the statements as long as they join it, and counts them. -/
def fill (run : Run) : List Entry → Run × Nat
  | [] => (run, 0)
  | entry :: rest =>
    if run.accepts entry then
      let filled := (run.add entry).fill rest
      (filled.1, filled.2 + 1)
    else (run, 0)

variable {run : Run} {entry : Entry} {rest : List Entry}

theorem fillAccepted (accepted : run.accepts entry = true) :
    run.fill (entry :: rest) =
      (((run.add entry).fill rest).1, ((run.add entry).fill rest).2 + 1) :=
  if_pos accepted

theorem fillRefused (refused : run.accepts entry = false) : run.fill (entry :: rest) = (run, 0) :=
  if_neg (by simp [refused])

end Run

namespace Section

/-- The records of one turn at a statement, and the index of the next turn. A statement outside of
runs has records of its own and is left behind. Any other begins a run, and the next turn is at the
first statement that does not join, which is the same one again if the run takes none. -/
def turn (part : Section) (index : Nat) (entry : Entry) : List Record × Nat :=
  match part.isolated? entry with
  | some own => (own, index + 1)
  | none =>
    let filled := (Run.before entry).fill (part.entries.drop index)
    ([filled.1.record], index + filled.2)

/-- The records of the statements from an index on, if there are enough turns for them. -/
def build (part : Section) : Nat → Nat → Option (List Record)
  | 0, index => if index < part.entries.length then none else some []
  | turns + 1, index =>
    match part.entries[index]? with
    | none => some []
    | some entry =>
      (build part turns (part.turn index entry).2).map ((part.turn index entry).1 ++ ·)

variable {part : Section} {entry : Entry} {index : Nat}

theorem turnIsolated {own : List Record} (isolated : part.isolated? entry = some own) :
    part.turn index entry = (own, index + 1) := by
  simp only [turn, isolated]

/-- The statements from an index on begin with the one at the index. -/
theorem dropAt (found : part.entries[index]? = some entry) :
    part.entries.drop index = entry :: part.entries.drop (index + 1) := by
  obtain ⟨inside, rfl⟩ := List.getElem?_eq_some_iff.1 found
  exact List.drop_eq_getElem_cons inside

theorem turnAccepted (found : part.entries[index]? = some entry)
    (joins : part.isolated? entry = none) (accepted : (Run.before entry).accepts entry = true) :
    part.turn index entry =
      ([(((Run.before entry).add entry).fill (part.entries.drop (index + 1))).1.record],
        index + 1 + (((Run.before entry).add entry).fill (part.entries.drop (index + 1))).2) := by
  simp only [turn, joins, dropAt found, Run.fillAccepted accepted]
  congr 1
  omega

/-- The next turn is at the same statement. -/
theorem turnRefused (found : part.entries[index]? = some entry)
    (joins : part.isolated? entry = none) (refused : (Run.before entry).accepts entry = false) :
    part.turn index entry = ([(Run.before entry).record], index) := by
  simp only [turn, joins, dropAt found, Run.fillRefused refused, Nat.add_zero]

/-- A turn leads on, but for a statement that has to begin a run and does not join it. -/
theorem turnAdvances (found : part.entries[index]? = some entry) :
    index < (part.turn index entry).2 ↔
      (part.isolated? entry = none → (Run.before entry).accepts entry = true) := by
  cases isolated : part.isolated? entry with
  | some own =>
    rw [turnIsolated isolated]
    simp
  | none =>
    cases accepted : (Run.before entry).accepts entry with
    | true =>
      rw [turnAccepted found isolated accepted]
      exact iff_of_true (by dsimp only; omega) fun _ => rfl
    | false =>
      rw [turnRefused found isolated accepted]
      simp

theorem emitOwn {own : List Record} (isolated : part.isolated? entry = some own)
    (rest : List Entry) :
    part.emit none (entry :: rest) = (part.emit none rest).map (own ++ ·) := by
  simp [emitCons, isolated]

theorem emitBegins (joins : part.isolated? entry = none)
    (accepted : (Run.before entry).accepts entry = true) (rest : List Entry) :
    part.emit none (entry :: rest) = part.emit (some ((Run.before entry).add entry)) rest := by
  have begun : Run.begin? entry = some ((Run.before entry).add entry) := if_pos accepted
  have same (made : Except AssemblyError (List Record)) : made.map (fun later => later) = made := by
    cases made <;> rfl
  simp [emitCons, joins, begun, same]

theorem emitStalls (joins : part.isolated? entry = none)
    (refused : (Run.before entry).accepts entry = false) (rest : List Entry) :
    part.emit none (entry :: rest) = .error .stalled := by
  have never : Run.begin? entry = none := if_neg (Bool.eq_false_iff.1 refused)
  simp [emitCons, joins, never]

theorem emitJoined {run : Run} (accepted : run.accepts entry = true) (rest : List Entry) :
    part.emit (some run) (entry :: rest) = part.emit (some (run.add entry)) rest := by
  simp [emitCons, Run.extend?, accepted]

/-- A run that a statement does not join ends before the records of the statement. -/
theorem emitRefused {run : Run} (refused : run.accepts entry = false) (rest : List Entry) :
    part.emit (some run) (entry :: rest) =
      (part.emit none (entry :: rest)).map (run.record :: ·) := by
  have mapped (front : List Record) (made : Except AssemblyError (List Record)) :
      made.map ([run.record] ++ front ++ ·) = (made.map (front ++ ·)).map (run.record :: ·) := by
    cases made <;> rfl
  cases isolated : part.isolated? entry with
  | some own =>
    rw [emitOwn isolated, ← mapped]
    simp [emitCons, Run.extend?, refused, isolated]
  | none =>
    cases accepted : (Run.before entry).accepts entry with
    | true =>
      have begun : Run.begin? entry = some ((Run.before entry).add entry) := if_pos accepted
      rw [emitBegins isolated accepted]
      simp [emitCons, Run.extend?, refused, isolated, begun]
    | false =>
      have never : Run.begin? entry = none := if_neg (Bool.eq_false_iff.1 accepted)
      rw [emitStalls isolated accepted]
      simp [emitCons, Run.extend?, refused, isolated, never]
      rfl

/-- A run in progress takes what joins it, and then the records go on without it. -/
theorem emitFill (run : Run) (entries : List Entry) :
    part.emit (some run) entries =
      (part.emit none (entries.drop (run.fill entries).2)).map
        ((run.fill entries).1.record :: ·) := by
  induction entries generalizing run with
  | nil => rfl
  | cons entry rest inductionHypothesis =>
    cases accepted : run.accepts entry with
    | true =>
      rw [emitJoined accepted, Run.fillAccepted accepted]
      exact inductionHypothesis (run.add entry)
    | false =>
      rw [Run.fillRefused accepted]
      exact emitRefused accepted rest

/-- The records from a statement on are those of a turn and of what follows it, unless the turn
leads nowhere. -/
theorem emitTurn (found : part.entries[index]? = some entry) :
    part.emit none (part.entries.drop index) =
      if index < (part.turn index entry).2 then
        (part.emit none (part.entries.drop (part.turn index entry).2)).map
          ((part.turn index entry).1 ++ ·)
      else .error .stalled := by
  rw [dropAt found]
  cases isolated : part.isolated? entry with
  | some own =>
    rw [turnIsolated isolated, if_pos (Nat.lt_succ_self index), emitOwn isolated]
  | none =>
    cases accepted : (Run.before entry).accepts entry with
    | true =>
      rw [turnAccepted found isolated accepted, if_pos (by dsimp only; omega),
        emitBegins isolated accepted, emitFill, List.drop_drop]
      rfl
    | false =>
      rw [turnRefused found isolated accepted, if_neg (Nat.lt_irrefl index),
        emitStalls isolated accepted]

theorem buildTurn (found : part.entries[index]? = some entry) (turns : Nat) :
    part.build (turns + 1) index =
      (part.build turns (part.turn index entry).2).map ((part.turn index entry).1 ++ ·) := by
  simp only [build, found]

/-- A turn that leads nowhere is repeated until there are no turns left. -/
theorem buildStuck (found : part.entries[index]? = some entry)
    (stuck : ¬ index < (part.turn index entry).2) (turns : Nat) :
    part.build turns index = none := by
  have same : (part.turn index entry).2 = index := by
    rw [turnAdvances found] at stuck
    obtain ⟨joins, refused⟩ := Classical.not_imp.1 stuck
    rw [turnRefused found joins (Bool.eq_false_iff.2 refused)]
  induction turns with
  | zero => exact if_pos (List.getElem?_eq_some_iff.1 found).1
  | succ turns inductionHypothesis =>
    rw [buildTurn found, same, inductionHypothesis, Option.map_none]

/-- The turns make the records, and where they go round in circles there are none. -/
theorem emitEqBuild {turns : Nat} (enough : part.entries.length - index ≤ turns) :
    part.emit none (part.entries.drop index) =
      (part.build turns index).elim (.error .stalled) .ok := by
  induction turns generalizing index with
  | zero =>
    have ended : part.entries.length ≤ index := by omega
    rw [List.drop_of_length_le ended, build, if_neg (Nat.not_lt.2 ended)]
    rfl
  | succ turns inductionHypothesis =>
    cases found : part.entries[index]? with
    | none =>
      rw [List.drop_of_length_le (List.getElem?_eq_none_iff.1 found), build, found]
      rfl
    | some entry =>
      rw [emitTurn found]
      split
      · next advances =>
        rw [inductionHypothesis (by omega), buildTurn found]
        cases part.build turns (part.turn index entry).2 <;> rfl
      · next stuck => rw [buildStuck found stuck, Option.elim_none]

/-- Turns that all lead on come to the end, and no more of them are needed than statements. -/
theorem buildOfAdvancing
    (advancing : ∀ index entry, part.entries[index]? = some entry →
      index < (part.turn index entry).2)
    {turns : Nat} (enough : part.entries.length - index ≤ turns) :
    ∃ records, part.build turns index = some records := by
  induction turns generalizing index with
  | zero => exact ⟨[], if_neg (by omega)⟩
  | succ turns inductionHypothesis =>
    cases found : part.entries[index]? with
    | none => exact ⟨[], by simp only [build, found]⟩
    | some entry =>
      have next := advancing index entry found
      obtain ⟨later, builds⟩ := @inductionHypothesis (part.turn index entry).2 (by omega)
      exact ⟨_, by rw [buildTurn found, builds, Option.map_some]⟩

end Section

theorem Constant.codeOfSize {constant : Constant} (sized : 0 < constant.size) :
    constant.code ≠ [] := by
  cases constant with
  | hex digits =>
    apply Text.upperNeNil
    rintro rfl
    contradiction
  | chars payload =>
    cases payload with
    | nil => contradiction
    | cons char rest =>
      have least := (charsLength (char :: rest)).1
      apply List.ne_nil_of_length_pos
      simp only [List.length_cons] at least
      exact Nat.lt_of_lt_of_le (by omega) least

/-- The constant of the statement, if it gives the statement its size, fits into a record. -/
def Statement.FitsRecord (catalog : Catalog) (statement : Statement) : Prop :=
  catalog.get? statement.operator = none → statement.extended = false →
    ∀ constant ∈ statement.byteConstant?, constant.size ≤ 30

instance (catalog : Catalog) (statement : Statement) :
    Decidable (statement.FitsRecord catalog) :=
  inferInstanceAs (Decidable (_ → _ → _))

namespace Encoder

variable {encoder : Encoder} {laid part : Section} {statement : Statement} {entry : Entry}

/-- Of all statements with code, a constant alone can be too long for a record. -/
theorem sizeFitsIff {code : Text} (reading : statement.IsRead encoder.catalog)
    (coded : (encoder.code laid statement).value? = some code) (written : code ≠ []) :
    statement.size ≤ Run.maxSize ↔ statement.FitsRecord encoder.catalog := by
  have limit : Run.maxSize = 30 := rfl
  obtain ⟨plain, _, ⟨instruction, known, _⟩ | ⟨unknown, ⟨byte, _⟩ | ⟨word, _⟩⟩⟩ :=
    codeCases coded written
  · apply iff_of_true
    · rw [(reading.coherent plain).sizeOfInstruction known]
      cases statement.extended <;> cases instruction.format <;> decide
    · intro unknown
      rw [known] at unknown
      contradiction
  · have size := (reading.coherent plain).sizeOfByte unknown byte
    have constants : statement.byteConstant? = statement.constant? := if_pos byte
    rw [size, Statement.FitsRecord, constants, limit]
    cases statement.extended with
    | true => simp
    | false =>
      cases statement.constant? with
      | none => simp
      | some constant =>
        simp only [unknown, Option.elim_some, Bool.false_eq_true, if_false, Option.mem_some_iff,
          forall_const, forall_eq']
        omega
  · have none : statement.byteConstant? = none := if_neg (by rw [word]; decide)
    rw [(reading.coherent plain).sizeOfWord unknown word, Statement.FitsRecord, none, limit]
    cases statement.extended <;> simp

/-- Reserved storage has no code, so it is not in the way of a run. -/
theorem acceptsIffFits
    (unreserved : ∀ directive : Directive, directive.reserves = true →
      encoder.catalog.get? directive.name = none)
    (reading : entry.toStatement.IsRead encoder.catalog)
    (coded : (encoder.code laid entry.toStatement).value? = some entry.code)
    (joins : part.isolated? entry = none) :
    (Run.before entry).accepts entry = true ↔ entry.FitsRecord encoder.catalog := by
  have written : entry.code ≠ [] := Section.codeOfJoining joins
  rw [← sizeFitsIff reading coded written]
  constructor
  · intro accepted
    have bound := Run.acceptsBound accepted
    rwa [Run.before, Int.zero_add] at bound
  · intro fits
    rw [← Bool.not_eq_false]
    intro refused
    have never : Run.begin? entry = none := if_neg (Bool.eq_false_iff.1 refused)
    rcases (Section.codeOfRefused joins never).2 with none | reserves | long
    · have sized := sizeOfCode reading coded written
      omega
    · obtain ⟨directive, found, isReserving⟩ := (Option.any_eq_true _ _).1 reserves
      have silent : (encoder.code laid entry.toStatement).value? = some [] :=
        codeOfDirective (unreserved directive isReserving) found (by rintro rfl; contradiction)
          (by rintro rfl; contradiction)
      rw [coded] at silent
      exact written (Option.some.inj silent)
    · omega

theorem byteCodeOfConstant {constant : Constant} (held : statement.constant? = some constant) :
    byteCode statement = constant.code := by
  unfold Statement.constant? at held
  split at held
  · next operand =>
    obtain rfl := Option.some.inj held
    rw [byteCode, operand]
  · contradiction

/-- A constant that is longer than a record has code, and a run has to begin with it. -/
theorem joinsOfLong {constant : Constant} (reading : entry.toStatement.IsRead encoder.catalog)
    (coded : (encoder.code laid entry.toStatement).value? = some entry.code)
    (unknown : encoder.catalog.get? entry.operator = none)
    (held : constant ∈ entry.byteConstant?) (long : 30 < constant.size) :
    part.isolated? entry = none := by
  have byte : entry.directive? = some .byte := by
    refine not_not.1 fun other => ?_
    rw [Statement.byteConstant?, if_neg other] at held
    contradiction
  have plain : entry.isComment = false := by
    rw [Bool.eq_false_iff]
    intro comment
    rw [reading.commentDirective comment] at byte
    contradiction
  have named : entry.operator ≠ [] := by
    intro empty
    rw [Statement.directive?, empty] at byte
    contradiction
  have code : entry.code = constant.code := by
    rw [Encoder.code, if_neg (by simp [plain, named]), unknown, byte] at coded
    rw [Statement.byteConstant?, if_pos byte] at held
    rw [← byteCodeOfConstant held]
    exact (Option.some.inj coded).symm
  have written : entry.code ≠ [] := by
    rw [code]
    exact Constant.codeOfSize (by omega)
  simp [Section.isolated?, plain, byte, written]

/-- The statements of a section keep what was read, and have their code. -/
theorem entryOfCodeSection (made : (encoder.codeSection laid).value? = some part)
    (inside : entry ∈ part.entries) :
    (∃ bare ∈ laid.entries, bare.toStatement = entry.toStatement) ∧
      (encoder.code laid entry.toStatement).value? = some entry.code := by
  simp only [codeSection, Logged.valueBind, Logged.valuePure, Option.bind_eq_some_iff,
    Option.some.injEq] at made
  obtain ⟨entries, makes, rfl⟩ := made
  obtain ⟨rfl, codes⟩ := codeEntriesCases makes
  obtain ⟨bare, member, rfl⟩ := List.mem_map.1 inside
  exact ⟨⟨bare, member, rfl⟩, codes bare member⟩

end Encoder

namespace Assembly

/-- Where no instruction has the name of reserved storage, each turn of the builder leads on exactly
if no constant without a marker has more than thirty bytes. Then the builder needs no more turns
than there are statements, and what it makes are the records of the section. -/
theorem recordsMakeProgress {catalog : Catalog} {file : Text} {strict : Bool} {lines : List Text}
    {layout : Layout} {laid part : Section}
    (unreserved : ∀ directive : Directive, directive.reserves = true →
      catalog.get? directive.name = none)
    (laidOut : (Layout.ofLines catalog file lines).result = .ok layout)
    (member : laid ∈ layout.sections)
    (coded : (Encoder.codeSection ⟨catalog, file, strict⟩ laid).result = .ok part) :
    ((∀ index entry, part.entries[index]? = some entry → index < (part.turn index entry).2) ↔
      ∀ entry ∈ part.entries, entry.FitsRecord catalog) ∧
    ((∀ entry ∈ part.entries, entry.FitsRecord catalog) →
      ∃ emission, part.build part.entries.length 0 = some emission ∧
        part.records catalog =
          .ok (emission ++ part.patchRecords ++ [part.finishRecord catalog])) := by
  have built := Layout.builtOfLines (Logged.valueEqSome.2 laidOut) laid member
  have origin {entry : Entry} (inside : entry ∈ part.entries) :
      entry.toStatement.IsRead catalog ∧
        (Encoder.code ⟨catalog, file, strict⟩ laid entry.toStatement).value? = some entry.code := by
    obtain ⟨⟨bare, listed, same⟩, codes⟩ :=
      Encoder.entryOfCodeSection (Logged.valueEqSome.2 coded) inside
    exact ⟨same ▸ built.isRead bare listed, codes⟩
  have advances : (∀ index entry, part.entries[index]? = some entry →
      index < (part.turn index entry).2) ↔ ∀ entry ∈ part.entries, entry.FitsRecord catalog := by
    constructor
    · intro advancing entry inside unknown short constant held
      obtain ⟨reading, codes⟩ := origin inside
      obtain ⟨index, found⟩ := List.mem_iff_getElem?.1 inside
      refine Nat.not_lt.1 fun long => ?_
      have joins : part.isolated? entry = none :=
        Encoder.joinsOfLong reading codes unknown held long
      have accepted := (Section.turnAdvances found).1 (advancing index entry found) joins
      have fits := (Encoder.acceptsIffFits unreserved reading codes joins).1 accepted
      exact Nat.not_lt.2 (fits unknown short constant held) long
    · intro fits index entry found
      have inside := List.mem_of_getElem? found
      obtain ⟨reading, codes⟩ := origin inside
      rw [Section.turnAdvances found]
      intro joins
      exact (Encoder.acceptsIffFits unreserved reading codes joins).2 (fits entry inside)
  refine ⟨advances, fun fits => ?_⟩
  obtain ⟨emission, builds⟩ :=
    Section.buildOfAdvancing (advances.2 fits) (Nat.sub_le part.entries.length 0)
  have emits : part.emit none part.entries = .ok emission := by
    have equal := @Section.emitEqBuild part 0 _ (Nat.le_refl _)
    rwa [Nat.sub_zero, builds, List.drop_zero] at equal
  refine ⟨emission, builds, ?_⟩
  rw [Section.records, emits]
  rfl

/-- A section with constants that are as long as a record or marked, and one with a longer one. -/
def longConstantLines : List Text :=
  ["P\tSTART\t0", "\tBYTE\tC'ABCDEFGHIJKLMNOPQRSTUVWXYZABCD'",
    "\t+BYTE\tC'ABCDEFGHIJKLMNOPQRSTUVWXYZABCDE'", "\tRESB\t3", "\tWORD\t5", "Q\tCSECT",
    "\tBYTE\tC'ABCDEFGHIJKLMNOPQRSTUVWXYZABCDE'", "\tEND\tP"].map String.toList

/-- The first section gets its records, and a turn of the second one leads nowhere. -/
theorem longConstantsProgress :
    ∃ layout firstLaid first secondLaid second emission,
      (Layout.ofLines Catalog.standard [] longConstantLines).result = .ok layout ∧
      firstLaid ∈ layout.sections ∧ secondLaid ∈ layout.sections ∧
      (Encoder.codeSection ⟨Catalog.standard, [], true⟩ firstLaid).result = .ok first ∧
      (Encoder.codeSection ⟨Catalog.standard, [], true⟩ secondLaid).result = .ok second ∧
      first.build first.entries.length 0 = some emission ∧ emission.length = 4 ∧
      first.records Catalog.standard =
        .ok (emission ++ first.patchRecords ++ [first.finishRecord Catalog.standard]) ∧
      ¬ ∀ index entry, second.entries[index]? = some entry →
        index < (second.turn index entry).2 := by
  have unreserved : ∀ directive : Directive, directive.reserves = true →
      Catalog.standard.get? directive.name = none := by
    intro directive _
    cases directive <;> decide
  have evaluated : ∃ layout ∈ (Layout.ofLines Catalog.standard [] longConstantLines).value?,
      (∃ laid ∈ layout.sections,
        ∃ part ∈ (Encoder.codeSection ⟨Catalog.standard, [], true⟩ laid).value?,
          (∀ entry ∈ part.entries, entry.FitsRecord Catalog.standard) ∧
            (part.build part.entries.length 0).map List.length = some 4) ∧
      ∃ laid ∈ layout.sections,
        ∃ part ∈ (Encoder.codeSection ⟨Catalog.standard, [], true⟩ laid).value?,
          ¬ ∀ entry ∈ part.entries, entry.FitsRecord Catalog.standard := by
    decide +kernel
  obtain ⟨layout, laidValue, ⟨firstLaid, firstMember, first, firstValue, fits, count⟩,
    secondLaid, secondMember, second, secondValue, exceeds⟩ := evaluated
  have laidOut := Logged.valueEqSome.1 laidValue
  have firstCoded := Logged.valueEqSome.1 firstValue
  have secondCoded := Logged.valueEqSome.1 secondValue
  obtain ⟨_, builds⟩ := recordsMakeProgress unreserved laidOut firstMember firstCoded
  obtain ⟨emission, made, records⟩ := builds fits
  obtain ⟨advances, _⟩ := recordsMakeProgress unreserved laidOut secondMember secondCoded
  rw [made] at count
  exact ⟨layout, firstLaid, first, secondLaid, second, emission, laidOut, firstMember, secondMember,
    firstCoded, secondCoded, made, Option.some.inj count, records,
    fun advancing => exceeds (advances.1 advancing)⟩

end Assembly

end SicXe
