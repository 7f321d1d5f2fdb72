/-
This file says with which errors a program fails to assemble: a line is to blame, or a statement has
more code than a text record holds.
-/

import SicXe.Proofs.Assembly.Sections
import SicXe.Proofs.Code.Width
import SicXe.Proofs.Failure.Cause
import SicXe.Proofs.Layout.Lines
import SicXe.Proofs.Module.Emission
import SicXe.Proofs.Undefined.Missing

namespace SicXe

variable {strict : Bool} {line : Text × Nat}

namespace Section

variable {part : Section} {file : Text} {catalog : Catalog} {statement : Statement}

/-- A label fails to have a value only if it stands before an expression. -/
theorem failsBindLabel (reading : statement.IsRead catalog)
    (plain : statement.isComment = false) (isAt : statement.IsAt line) :
    FailsBy (AssemblyError.Blames strict file line) (part.bindLabel file statement).result := by
  unfold bindLabel
  split
  · refine FailsBy.logged ?_ fun value _ => FailsBy.ofIsSome (by simp)
    change FailsBy _ (part.labelValue file statement)
    unfold labelValue
    split
    · next equ => exact reading.failsEvaluate plain (by simp [equ]) isAt _ _ _
    · exact .ok _
  · exact .ok _

theorem failsAddStatement (reading : statement.IsRead catalog) (isAt : statement.IsAt line) :
    FailsBy (AssemblyError.Blames strict file line) (part.addStatement file statement).result := by
  unfold addStatement
  split
  · exact .ok _
  · next written =>
    refine (failsBindLabel reading (by simpa using written) isAt).logged fun labelled _ => ?_
    apply FailsBy.ofIsSome
    simp [valueRegisterLiteral, valueApplyOperator]

theorem failsAddLine (number : Nat) (raw : Text) :
    FailsBy (AssemblyError.Blames strict file (raw, number))
      (part.addLine catalog file number raw).result := by
  refine FailsBy.logged (Statement.failsRead _ _ _ _) fun statement read => ?_
  have found := Statement.readEqOk.1 read
  exact failsAddStatement ⟨_, _, _, _, found⟩
    ⟨Statement.ofFieldsLine found, Statement.ofFieldsSource found⟩

end Section

namespace Layout

variable {catalog : Catalog} {file : Text}

theorem failsEnter (layout : Layout) (number : Nat) (raw : Text) :
    FailsBy (AssemblyError.Blames strict file (raw, number))
      (layout.enter file number raw).result := by
  rw [enterEq]
  split
  · next opening _ =>
    refine FailsBy.logged ?_ fun start _ => FailsBy.ofIsSome (by simp [newSection])
    change FailsBy _ (openingAddress opening ⟨file, number⟩ raw)
    unfold openingAddress
    split
    · apply FailsBy.mapError
      exact (failsReadNumber _).mono fun error occurs => occurs.blames (.inl rfl)
    · exact .ok _
  · split
    · exact .ok _
    · exact FailsBy.ofIsSome (by simp [newSection])

/-- Only the line that is read can be to blame, and no blank line is. -/
theorem failsAddLine (layout : Layout) (number : Nat) (raw : Text) :
    FailsBy (fun error => isBlankLine raw = false ∧ error.Blames strict file (raw, number))
      (addLine catalog file layout number raw).result := by
  unfold addLine
  split
  · exact .ok _
  · next solid =>
    refine FailsBy.mono ?_ fun error blames => ⟨decide_eq_false solid, blames⟩
    exact (failsEnter layout number raw).logged fun entered _ =>
      (Section.failsAddLine number raw).logged fun part _ => .ok _

theorem failsAddLines (layout : Layout) (number : Nat) (lines : List Text) :
    FailsBy (fun error => ∃ line ∈ (lines.zipIdx number).filter (!isBlankLine ·.1),
      error.Blames strict file line) (addLines catalog file layout number lines).result := by
  induction lines generalizing layout number with
  | nil => exact .ok _
  | cons raw rest inductionHypothesis =>
    rw [List.zipIdx_cons]
    refine FailsBy.logged ?_ ?_
    · exact (failsAddLine layout number raw).mono fun error ⟨solid, blames⟩ =>
        ⟨(raw, number), by simp [solid], blames⟩
    · intro next _
      refine FailsBy.mono (inductionHypothesis next (number + 1)) ?_
      rintro error ⟨line, listed, blames⟩
      obtain ⟨inside, solid⟩ := List.mem_filter.1 listed
      exact ⟨line, List.mem_filter.2 ⟨List.mem_cons_of_mem _ inside, solid⟩, blames⟩

theorem failsOfLines (lines : List Text) :
    FailsBy (fun error => ∃ line ∈ written lines, error.Blames strict file line)
      (ofLines catalog file lines).result :=
  failsAddLines {} 1 lines

end Layout

theorem Constant.sizeOfCode {constant : Constant} (written : constant.code ≠ []) :
    0 < constant.size := by
  cases constant with
  | hex digits =>
    cases digits with
    | nil => contradiction
    | cons digit rest =>
      simp only [size, List.length_cons]
      omega
  | chars payload =>
    cases payload with
    | nil => contradiction
    | cons char rest => exact Nat.succ_pos _

namespace Encoder

variable {encoder : Encoder} {part : Section} {statement : Statement}

/-- The line of a statement is to blame. -/
abbrev Blames (encoder : Encoder) (line : Text × Nat) : AssemblyError → Prop :=
  AssemblyError.Blames encoder.strict encoder.file line

theorem failsReport (isAt : statement.IsAt line) (name : Text) :
    FailsBy (encoder.Blames line) (encoder.report part statement name).result := by
  unfold report
  split
  · next strict => exact .error (isAt.blames strict)
  · exact .ok _

theorem failsValueOf (isAt : statement.IsAt line) (name : Text) :
    FailsBy (encoder.Blames line) (encoder.valueOf part statement name).result := by
  unfold valueOf
  simp only
  split
  · exact (failsReport isAt name).logged fun _ _ => .ok _
  · exact .ok _

theorem failsTarget (isAt : statement.IsAt line) (form : Operand.Form) :
    FailsBy (encoder.Blames line) (encoder.target part statement form).result := by
  cases form with
  | immediateSymbol name => exact failsValueOf isAt name
  | indirect name => exact failsValueOf isAt name
  | symbol name => exact failsValueOf isAt name
  | difference left right =>
    exact (failsValueOf isAt left).logged fun _ _ =>
      (failsValueOf isAt right).logged fun _ _ => .ok _
  | _ => exact .ok _

theorem failsLongCode (isAt : statement.IsAt line) (instruction : Instruction) :
    FailsBy (encoder.Blames line) (encoder.longCode part statement instruction).result := by
  refine FailsBy.logged ?_ fun value _ => .ok _
  unfold displacement
  split
  · exact .ok _
  · next operand _ =>
    split
    · exact .ok _
    · refine (failsTarget isAt operand.form).logged fun address _ => ?_
      split
      · exact .ok _
      · split <;> exact .ok _

/-- The first operand of a statement names a register only if there is one of the name. -/
theorem firstRegisterOfRead {catalog : Catalog} (coherent : statement.Coherent catalog) :
    ∃ value, firstRegister statement.operand = .ok value := by
  unfold firstRegister
  split
  · next held =>
    obtain ⟨code, found⟩ := Register.codeOfName (coherent.isNameOfRegister held)
    exact ⟨code, by rw [found]; rfl⟩
  · exact ⟨_, rfl⟩
  · exact ⟨_, rfl⟩

-- The name is looked up all the same, and no line gives an operand like this one.
example : firstRegister (some ⟨['Q'], .register ['Q']⟩) = .error (.key ['Q']) := rfl

theorem failsShortCode {catalog : Catalog} (coherent : statement.Coherent catalog)
    (isAt : statement.IsAt line) (instruction : Instruction) :
    FailsBy (encoder.Blames line) (encoder.shortCode statement instruction) := by
  obtain ⟨first, found⟩ := firstRegisterOfRead coherent
  rw [shortCode, found]
  refine FailsBy.bind (.ok first) fun _ _ => FailsBy.bind ?_ fun _ _ => .ok _
  intro error failed
  obtain ⟨text, unread, rfl⟩ := secondRegisterError failed
  exact isAt.blames unread

theorem failsReportMissing (isAt : statement.IsAt line) (names : List Text) :
    FailsBy (encoder.Blames line) (encoder.reportMissing part statement names).result := by
  induction names with
  | nil => exact .ok _
  | cons name rest inductionHypothesis =>
    unfold reportMissing
    split
    · exact (failsReport isAt name).logged fun _ _ => inductionHypothesis
    · exact inductionHypothesis

theorem failsWordCode (reading : statement.IsRead encoder.catalog)
    (plain : statement.isComment = false) (word : statement.directive? = some .word)
    (isAt : statement.IsAt line) :
    FailsBy (encoder.Blames line) (encoder.wordCode part statement).result := by
  unfold wordCode
  split
  · exact .ok _
  · next expression rest shape =>
    split
    · exact .ok _
    · have evaluated : FailsBy (encoder.Blames line)
          (AddressExpression.evaluate (statement.operands.headD []) statement.location part.symbols
            (some (statement.place encoder.file)) (some statement.source)) :=
        reading.failsEvaluate plain (by simp [word]) isAt _ _ _
      rw [shape] at evaluated
      obtain ⟨operand, held, _⟩ := (reading.coherent plain).heldOperand shape
      rw [held]
      exact FailsBy.logged evaluated fun value _ => FailsBy.logged (.ok operand) fun _ _ =>
        (failsReportMissing isAt _).logged fun _ _ => .ok _

-- No line gives this statement either, which has operands and no form of the first one.
example : (encoder.wordCode {} { operands := [['*']] }).result = .error (.lapse .operand) := rfl

/-- The code of a statement fails to be made only if its line is to blame. -/
theorem failsCode (reading : statement.IsRead encoder.catalog) (isAt : statement.IsAt line) :
    FailsBy (encoder.Blames line) (encoder.code part statement).result := by
  unfold code
  split
  · exact .ok _
  · next solid =>
    have plain : statement.isComment = false := by simpa using (not_or.1 solid).1
    split
    · next instruction _ =>
      unfold instructionCode
      split
      · exact failsLongCode isAt instruction
      · split
        · exact failsShortCode (reading.coherent plain) isAt instruction
        · exact .ok _
    · split
      · exact .ok _
      · next word => exact failsWordCode reading plain word isAt
      · exact .ok _

/-- A statement with code takes at least one byte. -/
theorem sizeOfCode {code : Text} (reading : statement.IsRead encoder.catalog)
    (coded : (encoder.code part statement).value? = some code) (written : code ≠ []) :
    0 < statement.size := by
  obtain ⟨plain, _, ⟨instruction, known, _⟩ | ⟨unknown, ⟨byte, rfl⟩ | ⟨word, _⟩⟩⟩ :=
    codeCases coded written
  · rw [(reading.coherent plain).sizeOfInstruction known]
    cases statement.extended <;> cases instruction.format <;> decide
  · rw [(reading.coherent plain).sizeOfByte unknown byte, Statement.constant?]
    unfold byteCode at written
    cases statement.extended with
    | true => exact (by decide : (0 : Int) < 4)
    | false =>
      split at written
      · next operand =>
        rw [operand]
        exact Int.natCast_pos.2 (Constant.sizeOfCode written)
      · next operand =>
        rw [operand]
        exact Int.one_pos
      · contradiction
  · rw [(reading.coherent plain).sizeOfWord unknown word]
    cases statement.extended <;> decide

/-- The statement has code that no text record takes: it reserves storage or has too many bytes. -/
def Misfit (encoder : Encoder) (part : Section) (statement : Statement) : Prop :=
  ∃ code, (encoder.code part statement).result = .ok code ∧ code ≠ [] ∧
    (statement.directive?.any (·.reserves) = true ∨ Run.maxSize < statement.size)

theorem failsCodeEntries {numbered : List (Text × Nat)} {entries : List Entry}
    (readings : ∀ entry ∈ entries, entry.toStatement.IsRead encoder.catalog)
    (located : ∀ entry ∈ entries, ∃ line ∈ numbered, entry.toStatement.IsAt line) :
    FailsBy (fun error => ∃ line ∈ numbered, encoder.Blames line error)
      (encoder.codeEntries part entries).result := by
  induction entries with
  | nil => exact .ok _
  | cons entry rest inductionHypothesis =>
    have later := inductionHypothesis
      (fun other inside => readings other (List.mem_cons_of_mem _ inside))
      (fun other inside => located other (List.mem_cons_of_mem _ inside))
    obtain ⟨line, listed, isAt⟩ := located entry List.mem_cons_self
    have first : FailsBy (fun error => ∃ line ∈ numbered, encoder.Blames line error)
        (encoder.code part entry.toStatement).result :=
      (failsCode (readings entry List.mem_cons_self) isAt).mono fun error blames =>
        ⟨line, listed, blames⟩
    exact first.logged fun code _ => later.logged fun done _ => .ok _

end Encoder

namespace Section

variable {part : Section}

/-- Records fail to be made only for a statement that begins no run where one has to begin. -/
theorem failsEmit (pending : Option Run) (entries : List Entry) :
    FailsBy (fun error => error = .stalled ∧
      ∃ entry ∈ entries, part.isolated? entry = none ∧ Run.begin? entry = none)
      (part.emit pending entries) := by
  induction entries generalizing pending with
  | nil => exact .ok _
  | cons entry rest inductionHypothesis =>
    have later (next : Option Run) :
        FailsBy (fun error => error = .stalled ∧
          ∃ other ∈ entry :: rest, part.isolated? other = none ∧ Run.begin? other = none)
          (part.emit next rest) := by
      refine FailsBy.mono (inductionHypothesis next) ?_
      rintro error ⟨same, other, inside, found⟩
      exact ⟨same, other, List.mem_cons_of_mem _ inside, found⟩
    rw [emitCons]
    split
    · exact later _
    · split
      · exact (later _).map _
      · next joins =>
        split
        · exact (later _).map _
        · next refused => exact .error ⟨rfl, entry, List.mem_cons_self, joins, refused⟩

theorem codeOfJoining {entry : Entry} (joins : part.isolated? entry = none) : entry.code ≠ [] := by
  intro empty
  unfold isolated? at joins
  split at joins
  · contradiction
  · split at joins <;> simp [empty] at joins

/-- A statement that has to begin a run and does not has code. It reserves storage, or it has no
bytes or too many. -/
theorem codeOfRefused {entry : Entry} (joins : part.isolated? entry = none)
    (refused : Run.begin? entry = none) :
    entry.code ≠ [] ∧
      (entry.size = 0 ∨ entry.directive?.any (·.reserves) = true ∨ Run.maxSize < entry.size) := by
  have written := codeOfJoining joins
  have rejects : (Run.before entry).accepts entry = false := by
    simpa [Run.begin?, Run.extend?, Run.before] using refused
  refine ⟨written, ?_⟩
  simp only [Run.accepts, Run.before, Bool.and_eq_false_iff, Int.zero_add] at rejects
  rcases rejects with ((sizeless | empty) | reserves) | large
  · exact .inl (by simpa using sizeless)
  · exact absurd (by simpa using empty) written
  · exact .inr (.inl (by simpa using reserves))
  · exact .inr (.inr (Int.not_le.1 (of_decide_eq_false large)))

end Section

namespace Assembly

variable {encoder : Encoder}

/-- A line is to blame for the error, or a section has a statement that fits into no record. -/
def Explains (encoder : Encoder) (numbered : List (Text × Nat)) (sections : List Section)
    (error : AssemblyError) : Prop :=
  (∃ line ∈ numbered, encoder.Blames line error) ∨
    (error = .stalled ∧ ∃ part ∈ sections, ∃ entry ∈ part.entries,
      encoder.Misfit part entry.toStatement)

theorem failsModuleOf {numbered : List (Text × Nat)} {sections : List Section} {part : Section}
    (member : part ∈ sections)
    (readings : ∀ entry ∈ part.entries, entry.toStatement.IsRead encoder.catalog)
    (located : ∀ entry ∈ part.entries, ∃ line ∈ numbered, entry.toStatement.IsAt line) :
    FailsBy (Explains encoder numbered sections) (moduleOf encoder part).result := by
  have coding : FailsBy (Explains encoder numbered sections)
      (encoder.codeEntries part part.entries).result :=
    (Encoder.failsCodeEntries readings located).mono fun error blames => .inl blames
  refine FailsBy.logged (coding.logged fun entries _ => .ok _) fun coded made => ?_
  obtain ⟨entries, makes, rfl⟩ : ∃ entries,
      (encoder.codeEntries part part.entries).value? = some entries ∧
        coded = { part with entries } := by
    have value := Logged.valueEqSome.2 made
    simp only [Encoder.codeSection, Logged.valueBind, Logged.valuePure, Option.bind_eq_some_iff,
      Option.some.injEq] at value
    obtain ⟨entries, makes, same⟩ := value
    exact ⟨entries, makes, same.symm⟩
  obtain ⟨rfl, codes⟩ := Encoder.codeEntriesCases makes
  refine FailsBy.logged (FailsBy.map ?_ _) fun records _ => .ok _
  refine FailsBy.mono (Section.failsEmit _ _) ?_
  rintro error ⟨stalled, entry, inside, joins, refused⟩
  obtain ⟨bare, listed, rfl⟩ := List.mem_map.1 inside
  obtain ⟨written, cause⟩ := Section.codeOfRefused joins refused
  have sized := Encoder.sizeOfCode (readings bare listed) (codes bare listed) written
  refine .inr ⟨stalled, part, member, bare, listed, _, Logged.valueEqSome.1 (codes bare listed),
    written, cause.resolve_left ?_⟩
  exact fun zero => absurd zero (Int.ne_of_gt sized)

theorem failsModulesOf {numbered : List (Text × Nat)} {sections given : List Section}
    (members : given ⊆ sections)
    (readings : ∀ part ∈ sections, ∀ entry ∈ part.entries,
      entry.toStatement.IsRead encoder.catalog)
    (located : ∀ part ∈ sections, ∀ entry ∈ part.entries,
      ∃ line ∈ numbered, entry.toStatement.IsAt line) :
    FailsBy (Explains encoder numbered sections) (modulesOf encoder given).result := by
  induction given with
  | nil => exact .ok _
  | cons part rest inductionHypothesis =>
    have member := members List.mem_cons_self
    refine (failsModuleOf member (readings part member) (located part member)).logged ?_
    intro module _
    exact (inductionHypothesis (List.subset_of_cons_subset members)).logged fun modules _ => .ok _

/-- A section of the program has a statement that fits into no record. -/
def HasMisfit (settings : Settings) (file : Text) (lines : List Text) : Prop :=
  ∃ layout, (Layout.ofLines settings.catalog file lines).result = .ok layout ∧
    ∃ part ∈ layout.sections, ∃ entry ∈ part.entries,
      Encoder.Misfit ⟨settings.catalog, file, settings.strict⟩ part entry.toStatement

theorem failsOfLines (settings : Settings) (file : Text) (lines : List Text) :
    FailsBy (fun error =>
      (∃ line ∈ Layout.written lines, error.Blames settings.strict file line) ∨
        (error = .stalled ∧ HasMisfit settings file lines))
      (ofLines settings file lines).result := by
  refine FailsBy.logged (FailsBy.ofIsSome (by simp)) fun _ _ => ?_
  refine FailsBy.logged ((Layout.failsOfLines lines).mono fun error blames => .inl blames)
    fun layout laidOut => ?_
  refine FailsBy.logged (FailsBy.ofIsSome (by simp)) fun _ _ => ?_
  refine FailsBy.logged ?_ fun modules _ => .ok _
  have value := Logged.valueEqSome.2 laidOut
  have located : ∀ part ∈ layout.sections, ∀ entry ∈ part.entries,
      ∃ line ∈ Layout.written lines, entry.toStatement.IsAt line := by
    intro part member entry inside
    obtain ⟨line, listed, _, read⟩ := Layout.entryLine value member inside
    have found := Statement.readEqOk.1 read
    exact ⟨line, listed, Statement.ofFieldsLine found, Statement.ofFieldsSource found⟩
  have readings (part : Section) (member : part ∈ layout.sections) :=
    (Layout.builtOfLines value part member).isRead
  refine FailsBy.mono (failsModulesOf (List.Subset.refl _) readings located) ?_
  rintro error (blames | ⟨stalled, misfit⟩)
  · exact .inl blames
  · exact .inr ⟨stalled, layout, laidOut, misfit⟩

/-- A program assembles, or one of its lines is to blame: the error tells a problem that occurs, and
it is an undefined symbol in strict mode only. There is one other failure: a statement has code, and
it reserves storage by its name or has more bytes than a text record holds. In particular no part is
ever asked for that is not there, and no numeral of an expression is too long to be read. -/
theorem failuresBlameLines (settings : Settings) (file : Text) (lines : List Text) :
    ((∃ assembly, (ofLines settings file lines).result = .ok assembly) ∨
      (∃ error, (ofLines settings file lines).result = .error error ∧
        ∃ line ∈ Layout.written lines, error.Blames settings.strict file line) ∨
      ((ofLines settings file lines).result = .error .stalled ∧ HasMisfit settings file lines)) ∧
    (∀ lapse, (ofLines settings file lines).result ≠ .error (.lapse lapse)) ∧
    ∀ fault, (ofLines settings file lines).result ≠ .error (.numeral fault) := by
  have fails := failsOfLines settings file lines
  refine ⟨?_, ?_, ?_⟩
  · cases outcome : (ofLines settings file lines).result with
    | ok assembly => exact .inl ⟨assembly, rfl⟩
    | error error =>
      rcases fails error outcome with blames | ⟨rfl, misfit⟩
      · exact .inr (.inl ⟨error, rfl, blames⟩)
      · exact .inr (.inr ⟨rfl, misfit⟩)
  · intro lapse outcome
    rcases fails _ outcome with ⟨_, _, _, _, other, _⟩ | ⟨other, _⟩ <;> contradiction
  · intro fault outcome
    rcases fails _ outcome with ⟨_, _, _, _, other, _⟩ | ⟨other, _⟩ <;> contradiction

/-- The second line is no expression, and the third one has no count. -/
def brokenLines : List Text :=
  ["P\tSTART\t0", "\tWORD\tP+P", "\tRESW"].map String.toList

/-- The layout fails before the encoding does, and so the third line is to blame. -/
theorem missingCountBlamed :
    (ofLines ⟨Table.empty, true, false⟩ "p.asm".toList brokenLines).result =
      .error (.source ⟨.missingCount .resw, some ⟨"p.asm".toList, 3⟩, some "\tRESW".toList⟩) ∧
    ∃ line ∈ Layout.written brokenLines, AssemblyError.Blames true "p.asm".toList line
      (.source ⟨.missingCount .resw, some ⟨"p.asm".toList, 3⟩, some "\tRESW".toList⟩) := by
  have outcome : (ofLines ⟨Table.empty, true, false⟩ "p.asm".toList brokenLines).result =
      .error (.source ⟨.missingCount .resw, some ⟨"p.asm".toList, 3⟩, some "\tRESW".toList⟩) := rfl
  refine ⟨outcome, ?_⟩
  obtain ⟨⟨_, assembled⟩ | ⟨error, failed, blamed⟩ | ⟨stalled, _⟩, _⟩ :=
    failuresBlameLines ⟨Table.empty, true, false⟩ "p.asm".toList brokenLines
  · rw [outcome] at assembled
    contradiction
  · rw [outcome] at failed
    exact Except.error.inj failed ▸ blamed
  · rw [outcome] at stalled
    contradiction

end Assembly

end SicXe
