/-
This file says which names the encoding of a statement misses. The mode of the encoder changes
nothing about its code and about these names: it only decides whether all of them are warnings, or
the first of them is an error.
-/

import SicXe.Encoding
import SicXe.Proofs.Statement.Reading
import SicXe.Proofs.Undefined.Report

namespace SicXe

/-- The names whose values an instruction asks for; an immediate symbol may be without a name. -/
def Operand.Form.resolved : Form → List Text
  | immediateSymbol name | indirect name | symbol name => [name]
  | difference left right => [left, right]
  | _ => []

theorem Operand.Form.symbolsSubset (form : Form) : form.symbols ⊆ form.resolved := by
  cases form with
  | immediateSymbol name => cases name <;> simp [symbols, resolved]
  | _ => simp [symbols, resolved]

namespace Statement

def resolved (statement : Statement) : List Text :=
  statement.operand.elim [] fun operand => operand.form.resolved

theorem symbolsSubset (statement : Statement) : statement.symbols ⊆ statement.resolved := by
  unfold symbols resolved
  cases statement.operand with
  | none => exact List.Subset.refl []
  | some operand => exact operand.form.symbolsSubset

end Statement

namespace Section

/-- An instruction takes the value minus one for a sign that the name is not defined. -/
def lacks (part : Section) (name : Text) : Bool :=
  part.symbols.lookup name = -1 ∧ part.isExternal name = false

/-- The names that the encoding of a statement misses: an instruction misses those without a value
that it accepts, and a `WORD` those that are not in the table. Nothing is missed if one symbol is
external, since a linker fills the field. -/
def missing (part : Section) (catalog : Catalog) (statement : Statement) : List Text :=
  if statement.isComment ∨ statement.operator = [] then []
  else if part.mentionsExternal statement then []
  else match catalog.get? statement.operator with
    | some instruction =>
      if statement.extended ∨ instruction.format = .three then statement.resolved.filter part.lacks
      else []
    | none =>
      if statement.directive? = some .word then
        statement.symbols.filter fun name => !part.symbols.contains name
      else []

end Section

namespace Encoder

variable {encoder : Encoder} {part : Section} {statement : Statement} {α β : Type}

def inMode (encoder : Encoder) (strict : Bool) : Encoder :=
  { encoder with strict }

def reportOf (encoder : Encoder) (part : Section) (statement : Statement) (name : Text) : Report :=
  ⟨statement.place encoder.file, name, part.name⟩

def reportAll (encoder : Encoder) (part : Section) (statement : Statement) :
    List Text → Logged AssemblyError Unit
  | [] => pure ()
  | name :: rest => do
    encoder.report part statement name
    reportAll encoder part statement rest

theorem reportAllAppend (first second : List Text) :
    encoder.reportAll part statement (first ++ second) =
      encoder.reportAll part statement first >>= fun _ =>
        encoder.reportAll part statement second := by
  induction first with
  | nil => simp [reportAll]
  | cons name rest inductionHypothesis => simp [reportAll, inductionHypothesis]

theorem reportAllLenient (names : List Text) :
    (encoder.inMode false).reportAll part statement names =
      ⟨names.map fun name => (encoder.reportOf part statement name).event, .ok ()⟩ := by
  induction names with
  | nil => rfl
  | cons name rest inductionHypothesis =>
    rw [reportAll, inductionHypothesis]
    rfl

theorem reportAllStrict (name : Text) (rest : List Text) :
    (encoder.inMode true).reportAll part statement (name :: rest) =
      ⟨[], .error ((encoder.reportOf part statement name).error statement.source)⟩ :=
  rfl

/-- A report is a report in either mode. -/
theorem reportsReport (name : Text) :
    (encoder.report part statement name).reports = [encoder.reportOf part statement name] := by
  unfold report
  split <;> rfl

theorem memReportsReportAll {names : List Text} {report : Report}
    (told : report ∈ (encoder.reportAll part statement names).reports) :
    ∃ name ∈ names, report = encoder.reportOf part statement name := by
  induction names with
  | nil => contradiction
  | cons name rest inductionHypothesis =>
    rcases Logged.memReportsBind told with first | ⟨_, _, later⟩
    · rw [reportsReport, List.mem_singleton] at first
      exact ⟨name, List.mem_cons_self, first⟩
    · obtain ⟨other, inside, same⟩ := inductionHypothesis later
      exact ⟨other, List.mem_cons_of_mem _ inside, same⟩

theorem warnedReportAll (lenient : encoder.strict = false) (names : List Text) :
    (encoder.reportAll part statement names).warned =
      names.map (encoder.reportOf part statement) := by
  have same : encoder.inMode false = encoder := by rw [inMode, ← lenient]
  rw [← same, reportAllLenient, Logged.warned, List.filterMap_map]
  exact congrFun List.filterMap_eq_map' names

/-- In either mode, the computation reports the names and then has the outcome; it reports nothing
if the outcome is a failure. -/
def Tells (encoder : Encoder) (part : Section) (statement : Statement) (names : List Text)
    (outcome : Except AssemblyError α) (computation : Encoder → Logged AssemblyError α) : Prop :=
  ∀ strict, computation (encoder.inMode strict) = do
    let value ← outcome
    (encoder.inMode strict).reportAll part statement names
    return value

namespace Tells

variable {names : List Text} {outcome : Except AssemblyError α}
  {computation : Encoder → Logged AssemblyError α}

/-- Strict encoders end where lenient ones warn first. -/
theorem ends (tells : Tells encoder part statement names outcome computation) :
    (computation (encoder.inMode true)).EndsAtWarning (computation (encoder.inMode false)) := by
  rw [tells true, tells false, reportAllLenient]
  cases outcome with
  | error error => exact .same rfl
  | ok value =>
    cases names with
    | nil => exact .same rfl
    | cons name rest =>
      rw [reportAllStrict]
      exact .ended rfl

/-- The computation in the mode of the encoder itself. -/
theorem computationEq (tells : Tells encoder part statement names outcome computation) :
    computation encoder = do
      let value ← outcome
      encoder.reportAll part statement names
      return value :=
  tells encoder.strict

/-- A computation reports nothing but the names. -/
theorem memReports (tells : Tells encoder part statement names outcome computation)
    (ending : Logged.ending outcome = []) {report : Report}
    (told : report ∈ (computation encoder).reports) :
    ∃ name ∈ names, report = encoder.reportOf part statement name := by
  rw [tells.computationEq] at told
  rcases Logged.memReportsBind told with failed | ⟨value, _, later⟩
  · change report ∈ Logged.ending outcome at failed
    rw [ending] at failed
    contradiction
  · rcases Logged.memReportsBind later with reported | ⟨_, _, silent⟩
    · exact memReportsReportAll reported
    · contradiction

/-- A lenient computation that has a value warns of all names. -/
theorem warned (tells : Tells encoder part statement names outcome computation)
    (lenient : encoder.strict = false) {value : α}
    (made : (computation encoder).value? = some value) :
    (computation encoder).warned = names.map (encoder.reportOf part statement) := by
  rw [tells.computationEq] at made ⊢
  cases outcome with
  | error error => contradiction
  | ok result => simp [Except.toOption, warnedReportAll lenient]

/-- A strict computation that has a value misses no name. -/
theorem namesEqNil (tells : Tells encoder part statement names outcome computation)
    (strict : encoder.strict = true) {value : α}
    (made : (computation encoder).value? = some value) : names = [] := by
  rw [tells.computationEq] at made
  cases names with
  | nil => rfl
  | cons name rest =>
    have fails : encoder.report part statement name = Logged.fail _ := if_pos strict
    simp [reportAll, fails] at made

end Tells

theorem tellsNothing (outcome : Except AssemblyError α) :
    Tells encoder part statement [] outcome fun _ => Logged.ofExcept outcome := by
  intro strict
  cases outcome <;> rfl

theorem tellsPure (value : α) :
    Tells encoder part statement [] (.ok value) fun _ => pure value :=
  tellsNothing (.ok value)

theorem tellsOk {names : List Text} {value : α} {computation : Encoder → Logged AssemblyError α} :
    Tells encoder part statement names (.ok value) computation ↔ ∀ strict,
      computation (encoder.inMode strict) =
        (encoder.inMode strict).reportAll part statement names >>= fun _ => pure value :=
  Iff.rfl

/-- Of two computations in a row, both tell their names. -/
theorem Tells.bind {first second : List Text} {value : α} {result : β}
    {computation : Encoder → Logged AssemblyError α}
    {next : Encoder → α → Logged AssemblyError β}
    (tells : Tells encoder part statement first (.ok value) computation)
    (later : Tells encoder part statement second (.ok result) (next · value)) :
    Tells encoder part statement (first ++ second) (.ok result) fun encoder =>
      computation encoder >>= next encoder := by
  rw [tellsOk] at tells later ⊢
  intro strict
  simp only [tells, later, reportAllAppend, bind_assoc, pure_bind]

theorem Tells.map {names : List Text} {value : α} {computation : Encoder → Logged AssemblyError α}
    (tells : Tells encoder part statement names (.ok value) computation) (convert : α → β) :
    Tells encoder part statement names (.ok (convert value)) fun encoder =>
      computation encoder >>= fun value => pure (convert value) := by
  rw [tellsOk] at tells ⊢
  intro strict
  simp only [tells, bind_assoc, pure_bind]

theorem tellsValueOf (name : Text) :
    Tells encoder part statement ([name].filter part.lacks) (.ok (part.symbols.lookup name))
      (·.valueOf part statement name) := by
  rw [tellsOk]
  intro strict
  unfold valueOf
  by_cases missed : part.symbols.lookup name = -1 ∧ part.isExternal name = false
  · have lacked : part.lacks name = true := decide_eq_true missed
    simp [missed, lacked, reportAll]
  · have held : part.lacks name = false := decide_eq_false missed
    simp [missed, held, reportAll]

/-- An operand lacks the same names in both modes, and has the same target. -/
theorem tellsTarget (form : Operand.Form) : ∃ value,
    Tells encoder part statement (form.resolved.filter part.lacks) (.ok value)
      (·.target part statement form) := by
  cases form with
  | immediateSymbol name | indirect name | symbol name => exact ⟨_, tellsValueOf name⟩
  | difference left right =>
    have both : [left, right].filter part.lacks =
        [left].filter part.lacks ++ [right].filter part.lacks :=
      List.filter_append [left] [right]
    rw [Operand.Form.resolved, both]
    exact ⟨_, (tellsValueOf left).bind ((tellsValueOf right).map (part.symbols.lookup left - ·))⟩
  | _ => exact ⟨_, tellsPure _⟩

theorem tellsDisplacement {instruction : Instruction}
    (bare : instruction.operandCount.val = 0 → statement.operand = none) : ∃ value,
    Tells encoder part statement
      (if part.mentionsExternal statement = true then [] else statement.resolved.filter part.lacks)
      (.ok value) (·.displacement part statement instruction) := by
  unfold displacement Statement.resolved
  cases operand : statement.operand with
  | none => exact ⟨0, by simpa using tellsPure 0⟩
  | some given =>
    have takes : ¬ instruction.operandCount.val = 0 := by
      intro zero
      rw [bare zero] at operand
      contradiction
    by_cases external : part.mentionsExternal statement = true
    · simp only [external, or_true, if_true]
      exact ⟨0, tellsPure 0⟩
    · obtain ⟨address, tells⟩ := @tellsTarget encoder part statement given.form
      rw [tellsOk] at tells
      refine ⟨if statement.extended then 0
        else if statement.addressing.p then address - (statement.location + statement.size)
        else address, tellsOk.2 fun strict => ?_⟩
      simp only [takes, external, tells, bind_assoc, pure_bind, Option.elim_some]
      cases statement.extended <;> cases statement.addressing.p <;> rfl

theorem tellsLongCode {instruction : Instruction}
    (bare : instruction.operandCount.val = 0 → statement.operand = none) : ∃ code,
    Tells encoder part statement
      (if part.mentionsExternal statement = true then [] else statement.resolved.filter part.lacks)
      (.ok code) (·.longCode part statement instruction) := by
  obtain ⟨value, tells⟩ := @tellsDisplacement encoder part statement instruction bare
  exact ⟨_, tells.map _⟩

theorem tellsMissing (names : List Text) :
    Tells encoder part statement (names.filter fun name => !part.symbols.contains name) (.ok ())
      (·.reportMissing part statement names) := by
  rw [tellsOk]
  intro strict
  induction names with
  | nil => rfl
  | cons name rest inductionHypothesis =>
    rw [reportMissing, inductionHypothesis]
    cases held : part.symbols.contains name <;> simp [held, reportAll]

/-- The second register fails only for a number that cannot be read. -/
theorem secondRegisterError {instruction : Instruction} {error : AssemblyError}
    (fails : encoder.secondRegister statement instruction = .error error) :
    ∃ text, Numeral.Decimal.read? text = none ∧
      error = .source ⟨.invalidNumber text, some (statement.place encoder.file),
        some statement.source⟩ := by
  unfold secondRegister at fails
  split at fails
  · next second _ _ =>
    split at fails
    · contradiction
    · split at fails
      · next named =>
        obtain ⟨register, found⟩ := Option.isSome_iff_exists.1 named
        rw [Register.codeOf, found] at fails
        contradiction
      · cases found : Numeral.Decimal.read? second with
        | some value =>
          rw [readNumber, found] at fails
          contradiction
        | none =>
          rw [readNumber, found] at fails
          exact ⟨second, found, (Except.error.inj fails).symm⟩
  · contradiction

/-- A register or a number that cannot be read is no undefined symbol. -/
theorem shortCodeEnding (instruction : Instruction) :
    Logged.ending (encoder.shortCode statement instruction) = [] := by
  unfold shortCode
  cases firstRegister statement.operand with
  | error lapse => rfl
  | ok first =>
    cases found : encoder.secondRegister statement instruction with
    | ok second => rfl
    | error error =>
      obtain ⟨text, _, rfl⟩ := secondRegisterError found
      rfl

theorem evaluateEnding (text : Text) (counter : Int) (symbols : SymbolTable)
    (place : Option Place) (sourceLine : Option Text) :
    Logged.ending (AddressExpression.evaluate text counter symbols place sourceLine) = [] := by
  rw [AddressExpression.evaluateEq]
  split
  · rfl
  · next expression _ => cases expression.value counter symbols <;> rfl

theorem tellsWordCode {catalog : Catalog} (coherent : statement.Coherent catalog) :
    ∃ outcome, Logged.ending outcome = [] ∧
      Tells encoder part statement
        (if part.mentionsExternal statement = true then []
          else statement.symbols.filter fun name => !part.symbols.contains name)
        outcome (·.wordCode part statement) := by
  unfold wordCode
  cases operands : statement.operands with
  | nil =>
    have none : statement.symbols = [] := by
      simp [Statement.symbols, coherent.noOperand operands]
    exact ⟨.ok _, rfl, by simpa [none] using tellsPure _⟩
  | cons expression rest =>
    by_cases external : part.mentionsExternal statement = true
    · simp only [external, if_true]
      exact ⟨.ok _, rfl, tellsPure _⟩
    · have ending := evaluateEnding expression statement.location part.symbols
        (some (statement.place encoder.file)) (some statement.source)
      obtain ⟨operand, held, named⟩ := coherent.heldOperand operands
      have reported := tellsOk.1 (@tellsMissing encoder part statement operand.symbols)
      cases found : AddressExpression.evaluate expression statement.location part.symbols
          (some (statement.place encoder.file)) (some statement.source) with
      | error error =>
        rw [found] at ending
        refine ⟨.error error, ending, fun strict => ?_⟩
        have same : (encoder.inMode strict).file = encoder.file := rfl
        simp only [external, same, found]
        rfl
      | ok value =>
        refine ⟨.ok (Numeral.Hex.field 6 value), rfl, tellsOk.2 fun strict => ?_⟩
        have same : (encoder.inMode strict).file = encoder.file := rfl
        simp only [external, same, found, held, named]
        change ((encoder.inMode strict).reportMissing part statement operand.symbols >>= fun _ =>
          pure (Numeral.Hex.field 6 value)) = _
        simp only [reported, bind_assoc, pure_bind]
        rfl

theorem tellsInstructionCode {instruction : Instruction}
    (bare : instruction.operandCount.val = 0 → statement.operand = none) :
    ∃ outcome, Logged.ending outcome = [] ∧
      Tells encoder part statement
        (if statement.extended = true ∨ instruction.format = .three then
          if part.mentionsExternal statement = true then []
          else statement.resolved.filter part.lacks
        else [])
        outcome (·.instructionCode part statement instruction) := by
  unfold instructionCode
  by_cases long : statement.extended = true ∨ instruction.format = .three
  · simp only [if_pos long]
    obtain ⟨code, tells⟩ := @tellsLongCode encoder part statement instruction bare
    exact ⟨.ok code, rfl, tells⟩
  · simp only [if_neg long]
    by_cases two : instruction.format = .two
    · simp only [if_pos two]
      -- The mode is not looked at, so that the code of one encoder serves for both.
      exact ⟨_, shortCodeEnding instruction, fun strict => tellsNothing _ strict⟩
    · simp only [if_neg two]
      exact ⟨.ok _, rfl, tellsPure _⟩

/-- The code of a statement is the same in both modes, and so are the names that it misses. -/
theorem tellsCode (reading : statement.IsRead encoder.catalog) :
    ∃ outcome, Logged.ending outcome = [] ∧
      Tells encoder part statement (part.missing encoder.catalog statement) outcome
        (·.code part statement) := by
  unfold Encoder.code Section.missing
  by_cases silent : statement.isComment = true ∨ statement.operator = []
  · simp only [silent, if_true]
    exact ⟨.ok [], rfl, tellsPure []⟩
  · have coherent := reading.coherent (by simpa using (not_or.1 silent).1)
    simp only [silent, if_false]
    cases known : encoder.catalog.get? statement.operator with
    | some instruction =>
      have bare : instruction.operandCount.val = 0 → statement.operand = none := by
        intro zero
        apply coherent.noOperand
        apply coherent.bare
        rw [known]
        exact decide_eq_true zero
      obtain ⟨outcome, ending, tells⟩ :=
        @tellsInstructionCode encoder part statement instruction bare
      refine ⟨outcome, ending, fun strict => ?_⟩
      have same : (encoder.inMode strict).catalog = encoder.catalog := rfl
      have told := tells strict
      by_cases external : part.mentionsExternal statement = true <;>
        simpa [same, known, external] using told
    | none =>
      by_cases word : statement.directive? = some .word
      · obtain ⟨outcome, ending, tells⟩ :=
          @tellsWordCode encoder part statement _ coherent
        refine ⟨outcome, ending, fun strict => ?_⟩
        have same : (encoder.inMode strict).catalog = encoder.catalog := rfl
        simp only [same, known, word]
        exact tells strict
      · refine ⟨.ok (if statement.directive? = some .byte then byteCode statement else []), rfl,
          fun strict => ?_⟩
        have same : (encoder.inMode strict).catalog = encoder.catalog := rfl
        simp only [same, known, word, if_false, ite_self]
        cases found : statement.directive? with
        | none => rfl
        | some directive =>
          cases directive with
          | word => exact absurd found word
          | _ => rfl

end Encoder

end SicXe
