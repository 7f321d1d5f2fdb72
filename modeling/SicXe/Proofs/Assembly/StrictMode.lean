/-
This file compares the two modes in which a program can be assembled. The strict mode is the lenient
one with a check: it ends where the other one warns of an undefined symbol, and else does the same.
-/

import SicXe.Assembly
import SicXe.Catalog.Standard
import SicXe.Proofs.Layout.Step
import SicXe.Proofs.Undefined.Layout
import SicXe.Proofs.Undefined.Missing

namespace SicXe

open Logged

namespace Encoder

variable {encoder : Encoder} {part : Section}

theorem endsCodeEntries {entries : List Entry}
    (readings : ∀ entry ∈ entries, entry.toStatement.IsRead encoder.catalog) :
    EndsAtWarning ((encoder.inMode true).codeEntries part entries)
      ((encoder.inMode false).codeEntries part entries) := by
  induction entries with
  | nil => exact .same rfl
  | cons entry rest inductionHypothesis =>
    obtain ⟨_, _, tells⟩ := @tellsCode encoder part _ (readings entry List.mem_cons_self)
    have later := inductionHypothesis fun other inside =>
      readings other (List.mem_cons_of_mem _ inside)
    exact tells.ends.bind fun code _ => later.bind fun done _ => .same rfl

end Encoder

namespace Assembly

variable {encoder : Encoder}

theorem endsModuleOf {part : Section}
    (readings : ∀ entry ∈ part.entries, entry.toStatement.IsRead encoder.catalog) :
    EndsAtWarning (moduleOf (encoder.inMode true) part) (moduleOf (encoder.inMode false) part) := by
  have coded : EndsAtWarning ((encoder.inMode true).codeSection part)
      ((encoder.inMode false).codeSection part) :=
    (Encoder.endsCodeEntries readings).bind fun entries _ => .same rfl
  refine coded.bind fun part _ => ?_
  -- Records are made without a look at the mode.
  refine EndsAtWarning.bind (.same rfl) fun records _ => ?_
  exact .same rfl

theorem endsModulesOf {sections : List Section}
    (readings : ∀ part ∈ sections, ∀ entry ∈ part.entries,
      entry.toStatement.IsRead encoder.catalog) :
    EndsAtWarning (modulesOf (encoder.inMode true) sections)
      (modulesOf (encoder.inMode false) sections) := by
  induction sections with
  | nil => exact .same rfl
  | cons part rest inductionHypothesis =>
    have first := endsModuleOf (readings part List.mem_cons_self)
    have later := inductionHypothesis fun other inside =>
      readings other (List.mem_cons_of_mem _ inside)
    exact first.bind fun module _ => later.bind fun modules _ => .same rfl

theorem endsOfLines (catalog : Catalog) (verbose : Bool) (file : Text) (lines : List Text) :
    EndsAtWarning (ofLines ⟨catalog, true, verbose⟩ file lines)
      (ofLines ⟨catalog, false, verbose⟩ file lines) := by
  have console (event : Event) (silent : event.report? = none) :
      EndsAtWarning (reportIf verbose event) (reportIf verbose event) :=
    .same (by simp [silent])
  refine (console _ rfl).bind fun _ _ => ?_
  refine EndsAtWarning.bind (.same (Layout.warnedOfLines catalog file lines))
    fun layout laidOut => ?_
  refine (console _ rfl).bind fun _ _ => ?_
  have modules : EndsAtWarning (modulesOf ⟨catalog, file, true⟩ layout.sections)
      (modulesOf ⟨catalog, file, false⟩ layout.sections) :=
    @endsModulesOf ⟨catalog, file, false⟩ _ fun part member =>
      (Layout.builtOfLines laidOut part member).isRead
  exact modules.bind fun made _ => .same rfl

/-- The strict mode yields an assembly exactly if the lenient mode yields the same one, with the
same sections, modules and texts, and does not warn of an undefined symbol. If it warns, the strict
mode fails with the first warning as its error. -/
theorem strictChecksWarnings (catalog : Catalog) (verbose : Bool) (file : Text)
    (lines : List Text) :
    (∀ assembly, (ofLines ⟨catalog, true, verbose⟩ file lines).result = .ok assembly ↔
      (ofLines ⟨catalog, false, verbose⟩ file lines).result = .ok assembly ∧
        (ofLines ⟨catalog, false, verbose⟩ file lines).warned = []) ∧
    ∀ report others, (ofLines ⟨catalog, false, verbose⟩ file lines).warned = report :: others →
      ∃ sourceLine, (ofLines ⟨catalog, true, verbose⟩ file lines).result =
        .error (report.error sourceLine) := by
  have ends := endsOfLines catalog verbose file lines
  exact ⟨ends.resultIff, fun report others warns => ends.errorOfWarned warns⟩

/-- An instruction and a word that refer to symbols without a definition. -/
def undefinedLines : List Text :=
  ["P\tSTART\t0", "A\tLDA\tX", "\tWORD\tY-A", "\tEND\tP"].map String.toList

/-- The lenient mode warns of both symbols, and the strict mode fails with the first. Without the
two statements there is nothing to warn of, and the strict mode yields the same assembly. -/
theorem strictFailsOnUndefined :
    (∃ assembly report other, (ofLines ⟨Catalog.standard, false, false⟩ [] undefinedLines).result =
        .ok assembly ∧
      (ofLines ⟨Catalog.standard, false, false⟩ [] undefinedLines).warned = [report, other] ∧
      report.name = ['X'] ∧ other.name = ['Y'] ∧
      ∃ sourceLine, (ofLines ⟨Catalog.standard, true, false⟩ [] undefinedLines).result =
        .error (report.error sourceLine)) ∧
    ∃ assembly, (ofLines ⟨Catalog.standard, false, false⟩ [] (undefinedLines.drop 3)).result =
        .ok assembly ∧
      (ofLines ⟨Catalog.standard, true, false⟩ [] (undefinedLines.drop 3)).result =
        .ok assembly := by
  have evaluated : ∃ assembly ∈
      (ofLines ⟨Catalog.standard, false, false⟩ [] undefinedLines).value?,
      assembly.sections.length = 1 := by
    decide +kernel
  have warns : (ofLines ⟨Catalog.standard, false, false⟩ [] undefinedLines).warned =
      [⟨⟨[], 2⟩, ['X'], ['P']⟩, ⟨⟨[], 3⟩, ['Y'], ['P']⟩] := by
    decide +kernel
  have defined : ∃ assembly ∈
      (ofLines ⟨Catalog.standard, false, false⟩ [] (undefinedLines.drop 3)).value?,
      (ofLines ⟨Catalog.standard, false, false⟩ [] (undefinedLines.drop 3)).warned = [] := by
    decide +kernel
  obtain ⟨assembly, value, _⟩ := evaluated
  obtain ⟨other, otherValue, quiet⟩ := defined
  have fails := (strictChecksWarnings Catalog.standard false [] undefinedLines).2 _ _ warns
  have yields := (strictChecksWarnings Catalog.standard false [] (undefinedLines.drop 3)).1 other
  have otherMade := valueEqSome.1 otherValue
  exact ⟨⟨assembly, _, _, valueEqSome.1 value, warns, rfl, rfl, fails⟩, other, otherMade,
    yields.2 ⟨otherMade, quiet⟩⟩

end Assembly

end SicXe
