/-
This file says that a program can be laid out without a word about undefined symbols: only the
encoding of its statements reports them.
-/

import SicXe.Proofs.Layout.Step
import SicXe.Proofs.Undefined.Report

namespace SicXe

variable {ε : Type}

@[simp] theorem SymbolTable.warnedDefine (table : SymbolTable) (name : Text) (value : Int) :
    (table.define name value : Logged ε SymbolTable).warned = [] := by
  unfold define
  cases table.get? (withoutMark name) <;> rfl

namespace Section

theorem warnedBindLabel (part : Section) (file : Text) (statement : Statement) :
    (part.bindLabel file statement).warned = [] := by
  unfold bindLabel
  split
  · cases part.labelValue file statement <;> simp [Except.toOption, Event.report?]
  · rfl

theorem warnedRegisterLiteral (part : Section) (statement : Statement) :
    (part.registerLiteral statement : Logged ε Section).warned = [] := by
  unfold registerLiteral
  split
  · simp [LiteralTable.register]
  · rfl

theorem warnedPlaceLiterals (part : Section) (pool : List Text) :
    (part.placeLiterals pool : Logged ε Section).warned = [] := by
  induction pool generalizing part with
  | nil => rfl
  | cons name rest inductionHypothesis =>
    simp [placeLiterals, Event.report?, inductionHypothesis]

theorem warnedDeclareExternals (part : Section) (names : List Text) :
    (part.declareExternals names : Logged ε Section).warned = [] := by
  induction names generalizing part with
  | nil => rfl
  | cons name rest inductionHypothesis =>
    simp [declareExternals, SymbolTable.declare, inductionHypothesis]

theorem warnedAddPatches (part : Section) (patches : List Patch) :
    (part.addPatches patches : Logged ε Section).warned = [] := by
  induction patches generalizing part with
  | nil => rfl
  | cons patch rest inductionHypothesis =>
    simp [addPatches, Patch.add, Event.report?, inductionHypothesis]

theorem warnedApplyOperator (part : Section) (statement : Statement) :
    (part.applyOperator statement : Logged ε (Section × List Text)).warned = [] := by
  unfold applyOperator
  split <;> simp [warnedPlaceLiterals, warnedDeclareExternals, warnedAddPatches]

theorem warnedAddStatement (part : Section) (file : Text) (statement : Statement) :
    (part.addStatement file statement).warned = [] := by
  unfold addStatement
  split
  · rfl
  · rw [Logged.warnedBind, warnedBindLabel, valueBindLabel]
    cases part.symbolsWith? file statement with
    | none => rfl
    | some symbols =>
      simp [warnedRegisterLiteral, valueRegisterLiteral, warnedApplyOperator]

theorem warnedAddLine (part : Section) (catalog : Catalog) (file : Text) (number : Nat)
    (raw : Text) : (part.addLine catalog file number raw).warned = [] := by
  rw [addLine, Logged.warnedBind, Logged.warnedLift, Logged.valueLift]
  cases Statement.read catalog file part.counter number raw with
  | error error => rfl
  | ok statement => exact warnedAddStatement part file statement

end Section

namespace Layout

theorem warnedNewSection (layout : Layout) (name : Text) (start : Int) (entries : List Entry) :
    (layout.newSection name start entries : Logged ε (List Section × Section)).warned = [] := by
  simp [newSection, Event.report?]

theorem warnedEnter (layout : Layout) (file : Text) (number : Nat) (raw : Text) :
    (layout.enter file number raw).warned = [] := by
  rw [enterEq]
  split
  · next opening _ =>
    rw [Logged.warnedBind, Logged.warnedLift, Logged.valueLift]
    cases openingAddress opening ⟨file, number⟩ raw with
    | error error => rfl
    | ok start => simp [Except.toOption, warnedNewSection]
  · split
    · rfl
    · exact warnedNewSection layout [] 0 []

theorem warnedAddLine (catalog : Catalog) (file : Text) (layout : Layout) (number : Nat)
    (raw : Text) : (addLine catalog file layout number raw).warned = [] := by
  unfold addLine
  split
  · rfl
  · rw [Logged.warnedBind, warnedEnter]
    cases (layout.enter file number raw).value? with
    | none => rfl
    | some entered =>
      rw [Option.elim_some, List.nil_append, Logged.warnedBind, Section.warnedAddLine]
      cases (entered.2.addLine catalog file number raw).value? <;> rfl

theorem warnedAddLines (catalog : Catalog) (file : Text) (layout : Layout) (number : Nat)
    (lines : List Text) : (addLines catalog file layout number lines).warned = [] := by
  induction lines generalizing layout number with
  | nil => rfl
  | cons raw rest inductionHypothesis =>
    rw [addLines, Logged.warnedBind, warnedAddLine]
    cases (addLine catalog file layout number raw).value? with
    | none => rfl
    | some next => exact inductionHypothesis next (number + 1)

/-- No line of a program makes the layout warn of an undefined symbol. -/
theorem warnedOfLines (catalog : Catalog) (file : Text) (lines : List Text) :
    (ofLines catalog file lines).warned = [] :=
  warnedAddLines catalog file {} 1 lines

end Layout

end SicXe
