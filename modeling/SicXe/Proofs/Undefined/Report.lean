/-
This file says which symbols a computation reports as undefined: in warnings on its way, or in the
error that ends it. It also compares two computations of which one ends where the other one warns.
-/

import SicXe.Proofs.Outcome

namespace SicXe

/-- A symbol that is told to be undefined, with the place and the section of its use. -/
structure Report where
  place : Place
  name : Text
  sectionName : Text
  deriving DecidableEq, Repr

namespace Report

/-- The report as a warning. -/
def event (report : Report) : Event :=
  .undefinedSymbol report.place report.name report.sectionName

/-- The report as an error, with the line that it is about. -/
def error (report : Report) (sourceLine : Text) : AssemblyError :=
  .source ⟨.undefinedSymbol report.name report.sectionName, some report.place, some sourceLine⟩

end Report

/-- The report that the event is, if it is one. -/
def Event.report? : Event → Option Report
  | undefinedSymbol place name sectionName => some ⟨place, name, sectionName⟩
  | _ => none

def AssemblyError.report? : AssemblyError → Option Report
  | source ⟨.undefinedSymbol name sectionName, some place, _⟩ => some ⟨place, name, sectionName⟩
  | _ => none

namespace Logged

variable {ε α β : Type}

/-- The undefined symbols among the warnings of a computation. -/
def warned (computation : Logged ε α) : List Report :=
  computation.events.filterMap Event.report?

/-- The report that an outcome is, if it is one. -/
def ending : Except AssemblyError α → List Report
  | .ok _ => []
  | .error error => error.report?.toList

/-- All reports of a computation, the warnings first. -/
def reports (computation : Logged AssemblyError α) : List Report :=
  computation.warned ++ ending computation.result

@[simp] theorem endingMap (outcome : Except AssemblyError α) (convert : α → β) :
    ending (outcome.map convert) = ending outcome := by
  cases outcome <;> rfl

@[simp] theorem warnedPure (value : α) : (pure value : Logged ε α).warned = [] := rfl

@[simp] theorem warnedOfExcept (result : Except ε α) : (ofExcept result).warned = [] := rfl

@[simp] theorem warnedLift (result : Except ε α) : (liftM result : Logged ε α).warned = [] := rfl

@[simp] theorem warnedLapse (result : Except Lapse α) :
    (liftM result : Logged AssemblyError α).warned = [] :=
  rfl

@[simp] theorem warnedReport (event : Event) :
    (report event : Logged ε Unit).warned = event.report?.toList := by
  unfold warned report
  cases found : event.report? <;> simp [found]

@[simp] theorem warnedReportIf (wanted : Bool) (event : Event) :
    (reportIf wanted event : Logged ε Unit).warned =
      if wanted then event.report?.toList else [] := by
  cases wanted
  · rfl
  · exact warnedReport event

theorem reportsReportIf (wanted : Bool) {event : Event} (silent : event.report? = none) :
    (reportIf wanted event : Logged AssemblyError Unit).reports = [] := by
  rw [reports, warnedReportIf, silent]
  cases wanted <;> rfl

/-- The second computation warns only if the first one yields a value for it. -/
@[simp] theorem warnedBind (first : Logged ε α) (next : α → Logged ε β) :
    (first >>= next).warned =
      first.warned ++ first.value?.elim [] fun value => (next value).warned := by
  unfold warned value?
  rw [eventsBind, List.filterMap_append]
  cases first.result <;> rfl

@[simp] theorem warnedMap (first : Logged ε α) (convert : α → β) :
    (convert <$> first).warned = first.warned := by
  rw [map_eq_pure_bind, warnedBind]
  cases first.value? <;> simp

/-- A report comes from the first computation, or from the second one with the value of the
first. -/
theorem memReportsBind {first : Logged AssemblyError α} {next : α → Logged AssemblyError β}
    {report : Report} (told : report ∈ (first >>= next).reports) :
    report ∈ first.reports ∨
      ∃ value, first.value? = some value ∧ report ∈ (next value).reports := by
  unfold reports at told ⊢
  rw [warnedBind, resultBind] at told
  unfold value? at told ⊢
  cases found : first.result with
  | error error =>
    refine .inl ?_
    simpa [found, Except.toOption, ending, bind, Except.bind] using told
  | ok value =>
    simp only [found, Except.toOption, Option.elim_some, bind, Except.bind, List.append_assoc,
      List.mem_append] at told
    rcases told with early | late
    · exact .inl (List.mem_append_left _ early)
    · exact .inr ⟨value, rfl, List.mem_append.2 late⟩

/-- The first computation does the same as the second one, unless that warns of an undefined symbol:
there the first one ends. -/
inductive EndsAtWarning : Logged AssemblyError α → Logged AssemblyError α → Prop
  | same {computation : Logged AssemblyError α} (quiet : computation.warned = []) :
      EndsAtWarning computation computation
  | ended {before after : List Event} {report : Report} {sourceLine : Text}
      {result : Except AssemblyError α} (quiet : before.filterMap Event.report? = []) :
      EndsAtWarning ⟨before, .error (report.error sourceLine)⟩
        ⟨before ++ report.event :: after, result⟩

namespace EndsAtWarning

variable {strict lenient : Logged AssemblyError α}

/-- Events that are no reports may go ahead of both. -/
theorem behind (ends : EndsAtWarning strict lenient) {events : List Event}
    (quiet : events.filterMap Event.report? = []) :
    EndsAtWarning ⟨events ++ strict.events, strict.result⟩
      ⟨events ++ lenient.events, lenient.result⟩ := by
  cases ends with
  | same same =>
    apply EndsAtWarning.same
    rw [warned, List.filterMap_append, quiet]
    exact same
  | ended before =>
    rw [← List.append_assoc]
    apply EndsAtWarning.ended
    rw [List.filterMap_append, quiet, before]
    rfl

theorem bind (ends : EndsAtWarning strict lenient) {next other : α → Logged AssemblyError β}
    (later : ∀ value, strict.value? = some value → EndsAtWarning (next value) (other value)) :
    EndsAtWarning (strict >>= next) (lenient >>= other) := by
  cases ends with
  | same quiet =>
    obtain ⟨events, result⟩ := strict
    cases result with
    | error error => exact .same quiet
    | ok value => exact (later value rfl).behind quiet
  | @ended before after report sourceLine result quiet =>
    cases result with
    | error error => exact .ended quiet
    | ok value =>
      change EndsAtWarning _ ⟨(before ++ report.event :: after) ++ _, _⟩
      rw [List.append_assoc]
      exact .ended quiet

/-- The strict computation yields what the lenient one does if that does not warn. -/
theorem resultIff (ends : EndsAtWarning strict lenient) (value : α) :
    strict.result = .ok value ↔ lenient.result = .ok value ∧ lenient.warned = [] := by
  cases ends with
  | same quiet => simp [quiet]
  | ended quiet => simp [warned, Event.report?, Report.event]

/-- If the lenient computation warns, the strict one ends with the first warning as its error. -/
theorem errorOfWarned (ends : EndsAtWarning strict lenient) {report : Report}
    {others : List Report} (warns : lenient.warned = report :: others) :
    ∃ sourceLine, strict.result = .error (report.error sourceLine) := by
  cases ends with
  | same quiet =>
    rw [quiet] at warns
    contradiction
  | @ended before after first sourceLine result quiet =>
    rw [warned, List.filterMap_append, quiet, List.nil_append, List.filterMap_cons] at warns
    obtain ⟨rfl, _⟩ := List.cons.inj warns
    exact ⟨sourceLine, rfl⟩

end EndsAtWarning

end Logged

end SicXe
