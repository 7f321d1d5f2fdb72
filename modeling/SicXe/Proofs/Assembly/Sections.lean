/-
This file says where the sections and the records of an assembly come from: each section is laid
out first, then every entry gets its code, and then the records are made.
-/

import SicXe.Assembly
import SicXe.Proofs.Section.Pool

namespace SicXe

namespace Encoder

variable {encoder : Encoder} {part : Section}

/-- The entry with its code, or with none if the code cannot be made. -/
def coded (encoder : Encoder) (part : Section) (entry : Entry) : Entry :=
  { entry with code := (encoder.code part entry.toStatement).value?.getD [] }

theorem codeEntriesCases {entries done : List Entry}
    (made : (encoder.codeEntries part entries).value? = some done) :
    done = entries.map (encoder.coded part) ∧
      ∀ entry ∈ entries, (encoder.code part entry.toStatement).value? =
        some (encoder.coded part entry).code := by
  induction entries generalizing done with
  | nil =>
    obtain rfl := Option.some.inj made
    simp
  | cons entry rest inductionHypothesis =>
    simp only [codeEntries, Logged.valueBind, Logged.valuePure, Option.bind_eq_some_iff,
      Option.some.injEq] at made
    obtain ⟨code, isCode, later, makesLater, rfl⟩ := made
    obtain ⟨rfl, each⟩ := inductionHypothesis makesLater
    have first : encoder.coded part entry = { entry with code } := by
      simp only [coded, isCode, Option.getD_some]
    refine ⟨by rw [List.map_cons, first], ?_⟩
    intro other inside
    rcases List.mem_cons.1 inside with rfl | deeper
    · rw [first, isCode]
    · exact each other deeper

end Encoder

namespace Assembly

variable {encoder : Encoder}

theorem moduleOfValue (part : Section) :
    (moduleOf encoder part).value? =
      (encoder.codeEntries part part.entries).value?.bind fun entries =>
        (Section.records { part with entries } encoder.catalog).toOption.map fun records =>
          ({ part with entries }, records) := by
  simp only [moduleOf, Encoder.codeSection, Logged.valueBind, Logged.valuePure, Logged.valueLift,
    Logged.valueReport, Option.bind_some, Option.bind_assoc, Option.map_eq_bind]
  rfl

/-- A module is made of a section whose entries have their code. -/
theorem moduleOfCases {part : Section} {pair : Section × List Record}
    (made : (moduleOf encoder part).value? = some pair) :
    ∃ entries, (encoder.codeEntries part part.entries).value? = some entries ∧
      pair.1 = { part with entries } ∧ pair.1.records encoder.catalog = .ok pair.2 := by
  rw [moduleOfValue] at made
  obtain ⟨entries, makesEntries, rest⟩ := Option.bind_eq_some_iff.1 made
  obtain ⟨records, makesRecords, rfl⟩ := Option.map_eq_some_iff.1 rest
  refine ⟨entries, makesEntries, rfl, ?_⟩
  cases found : Section.records { part with entries } encoder.catalog with
  | error error => simp [found, Except.toOption] at makesRecords
  | ok other => simpa [found, Except.toOption] using makesRecords

theorem modulesOfCases {sections : List Section} {modules : List (Section × List Record)}
    (made : (modulesOf encoder sections).value? = some modules) :
    ∀ pair ∈ modules, ∃ part ∈ sections, (moduleOf encoder part).value? = some pair := by
  induction sections generalizing modules with
  | nil =>
    obtain rfl := Option.some.inj made
    simp
  | cons part rest inductionHypothesis =>
    simp only [modulesOf, Logged.valueBind, Logged.valuePure, Option.bind_eq_some_iff,
      Option.some.injEq] at made
    obtain ⟨first, makesFirst, later, makesLater, rfl⟩ := made
    intro pair inside
    rcases List.mem_cons.1 inside with rfl | deeper
    · exact ⟨part, List.mem_cons_self, makesFirst⟩
    · obtain ⟨other, member, makes⟩ := inductionHypothesis makesLater pair deeper
      exact ⟨other, List.mem_cons_of_mem _ member, makes⟩

theorem modulesOfIndices {sections : List Section} {modules : List (Section × List Record)}
    (made : (modulesOf encoder sections).value? = some modules) :
    modules.map (·.1.index) = sections.map (·.index) := by
  induction sections generalizing modules with
  | nil =>
    obtain rfl := Option.some.inj made
    rfl
  | cons part rest inductionHypothesis =>
    simp only [modulesOf, Logged.valueBind, Logged.valuePure, Option.bind_eq_some_iff,
      Option.some.injEq] at made
    obtain ⟨first, makesFirst, later, makesLater, rfl⟩ := made
    obtain ⟨entries, _, shape, _⟩ := moduleOfCases makesFirst
    rw [List.map_cons, List.map_cons, inductionHypothesis makesLater, shape]

/-- The layout and the modules of a program alone decide what its assembly is. -/
theorem ofLinesValue (settings : Settings) (file : Text) (lines : List Text) :
    (ofLines settings file lines).value? =
      (Layout.ofLines settings.catalog file lines).value?.bind fun layout =>
        (modulesOf ⟨settings.catalog, file, settings.strict⟩ layout.sections).value?.map
          fun modules => ⟨file, settings.catalog, modules.map Prod.fst, modules.map Prod.snd⟩ := by
  simp only [ofLines, Logged.valueBind, Logged.valueReportIf, Logged.valueReport,
    Logged.valuePure, Option.bind_some, Option.map_eq_bind]
  rfl

theorem zipModules (modules : List (Section × List Record)) :
    (modules.map Prod.fst).zip (modules.map Prod.snd) = modules := by
  rw [List.zip_map', List.map_id'']
  simp

/-- Every section of an assembly has its records. -/
theorem recordsOfSection {settings : Settings} {file : Text} {lines : List Text}
    {assembly : Assembly} {part : Section}
    (assembled : (ofLines settings file lines).result = .ok assembly)
    (member : part ∈ assembly.sections) :
    ∃ records, (part, records) ∈ assembly.sections.zip assembly.modules := by
  rw [← Logged.valueEqSome, ofLinesValue] at assembled
  obtain ⟨layout, _, rest⟩ := Option.bind_eq_some_iff.1 assembled
  obtain ⟨modules, _, rfl⟩ := Option.map_eq_some_iff.1 rest
  obtain ⟨⟨_, records⟩, inside, rfl⟩ := List.mem_map.1 member
  rw [zipModules]
  exact ⟨records, inside⟩

/-- The origin of a section of an assembly and of its records. -/
structure Origin (encoder : Encoder) (laid part : Section) (records : List Record) : Prop where
  built : laid.Built encoder.catalog encoder.file
  shape : part = { laid with entries := laid.entries.map (encoder.coded laid) }
  codes : ∀ entry ∈ laid.entries, (encoder.code laid entry.toStatement).value? =
    some (encoder.coded laid entry).code
  emitted : part.records encoder.catalog = .ok records

namespace Origin

variable {laid part : Section} {records : List Record} {entry : Entry}

theorem bareEntry (origin : Origin encoder laid part records) (inside : entry ∈ part.entries) :
    ∃ bare ∈ laid.entries, encoder.coded laid bare = entry := by
  rw [origin.shape] at inside
  exact List.mem_map.1 inside

theorem isRead (origin : Origin encoder laid part records) (inside : entry ∈ part.entries) :
    entry.toStatement.IsRead encoder.catalog := by
  obtain ⟨bare, member, rfl⟩ := origin.bareEntry inside
  exact origin.built.isRead bare member

theorem codeOf (origin : Origin encoder laid part records) (inside : entry ∈ part.entries) :
    (encoder.code laid entry.toStatement).value? = some entry.code := by
  obtain ⟨bare, member, rfl⟩ := origin.bareEntry inside
  exact origin.codes bare member

theorem literals (origin : Origin encoder laid part records) : part.literals = laid.literals := by
  rw [origin.shape]

/-- The code of the entries leaves the pools as they are laid out. -/
theorem poolsKept (origin : Origin encoder laid part records)
    (unmarked : ∀ name ∈ part.literals.names, Unmarked name) : part.PoolsKept := by
  rw [origin.shape] at unmarked ⊢
  have kept := origin.built.poolsKept unmarked
  refine ⟨kept.distinct, ?_, kept.held, ?_, kept.waiting⟩
  · rw [kept.placed, List.flatMap_map]
    rfl
  · intro entry inside
    obtain ⟨bare, member, rfl⟩ := List.mem_map.1 inside
    exact kept.addressed bare member

end Origin

theorem originOfModule {catalog : Catalog} {file : Text} {strict : Bool} {lines : List Text}
    {layout : Layout} {laid part : Section} {records : List Record}
    (laidOut : (Layout.ofLines catalog file lines).value? = some layout)
    (member : laid ∈ layout.sections)
    (made : (moduleOf ⟨catalog, file, strict⟩ laid).value? = some (part, records)) :
    Origin ⟨catalog, file, strict⟩ laid part records := by
  obtain ⟨entries, coded, shape, makesRecords⟩ := moduleOfCases made
  obtain ⟨rfl, codes⟩ := Encoder.codeEntriesCases coded
  exact ⟨Layout.builtOfLines laidOut laid member, shape, codes, makesRecords⟩

theorem origin {settings : Settings} {file : Text} {lines : List Text} {assembly : Assembly}
    {part : Section} {records : List Record}
    (assembled : (ofLines settings file lines).result = .ok assembly)
    (emitted : (part, records) ∈ assembly.sections.zip assembly.modules) :
    ∃ layout laid, (Layout.ofLines settings.catalog file lines).value? = some layout ∧
      laid ∈ layout.sections ∧
      Origin ⟨settings.catalog, file, settings.strict⟩ laid part records := by
  rw [← Logged.valueEqSome, ofLinesValue] at assembled
  obtain ⟨layout, laidOut, rest⟩ := Option.bind_eq_some_iff.1 assembled
  obtain ⟨modules, made, rfl⟩ := Option.map_eq_some_iff.1 rest
  have pair : (part, records) ∈ modules := by
    rwa [zipModules] at emitted
  obtain ⟨laid, member, makes⟩ := modulesOfCases made _ pair
  exact ⟨layout, laid, laidOut, member, originOfModule laidOut member makes⟩

end Assembly

end SicXe
