/-
This file says which symbols are reported as undefined when a program is assembled, and which ones
stay undefined without a report. Minus one is a value that a symbol can have and a sign that it has
none; and the linker is trusted with a difference if it knows one of the two symbols.
-/

import SicXe.Catalog.Standard
import SicXe.Proofs.Assembly.PatchFields
import SicXe.Proofs.Module.Emission
import SicXe.Proofs.Undefined.Layout
import SicXe.Proofs.Undefined.Missing

namespace SicXe

/-- Only a difference has more than one symbol. -/
theorem Statement.symbolsCases (statement : Statement) :
    statement.symbols = [] ∨ (∃ name, statement.symbols = [name]) ∨
      ∃ left right, statement.operand.map (·.form) = some (.difference left right) ∧
        statement.symbols = [left, right] := by
  unfold symbols Operand.symbols
  cases statement.operand with
  | none => exact .inl rfl
  | some operand =>
    obtain ⟨text, form⟩ := operand
    cases form with
    | immediateSymbol name =>
      cases name with
      | nil => exact .inl rfl
      | cons first rest => exact .inr (.inl ⟨_, rfl⟩)
    | indirect name | symbol name => exact .inr (.inl ⟨name, rfl⟩)
    | difference left right => exact .inr (.inr ⟨left, right, rfl, rfl⟩)
    | _ => exact .inl rfl

namespace Section

variable {part : Section} {catalog : Catalog} {entry : Entry} {name : Text}

/-- An entry misses a name only if it has a field for the linker, and the linker does not know a
symbol of it. -/
theorem memMissing : name ∈ part.missing catalog entry.toStatement ↔
    (entry.linkField? catalog).isSome = true ∧
      part.mentionsExternal entry.toStatement = false ∧
      ((catalog.contains entry.operator = true ∧ name ∈ entry.resolved ∧ part.lacks name = true) ∨
        (catalog.contains entry.operator = false ∧ name ∈ entry.symbols ∧
          part.symbols.contains name = false)) := by
  unfold missing Entry.linkField?
  rw [Table.containsEqIsSome]
  by_cases silent : entry.isComment = true ∨ entry.operator = []
  · simp [silent]
  · cases catalog.get? entry.operator with
    | some instruction =>
      by_cases long : entry.extended = true ∨ instruction.format = .three <;>
        simp [silent, long]
    | none =>
      by_cases word : entry.directive? = some .word <;> simp [silent, word]

theorem notExternalOfMissing (missed : name ∈ part.missing catalog entry.toStatement) :
    part.isExternal name = false := by
  obtain ⟨_, unlinked, ⟨_, _, lacked⟩ | ⟨_, named, _⟩⟩ := memMissing.1 missed
  · exact (of_decide_eq_true lacked).2
  · exact notExternalOfMentions unlinked named

/-- The name is in the symbol table or external. -/
def resolves (part : Section) (name : Text) : Bool :=
  part.symbols.contains name || part.isExternal name

/-- If nothing is missed and the linker knows no symbol of the entry, all of them are defined. -/
theorem resolvesOfMissingNil (field : (entry.linkField? catalog).isSome = true)
    (none : part.missing catalog entry.toStatement = [])
    (unlinked : part.mentionsExternal entry.toStatement = false) (named : name ∈ entry.symbols) :
    part.resolves name = true := by
  have held : name ∉ part.missing catalog entry.toStatement := by simp [none]
  have outside : part.isExternal name = false := notExternalOfMentions unlinked named
  cases found : part.resolves name with
  | true => rfl
  | false =>
    refine absurd (memMissing.2 ⟨field, unlinked, ?_⟩) held
    have undefined : part.symbols.contains name = false := by
      simpa [resolves, outside] using found
    cases known : catalog.contains entry.operator with
    | true =>
      have absent : part.symbols.get? name = Option.none := by
        simpa [Table.containsEqIsSome] using undefined
      have lacked : part.lacks name = true := by
        simp [lacks, SymbolTable.lookup, absent, outside]
      exact .inl ⟨rfl, entry.symbolsSubset named, lacked⟩
    | false => exact .inr ⟨rfl, named, undefined⟩

/-- A missed name that is in the table has the value minus one, and an instruction misses it. -/
theorem memNamesOfMissing (missed : name ∈ part.missing catalog entry.toStatement) :
    name ∈ part.symbols.names ↔
      part.symbols.get? name = some (-1) ∧ catalog.contains entry.operator = true := by
  obtain ⟨_, _, ⟨known, _, lacked⟩ | ⟨unknown, _, absent⟩⟩ := memMissing.1 missed
  · have sign : (part.symbols.get? name).getD (-1) = -1 := (of_decide_eq_true lacked).1
    rw [SymbolTable.memNamesIff]
    cases found : part.symbols.get? name with
    | none => simp
    | some value => simp_all
  · have outside : name ∉ part.symbols.names := by
      rw [← List.contains_iff_mem]
      exact Bool.eq_false_iff.1 absent
    simp [outside, unknown]

end Section

namespace Encoder

variable {encoder : Encoder} {part : Section} {entries : List Entry}

theorem memReportsCodeEntries
    (readings : ∀ entry ∈ entries, entry.toStatement.IsRead encoder.catalog) {report : Report}
    (told : report ∈ (encoder.codeEntries part entries).reports) :
    ∃ entry ∈ entries, ∃ name ∈ part.missing encoder.catalog entry.toStatement,
      report = encoder.reportOf part entry.toStatement name := by
  induction entries with
  | nil => contradiction
  | cons entry rest inductionHypothesis =>
    obtain ⟨_, ending, tells⟩ := @tellsCode encoder part _ (readings entry List.mem_cons_self)
    rcases Logged.memReportsBind told with first | ⟨_, _, later⟩
    · obtain ⟨name, missed, same⟩ := tells.memReports ending first
      exact ⟨entry, List.mem_cons_self, name, missed, same⟩
    · rcases Logged.memReportsBind later with deeper | ⟨_, _, silent⟩
      · obtain ⟨other, inside, found⟩ := inductionHypothesis
          (fun other inside => readings other (List.mem_cons_of_mem _ inside)) deeper
        exact ⟨other, List.mem_cons_of_mem _ inside, found⟩
      · contradiction

theorem warnedCodeEntries (lenient : encoder.strict = false)
    (readings : ∀ entry ∈ entries, entry.toStatement.IsRead encoder.catalog) {done : List Entry}
    (made : (encoder.codeEntries part entries).value? = some done) :
    (encoder.codeEntries part entries).warned = entries.flatMap fun entry =>
      (part.missing encoder.catalog entry.toStatement).map
        (encoder.reportOf part entry.toStatement) := by
  induction entries generalizing done with
  | nil => rfl
  | cons entry rest inductionHypothesis =>
    obtain ⟨_, _, tells⟩ := @tellsCode encoder part _ (readings entry List.mem_cons_self)
    simp only [codeEntries, Logged.valueBind, Option.bind_eq_some_iff] at made
    obtain ⟨code, isCode, later, makesLater, _⟩ := made
    have first := tells.warned lenient isCode
    have others := inductionHypothesis
      (fun other inside => readings other (List.mem_cons_of_mem _ inside)) makesLater
    simp [codeEntries, isCode, first, others]

end Encoder

namespace Section

theorem emitEnding (part : Section) (pending : Option Run) (entries : List Entry) :
    Logged.ending (part.emit pending entries) = [] := by
  induction entries generalizing pending with
  | nil => rfl
  | cons entry rest inductionHypothesis =>
    rw [emitCons]
    split
    · exact inductionHypothesis _
    · split
      · rw [Logged.endingMap, inductionHypothesis]
      · split
        · rw [Logged.endingMap, inductionHypothesis]
        · rfl

/-- A statement that fits into no record is no undefined symbol. -/
theorem recordsEnding (part : Section) (catalog : Catalog) :
    Logged.ending (part.records catalog) = [] := by
  rw [records, Logged.endingMap, emitEnding]

end Section

namespace Assembly

variable {encoder : Encoder} {sections : List Section} {report : Report}

theorem memReportsModuleOf {part : Section}
    (readings : ∀ entry ∈ part.entries, entry.toStatement.IsRead encoder.catalog)
    (told : report ∈ (moduleOf encoder part).reports) :
    ∃ entry ∈ part.entries, ∃ name ∈ part.missing encoder.catalog entry.toStatement,
      report = encoder.reportOf part entry.toStatement name := by
  rcases Logged.memReportsBind told with coding | ⟨coded, _, later⟩
  · rcases Logged.memReportsBind coding with entries | ⟨_, _, silent⟩
    · exact Encoder.memReportsCodeEntries readings entries
    · contradiction
  · rcases Logged.memReportsBind later with failed | ⟨_, _, silent⟩
    · change report ∈ Logged.ending (coded.records encoder.catalog) at failed
      rw [Section.recordsEnding] at failed
      contradiction
    · contradiction

theorem memReportsModulesOf
    (readings : ∀ part ∈ sections, ∀ entry ∈ part.entries,
      entry.toStatement.IsRead encoder.catalog)
    (told : report ∈ (modulesOf encoder sections).reports) :
    ∃ part ∈ sections, ∃ entry ∈ part.entries,
      ∃ name ∈ part.missing encoder.catalog entry.toStatement,
        report = encoder.reportOf part entry.toStatement name := by
  induction sections with
  | nil => contradiction
  | cons part rest inductionHypothesis =>
    rcases Logged.memReportsBind told with first | ⟨_, _, later⟩
    · exact ⟨part, List.mem_cons_self,
        memReportsModuleOf (readings part List.mem_cons_self) first⟩
    · rcases Logged.memReportsBind later with deeper | ⟨_, _, silent⟩
      · obtain ⟨other, inside, found⟩ := inductionHypothesis
          (fun other inside => readings other (List.mem_cons_of_mem _ inside)) deeper
        exact ⟨other, List.mem_cons_of_mem _ inside, found⟩
      · contradiction

theorem warnedModuleOf (lenient : encoder.strict = false) {part : Section}
    (readings : ∀ entry ∈ part.entries, entry.toStatement.IsRead encoder.catalog)
    {module : Section × List Record} (made : (moduleOf encoder part).value? = some module) :
    (moduleOf encoder part).warned = part.entries.flatMap fun entry =>
      (part.missing encoder.catalog entry.toStatement).map
        (encoder.reportOf part entry.toStatement) := by
  obtain ⟨entries, makesEntries, shape, makesRecords⟩ := moduleOfCases made
  have warns := Encoder.warnedCodeEntries lenient readings makesEntries
  rw [shape] at makesRecords
  simp [moduleOf, Encoder.codeSection, makesEntries, warns, makesRecords, Except.toOption,
    Event.report?]

theorem warnedModulesOf (lenient : encoder.strict = false)
    (readings : ∀ part ∈ sections, ∀ entry ∈ part.entries,
      entry.toStatement.IsRead encoder.catalog) {modules : List (Section × List Record)}
    (made : (modulesOf encoder sections).value? = some modules) :
    (modulesOf encoder sections).warned = sections.flatMap fun part =>
      part.entries.flatMap fun entry =>
        (part.missing encoder.catalog entry.toStatement).map
          (encoder.reportOf part entry.toStatement) := by
  induction sections generalizing modules with
  | nil => rfl
  | cons part rest inductionHypothesis =>
    simp only [modulesOf, Logged.valueBind, Option.bind_eq_some_iff] at made
    obtain ⟨module, makesFirst, later, makesLater, _⟩ := made
    have first := warnedModuleOf lenient (readings part List.mem_cons_self) makesFirst
    have others := inductionHypothesis
      (fun other inside => readings other (List.mem_cons_of_mem _ inside)) makesLater
    simp [modulesOf, makesFirst, first, others]

variable {settings : Settings} {file : Text} {lines : List Text} {layout : Layout}

theorem readingsOfLines
    (laidOut : (Layout.ofLines settings.catalog file lines).value? = some layout) :
    ∀ part ∈ layout.sections, ∀ entry ∈ part.entries,
      entry.toStatement.IsRead settings.catalog :=
  fun part member => (Layout.builtOfLines laidOut part member).isRead

/-- A program that is laid out reports what its statements miss, and nothing else. -/
theorem memReportsOfLines
    (laidOut : (Layout.ofLines settings.catalog file lines).value? = some layout)
    (told : report ∈ (ofLines settings file lines).reports) :
    ∃ part ∈ layout.sections, ∃ entry ∈ part.entries,
      ∃ name ∈ part.missing settings.catalog entry.toStatement,
        report = ⟨entry.place file, name, part.name⟩ := by
  have laying : (Layout.ofLines settings.catalog file lines).reports = [] := by
    rw [Logged.reports, Layout.warnedOfLines, Logged.valueEqSome.1 laidOut]
    rfl
  rcases Logged.memReportsBind told with console | ⟨_, _, told⟩
  · rw [Logged.reportsReportIf _ rfl] at console
    contradiction
  rcases Logged.memReportsBind told with early | ⟨reached, same, told⟩
  · rw [laying] at early
    contradiction
  obtain rfl := Option.some.inj (laidOut.symm.trans same)
  rcases Logged.memReportsBind told with console | ⟨_, _, told⟩
  · rw [Logged.reportsReportIf _ rfl] at console
    contradiction
  rcases Logged.memReportsBind told with found | ⟨_, _, silent⟩
  · exact memReportsModulesOf (readingsOfLines laidOut) found
  · contradiction

/-- A lenient assembly warns of everything that the statements of its sections miss. -/
theorem warnedOfLines (lenient : settings.strict = false)
    (laidOut : (Layout.ofLines settings.catalog file lines).value? = some layout)
    {assembly : Assembly} (assembled : (ofLines settings file lines).value? = some assembly) :
    (ofLines settings file lines).warned = layout.sections.flatMap fun part =>
      part.entries.flatMap fun entry =>
        (part.missing settings.catalog entry.toStatement).map fun name =>
          ⟨entry.place file, name, part.name⟩ := by
  rw [ofLinesValue, laidOut, Option.bind_some] at assembled
  obtain ⟨modules, made, _⟩ := Option.map_eq_some_iff.1 assembled
  have warns := warnedModulesOf lenient (readingsOfLines laidOut) made
  have kept : (ofLines settings file lines).warned =
      (modulesOf ⟨settings.catalog, file, settings.strict⟩ layout.sections).warned := by
    simp [ofLines, Event.report?, Layout.warnedOfLines, laidOut, made]
  exact kept.trans warns

/-- A report tells of a name that is not external, and is not in the symbol table either, unless its
value there is minus one and the statement is an instruction. Such reports are made: a lenient
assembly warns of every symbol with the value minus one that a long instruction refers to, if none
of the symbols of the instruction is external. -/
theorem undefinedReports
    (laidOut : (Layout.ofLines settings.catalog file lines).result = .ok layout) :
    (∀ report ∈ (ofLines settings file lines).reports,
      ∃ part ∈ layout.sections, ∃ entry ∈ part.entries,
        report.place = entry.place file ∧ report.sectionName = part.name ∧
        report.name ∉ part.externals.names ∧
        (report.name ∈ part.symbols.names ↔ part.symbols.get? report.name = some (-1) ∧
          settings.catalog.contains entry.operator = true)) ∧
    (settings.strict = false → ∀ assembly, (ofLines settings file lines).result = .ok assembly →
      ∀ part ∈ layout.sections, ∀ entry ∈ part.entries, ∀ name ∈ entry.symbols,
        (entry.linkField? settings.catalog).isSome = true →
        settings.catalog.contains entry.operator = true →
        part.mentionsExternal entry.toStatement = false →
        part.symbols.get? name = some (-1) →
        ⟨entry.place file, name, part.name⟩ ∈ (ofLines settings file lines).reports) := by
  have laid := Logged.valueEqSome.2 laidOut
  constructor
  · intro report told
    obtain ⟨part, member, entry, inside, name, missed, rfl⟩ := memReportsOfLines laid told
    refine ⟨part, member, entry, inside, rfl, rfl, ?_, Section.memNamesOfMissing missed⟩
    rw [← Section.isExternalIff, Section.notExternalOfMissing missed]
    exact Bool.false_ne_true
  · intro lenient assembly assembled part member entry inside name named field known unlinked sign
    have lacked : part.lacks name = true := by
      have outside : part.isExternal name = false :=
        Section.notExternalOfMentions unlinked named
      simp [Section.lacks, SymbolTable.lookup, sign, outside]
    have missed : name ∈ part.missing settings.catalog entry.toStatement :=
      Section.memMissing.2
        ⟨field, unlinked, .inl ⟨known, entry.symbolsSubset named, lacked⟩⟩
    apply List.mem_append_left
    rw [warnedOfLines lenient laid (Logged.valueEqSome.2 assembled)]
    exact List.mem_flatMap.2 ⟨part, member, List.mem_flatMap.2
      ⟨entry, inside, List.mem_map.2 ⟨name, missed, rfl⟩⟩⟩

/-- A symbol with the value minus one in an instruction. -/
def minusOneLines : List Text :=
  ["P\tSTART\t0", "NEG\tEQU\t-1", "\tLDA\t#NEG", "\tEND\tP"].map String.toList

/-- The symbol is in the table, and the instruction is reported all the same. -/
theorem minusOneReported :
    ∃ layout part entry,
      (Layout.ofLines Catalog.standard [] minusOneLines).result = .ok layout ∧
      part ∈ layout.sections ∧ entry ∈ part.entries ∧ entry.operator = "LDA".toList ∧
      "NEG".toList ∈ part.symbols.names ∧
      ⟨entry.place [], "NEG".toList, part.name⟩ ∈
        (ofLines ⟨Catalog.standard, false, false⟩ [] minusOneLines).reports := by
  have evaluated : ∃ layout ∈ (Layout.ofLines Catalog.standard [] minusOneLines).value?,
      ∃ part ∈ layout.sections, ∃ entry ∈ part.entries, entry.operator = "LDA".toList ∧
        "NEG".toList ∈ entry.symbols ∧
        (entry.linkField? Catalog.standard).isSome = true ∧
        part.mentionsExternal entry.toStatement = false ∧
        part.symbols.get? "NEG".toList = some (-1) := by
    decide +kernel
  have yields : ∃ assembly ∈
      (ofLines ⟨Catalog.standard, false, false⟩ [] minusOneLines).value?,
      assembly.sections.length = 1 := by
    decide +kernel
  obtain ⟨layout, laid, part, member, entry, inside, operator, named, field, unlinked, sign⟩ :=
    evaluated
  obtain ⟨assembly, made, _⟩ := yields
  have laidOut := Logged.valueEqSome.1 laid
  have known : Catalog.standard.contains entry.operator = true := by
    rw [operator]
    decide
  have held : "NEG".toList ∈ part.symbols.names := by
    rw [SymbolTable.memNamesIff, sign]
    rfl
  refine ⟨layout, part, entry, laidOut, member, inside, operator, held, ?_⟩
  exact (@undefinedReports ⟨Catalog.standard, false, false⟩ _ _ _ laidOut).2 rfl assembly
    (Logged.valueEqSome.1 made) part member entry inside _ named field known unlinked sign

/-- A strict assembly may leave a symbol of a `WORD` or of a long instruction unresolved, but only
in a difference of which the linker knows exactly one side. -/
theorem strictResolvesSymbols {catalog : Catalog} {verbose : Bool} {assembly : Assembly}
    {part : Section} {entry : Entry}
    (assembled : (ofLines ⟨catalog, true, verbose⟩ file lines).result = .ok assembly)
    (member : part ∈ assembly.sections) (inside : entry ∈ part.entries)
    (field : (entry.linkField? catalog).isSome = true) :
    (∀ name ∈ entry.symbols, part.resolves name = true) ↔
      ∀ left right, entry.operand.map (·.form) = some (.difference left right) →
        part.isExternal left ≠ part.isExternal right →
        part.resolves left = true ∧ part.resolves right = true := by
  obtain ⟨records, emitted⟩ := recordsOfSection assembled member
  obtain ⟨_, laid, _, _, origin⟩ := Assembly.origin assembled emitted
  have none : part.missing catalog entry.toStatement = [] := by
    obtain ⟨_, _, tells⟩ := @Encoder.tellsCode _ laid _ (origin.isRead inside)
    have nothing := tells.namesEqNil rfl (origin.codeOf inside)
    rw [origin.shape]
    exact nothing
  constructor
  · intro all left right difference _
    have named : entry.symbols = [left, right] := by
      obtain ⟨operand, given, form⟩ := Option.map_eq_some_iff.1 difference
      simp only [Statement.symbols, given, Option.elim_some, Operand.symbols, form,
        Operand.Form.symbols]
    exact ⟨all left (by simp [named]), all right (by simp [named])⟩
  · intro differences name named
    cases linked : part.mentionsExternal entry.toStatement with
    | false => exact Section.resolvesOfMissingNil field none linked named
    | true =>
      -- The one symbol of the statement is external, or the statement is a difference.
      obtain ⟨known, mentioned, external⟩ := Section.mentionsExternalIff.1 linked
      rcases entry.symbolsCases with empty | ⟨only, single⟩ | ⟨left, right, difference, both⟩
      · simp [empty] at named
      · rw [single, List.mem_singleton] at named mentioned
        rw [named, ← mentioned, Section.resolves, external, Bool.or_true]
      · simp only [both, List.mem_cons, List.not_mem_nil, or_false] at named mentioned
        by_cases same : part.isExternal left = part.isExternal right
        · have outside : part.isExternal left = true := by
            rcases mentioned with rfl | rfl
            · exact external
            · exact same.trans external
          rcases named with rfl | rfl
          · simp [Section.resolves, outside]
          · simp [Section.resolves, same.symm.trans outside]
        · obtain ⟨first, second⟩ := differences left right difference same
          rcases named with rfl | rfl
          · exact first
          · exact second

/-- A difference with a symbol that the linker knows and one that nobody knows. -/
def halfExternalLines : List Text :=
  ["P\tSTART\t0", "\tEXTREF\tX", "\tWORD\tX-Y", "\tEND\tP"].map String.toList

theorem halfExternalUnresolved :
    ∃ assembly part entry,
      (ofLines ⟨Catalog.standard, true, false⟩ [] halfExternalLines).result = .ok assembly ∧
      part ∈ assembly.sections ∧ entry ∈ part.entries ∧
      (entry.linkField? Catalog.standard).isSome = true ∧
      entry.operand.map (·.form) = some (.difference ['X'] ['Y']) ∧
      ¬ ∀ name ∈ entry.symbols, part.resolves name = true := by
  have evaluated : ∃ assembly ∈
      (ofLines ⟨Catalog.standard, true, false⟩ [] halfExternalLines).value?,
      ∃ part ∈ assembly.sections, ∃ entry ∈ part.entries,
        (entry.linkField? Catalog.standard).isSome = true ∧
        entry.operand.map (·.form) = some (.difference ['X'] ['Y']) ∧
        part.isExternal ['X'] ≠ part.isExternal ['Y'] ∧ part.resolves ['Y'] = false := by
    decide +kernel
  obtain ⟨assembly, made, part, member, entry, inside, field, difference, half, unknown⟩ :=
    evaluated
  have assembled := Logged.valueEqSome.1 made
  refine ⟨assembly, part, entry, assembled, member, inside, field, difference, ?_⟩
  rw [strictResolvesSymbols assembled member inside field]
  intro resolved
  rw [(resolved _ _ difference half).2] at unknown
  contradiction

end Assembly

end SicXe
