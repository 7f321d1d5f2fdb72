/-
This file says which names reach the linker. The define and refer records of a section list the
operands of its `EXTDEF` and `EXTREF` statements, and these are the names that the lines of the
statements list, unless a line lists more than three.
-/

import SicXe.Catalog.Standard
import SicXe.Proofs.Assembly.Sections
import SicXe.Proofs.Code.Width
import SicXe.Proofs.Layout.Lines
import SicXe.Proofs.Module.Emission
import SicXe.Proofs.Section.External
import SicXe.Proofs.Statement.Names

namespace SicXe

namespace Record

/-- The names of a refer record. -/
def referred? : Record → Option (List Text)
  | refer names => some names
  | _ => none

/-- The names of a define record with their addresses. -/
def defined? : Record → Option (List (Text × Int))
  | define symbols => some symbols
  | _ => none

end Record

theorem unmarkedOfIdentifier {name : Text} (identifier : isIdentifier name = true) :
    Unmarked name := by
  intro marked
  have part := partOfIdentifier identifier (List.mem_of_mem_head? marked)
  contradiction

/-- A statement of identifiers declares each of its operands. -/
theorem Statement.declaresOperand {statement : Statement}
    (extref : statement.directive? = some .extref) {name : Text}
    (inside : name ∈ statement.operands) (identifier : isIdentifier name = true) :
    statement.declares name = true := by
  rw [declares, decide_eq_true_eq]
  exact ⟨extref, name, inside, withoutMarkOfUnmarked (unmarkedOfIdentifier identifier)⟩

namespace Section

variable {part : Section} {entry : Entry}

/-- The statements of a directive in order. -/
def ofDirective (part : Section) (directive : Directive) : List Entry :=
  part.entries.filter (·.directive? = some directive)

theorem memOfDirective {directive : Directive} (inside : entry ∈ part.ofDirective directive) :
    entry ∈ part.entries ∧ entry.directive? = some directive := by
  simpa [ofDirective] using inside

/-- Names with the values that the symbol table holds for them. -/
def valued (part : Section) (names : List Text) : List (Text × Int) :=
  names.map fun name => (name, part.symbols.lookup name)

/-- A refer record comes from an `EXTREF`, and a define record from an `EXTDEF`. -/
theorem linksOfIsolated (plain : entry.isComment = false) :
    ((part.isolated? entry).getD []).filterMap Record.referred? =
      (if entry.directive? = some .extref then [entry.operands] else []) ∧
    ((part.isolated? entry).getD []).filterMap Record.defined? =
      (if entry.directive? = some .extdef then [part.valued entry.operands] else []) := by
  unfold isolated?
  rw [plain]
  cases entry.directive? with
  | none => cases entry.code.isEmpty <;> exact ⟨rfl, rfl⟩
  | some directive =>
    cases directive with
    | start | csect | extdef | extref => exact ⟨rfl, rfl⟩
    | ltorg | finish => cases entry.pool.isEmpty <;> exact ⟨rfl, rfl⟩
    | _ => cases entry.code.isEmpty <;> exact ⟨rfl, rfl⟩

end Section

namespace Assembly

variable {encoder : Encoder} {laid part : Section} {records : List Record}

/-- If only the statements of one directive without code have records of a kind, then these records
follow the statements one by one. -/
theorem Origin.pickRecords {α : Type} {pick : Record → Option α} {link : Directive}
    {shape : Entry → α} (origin : Origin encoder laid part records)
    (undirected : encoder.catalog.get? link.name = none) (notByte : link ≠ .byte)
    (notWord : link ≠ .word)
    (texts : ∀ start code, pick (.text start code) = none)
    (patches : ∀ location width symbol, pick (.modification location width symbol) = none)
    (finish : ∀ address, pick (.finish address) = none)
    (own : ∀ entry : Entry, entry.isComment = false →
      ((part.isolated? entry).getD []).filterMap pick =
        if entry.directive? = some link then [shape entry] else []) :
    records.filterMap pick = (part.ofDirective link).map shape := by
  obtain ⟨emission, emits, rfl⟩ := Section.recordsCases origin.emitted
  have patchless : part.patchRecords.filterMap pick = [] := by
    simp [Section.patchRecords, patches]
  have picked : emission.filterMap pick = (part.ofDirective link).map shape := by
    apply Section.emitPicks texts emits
    · intro entry inside
      cases comment : entry.isComment with
      | false => simpa using own entry comment
      | true =>
        rw [(origin.isRead inside).commentDirective comment, Section.isolated?, if_pos comment]
        rfl
    · intro entry inside linking
      have empty := @Encoder.codeOfDirective encoder laid _ _ undirected (of_decide_eq_true linking)
        notByte notWord
      exact Option.some.inj ((origin.codeOf inside).symm.trans empty)
  rw [List.filterMap_append, List.filterMap_append, patchless, picked]
  simp [Section.finishRecord, finish]

/-- The external names of an assembled section are those that its entries declare. -/
theorem Origin.isExternal (origin : Origin encoder laid part records) (name : Text) :
    part.isExternal name = part.entries.any (·.declares name) := by
  rw [origin.shape, List.any_map]
  exact origin.built.isExternal name

variable {settings : Settings} {file : Text} {lines : List Text} {assembly : Assembly}

/-- The operands of a directive other than `BYTE` are the identifiers that its line lists, if there
are at most three. -/
theorem directiveOperands {directive : Directive}
    (undirected : settings.catalog.get? directive.name = none) (notByte : directive ≠ .byte)
    (assembled : (ofLines settings file lines).result = .ok assembly)
    (emitted : (part, records) ∈ assembly.sections.zip assembly.modules) {entry : Entry}
    (inside : entry ∈ part.entries) (found : entry.directive? = some directive) :
    (∃ raw ∈ lines, entry.source = Text.dropLineEnd raw) ∧
      ((∀ name ∈ entry.listed, isIdentifier name = true) →
        (entry.operands = entry.listed ↔ entry.listed.length ≤ 3)) := by
  obtain ⟨layout, laid, laidOut, member, origin⟩ := Assembly.origin assembled emitted
  have plain : entry.isComment = false := by
    cases comment : entry.isComment with
    | false => rfl
    | true =>
      rw [(origin.isRead inside).commentDirective comment] at found
      contradiction
  obtain ⟨bare, bareInside, rfl⟩ := origin.bareEntry inside
  obtain ⟨raw, written, location, number, reads⟩ :=
    Layout.fromLinesOfLines laidOut laid member bare bareInside plain
  have operator : bare.operator = directive.name := (Directive.nameOfName found).symm
  refine ⟨⟨raw, written, Statement.ofFieldsSource reads⟩, ?_⟩
  apply Statement.operandsEqListed reads plain
  · rw [operator, undirected]
    rfl
  · intro byte
    have same := congrArg Directive.ofName? (operator.symm.trans byte)
    rw [Directive.ofNameName, Directive.ofNameName] at same
    exact notByte (Option.some.inj same)

/-- The refer records list the operands of the `EXTREF` statements, and the define records those of
the `EXTDEF` statements with their values. The operands are the names that the line of the statement
lists if and only if there are at most three of them; and then all names of an `EXTREF` are external
in the section. -/
theorem linkRecordsListNames
    (undirected : ∀ directive : Directive, settings.catalog.get? directive.name = none)
    (assembled : (ofLines settings file lines).result = .ok assembly)
    (emitted : (part, records) ∈ assembly.sections.zip assembly.modules) :
    records.filterMap Record.referred? = (part.ofDirective .extref).map (·.operands) ∧
    records.filterMap Record.defined? =
      (part.ofDirective .extdef).map (fun entry => part.valued entry.operands) ∧
    ∀ entry ∈ part.entries,
      entry.directive? = some .extref ∨ entry.directive? = some .extdef →
      (∃ raw ∈ lines, entry.source = Text.dropLineEnd raw) ∧
      ((∀ name ∈ entry.listed, isIdentifier name = true) →
        (entry.operands = entry.listed ↔ entry.listed.length ≤ 3) ∧
        (entry.directive? = some .extref → entry.listed.length ≤ 3 →
          ∀ name ∈ entry.listed, name ∈ part.externals.names)) := by
  obtain ⟨layout, laid, laidOut, member, origin⟩ := Assembly.origin assembled emitted
  refine ⟨?_, ?_, ?_⟩
  · exact origin.pickRecords (undirected .extref) (by decide) (by decide) (fun _ _ => rfl)
      (fun _ _ _ => rfl) (fun _ => rfl) fun entry plain => (Section.linksOfIsolated plain).1
  · exact origin.pickRecords (undirected .extdef) (by decide) (by decide) (fun _ _ => rfl)
      (fun _ _ _ => rfl) (fun _ => rfl) fun entry plain => (Section.linksOfIsolated plain).2
  · intro entry inside linking
    obtain ⟨directive, notByte, found⟩ : ∃ directive, directive ≠ .byte ∧
        entry.directive? = some directive := by
      rcases linking with extref | extdef
      · exact ⟨.extref, by decide, extref⟩
      · exact ⟨.extdef, by decide, extdef⟩
    obtain ⟨written, operands⟩ :=
      directiveOperands (undirected directive) notByte assembled emitted inside found
    refine ⟨written, fun identifiers => ⟨operands identifiers, ?_⟩⟩
    intro extref short name named
    have same := (operands identifiers).2 short
    have declared : entry.declares name = true :=
      Statement.declaresOperand extref (same ▸ named) (identifiers name named)
    rw [← Section.isExternalIff, origin.isExternal, List.any_eq_true]
    exact ⟨entry, inside, declared⟩

/-- Three names of each kind, with blanks around some of them and one that has no address. -/
def threeNamesLines : List Text :=
  ["P\tSTART\t0", "\tEXTDEF\tHERE, GONE ,P", "\tEXTREF\t X ,y_1,_2 ", "\tRESW\t2",
    "HERE\tWORD\t1", "\tEND\tP"].map String.toList

theorem threeNamesListed :
    ∃ assembly part records,
      (ofLines ⟨Catalog.standard, true, false⟩ [] threeNamesLines).result = .ok assembly ∧
      (part, records) ∈ assembly.sections.zip assembly.modules ∧
      records.filterMap Record.referred? = [["X".toList, "y_1".toList, "_2".toList]] ∧
      records.filterMap Record.defined? =
        [[("HERE".toList, 6), ("GONE".toList, -1), ("P".toList, 0)]] ∧
      ∀ name ∈ ["X".toList, "y_1".toList, "_2".toList], name ∈ part.externals.names := by
  have evaluated : ∃ assembly ∈
      (ofLines ⟨Catalog.standard, true, false⟩ [] threeNamesLines).value?,
      ∃ pair ∈ assembly.sections.zip assembly.modules,
        (pair.1.ofDirective .extref).map (·.listed) =
          [["X".toList, "y_1".toList, "_2".toList]] ∧
        (pair.1.ofDirective .extdef).map (·.listed) =
          [["HERE".toList, "GONE".toList, "P".toList]] ∧
        pair.1.valued ["HERE".toList, "GONE".toList, "P".toList] =
          [("HERE".toList, 6), ("GONE".toList, -1), ("P".toList, 0)] := by
    decide +kernel
  obtain ⟨assembly, made, ⟨part, records⟩, emitted, references, definitions, values⟩ := evaluated
  have assembled := Logged.valueEqSome.1 made
  have undirected (directive : Directive) : Catalog.standard.get? directive.name = none := by
    cases directive <;> decide
  obtain ⟨refers, defines, entries⟩ := linkRecordsListNames undirected assembled emitted
  obtain ⟨reference, only, referred⟩ := List.map_eq_singleton_iff.1 references
  obtain ⟨definition, single, defined⟩ := List.map_eq_singleton_iff.1 definitions
  obtain ⟨inside, extref⟩ := Section.memOfDirective (only ▸ List.mem_singleton_self reference)
  obtain ⟨within, extdef⟩ := Section.memOfDirective (single ▸ List.mem_singleton_self definition)
  obtain ⟨referredOperands, external⟩ := (entries reference inside (.inl extref)).2
    (by rw [referred]; decide)
  obtain ⟨definedOperands, _⟩ := (entries definition within (.inr extdef)).2
    (by rw [defined]; decide)
  rw [referred] at referredOperands external
  rw [defined] at definedOperands
  refine ⟨assembly, part, records, assembled, emitted, ?_, ?_, external extref (by decide)⟩
  · rw [refers, only, List.map_singleton, referredOperands.2 (by decide)]
  · rw [defines, single, List.map_singleton, definedOperands.2 (by decide), values]

/-- One name more than a statement can have operands. -/
def fourNamesLines : List Text :=
  ["P\tSTART\t0", "\tEXTREF\tA,B,C,D", "\tEND\tP"].map String.toList

/-- The last two of four names become one, and neither of them is external. -/
theorem fourNamesMerged :
    (∀ directive : Directive, Catalog.standard.get? directive.name = none) ∧
    ∃ assembly part records entry,
      (ofLines ⟨Catalog.standard, true, false⟩ [] fourNamesLines).result = .ok assembly ∧
      (part, records) ∈ assembly.sections.zip assembly.modules ∧
      entry ∈ part.entries ∧ entry.directive? = some .extref ∧
      entry.listed = [['A'], ['B'], ['C'], ['D']] ∧
      (∀ name ∈ entry.listed, isIdentifier name = true) ∧
      part.externals.names = [['A'], ['B'], ['C', ',', 'D']] ∧
      records.filterMap Record.referred? = [[['A'], ['B'], ['C', ',', 'D']]] := by
  have evaluated : ∃ assembly ∈
      (ofLines ⟨Catalog.standard, true, false⟩ [] fourNamesLines).value?,
      ∃ pair ∈ assembly.sections.zip assembly.modules,
        (pair.1.ofDirective .extref).map (·.listed) = [[['A'], ['B'], ['C'], ['D']]] ∧
        pair.1.externals.names = [['A'], ['B'], ['C', ',', 'D']] ∧
        pair.2.filterMap Record.referred? = [[['A'], ['B'], ['C', ',', 'D']]] := by
    decide +kernel
  obtain ⟨assembly, made, ⟨part, records⟩, emitted, references, externals, refers⟩ := evaluated
  obtain ⟨entry, only, listed⟩ := List.map_eq_singleton_iff.1 references
  obtain ⟨inside, extref⟩ := Section.memOfDirective (only ▸ List.mem_singleton_self entry)
  refine ⟨fun directive => by cases directive <;> decide, assembly, part, records, entry,
    Logged.valueEqSome.1 made, emitted, inside, extref, listed, ?_, externals, refers⟩
  rw [listed]
  decide

end Assembly

end SicXe
