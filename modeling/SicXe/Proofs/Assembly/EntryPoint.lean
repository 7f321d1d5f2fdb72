/-
This file says where the execution of a program begins: at the symbol that `END` names, if the
statement stands in the first section, and else at the first instruction.
-/

import SicXe.Catalog.Standard
import SicXe.Proofs.Assembly.Sections
import SicXe.Proofs.Layout.Lines
import SicXe.Proofs.Module.Emission

namespace SicXe

/-- The statement is an `END` with an operand. -/
def Statement.namesEntry (statement : Statement) : Bool :=
  statement.directive? = some .finish && !statement.operands.isEmpty

namespace Section

variable {part : Section} {catalog : Catalog} {entry : Entry}

/-- The location of the first instruction, or the start of a section without any. -/
def firstInstruction (part : Section) (catalog : Catalog) : Int :=
  (part.entries.find? (catalog.contains ·.operator)).elim part.start (·.location)

theorem namedEntryOfOther (other : entry.namesEntry = false) : part.namedEntry? entry = none := by
  unfold namedEntry?
  split
  · next name rest finish operands => simp [Statement.namesEntry, finish, operands] at other
  · rfl

theorem namedEntryOfBound {name : Text} {rest : List Text} {address : Int}
    (names : entry.namesEntry = true) (operands : entry.operands = name :: rest)
    (bound : part.symbols.get? name = some address) :
    part.namedEntry? entry = if address = -1 then none else some address := by
  have finish : entry.directive? = some .finish := by
    simpa using (Bool.and_eq_true_iff.1 names).1
  unfold namedEntry?
  simp [finish, operands, SymbolTable.lookup, bound]

/-- Without an address that is named, execution begins at the first instruction. -/
theorem entryPointUnnamed (unnamed : ∀ entry ∈ part.entries, part.namedEntry? entry = none) :
    part.entryPoint catalog = part.firstInstruction catalog := by
  unfold entryPoint firstInstruction
  rw [List.findSome?_eq_none_iff.2 unnamed]
  cases part.entries.find? (catalog.contains ·.operator) <;> rfl

/-- One address that is named is where execution begins. -/
theorem entryPointNamed {address : Int} (inside : entry ∈ part.entries)
    (named : part.namedEntry? entry = some address)
    (others : ∀ other ∈ part.entries, other ≠ entry → part.namedEntry? other = none) :
    part.entryPoint catalog = address := by
  unfold entryPoint
  cases found : part.entries.findSome? part.namedEntry? with
  | none =>
    rw [List.findSome?_eq_none_iff.1 found entry inside] at named
    contradiction
  | some chosen =>
    obtain ⟨other, listed, names⟩ := List.exists_of_findSome?_eq_some found
    by_cases same : other = entry
    · rw [same, named] at names
      exact (Option.some.inj names).symm
    · rw [others other listed same] at names
      contradiction

/-- The only `END` that names a symbol decides where a section begins, if it stands there and the
symbol has another value than minus one. -/
theorem entryPointOfSingle {name : Text} {rest : List Text} {address : Int}
    (others : ∀ other ∈ part.entries, other ≠ entry → other.namesEntry = false)
    (names : entry.namesEntry = true) (operands : entry.operands = name :: rest)
    (bound : part.symbols.get? name = some address) :
    part.entryPoint catalog =
      if entry ∈ part.entries ∧ address ≠ -1 then address else part.firstInstruction catalog := by
  have named := namedEntryOfBound names operands bound
  split
  · next inside =>
    rw [if_neg inside.2] at named
    exact entryPointNamed inside.1 named fun other listed different =>
      namedEntryOfOther (others other listed different)
  · next outside =>
    apply entryPointUnnamed
    intro other listed
    by_cases same : other = entry
    · have minusOne : address = -1 := by
        by_contra value
        exact outside ⟨same ▸ listed, value⟩
      rw [same, named, if_pos minusOne]
    · exact namedEntryOfOther (others other listed same)

end Section

namespace Assembly

/-- The end of the first section names the entry point. -/
theorem finishOfFirst {settings : Settings} {file : Text} {lines : List Text} {assembly : Assembly}
    {part : Section} {records : List Record}
    (assembled : (ofLines settings file lines).result = .ok assembly)
    (first : (assembly.sections.zip assembly.modules).head? = some (part, records)) :
    records.getLast? = some (.finish (some (part.entryPoint settings.catalog))) := by
  obtain ⟨_, _, _, _, origin⟩ := Assembly.origin assembled (List.mem_of_head? first)
  obtain ⟨emission, _, shape⟩ := Section.recordsCases origin.emitted
  have index : part.index = 0 := by
    rw [← Logged.valueEqSome, ofLinesValue] at assembled
    obtain ⟨layout, laidOut, rest⟩ := Option.bind_eq_some_iff.1 assembled
    obtain ⟨modules, made, rfl⟩ := Option.map_eq_some_iff.1 rest
    rw [zipModules] at first
    have indices := modulesOfIndices made
    rw [Layout.indexedOfLines laidOut] at indices
    have head := congrArg List.head? indices
    rw [List.head?_map, first, List.head?_range] at head
    split at head
    · contradiction
    · exact Option.some.inj head
  rw [shape, List.getLast?_concat, Section.finishRecord, if_pos index]

/-- The end of the first section names the first instruction if no `END` of the program names a
symbol. If one does, and the symbol is one of the first section, the end names its address where the
`END` stands in the first section itself and the address is not minus one. Everywhere else it names
the first instruction all the same. -/
theorem entryPointFollowsEnd {settings : Settings} {file : Text} {lines : List Text}
    {assembly : Assembly} {part : Section} {records : List Record}
    (assembled : (ofLines settings file lines).result = .ok assembly)
    (first : (assembly.sections.zip assembly.modules).head? = some (part, records)) :
    ((∀ other ∈ assembly.sections, ∀ entry ∈ other.entries, entry.namesEntry = false) →
      records.getLast? = some (.finish (some (part.firstInstruction settings.catalog)))) ∧
    (∀ entry name rest address,
      (assembly.sections.flatMap (·.entries)).filter (·.namesEntry) = [entry] →
      entry.operands = name :: rest → part.symbols.get? name = some address →
      records.getLast? = some (.finish (some
        (if entry ∈ part.entries ∧ address ≠ -1 then address
          else part.firstInstruction settings.catalog)))) := by
  have member : part ∈ assembly.sections := (List.of_mem_zip (List.mem_of_head? first)).1
  rw [finishOfFirst assembled first]
  constructor
  · intro unnamed
    rw [Section.entryPointUnnamed fun entry inside =>
      Section.namedEntryOfOther (unnamed part member entry inside)]
  · intro entry name rest address single operands bound
    have names : entry.namesEntry = true := by
      have listed : entry ∈ (assembly.sections.flatMap (·.entries)).filter (·.namesEntry) := by
        rw [single]
        exact List.mem_singleton_self entry
      exact (List.mem_filter.1 listed).2
    have others : ∀ other ∈ part.entries, other ≠ entry → other.namesEntry = false := by
      intro other inside different
      rw [Bool.eq_false_iff]
      intro alsoNames
      have listed : other ∈ (assembly.sections.flatMap (·.entries)).filter (·.namesEntry) :=
        List.mem_filter.2 ⟨List.mem_flatMap.2 ⟨part, member, inside⟩, alsoNames⟩
      rw [single] at listed
      exact different (List.mem_singleton.1 listed)
    rw [Section.entryPointOfSingle others names operands bound]

/-- A program whose first instruction is behind reserved storage, before its last lines. -/
def enteredLines (last : List String) : List Text :=
  (["P\tSTART\t0", "\tRESW\t1", "\tLDA\t#1", "X\tLDA\t#2", "N\tEQU\t-1"] ++ last).map
    String.toList

/-- The end of the first section of a program names the address. -/
def BeginsAt (lines : List Text) (address : Int) : Prop :=
  ∃ assembly part records,
    (ofLines ⟨Catalog.standard, true, false⟩ [] lines).result = .ok assembly ∧
    (assembly.sections.zip assembly.modules).head? = some (part, records) ∧
    records.getLast? = some (.finish (some address))

/-- Execution begins at `X` only if `END` names it in the first section. It begins at the first
instruction if `END` stands in the second section, names a symbol with the value minus one, or names
none. -/
theorem enteredLinesBegin :
    BeginsAt (enteredLines ["\tEND\tX"]) 6 ∧
      BeginsAt (enteredLines ["Q\tCSECT", "\tEND\tX"]) 3 ∧
      BeginsAt (enteredLines ["\tEND\tN"]) 3 ∧ BeginsAt (enteredLines ["\tEND"]) 3 := by
  have named {lines : List Text} {begin : Int}
      (evaluated : ∃ assembly ∈ (ofLines ⟨Catalog.standard, true, false⟩ [] lines).value?,
        ∃ pair ∈ (assembly.sections.zip assembly.modules).head?,
        ∃ entry ∈ ((assembly.sections.flatMap (·.entries)).filter (·.namesEntry)).head?,
        (assembly.sections.flatMap (·.entries)).filter (·.namesEntry) = [entry] ∧
        ∃ name ∈ entry.operands.head?, ∃ address ∈ pair.1.symbols.get? name,
        (if entry ∈ pair.1.entries ∧ address ≠ -1 then address
          else pair.1.firstInstruction Catalog.standard) = begin) : BeginsAt lines begin := by
    obtain ⟨assembly, value, ⟨part, records⟩, first, entry, _, single, name, isName, address, bound,
      rfl⟩ := evaluated
    obtain ⟨rest, operands⟩ := List.head?_eq_some_iff.1 isName
    have assembled := Logged.valueEqSome.1 value
    exact ⟨assembly, part, records, assembled, first,
      (entryPointFollowsEnd assembled first).2 entry name rest address single operands bound⟩
  have unnamed {lines : List Text} {begin : Int}
      (evaluated : ∃ assembly ∈ (ofLines ⟨Catalog.standard, true, false⟩ [] lines).value?,
        ∃ pair ∈ (assembly.sections.zip assembly.modules).head?,
        (∀ other ∈ assembly.sections, ∀ entry ∈ other.entries, entry.namesEntry = false) ∧
        pair.1.firstInstruction Catalog.standard = begin) : BeginsAt lines begin := by
    obtain ⟨assembly, value, ⟨part, records⟩, first, silent, rfl⟩ := evaluated
    have assembled := Logged.valueEqSome.1 value
    exact ⟨assembly, part, records, assembled, first,
      (entryPointFollowsEnd assembled first).1 silent⟩
  exact ⟨named (by decide +kernel), named (by decide +kernel), named (by decide +kernel),
    unnamed (by decide +kernel)⟩

end Assembly

end SicXe
