/-
This file says which symbols a section has and what their values are: the first statement with a
label decides its value, and no later statement changes it.
-/

import Mathlib.Data.List.Induction
import SicXe.Catalog.Standard
import SicXe.Proofs.Layout.Step
import SicXe.Proofs.Section.Tables

namespace SicXe

namespace Statement

/-- The name that the statement defines, which is its label without the mark of a literal. -/
def definedName? (statement : Statement) : Option Text :=
  if statement.isLabelled then some (withoutMark statement.label) else none

/-- The value of the label, given the symbols before it: the location of the statement, or the value
of the expression behind `EQU`. -/
def definedValue (statement : Statement) (symbols : SymbolTable) : Except AssemblyError Int :=
  if statement.directive? = some .equ then
    AddressExpression.evaluate (statement.operands.headD []) statement.location symbols none none
  else .ok statement.location

/-- The symbols behind the statement, if its label has a value. -/
def defineIn? (symbols : SymbolTable) (statement : Statement) : Option SymbolTable :=
  if statement.isLabelled then
    (statement.definedValue symbols).toOption.map (symbols.insert statement.label)
  else some symbols

variable {statement : Statement} {symbols next : SymbolTable}

theorem defineInOfComment (comment : statement.isComment = true) :
    statement.defineIn? symbols = some symbols := by
  simp [defineIn?, isLabelled, comment]

/-- A statement leaves the symbols alone, or inserts its label with its value. -/
theorem defineInCases (defined : statement.defineIn? symbols = some next) :
    (statement.definedName? = none ∧ next = symbols) ∨
      ∃ value, statement.definedName? = some (withoutMark statement.label) ∧
        statement.definedValue symbols = .ok value ∧
        next = symbols.insert statement.label value := by
  unfold defineIn? at defined
  unfold definedName?
  split at defined
  · next labelled =>
    obtain ⟨value, found, rfl⟩ := Option.map_eq_some_iff.1 defined
    refine .inr ⟨value, if_pos labelled, ?_, rfl⟩
    cases result : statement.definedValue symbols with
    | error error => simp [result, Except.toOption] at found
    | ok other => simpa [result, Except.toOption] using found
  · next bare => exact .inl ⟨if_neg bare, (Option.some.inj defined).symm⟩

/-- A name keeps its value behind every statement. -/
theorem getDefineIn {name : Text} {value : Int} (held : symbols.get? name = some value)
    (defined : statement.defineIn? symbols = some next) : next.get? name = some value := by
  rcases defineInCases defined with ⟨_, rfl⟩ | ⟨other, _, _, rfl⟩
  · exact held
  · rw [SymbolTable.getInsert, held]
    rfl

/-- A name that is new gets the value of the statement that defines it. -/
theorem getDefineInOfFresh {name : Text} (defines : statement.definedName? = some name)
    (fresh : name ∉ symbols.names) (defined : statement.defineIn? symbols = some next) :
    ∃ value, statement.definedValue symbols = .ok value ∧ next.get? name = some value := by
  rcases defineInCases defined with ⟨nameless, _⟩ | ⟨value, named, valued, rfl⟩
  · rw [nameless] at defines
    contradiction
  · obtain rfl := Option.some.inj (named.symm.trans defines)
    have absent : symbols.get? (withoutMark statement.label) = none := by
      simpa [SymbolTable.memNamesIff] using fresh
    refine ⟨value, valued, ?_⟩
    rw [SymbolTable.getInsert, absent, if_pos rfl]
    rfl

end Statement

namespace Entry

/-- The symbols that the entries define, one after the other. -/
def symbolsFrom? (symbols : SymbolTable) (entries : List Entry) : Option SymbolTable :=
  entries.foldlM (fun symbols entry => entry.defineIn? symbols) symbols

/-- The symbol table of the entries alone. -/
def symbols? (entries : List Entry) : Option SymbolTable :=
  symbolsFrom? {} entries

/-- The names that the entries define, each where it comes first. -/
def definedNames (entries : List Entry) : List Text :=
  (entries.filterMap (·.definedName?)).eraseDups

theorem symbolsFromAppend (symbols : SymbolTable) (first second : List Entry) :
    symbolsFrom? symbols (first ++ second) =
      (symbolsFrom? symbols first).bind fun reached => symbolsFrom? reached second :=
  List.foldlM_append

theorem symbolsSnoc (entries : List Entry) (entry : Entry) :
    symbols? (entries ++ [entry]) =
      (symbols? entries).bind fun reached => entry.defineIn? reached := by
  simp [symbols?, symbolsFrom?]

theorem symbolsFromOfComments (symbols : SymbolTable) {entries : List Entry}
    (comments : ∀ entry ∈ entries, entry.isComment = true) :
    symbolsFrom? symbols entries = some symbols := by
  induction entries with
  | nil => rfl
  | cons entry rest inductionHypothesis =>
    have first : entry.defineIn? symbols = some symbols :=
      Statement.defineInOfComment (comments entry List.mem_cons_self)
    rw [symbolsFrom?, List.foldlM_cons, first]
    exact inductionHypothesis fun other inside => comments other (List.mem_cons_of_mem _ inside)

theorem namesOfSymbols {entries : List Entry} {symbols : SymbolTable}
    (defined : symbols? entries = some symbols) : symbols.names = definedNames entries := by
  -- A new name is listed last, so that the entries are taken from the end.
  induction entries using List.reverseRecOn generalizing symbols with
  | nil =>
    obtain rfl := Option.some.inj defined
    rfl
  | append_singleton entries entry inductionHypothesis =>
    rw [symbolsSnoc] at defined
    obtain ⟨before, earlier, last⟩ := Option.bind_eq_some_iff.1 defined
    have listed := inductionHypothesis earlier
    rw [definedNames] at listed ⊢
    rw [List.filterMap_append]
    rcases Statement.defineInCases last with ⟨nameless, rfl⟩ | ⟨value, named, _, rfl⟩
    · simpa [nameless] using listed
    · simpa [named] using SymbolTable.namesInsertEraseDups listed entry.label value

theorem getSymbolsFrom {entries : List Entry} {symbols reached : SymbolTable} {name : Text}
    {value : Int} (held : symbols.get? name = some value)
    (defined : symbolsFrom? symbols entries = some reached) : reached.get? name = some value := by
  induction entries generalizing symbols with
  | nil =>
    obtain rfl := Option.some.inj defined
    exact held
  | cons entry rest inductionHypothesis =>
    rw [symbolsFrom?, List.foldlM_cons] at defined
    obtain ⟨next, first, later⟩ := Option.bind_eq_some_iff.1 defined
    exact inductionHypothesis (Statement.getDefineIn held first) later

/-- The first entry that defines a name decides its value, given the symbols before it. -/
theorem getSymbolsOfFirst {earlier later : List Entry} {entry : Entry} {symbols : SymbolTable}
    {name : Text} (defined : symbols? (earlier ++ entry :: later) = some symbols)
    (defines : entry.definedName? = some name)
    (first : ∀ other ∈ earlier, other.definedName? ≠ some name) :
    ∃ before value, symbols? earlier = some before ∧ entry.definedValue before = .ok value ∧
      symbols.get? name = some value := by
  rw [symbols?, symbolsFromAppend] at defined
  obtain ⟨before, reaches, rest⟩ := Option.bind_eq_some_iff.1 defined
  rw [symbolsFrom?, List.foldlM_cons] at rest
  obtain ⟨next, own, others⟩ := Option.bind_eq_some_iff.1 rest
  have fresh : name ∉ before.names := by
    rw [namesOfSymbols reaches, definedNames, List.mem_eraseDups, List.mem_filterMap]
    rintro ⟨other, inside, again⟩
    exact first other inside again
  obtain ⟨value, valued, held⟩ := Statement.getDefineInOfFresh defines fresh own
  exact ⟨before, value, reaches, valued, getSymbolsFrom held others⟩

end Entry

namespace Section

variable {catalog : Catalog} {file : Text} {part : Section} {statement : Statement}

/-- A statement at the counter of the section defines its label in the table of the section. -/
theorem symbolsWithEqDefineIn (located : statement.location = part.counter) :
    part.symbolsWith? file statement = statement.defineIn? part.symbols := by
  have value : (part.labelValue file statement).toOption =
      (statement.definedValue part.symbols).toOption := by
    unfold labelValue Statement.definedValue
    rw [located]
    split
    · exact AddressExpression.evaluateToOption _ _ _ _ _ _ _
    · rfl
  rw [symbolsWith?, Statement.defineIn?, value]

/-- The symbol table of a section is that of its entries. -/
theorem Built.symbols (built : part.Built catalog file) :
    Entry.symbols? part.entries = some part.symbols := by
  induction built with
  | opened index name start comments bare =>
    exact Entry.symbolsFromOfComments {} fun entry inside => (bare entry inside).1
  | @comment part statement built reading comment inductionHypothesis =>
    change Entry.symbols? (part.entries ++ [_]) = some part.symbols
    rw [Entry.symbolsSnoc, inductionHypothesis]
    exact Statement.defineInOfComment comment
  | @statement part statement symbols built reading located plain bound inductionHypothesis =>
    change Entry.symbols? (part.entries ++ [_]) = some symbols
    rw [Entry.symbolsSnoc, inductionHypothesis]
    exact (symbolsWithEqDefineIn located).symm.trans bound

end Section

namespace Layout

/-- The symbols of a section that is laid out are the names that its statements define, in the order
of their first definitions. The first definition of a name gives it its value, which depends on the
symbols of the entries before it only. -/
theorem firstDefinitionsCount {catalog : Catalog} {file : Text} {lines : List Text}
    {layout : Layout} {part : Section}
    (laidOut : (ofLines catalog file lines).result = .ok layout)
    (member : part ∈ layout.sections) :
    (∀ name, name ∈ part.symbols.names ↔
      ∃ entry ∈ part.entries, entry.definedName? = some name) ∧
    (∀ name earlier entry later, part.entries = earlier ++ entry :: later →
      entry.definedName? = some name → (∀ other ∈ earlier, other.definedName? ≠ some name) →
      ∃ before value, Entry.symbols? earlier = some before ∧
        entry.definedValue before = .ok value ∧ part.symbols.get? name = some value) ∧
    part.symbols.names = Entry.definedNames part.entries ∧
    Entry.symbols? part.entries = some part.symbols := by
  have built := builtOfLines (Logged.valueEqSome.2 laidOut) part member
  have names := Entry.namesOfSymbols built.symbols
  refine ⟨?_, ?_, names, built.symbols⟩
  · intro name
    rw [names, Entry.definedNames, List.mem_eraseDups, List.mem_filterMap]
  · intro name earlier entry later shape defines first
    have defined := built.symbols
    rw [shape] at defined
    exact Entry.getSymbolsOfFirst defined defines first

/-- Labels with and without a mark, which are defined again with other values. -/
def relabelledLines : List Text :=
  [".\tbefore", "P\tSTART\t16", "A\tLDA\t#1", "=A\tEQU\t5", "=B\tRESW\t2", "N\tEQU\tB-A",
    "A\tEQU\t7", "B\tEND\tP"].map String.toList

theorem relabelledSymbols :
    ∃ layout part,
      (ofLines Catalog.standard [] relabelledLines).result = .ok layout ∧
      part ∈ layout.sections ∧
      part.symbols.names = ["P".toList, "A".toList, "B".toList, "N".toList] ∧
      part.symbols.get? "A".toList = some 16 ∧ part.symbols.get? "N".toList = some 3 := by
  have evaluated : ∃ layout ∈ (ofLines Catalog.standard [] relabelledLines).value?,
      ∃ part ∈ layout.sections,
        Entry.definedNames part.entries = ["P".toList, "A".toList, "B".toList, "N".toList] ∧
        ∀ first ∈ [(2, "A".toList, (16 : Int)), (5, "N".toList, 3)],
          ∃ entry ∈ part.entries[first.1]?,
            part.entries = part.entries.take first.1 ++ entry :: part.entries.drop (first.1 + 1) ∧
            entry.definedName? = some first.2.1 ∧
            (∀ other ∈ part.entries.take first.1, other.definedName? ≠ some first.2.1) ∧
            (Entry.symbols? (part.entries.take first.1)).bind
              (entry.definedValue · |>.toOption) = some first.2.2 := by
    decide +kernel
  obtain ⟨layout, value, part, member, names, firsts⟩ := evaluated
  have laidOut := Logged.valueEqSome.1 value
  obtain ⟨_, values, order, _⟩ := firstDefinitionsCount laidOut member
  have held : ∀ first ∈ [(2, "A".toList, (16 : Int)), (5, "N".toList, 3)],
      part.symbols.get? first.2.1 = some first.2.2 := by
    intro first listed
    obtain ⟨entry, _, shape, defines, fresh, expected⟩ := firsts first listed
    obtain ⟨before, number, reaches, valued, found⟩ := values _ _ entry _ shape defines fresh
    rw [reaches, Option.bind_some, valued] at expected
    exact found.trans expected
  exact ⟨layout, part, laidOut, member, order.trans names, held _ List.mem_cons_self,
    held _ (List.mem_cons_of_mem _ List.mem_cons_self)⟩

end Layout

end SicXe
