/-
This file says which names are external in a section, and which statements ask for patches: those
that name a symbol that an `EXTREF` before them declares.
-/

import SicXe.Proofs.Layout.Step
import SicXe.Proofs.Section.Tables

namespace SicXe

namespace Statement

/-- The statement is an `EXTREF` with the name among its operands. -/
def declares (statement : Statement) (name : Text) : Bool :=
  statement.directive? = some .extref ∧ ∃ operand ∈ statement.operands, withoutMark operand = name

/-- One of the entries declares a symbol of the statement. -/
def refersTo (statement : Statement) (entries : List Entry) : Bool :=
  statement.symbols.any fun name => entries.any (·.declares name)

/-- The statement is none of those whose operands never ask for a patch. -/
def asksPatches (statement : Statement) : Bool :=
  ¬ (statement.placesLiterals = true ∨ statement.directive? = some .extref)

variable {statement : Statement}

theorem refersToAppend (earlier later : List Entry) :
    statement.refersTo (earlier ++ later) =
      (statement.refersTo earlier || statement.refersTo later) := by
  rw [Bool.eq_iff_iff]
  simp only [refersTo, List.any_append, List.any_eq_true, Bool.or_eq_true]
  constructor
  · rintro ⟨name, named, early | late⟩
    · exact .inl ⟨name, named, early⟩
    · exact .inr ⟨name, named, late⟩
  · rintro (⟨name, named, early⟩ | ⟨name, named, late⟩)
    · exact ⟨name, named, .inl early⟩
    · exact ⟨name, named, .inr late⟩

end Statement

namespace SymbolTable

theorem memNamesDeclareAll (table : SymbolTable) (names : List Text) (other : Text) :
    other ∈ (table.declareAll names).names ↔
      other ∈ table.names ∨ ∃ name ∈ names, withoutMark name = other := by
  induction names generalizing table with
  | nil => simp [declareAll]
  | cons name rest inductionHypothesis =>
    change other ∈ ((table.insert name 0).declareAll rest).names ↔ _
    rw [inductionHypothesis, memNamesInsert, or_assoc, eq_comm]
    simp only [List.mem_cons, exists_eq_or_imp]

end SymbolTable

namespace Section

variable {catalog : Catalog} {file : Text} {part : Section} {statement : Statement}

theorem isExternalIff {name : Text} :
    part.isExternal name = true ↔ name ∈ part.externals.names := by
  rw [isExternal, Table.contains, List.contains_iff_mem]

/-- The external names behind a statement are those before it and those that it declares. -/
theorem isExternalGrown (symbols : SymbolTable) (name : Text) :
    (part.grown statement symbols).isExternal name =
      (part.isExternal name || statement.declares name) := by
  rw [Bool.eq_iff_iff, Bool.or_eq_true, isExternalIff, isExternalIff]
  change name ∈ (part.externalsWith statement).names ↔ _
  unfold externalsWith Statement.declares
  by_cases extref : statement.directive? = some .extref
  · simp [extref, SymbolTable.memNamesDeclareAll]
  · simp [extref]

/-- The external names of a section are those that its entries declare. -/
theorem Built.isExternal (built : part.Built catalog file) (name : Text) :
    part.isExternal name = part.entries.any (·.declares name) := by
  induction built with
  | opened index title start comments bare =>
    symm
    change comments.any _ = false
    rw [List.any_eq_false]
    intro entry inside
    obtain ⟨comment, _, reading⟩ := bare entry inside
    simp [Statement.declares, reading.commentDirective comment]
  | comment built reading comment inductionHypothesis =>
    change Section.isExternal _ name = (_ ++ [_]).any _
    rw [List.any_append, ← inductionHypothesis]
    simp [Statement.declares, reading.commentDirective comment]
    rfl
  | statement built reading located plain bound inductionHypothesis =>
    rw [isExternalGrown, inductionHypothesis]
    simp [grown]

theorem mentionsExternalEq (part : Section) (statement : Statement) :
    part.mentionsExternal statement = statement.symbols.any part.isExternal := by
  unfold Section.mentionsExternal Statement.symbols
  cases statement.operand <;> rfl

theorem mentionsExternalIff : part.mentionsExternal statement = true ↔
    ∃ name ∈ statement.symbols, part.isExternal name = true := by
  rw [mentionsExternalEq, List.any_eq_true]

theorem notExternalOfMentions {name : Text} (unlinked : part.mentionsExternal statement = false)
    (named : name ∈ statement.symbols) : part.isExternal name = false := by
  rw [← Bool.not_eq_true]
  intro external
  rw [mentionsExternalIff.2 ⟨name, named, external⟩] at unlinked
  contradiction

/-- A statement mentions an external symbol if it refers to the entries of the section. -/
theorem Built.mentionsExternal (built : part.Built catalog file) (statement : Statement) :
    part.mentionsExternal statement = statement.refersTo part.entries := by
  rw [mentionsExternalEq, Statement.refersTo]
  congr 1
  funext name
  exact built.isExternal name

/-- A statement that mentions an external symbol has a patch for each of its symbols. -/
theorem patchesForEqNil :
    part.patchesFor statement = [] ↔ part.mentionsExternal statement = false := by
  unfold patchesFor Section.mentionsExternal
  cases statement.operand with
  | none => simp
  | some operand =>
    simp only [Option.any_some]
    cases external : operand.symbols.any part.isExternal with
    | false => simp
    | true =>
      obtain ⟨name, named, _⟩ := List.any_eq_true.1 external
      have signed : signedSymbols operand ≠ [] := by
        unfold signedSymbols
        split
        · simp
        · simpa using List.ne_nil_of_mem named
      simpa using signed

/-- A statement asks for patches if it refers to an entry before it, and its operator lets it. -/
theorem Built.patchesAt (built : part.Built catalog file) (statement : Statement) :
    part.patchesAt statement ≠ [] ↔
      statement.refersTo part.entries = true ∧ statement.asksPatches = true := by
  rw [← built.mentionsExternal]
  unfold Section.patchesAt Statement.asksPatches
  split
  · next silent => simp [silent]
  · next asks => simp [asks, patchesForEqNil]

/-- A section of comments has no patches. -/
theorem Built.patchesOfComments (built : part.Built catalog file)
    (comments : ∀ entry ∈ part.entries, entry.isComment = true) : part.patches = [] := by
  induction built with
  | opened index name start comments bare => rfl
  | comment built reading comment inductionHypothesis =>
    exact inductionHypothesis fun entry inside => comments entry (by simp [append, inside])
  | @statement part statement symbols built reading located plain bound inductionHypothesis =>
    have last := comments { toStatement := statement, pool := part.poolAt statement }
      (by simp [grown])
    rw [plain] at last
    contradiction

end Section

end SicXe
