/-
This file says where the literals of a section are placed: the pools list them in the order of their
first mentions, each once, and those that no pool lists come last.
-/

import SicXe.Catalog.Standard
import SicXe.Proofs.Section.Pool

namespace SicXe

namespace Statement

/-- The name under which the literal of the statement is kept. -/
def literal? (statement : Statement) : Option Text :=
  match statement.operand with
  | some ⟨_, .literal written⟩ => some (withoutMark written)
  | _ => none

/-- The literal of the statement is written with three marks or more. -/
def isOvermarked (statement : Statement) : Bool :=
  match statement.operand with
  | some ⟨text, .literal _⟩ => ['=', '=', '='].isPrefixOf text
  | _ => false

variable {catalog : Catalog} {statement : Statement} {name : Text}

theorem mentionsIff : statement.mentions name = true ↔ statement.literal? = some name := by
  unfold mentions literal?
  rcases statement.operand with _ | ⟨text, form⟩
  · simp
  · cases form <;> simp

/-- The operand loses two marks on its way into the table. -/
theorem IsRead.unmarkedLiteral (reading : statement.IsRead catalog)
    (marked : statement.isOvermarked = false) (held : statement.literal? = some name) :
    Unmarked name := by
  unfold literal? at held
  split at held
  · next text written literal =>
    obtain rfl := Option.some.inj held
    have plain := reading.plainOfOperand literal
    obtain ⟨_, _, shape⟩ := (reading.coherent plain).textOfLiteral literal
    rw [isOvermarked, literal, shape] at marked
    unfold withoutMark
    split
    · next rest =>
      intro again
      cases rest with
      | nil => contradiction
      | cons char rest =>
        obtain rfl := Option.some.inj again
        simp at marked
    · next single =>
      intro again
      cases written with
      | nil => contradiction
      | cons char rest => exact single rest (by rw [Option.some.inj again])
  · contradiction

end Statement

namespace LiteralTable

variable {table : LiteralTable}

theorem isPlacedIff {name : Text} (unmarked : Unmarked name) :
    table.isPlaced name = true ↔ name ∈ table.placed := by
  rw [isPlaced, withoutMarkOfUnmarked unmarked, List.contains_iff_mem]

/-- If the placed literals are the first ones, those that wait are all the others. -/
theorem placedAppendWaiting (distinct : table.names.Nodup) (first : table.placed <+: table.names) :
    table.placed ++ table.waiting = table.names := by
  obtain ⟨rest, shape⟩ := first
  rw [← shape, List.nodup_append] at distinct
  have gone : table.placed.filter (!table.placed.contains ·) = [] := by
    simp [List.filter_eq_nil_iff]
  have kept : rest.filter (!table.placed.contains ·) = rest := by
    rw [List.filter_eq_self]
    intro name late
    rw [Bool.not_eq_true', Bool.eq_false_iff, ne_eq, List.contains_iff_mem]
    intro early
    exact distinct.2.2 name early name late rfl
  rw [waiting, ← shape, List.filter_append, gone, kept]
  rfl

end LiteralTable

namespace Section

variable {catalog : Catalog} {file : Text} {part : Section}

/-- A statement adds its literal behind those before it, if it is new. -/
theorem namesLiteralsWith {earlier : List Text}
    (listed : part.literals.names = earlier.eraseDups) (statement : Statement) :
    (part.literalsWith statement).names = (earlier ++ statement.literal?.toList).eraseDups := by
  unfold literalsWith Statement.literal?
  rcases statement.operand with _ | ⟨text, form⟩
  · simpa using listed
  · cases form with
    | literal written => exact SymbolTable.namesInsertEraseDups listed written 0
    | _ => simpa using listed

theorem namesPrefixLiteralsWith (part : Section) (statement : Statement) :
    part.literals.names <+: (part.literalsWith statement).names := by
  rcases literalsWithCases part statement with ⟨written, table, _⟩ | ⟨table, _⟩
  · rw [table]
    change _ <+: (part.literals.addresses.insert written 0).names
    rw [SymbolTable.namesInsert]
    split
    · exact List.prefix_refl _
    · exact List.prefix_append _ _
  · exact table ▸ List.prefix_refl _

/-- The literals of a section stand in the order of their first mentions. -/
theorem Built.literalNames (built : part.Built catalog file) :
    part.literals.names = (part.entries.filterMap (·.literal?)).eraseDups := by
  have silent {statement : Statement} (reading : statement.IsRead catalog)
      (comment : statement.isComment = true) : statement.literal? = none := by
    rw [Statement.literal?, (reading.comment comment).2.1]
  induction built with
  | opened index name start comments bare =>
    have none : comments.filterMap (·.literal?) = [] := by
      rw [List.filterMap_eq_nil_iff]
      intro entry inside
      obtain ⟨comment, _, reading⟩ := bare entry inside
      exact silent reading comment
    change [] = (comments.filterMap _).eraseDups
    rw [none]
    rfl
  | @comment part statement built reading comment inductionHypothesis =>
    change part.literals.names = ((part.entries ++ [_]).filterMap _).eraseDups
    rw [List.filterMap_append, inductionHypothesis]
    simp [silent reading comment]
  | @statement part statement symbols built reading located plain bound inductionHypothesis =>
    change _ = ((part.entries ++ [_]).filterMap _).eraseDups
    rw [namesGrown, namesLiteralsWith inductionHypothesis, List.filterMap_append]
    cases literal : statement.literal? <;> simp [literal]

/-- No name in the table keeps a mark unless a literal is written with three. -/
theorem Built.unmarkedNames (built : part.Built catalog file)
    (marked : ∀ entry ∈ part.entries, entry.isOvermarked = false) :
    ∀ name ∈ part.literals.names, Unmarked name := by
  intro name held
  rw [built.memNames, List.any_eq_true] at held
  obtain ⟨entry, inside, mentions⟩ := held
  exact (built.isRead entry inside).unmarkedLiteral (marked entry inside)
    (Statement.mentionsIff.1 mentions)

/-- A pool takes all literals that wait, so that the placed ones are always the first. -/
theorem Built.placedFirst (built : part.Built catalog file)
    (unmarked : ∀ name ∈ part.literals.names, Unmarked name) :
    part.literals.placed <+: part.literals.names := by
  induction built with
  | opened index name start comments bare => exact List.prefix_refl _
  | comment built reading comment inductionHypothesis => exact inductionHypothesis unmarked
  | @statement part statement symbols built reading located plain bound inductionHypothesis =>
    rw [namesGrown] at unmarked ⊢
    have before : ∀ name ∈ part.literals.names, Unmarked name := fun name held =>
      unmarked name ((memNamesLiteralsWith _ _ _).2 (.inl held))
    have distinct := nodupLiteralsWith (built.poolsKept before).distinct statement
    have first : (part.literalsWith statement).placed <+: (part.literalsWith statement).names := by
      rw [placedLiteralsWith]
      exact (inductionHypothesis before).trans (namesPrefixLiteralsWith part statement)
    rw [placedGrown unmarked, poolAt, ← placedLiteralsWith part statement]
    -- A pool places everything that waits, and any other statement nothing.
    split
    · exact ⟨[], by rw [List.append_nil, LiteralTable.placedAppendWaiting distinct first]⟩
    · rw [List.append_nil]
      exact first

/-- The pools and the waiting literals are all literals, in order. -/
theorem Built.poolsAppendWaiting (built : part.Built catalog file)
    (unmarked : ∀ name ∈ part.literals.names, Unmarked name) :
    part.entries.flatMap (·.pool) ++ part.literals.waiting = part.literals.names := by
  have kept := built.poolsKept unmarked
  rw [← kept.placed]
  exact LiteralTable.placedAppendWaiting kept.distinct (built.placedFirst unmarked)

end Section

namespace Layout

/-- In a section without overmarked literals, a pool lists each literal that a pool follows, once,
and the literals of a pool follow each other from its location on. All pools together list the
literals in the order of their first mentions, up to those that wait. -/
theorem literalsPlacedOnce {catalog : Catalog} {file : Text} {lines : List Text}
    {layout : Layout} {part : Section}
    (laidOut : (ofLines catalog file lines).result = .ok layout)
    (member : part ∈ layout.sections)
    (marked : ∀ entry ∈ part.entries, entry.isOvermarked = false) :
    (∀ name ∈ part.literals.names,
      (part.entries.flatMap (·.pool)).count name =
        (if part.literals.isPlaced name = true then 1 else 0) ∧
      (part.literals.isPlaced name = true ↔ Entry.poolFollows name part.entries = true)) ∧
    (∀ entry ∈ part.entries, ∀ before name after, entry.pool = before ++ name :: after →
      part.literals.lookup name = entry.location + Literal.extent before) ∧
    part.entries.flatMap (·.pool) ++ part.literals.waiting = part.literals.names ∧
    part.literals.names = (part.entries.filterMap (·.literal?)).eraseDups := by
  have built := builtOfLines (Logged.valueEqSome.2 laidOut) part member
  have unmarked := built.unmarkedNames marked
  have kept := built.poolsKept unmarked
  refine ⟨?_, kept.addressed, built.poolsAppendWaiting unmarked, built.literalNames⟩
  intro name held
  have isPlaced : part.literals.isPlaced name = true ↔ name ∈ part.literals.placed :=
    LiteralTable.isPlacedIff (unmarked name held)
  have distinct : part.literals.placed.Nodup :=
    kept.distinct.sublist (built.placedFirst unmarked).sublist
  refine ⟨?_, isPlaced.trans (built.pooledIff unmarked name)⟩
  rw [← kept.placed, distinct.count]
  simp only [isPlaced]

/-- References before, between and behind two pools, one of them with a second mark. -/
def twicePooledLines : List Text :=
  ["P\tSTART\t0", "\tLDA\t=C'EOF'", "\tLDA\t==X'05'", "\tLTORG", "\tLDA\t=C'EOF'",
    "\tLDA\t=X'F1A2'", "\tLDA\t=X'F1'", "\tEND\tP", "\tLDA\t=X'07'"].map String.toList

/-- The first literal is placed once, although it is mentioned on either side of its pool; the last
one of the second pool stands behind the other; and the one behind both pools is never placed. -/
theorem twicePooledPlacement :
    ∃ layout part,
      (ofLines Catalog.standard [] twicePooledLines).result = .ok layout ∧
      part ∈ layout.sections ∧ (∀ entry ∈ part.entries, entry.isOvermarked = false) ∧
      (part.entries.flatMap (·.pool)).count "C'EOF'".toList = 1 ∧
      (part.entries.flatMap (·.pool)).count "X'07'".toList = 0 ∧
      part.literals.lookup "X'F1'".toList = 21 ∧ part.literals.names.length = 5 := by
  have evaluated : ∃ layout ∈ (ofLines Catalog.standard [] twicePooledLines).value?,
      ∃ part ∈ layout.sections, (∀ entry ∈ part.entries, entry.isOvermarked = false) ∧
        "C'EOF'".toList ∈ part.literals.names ∧ "X'07'".toList ∈ part.literals.names ∧
        Entry.poolFollows "C'EOF'".toList part.entries = true ∧
        Entry.poolFollows "X'07'".toList part.entries = false ∧
        (∃ entry ∈ part.entries, entry.location = 19 ∧
          entry.pool = ["X'F1A2'".toList] ++ "X'F1'".toList :: []) ∧
        (part.entries.filterMap (·.literal?)).eraseDups.length = 5 := by
    decide +kernel
  obtain ⟨layout, value, part, member, marked, firstHeld, lastHeld, follows, none,
    ⟨entry, inside, location, pool⟩, count⟩ := evaluated
  have laidOut := Logged.valueEqSome.1 value
  obtain ⟨placed, addresses, _, names⟩ := literalsPlacedOnce laidOut member marked
  refine ⟨layout, part, laidOut, member, marked, ?_, ?_, ?_, by rw [names, count]⟩
  · obtain ⟨once, isPlaced⟩ := placed _ firstHeld
    rw [once, if_pos (isPlaced.2 follows)]
  · obtain ⟨never, isPlaced⟩ := placed _ lastHeld
    rw [never, if_neg (by rw [isPlaced, none]; decide)]
  · rw [addresses entry inside _ _ _ pool, location]
    rfl

end Layout

end SicXe
