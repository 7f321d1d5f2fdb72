/-
This file holds the invariant of the literal pools: the literals of a pool follow each other from
the location of their statement on, and a literal without a pool has the address zero.
-/

import SicXe.Proofs.Section.Location
import SicXe.Proofs.Section.Tables

namespace SicXe

/-- The operand of the statement is the literal that is kept under the name. -/
def Statement.mentions (statement : Statement) (name : Text) : Bool :=
  match statement.operand with
  | some ⟨_, .literal written⟩ => withoutMark written == name
  | _ => false

namespace Entry

/-- A statement that places literals stands at or behind the first mention of the literal. -/
def poolFollows (name : Text) (entries : List Entry) : Bool :=
  (entries.dropWhile (!·.mentions name)).any (·.placesLiterals)

theorem poolFollowsOfNone {name : Text} {entries : List Entry}
    (none : ∀ entry ∈ entries, entry.placesLiterals = false) :
    poolFollows name entries = false := by
  rw [poolFollows, List.any_eq_false]
  intro entry inside
  simp [none entry ((List.dropWhile_sublist _).mem inside)]

/-- One more entry places the literal if it places literals and the literal is mentioned. -/
theorem poolFollowsSnoc (name : Text) (entries : List Entry) (entry : Entry) :
    poolFollows name (entries ++ [entry]) =
      (poolFollows name entries ||
        entry.placesLiterals && (entries ++ [entry]).any (·.mentions name)) := by
  unfold poolFollows
  induction entries with
  | nil => cases mentions : entry.mentions name <;> simp [mentions]
  | cons first rest inductionHypothesis =>
    cases mentions : first.mentions name with
    | true => simp [mentions, Bool.or_assoc]
    | false =>
      simp only [List.cons_append, List.dropWhile_cons, mentions, Bool.not_false, if_true,
        List.any_cons, Bool.false_or]
      exact inductionHypothesis

end Entry

namespace Section

variable {catalog : Catalog} {file : Text} {part : Section} {statement : Statement}
  {symbols : SymbolTable}

/-- The pools of a section, its placed literals and their addresses fit together. -/
structure PoolsKept (part : Section) : Prop where
  distinct : part.literals.names.Nodup
  placed : part.literals.placed = part.entries.flatMap (·.pool)
  held : ∀ name ∈ part.literals.placed, name ∈ part.literals.names
  addressed : ∀ entry ∈ part.entries, ∀ before name after, entry.pool = before ++ name :: after →
    part.literals.lookup name = entry.location + Literal.extent before
  waiting : ∀ name ∈ part.literals.names, name ∉ part.literals.placed →
    part.literals.lookup name = 0

theorem PoolsKept.heldOfPool (kept : part.PoolsKept) {entry : Entry} {name : Text}
    (inside : entry ∈ part.entries) (listed : name ∈ entry.pool) :
    name ∈ part.literals.names := by
  apply kept.held
  rw [kept.placed]
  exact List.mem_flatMap.2 ⟨entry, inside, listed⟩

/-- A statement mentions one literal, which enters the table, or none. -/
theorem literalsWithCases (part : Section) (statement : Statement) :
    (∃ written, part.literalsWith statement = part.literals.mention written ∧
      ∀ name, statement.mentions name = true ↔ name = withoutMark written) ∨
    (part.literalsWith statement = part.literals ∧
      ∀ name, statement.mentions name = false) := by
  unfold literalsWith Statement.mentions
  cases statement.operand with
  | none => exact .inr ⟨rfl, fun _ => rfl⟩
  | some operand =>
    obtain ⟨text, form⟩ := operand
    cases form with
    | literal written =>
      refine .inl ⟨written, rfl, fun name => ?_⟩
      rw [beq_iff_eq]
      exact eq_comm
    | _ => exact .inr ⟨rfl, fun _ => rfl⟩

theorem placedLiteralsWith (part : Section) (statement : Statement) :
    (part.literalsWith statement).placed = part.literals.placed := by
  rcases literalsWithCases part statement with ⟨written, table, _⟩ | ⟨table, _⟩ <;> rw [table]
  rfl

theorem memNamesLiteralsWith (part : Section) (statement : Statement) (name : Text) :
    name ∈ (part.literalsWith statement).names ↔
      name ∈ part.literals.names ∨ statement.mentions name = true := by
  rcases literalsWithCases part statement with ⟨written, table, mentions⟩ | ⟨table, mentions⟩
  · rw [table, LiteralTable.memNamesMention, mentions]
  · simp [table, mentions]

theorem nodupLiteralsWith (distinct : part.literals.names.Nodup) (statement : Statement) :
    (part.literalsWith statement).names.Nodup := by
  rcases literalsWithCases part statement with ⟨written, table, _⟩ | ⟨table, _⟩ <;> rw [table]
  · exact SymbolTable.nodupInsert distinct _ _
  · exact distinct

theorem lookupLiteralsWithOfMem {name : Text} (held : name ∈ part.literals.names)
    (statement : Statement) :
    (part.literalsWith statement).lookup name = part.literals.lookup name := by
  rcases literalsWithCases part statement with ⟨written, table, _⟩ | ⟨table, _⟩ <;> rw [table]
  exact SymbolTable.lookupInsertOfMem held _ _

/-- A literal that is mentioned for the first time has the address zero. -/
theorem lookupLiteralsWithOfNotMem {name : Text}
    (held : name ∈ (part.literalsWith statement).names) (fresh : name ∉ part.literals.names) :
    (part.literalsWith statement).lookup name = 0 := by
  have mentioned := ((memNamesLiteralsWith part statement name).1 held).resolve_left fresh
  rcases literalsWithCases part statement with ⟨written, table, mentions⟩ | ⟨table, mentions⟩
  · obtain rfl := (mentions name).1 mentioned
    rw [table]
    exact SymbolTable.lookupInsertOfNotMem fresh 0
  · rw [mentions] at mentioned
    contradiction

theorem namesGrown (part : Section) (statement : Statement) (symbols : SymbolTable) :
    (part.grown statement symbols).literals.names = (part.literalsWith statement).names :=
  LiteralTable.namesPlaceFrom _ _ _

theorem memPoolAt {name : Text} :
    name ∈ part.poolAt statement ↔ statement.placesLiterals = true ∧
      name ∈ (part.literalsWith statement).names ∧ name ∉ part.literals.placed := by
  unfold poolAt
  split
  · next places => simp [LiteralTable.waiting, placedLiteralsWith, places]
  · next keeps => simp [keeps]

theorem nodupPoolAt (distinct : part.literals.names.Nodup) (statement : Statement) :
    (part.poolAt statement).Nodup := by
  unfold poolAt
  split
  · exact List.Nodup.sublist List.filter_sublist (nodupLiteralsWith distinct statement)
  · exact List.nodup_nil

theorem placedGrown (unmarked : ∀ name ∈ (part.literalsWith statement).names, Unmarked name) :
    (part.grown statement symbols).literals.placed =
      part.literals.placed ++ part.poolAt statement := by
  change (LiteralTable.placeFrom _ _ _).placed = _
  rw [LiteralTable.placedPlaceFrom _ _ fun name inside => unmarked name (memPoolAt.1 inside).2.1,
    placedLiteralsWith]

/-- A pool holds only literals that waited, so that the pools before it keep their addresses. -/
theorem PoolsKept.grown (kept : part.PoolsKept) (located : statement.location = part.counter)
    (unmarked : ∀ name ∈ (part.grown statement symbols).literals.names, Unmarked name) :
    (part.grown statement symbols).PoolsKept := by
  rw [namesGrown] at unmarked
  have poolUnmarked : ∀ name ∈ part.poolAt statement, Unmarked name := fun name inside =>
    unmarked name (memPoolAt.1 inside).2.1
  have placed : (part.grown statement symbols).literals.placed =
      part.literals.placed ++ part.poolAt statement := placedGrown unmarked
  refine ⟨?_, ?_, ?_, ?_, ?_⟩
  · rw [namesGrown]
    exact nodupLiteralsWith kept.distinct statement
  · rw [placed, kept.placed]
    change _ = (part.entries ++ [_]).flatMap _
    simp
  · intro name inside
    rw [namesGrown]
    rw [placed] at inside
    rcases List.mem_append.1 inside with old | new
    · exact (memNamesLiteralsWith _ _ _).2 (.inl (kept.held name old))
    · exact (memPoolAt.1 new).2.1
  · intro entry inside before name after shape
    change (LiteralTable.placeFrom _ part.counter (part.poolAt statement)).lookup name = _
    rcases List.mem_append.1 inside with old | new
    -- What is placed once never waits again, so this pool leaves the address alone.
    · have pooled : name ∈ entry.pool := by rw [shape]; simp
      have wasPlaced : name ∈ part.literals.placed := by
        rw [kept.placed]
        exact List.mem_flatMap.2 ⟨entry, old, pooled⟩
      rw [LiteralTable.lookupPlaceFromOfNotMem _ _ poolUnmarked
        (fun again => (memPoolAt.1 again).2.2 wasPlaced),
        lookupLiteralsWithOfMem (kept.held name wasPlaced)]
      exact kept.addressed entry old before name after shape
    · obtain rfl := List.mem_singleton.1 new
      change part.poolAt statement = before ++ name :: after at shape
      have inPool : name ∈ part.poolAt statement := by rw [shape]; simp
      have distinct := nodupPoolAt kept.distinct statement
      rw [shape] at poolUnmarked distinct ⊢
      rw [LiteralTable.lookupPlaceFromOfMem _ _ poolUnmarked distinct (memPoolAt.1 inPool).2.1]
      change part.counter + _ = statement.location + _
      rw [located]
  · intro name held waits
    rw [namesGrown] at held
    rw [placed, List.mem_append, not_or] at waits
    change (LiteralTable.placeFrom _ part.counter (part.poolAt statement)).lookup name = _
    rw [LiteralTable.lookupPlaceFromOfNotMem _ _ poolUnmarked waits.2]
    by_cases old : name ∈ part.literals.names
    · rw [lookupLiteralsWithOfMem old]
      exact kept.waiting name old waits.1
    · exact lookupLiteralsWithOfNotMem held old

theorem Built.poolsKept (built : part.Built catalog file)
    (unmarked : ∀ name ∈ part.literals.names, Unmarked name) : part.PoolsKept := by
  induction built with
  | opened index name start comments bare =>
    have noPools : comments.flatMap (·.pool) = [] := by
      rw [List.flatMap_eq_nil_iff]
      intro entry inside
      exact (bare entry inside).2.1
    refine ⟨List.nodup_nil, noPools.symm, by simp [Section.opened], ?_, ?_⟩
    · intro entry inside before name after shape
      rw [(bare entry inside).2.1] at shape
      simp at shape
    · intro name held
      simp [Section.opened, LiteralTable.names, Table.names] at held
  | comment built reading comment inductionHypothesis =>
    have kept := inductionHypothesis unmarked
    refine ⟨kept.distinct, ?_, kept.held, ?_, kept.waiting⟩
    · change _ = (_ ++ [_]).flatMap _
      rw [List.flatMap_append, ← kept.placed]
      simp [append]
    · intro entry inside before name after shape
      rcases List.mem_append.1 inside with old | new
      · exact kept.addressed entry old before name after shape
      · rw [List.mem_singleton.1 new] at shape
        simp at shape
  | statement built reading located plain bound inductionHypothesis =>
    refine (inductionHypothesis ?_).grown located unmarked
    intro name held
    apply unmarked
    rw [namesGrown]
    exact (memNamesLiteralsWith _ _ _).2 (.inl held)

/-- The literals of a section are those that its entries mention. -/
theorem Built.memNames (built : part.Built catalog file) (name : Text) :
    name ∈ part.literals.names ↔ part.entries.any (·.mentions name) = true := by
  induction built with
  | opened index title start comments bare =>
    have silent : comments.any (·.mentions name) = false := by
      rw [List.any_eq_false]
      intro entry inside
      obtain ⟨comment, _, reading⟩ := bare entry inside
      simp [Statement.mentions, (reading.comment comment).2.1]
    change name ∈ [] ↔ comments.any _ = true
    simp [silent]
  | comment built reading comment inductionHypothesis =>
    change _ ↔ (_ ++ [_]).any _ = true
    rw [List.any_append, Bool.or_eq_true, ← inductionHypothesis]
    simp [Statement.mentions, (reading.comment comment).2.1, append]
  | statement built reading located plain bound inductionHypothesis =>
    rw [namesGrown, memNamesLiteralsWith, inductionHypothesis]
    simp [grown]

/-- A literal has its place in a pool if its first mention is no later than the last pool. -/
theorem Built.pooledIff (built : part.Built catalog file)
    (unmarked : ∀ name ∈ part.literals.names, Unmarked name) (name : Text) :
    name ∈ part.literals.placed ↔ Entry.poolFollows name part.entries = true := by
  induction built with
  | opened index title start comments bare =>
    have none : Entry.poolFollows name comments = false := by
      apply Entry.poolFollowsOfNone
      intro entry inside
      obtain ⟨comment, _, reading⟩ := bare entry inside
      simp [Statement.placesLiterals, reading.commentDirective comment]
    change name ∈ [] ↔ Entry.poolFollows name comments = true
    simp [none]
  | comment built reading comment inductionHypothesis =>
    change _ ↔ Entry.poolFollows name (_ ++ [_]) = true
    rw [Entry.poolFollowsSnoc, Bool.or_eq_true, ← inductionHypothesis unmarked]
    simp [Statement.placesLiterals, reading.commentDirective comment, append]
  | @statement part statement symbols built reading located plain bound inductionHypothesis =>
    rw [namesGrown] at unmarked
    have before : ∀ other ∈ part.literals.names, Unmarked other := fun other held =>
      unmarked other ((memNamesLiteralsWith _ _ _).2 (.inl held))
    have placed : (part.grown statement symbols).literals.placed =
        part.literals.placed ++ part.poolAt statement := placedGrown unmarked
    change _ ↔ Entry.poolFollows name (part.entries ++ [_]) = true
    rw [placed, List.mem_append, memPoolAt, memNamesLiteralsWith, built.memNames,
      Entry.poolFollowsSnoc, Bool.or_eq_true, ← inductionHypothesis before]
    by_cases held : name ∈ part.literals.placed <;> simp [held]

end Section

end SicXe
