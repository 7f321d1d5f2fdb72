/-
This file cuts the statements of a section into runs and single statements. Each run fills one text
record as far as it goes, and the single statements have no code.
-/

import SicXe.Proofs.Assembly.RecordOrder

namespace SicXe

/-- A statement with no place in a run: a comment, one without bytes or without code, or one that
reserves storage. -/
def Entry.interrupts (entry : Entry) : Bool :=
  entry.isComment || entry.size == 0 || entry.code.isEmpty || entry.directive?.any (·.reserves)

/-- The digits of a text record. -/
def Record.code : Record → Text
  | text _ code => code
  | _ => []

/-- A run joins all that is not interrupting and fits. -/
theorem Run.acceptsIff {run : Run} {entry : Entry}
    (quiet : entry.isComment = true → entry.code = []) :
    run.accepts entry = true ↔ entry.interrupts = false ∧ run.size + entry.size ≤ 30 := by
  cases comment : entry.isComment with
  | true => simp [accepts, Entry.interrupts, comment, quiet comment]
  | false =>
    have limit : run.size + entry.size ≤ maxSize ↔ run.size + entry.size ≤ 30 := Iff.rfl
    simp [accepts, Entry.interrupts, comment, limit, and_assoc]

/-- Statements beside each other: a run, which has one text record in common, or a statement that
stands outside of runs. -/
inductive Piece where
  | run (first : Entry) (others : List Entry)
  | single (entry : Entry)

namespace Piece

def isRun : Piece → Bool
  | run .. => true
  | single _ => false

def entries : Piece → List Entry
  | run first others => first :: others
  | single entry => [entry]

def records (part : Section) : Piece → List Record
  | run first others => [.text first.location ((first :: others).flatMap (·.code))]
  | single entry => (part.isolated? entry).getD []

/-- A run has thirty bytes at most and no statement that interrupts runs, and it ends only where the
next statement interrupts it or is too much for it. A statement outside of runs has no code, and its
text record, if it has one, is that of its pool. -/
def IsGreedy (part : Section) (next : Option Entry) : Piece → Prop
  | run first others =>
    (∀ entry ∈ first :: others, entry.interrupts = false) ∧
      Entry.sizes (first :: others) ≤ 30 ∧
      ∀ entry ∈ next, entry.interrupts = true ∨ 30 < Entry.sizes (first :: others) + entry.size
  | single entry => entry.code = [] ∧ ∃ own, part.isolated? entry = some own ∧
      ∀ record ∈ own, record.tag = 'T' → entry.pool ≠ [] ∧ record = part.poolRecord entry.pool

/-- Every piece is greedy before the first statement of the pieces behind it. -/
def AllGreedy (part : Section) : List Piece → Prop
  | [] => True
  | piece :: rest => piece.IsGreedy part (rest.flatMap entries).head? ∧ AllGreedy part rest

/-- All code is in the records of runs. -/
theorem codeOfRuns {part : Section} {pieces : List Piece} (greedy : AllGreedy part pieces) :
    ((pieces.filter isRun).flatMap (records part)).flatMap Record.code =
      (pieces.flatMap entries).flatMap (·.code) := by
  induction pieces with
  | nil => rfl
  | cons piece rest inductionHypothesis =>
    have later := inductionHypothesis greedy.2
    cases piece with
    | run first others =>
      rw [List.filter_cons_of_pos rfl, List.flatMap_cons, List.flatMap_append, later,
        List.flatMap_cons, List.flatMap_append]
      congr 1
      exact List.append_nil _
    | single entry =>
      rw [List.filter_cons_of_neg (by simp [isRun]), later, List.flatMap_cons,
        List.flatMap_append]
      simp [entries, greedy.1.1]

end Piece

namespace Section

variable {part : Section} {rest : List Entry} {later : List Record} {pieces : List Piece}

/-- The pieces cover the statements in order, and the records are theirs. -/
structure Cut (part : Section) (statements : List Entry) (written : List Record)
    (pieces : List Piece) : Prop where
  covered : pieces.flatMap Piece.entries = statements
  records : written = pieces.flatMap (Piece.records part)
  greedy : Piece.AllGreedy part pieces

theorem Cut.single {entry : Entry} {own : List Record} (cut : part.Cut rest later pieces)
    (codeless : entry.code = []) (isolated : part.isolated? entry = some own) :
    part.Cut (entry :: rest) (own ++ later) (.single entry :: pieces) where
  covered := by rw [List.flatMap_cons, cut.covered]; rfl
  records := by simp [Piece.records, isolated, cut.records]
  greedy := by
    refine ⟨⟨codeless, own, isolated, ?_⟩, cut.greedy⟩
    intro record inside text
    rcases memIsolated isolated inside with rfl | ⟨_, rfl⟩ | ⟨_, rfl⟩ | pooled
    · simp [Record.tag] at text
    · simp [Record.tag] at text
    · simp [Record.tag] at text
    · exact pooled

/-- The statements of the run in progress, which are none if there is no run. -/
def InProgress (pending : Option Run) (block : List Entry) : Prop :=
  match pending with
  | none => block = []
  | some run => run.Holds block ∧ ∀ entry ∈ block, entry.interrupts = false

theorem nothingInProgress : InProgress none [] := rfl

/-- The run in progress becomes a piece if the next statement does not join it. -/
theorem Cut.close {pending : Option Run} {block : List Entry} (cut : part.Cut rest later pieces)
    (inProgress : InProgress pending block)
    (quiet : ∀ entry ∈ rest.head?, entry.isComment = true → entry.code = [])
    (refused : ∀ run ∈ pending, ∀ entry ∈ rest.head?, run.accepts entry = false) :
    ∃ all, part.Cut (block ++ rest) (closed pending ++ later) all := by
  cases pending with
  | none =>
    obtain rfl : block = [] := inProgress
    exact ⟨pieces, cut⟩
  | some run =>
    obtain ⟨holds, joined⟩ := inProgress
    cases block with
    | nil => exact absurd holds.start (by simp)
    | cons first others =>
      have start : first.location = run.start := Option.some.inj holds.start
      refine ⟨.run first others :: pieces, ?_, ?_, ⟨joined, ?_, ?_⟩, cut.greedy⟩
      · rw [List.flatMap_cons, cut.covered]
        rfl
      · rw [List.flatMap_cons, ← cut.records, Piece.records, start, ← holds.code]
        rfl
      · rw [← holds.size]
        exact holds.bounded
      · rw [cut.covered]
        intro entry next
        have stays := refused run rfl entry next
        have accepts : run.accepts entry = true ↔ _ := Run.acceptsIff (quiet entry next)
        rw [stays, holds.size] at accepts
        cases interrupts : entry.interrupts with
        | true => exact .inl rfl
        | false =>
          refine .inr (Int.not_le.1 fun fits => ?_)
          exact absurd (accepts.2 ⟨interrupts, fits⟩) (by decide)

/-- The records of statements are those of the pieces into which the statements are cut, if only
statements that join runs have code. -/
theorem cutOfEmit {pending : Option Run} {block statements : List Entry} {written : List Record}
    (inProgress : InProgress pending block)
    (coded : ∀ entry ∈ statements, entry.code ≠ [] →
      entry.isComment = false ∧ part.isolated? entry = none)
    (emitted : part.emit pending statements = .ok written) :
    ∃ pieces, part.Cut (block ++ statements) written pieces := by
  -- The block of the run in progress grows until a statement ends the run.
  induction statements generalizing pending block written with
  | nil =>
    obtain rfl := Except.ok.inj emitted
    have nothing : part.Cut [] [] [] := ⟨rfl, rfl, trivial⟩
    obtain ⟨pieces, cut⟩ := nothing.close inProgress (by simp) (by simp)
    rw [List.append_nil (closed pending)] at cut
    exact ⟨pieces, cut⟩
  | cons entry rest inductionHypothesis =>
    have quiet : entry.isComment = true → entry.code = [] := by
      intro comment
      refine not_not.1 fun written => ?_
      rw [(coded entry List.mem_cons_self written).1] at comment
      contradiction
    have joins {run : Run} (accepted : run.accepts entry = true) : entry.interrupts = false :=
      ((Run.acceptsIff quiet).1 accepted).1
    have behind {next : Option Run} {block : List Entry} {later : List Record}
        (inProgress : InProgress next block) (makes : part.emit next rest = .ok later) :
        ∃ pieces, part.Cut (block ++ rest) later pieces :=
      inductionHypothesis inProgress
        (fun other inside => coded other (List.mem_cons_of_mem _ inside)) makes
    rcases emitCases emitted with ⟨run, rfl, accepted, makes⟩ |
      ⟨refused, later, ⟨own, isolated, makes, rfl⟩ | ⟨_, accepted, makes, rfl⟩⟩
    · obtain ⟨holds, joined⟩ := inProgress
      have longer : InProgress (some (run.add entry)) (block ++ [entry]) := by
        refine ⟨holds.add accepted, ?_⟩
        intro other inside
        rcases List.mem_append.1 inside with old | new
        · exact joined other old
        · rw [List.mem_singleton.1 new]
          exact joins accepted
      obtain ⟨pieces, cut⟩ := behind longer makes
      rw [List.append_assoc] at cut
      exact ⟨pieces, cut⟩
    · have codeless : entry.code = [] := by
        refine not_not.1 fun written => ?_
        rw [(coded entry List.mem_cons_self written).2] at isolated
        contradiction
      obtain ⟨pieces, cut⟩ := behind nothingInProgress makes
      rw [List.append_assoc]
      exact (cut.single codeless isolated).close inProgress
        (by rintro _ ⟨⟩; exact quiet) (by rintro run held _ ⟨⟩; exact refused run held)
    · have first : InProgress (some ((Run.before entry).add entry)) [entry] := by
        refine ⟨Run.holdsFirst accepted, ?_⟩
        intro other inside
        rw [List.mem_singleton.1 inside]
        exact joins accepted
      obtain ⟨pieces, cut⟩ := behind first makes
      exact cut.close inProgress
        (by rintro _ ⟨⟩; exact quiet) (by rintro run held _ ⟨⟩; exact refused run held)

end Section

namespace Assembly

/-- The statements of a section are cut into pieces, and its records are those of the pieces in
order, before the modifications and the end. The text records of runs hold all code in order, and
every run is as long as it can be. -/
theorem runsAreGreedy {catalog : Catalog} {file : Text} {strict : Bool} {lines : List Text}
    {layout : Layout} {laid part : Section} {records : List Record}
    (undirected : ∀ directive : Directive, catalog.get? directive.name = none)
    (laidOut : (Layout.ofLines catalog file lines).result = .ok layout)
    (member : laid ∈ layout.sections)
    (emitted : (moduleOf ⟨catalog, file, strict⟩ laid).result = .ok (part, records)) :
    ∃ pieces : List Piece,
      pieces.flatMap Piece.entries = part.entries ∧
      records = pieces.flatMap (Piece.records part) ++ part.patchRecords ++
        [part.finishRecord catalog] ∧
      ((pieces.filter Piece.isRun).flatMap (Piece.records part)).flatMap Record.code =
        part.entries.flatMap (·.code) ∧
      Piece.AllGreedy part pieces := by
  have origin := originOfModule (Logged.valueEqSome.2 laidOut) member
    (Logged.valueEqSome.2 emitted)
  obtain ⟨emission, emits, rfl⟩ := Section.recordsCases origin.emitted
  have coded : ∀ entry ∈ part.entries, entry.code ≠ [] →
      entry.isComment = false ∧ part.isolated? entry = none := by
    intro entry inside written
    obtain ⟨plain, data⟩ := Entry.dataOfCode undirected (origin.codeOf inside) written
    refine ⟨plain, ?_⟩
    rcases data with none | byte | word <;> simp [Section.isolated?, *]
  obtain ⟨pieces, cut⟩ := Section.cutOfEmit Section.nothingInProgress coded emits
  have covered : pieces.flatMap Piece.entries = part.entries := cut.covered
  refine ⟨pieces, covered, ?_, ?_, cut.greedy⟩
  · rw [← cut.records]
  · rw [Piece.codeOfRuns cut.greedy, covered]

/-- More instructions than one record holds, reserved storage, a remark, a constant, and a pool. -/
def manyRunsLines : List Text :=
  ("P\tSTART\t0" :: List.replicate 11 "\tLDA\t=X'F1'" ++
    ["\tRESB\t1", ". remark", "\tBYTE\tX'AB'", "\tEND\tP"]).map String.toList

/-- The runs hold the thirty-four bytes of the statements, and the pool is in none of them. -/
theorem manyRunsAreGreedy :
    ∃ layout laid part records pieces,
      (Layout.ofLines Catalog.standard [] manyRunsLines).result = .ok layout ∧
      laid ∈ layout.sections ∧
      (moduleOf ⟨Catalog.standard, [], true⟩ laid).result = .ok (part, records) ∧
      pieces.flatMap Piece.entries = part.entries ∧ Piece.AllGreedy part pieces ∧
      (((pieces.filter Piece.isRun).flatMap (Piece.records part)).flatMap Record.code).length =
        68 := by
  have undirected : ∀ directive : Directive, Catalog.standard.get? directive.name = none := by
    intro directive
    cases directive <;> decide
  have evaluated : ∃ layout ∈ (Layout.ofLines Catalog.standard [] manyRunsLines).value?,
      ∃ laid ∈ layout.sections,
        ∃ pair ∈ (moduleOf ⟨Catalog.standard, [], true⟩ laid).value?,
          (pair.1.entries.flatMap (·.code)).length = 68 := by
    decide +kernel
  obtain ⟨layout, laidValue, laid, member, ⟨part, records⟩, moduleValue, length⟩ := evaluated
  have laidOut := Logged.valueEqSome.1 laidValue
  have emitted := Logged.valueEqSome.1 moduleValue
  obtain ⟨pieces, covered, _, codes, greedy⟩ := runsAreGreedy undirected laidOut member emitted
  refine ⟨layout, laid, part, records, pieces, laidOut, member, emitted, covered, greedy, ?_⟩
  rw [codes]
  exact length

end Assembly

end SicXe
