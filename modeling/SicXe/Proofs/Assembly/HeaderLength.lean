/-
This file compares the length in the header of a section with its location counter: they differ by
the literals that no pool holds.
-/

import SicXe.Catalog.Standard
import SicXe.Proofs.Assembly.Sections
import SicXe.Proofs.Module.Emission
import SicXe.Proofs.Section.Placement

namespace SicXe

namespace Entry

/-- What a section spans is the bytes of its statements and those of its pools. -/
theorem spansEq (entries : List Entry) :
    spans entries = sizes entries + Literal.extent (entries.flatMap (·.pool)) := by
  induction entries with
  | nil => rfl
  | cons entry rest inductionHypothesis =>
    rw [spansCons, sizesCons, List.flatMap_cons, Literal.extentAppend, inductionHypothesis, span]
    omega

/-- A pool follows the first mention of a literal if one follows every mention. -/
theorem poolFollowsOfEach {name : Text} {entries : List Entry}
    (mentioned : entries.any (·.mentions name) = true)
    (followed : ∀ earlier entry later, entries = earlier ++ entry :: later →
      entry.mentions name = true → (entry :: later).any (·.placesLiterals) = true) :
    poolFollows name entries = true := by
  unfold poolFollows
  induction entries with
  | nil => contradiction
  | cons first rest inductionHypothesis =>
    cases mentions : first.mentions name with
    | true =>
      rw [List.dropWhile_cons, mentions]
      exact followed [] first rest rfl mentions
    | false =>
      rw [List.any_cons, mentions, Bool.false_or] at mentioned
      rw [List.dropWhile_cons, mentions]
      refine inductionHypothesis mentioned ?_
      intro earlier entry later shape
      exact followed (first :: earlier) entry later (by rw [shape]; rfl)

end Entry

namespace Section

variable {catalog : Catalog} {file : Text} {part : Section}

/-- The length counts every literal, and the counter only those in pools. -/
theorem Built.lengthEq (built : part.Built catalog file)
    (unmarked : ∀ name ∈ part.literals.names, Unmarked name) :
    part.length = part.counter - part.start + Literal.extent part.literals.waiting := by
  have counter := built.located.2
  rw [Entry.spansEq] at counter
  have literals : Literal.extent part.literals.names =
      Literal.extent (part.entries.flatMap (·.pool)) + Literal.extent part.literals.waiting := by
    rw [← built.poolsAppendWaiting unmarked, Literal.extentAppend]
  change Entry.sizes part.entries + (Literal.extent part.literals.names : Int) = _
  omega

/-- No literal waits if a pool follows each statement that mentions one. -/
theorem Built.waitingEqNil (built : part.Built catalog file)
    (unmarked : ∀ name ∈ part.literals.names, Unmarked name)
    (followed : ∀ earlier entry later, part.entries = earlier ++ entry :: later →
      entry.literal?.isSome = true → (entry :: later).any (·.placesLiterals) = true) :
    part.literals.waiting = [] := by
  rw [LiteralTable.waiting, List.filter_eq_nil_iff]
  intro name held
  have follows : Entry.poolFollows name part.entries = true := by
    apply Entry.poolFollowsOfEach ((built.memNames name).1 held)
    intro earlier entry later shape mentions
    exact followed earlier entry later shape (by rw [Statement.mentionsIff.1 mentions]; rfl)
  simpa using (built.pooledIff unmarked name).2 follows

end Section

namespace Assembly.Origin

variable {encoder : Encoder} {laid part : Section} {records : List Record}

theorem unmarkedNames (origin : Origin encoder laid part records)
    (marked : ∀ entry ∈ part.entries, entry.isOvermarked = false) :
    ∀ name ∈ laid.literals.names, Unmarked name := by
  apply origin.built.unmarkedNames
  intro entry inside
  apply marked (encoder.coded laid entry)
  rw [origin.shape]
  exact List.mem_map_of_mem inside

/-- The code of the entries changes neither their sizes nor the literals. -/
theorem length (origin : Origin encoder laid part records) : part.length = laid.length := by
  have sizes (entries : List Entry) :
      Entry.sizes (entries.map (encoder.coded laid)) = Entry.sizes entries := by
    induction entries with
    | nil => rfl
    | cons entry rest inductionHypothesis =>
      rw [List.map_cons, Entry.sizesCons, Entry.sizesCons, inductionHypothesis]
      rfl
  rw [origin.shape]
  exact congrArg (· + (laid.literals.poolSize : Int)) (sizes laid.entries)

theorem waitingEqNil (origin : Origin encoder laid part records)
    (unmarked : ∀ name ∈ laid.literals.names, Unmarked name)
    (followed : ∀ earlier entry later, part.entries = earlier ++ entry :: later →
      entry.literal?.isSome = true → (entry :: later).any (·.placesLiterals) = true) :
    part.literals.waiting = [] := by
  rw [origin.literals]
  apply origin.built.waitingEqNil unmarked
  intro earlier entry later cut mentions
  have shape : part.entries = earlier.map (encoder.coded laid) ++
      encoder.coded laid entry :: later.map (encoder.coded laid) := by
    rw [origin.shape, cut]
    simp
  have coded := followed _ _ _ shape mentions
  rwa [← List.map_cons, List.any_map] at coded

end Assembly.Origin

namespace Assembly

/-- The header of a section without overmarked literals names its start, and its length is what the
counter has moved and the bytes of the literals that were never placed. It is what the counter has
moved alone if a pool stands at or behind each statement with a literal. -/
theorem headerLengthFollowsCounter {settings : Settings} {file : Text} {lines : List Text}
    {assembly : Assembly} {part : Section} {records : List Record} {name : Text}
    {start length : Int} (assembled : (ofLines settings file lines).result = .ok assembly)
    (emitted : (part, records) ∈ assembly.sections.zip assembly.modules)
    (marked : ∀ entry ∈ part.entries, entry.isOvermarked = false)
    (header : .header name start length ∈ records) :
    start = part.start ∧
    length = part.counter - part.start + Literal.extent part.literals.waiting ∧
    ((∀ earlier entry later, part.entries = earlier ++ entry :: later →
        entry.literal?.isSome = true → (entry :: later).any (·.placesLiterals) = true) →
      length = part.counter - part.start) := by
  obtain ⟨_, laid, _, _, origin⟩ := Assembly.origin assembled emitted
  obtain ⟨rfl, rfl⟩ := Section.headerOfRecords origin.emitted header
  have unmarked := origin.unmarkedNames marked
  have total : part.length =
      part.counter - part.start + Literal.extent part.literals.waiting := by
    rw [origin.length, origin.built.lengthEq unmarked, origin.shape]
  refine ⟨rfl, total, ?_⟩
  intro followed
  rw [total, origin.waitingEqNil unmarked followed]
  exact Int.add_zero _

/-- A section whose second literal has no pool, and one whose only literal has. -/
def unplacedLines : List Text :=
  ["P\tSTART\t256", "\tLDA\t=C'EOF'", "\tLTORG", "\tLDA\t=X'05'", "Q\tCSECT", "\tLDA\t=X'F1'",
    "\tEND\tP"].map String.toList

/-- The first header counts a byte more than its counter has moved, and the second as many. -/
theorem unplacedHeaders :
    ∃ assembly first firstRecords second secondRecords,
      (ofLines ⟨Catalog.standard, true, false⟩ [] unplacedLines).result = .ok assembly ∧
      (first, firstRecords) ∈ assembly.sections.zip assembly.modules ∧
      (second, secondRecords) ∈ assembly.sections.zip assembly.modules ∧
      .header ['P'] 256 10 ∈ firstRecords ∧ Literal.extent first.literals.waiting = 1 ∧
      .header ['Q'] 0 4 ∈ secondRecords ∧ second.counter = 4 := by
  have evaluated : ∃ assembly ∈
      (ofLines ⟨Catalog.standard, true, false⟩ [] unplacedLines).value?,
      (∃ pair ∈ assembly.sections.zip assembly.modules,
        (∀ entry ∈ pair.1.entries, entry.isOvermarked = false) ∧
        .header ['P'] 256 10 ∈ pair.2 ∧ pair.1.counter = 265) ∧
      ∃ pair ∈ assembly.sections.zip assembly.modules,
        (∀ entry ∈ pair.1.entries, entry.isOvermarked = false) ∧ .header ['Q'] 0 4 ∈ pair.2 ∧
        ∃ entry ∈ pair.1.entries.getLast?, entry.placesLiterals = true := by
    decide +kernel
  obtain ⟨assembly, value, ⟨⟨first, firstRecords⟩, firstEmitted, firstMarked, firstHeader, moved⟩,
    ⟨second, secondRecords⟩, secondEmitted, secondMarked, secondHeader, last, isLast, places⟩ :=
    evaluated
  have assembled := Logged.valueEqSome.1 value
  obtain ⟨firstStart, firstLength, _⟩ :=
    headerLengthFollowsCounter assembled firstEmitted firstMarked firstHeader
  obtain ⟨secondStart, _, secondLength⟩ :=
    headerLengthFollowsCounter assembled secondEmitted secondMarked secondHeader
  refine ⟨assembly, first, firstRecords, second, secondRecords, assembled, firstEmitted,
    secondEmitted, firstHeader, ?_, secondHeader, ?_⟩
  · change first.counter = 265 at moved
    omega
  · have followed : ∀ earlier entry later, second.entries = earlier ++ entry :: later →
        entry.literal?.isSome = true → (entry :: later).any (·.placesLiterals) = true := by
      intro earlier entry later shape _
      have final : last ∈ (entry :: later).getLast? := by
        simpa [shape] using isLast
      exact List.any_eq_true.2 ⟨last, List.mem_of_getLast? final, places⟩
    have moves := secondLength followed
    omega

end Assembly

end SicXe
