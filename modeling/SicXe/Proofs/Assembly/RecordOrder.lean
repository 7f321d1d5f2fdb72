/-
This file compares the order of the records of a section with the documented one: header,
definitions, references, texts, modifications, end. The records before the modifications keep the
order of their statements, whatever that is.
-/

import SicXe.Catalog.Standard
import SicXe.Proofs.Assembly.Sections
import SicXe.Proofs.Code.Width
import SicXe.Proofs.Layout.Lines
import SicXe.Proofs.Module.Emission

namespace SicXe

namespace Record

/-- Text records that follow each other are taken for one. -/
def joinTexts (tags : List Char) : List Char :=
  tags.foldr (fun tag joined =>
    if tag = 'T' ∧ joined.head? = some 'T' then joined else tag :: joined) []

/-- One header stands before the definitions, these before the references, and these before the
texts. -/
def FrontInOrder (tags : List Char) : Prop :=
  ∃ defines refers texts, tags = 'H' :: (List.replicate defines 'D' ++
    (List.replicate refers 'R' ++ List.replicate texts 'T'))

/-- The documented order: the modifications follow the texts, and one end is the last record. -/
def InOrder (records : List Record) : Prop :=
  ∃ front modifications, FrontInOrder front ∧
    records.map tag = front ++ List.replicate modifications 'M' ++ ['E']

theorem joinTextsCons (tag : Char) (rest : List Char) :
    joinTexts (tag :: rest) =
      if tag = 'T' ∧ (joinTexts rest).head? = some 'T' then joinTexts rest
      else tag :: joinTexts rest := rfl

theorem joinTextsOther {tag : Char} (other : tag ≠ 'T') (rest : List Char) :
    joinTexts (tag :: rest) = tag :: joinTexts rest := by
  rw [joinTextsCons, if_neg fun both => other both.1]

theorem joinTextsHead (tags : List Char) : (joinTexts tags).head? = tags.head? := by
  cases tags with
  | nil => rfl
  | cons tag rest =>
    rw [joinTextsCons]
    split
    · next both => rw [both.2, both.1, List.head?_cons]
    · rfl

theorem joinTextsTwice (rest : List Char) :
    joinTexts ('T' :: 'T' :: rest) = joinTexts ('T' :: rest) := by
  rw [joinTextsCons, if_pos ⟨rfl, joinTextsHead _⟩]

theorem joinTextsEqNil {tags : List Char} : joinTexts tags = [] ↔ tags = [] := by
  rw [← List.head?_eq_none_iff, joinTextsHead, List.head?_eq_none_iff]

/-- What stands before two lists does not tell them apart. -/
theorem joinTextsAppend {first second : List Char} (same : joinTexts first = joinTexts second)
    (front : List Char) : joinTexts (front ++ first) = joinTexts (front ++ second) := by
  unfold joinTexts at same ⊢
  rw [List.foldr_append, List.foldr_append, same]

theorem joinTextsDropWhile (letter : Char) (tags : List Char) :
    (joinTexts tags).dropWhile (· == letter) = joinTexts (tags.dropWhile (· == letter)) := by
  induction tags with
  | nil => rfl
  | cons tag rest inductionHypothesis =>
    by_cases dropped : tag = letter
    · rw [List.dropWhile_cons_of_pos (by simpa using dropped), ← inductionHypothesis,
        joinTextsCons]
      split
      · rfl
      · exact List.dropWhile_cons_of_pos (by simpa using dropped)
    · rw [List.dropWhile_cons_of_neg (by simpa using dropped)]
      have head : (joinTexts (tag :: rest)).head? = some tag := joinTextsHead _
      cases joined : joinTexts (tag :: rest) with
      | nil => rfl
      | cons first others =>
        rw [joined] at head
        obtain rfl := Option.some.inj head
        exact List.dropWhile_cons_of_neg (by simpa using dropped)

/-- What is left behind blocks of definitions, references and texts. -/
def behindBlocks (tags : List Char) : List Char :=
  ((tags.dropWhile (· == 'D')).dropWhile (· == 'R')).dropWhile (· == 'T')

theorem behindBlocksEqNil {tags : List Char} :
    behindBlocks tags = [] ↔ ∃ defines refers texts, tags = List.replicate defines 'D' ++
      (List.replicate refers 'R' ++ List.replicate texts 'T') := by
  have block (letter : Char) (tags : List Char) :
      ∃ count, tags = List.replicate count letter ++ tags.dropWhile (· == letter) := by
    refine ⟨(tags.takeWhile (· == letter)).length, ?_⟩
    have same : tags.takeWhile (· == letter) =
        List.replicate (tags.takeWhile (· == letter)).length letter := by
      apply List.eq_replicate_of_mem
      intro other inside
      simpa using List.all_eq_true.1 List.all_takeWhile other inside
    rw [← same, List.takeWhile_append_dropWhile]
  constructor
  · intro nothing
    obtain ⟨defines, first⟩ := block 'D' tags
    obtain ⟨refers, second⟩ := block 'R' (tags.dropWhile (· == 'D'))
    obtain ⟨texts, third⟩ := block 'T' ((tags.dropWhile (· == 'D')).dropWhile (· == 'R'))
    unfold behindBlocks at nothing
    rw [nothing, List.append_nil] at third
    rw [third] at second
    rw [second] at first
    exact ⟨defines, refers, texts, first⟩
  · rintro ⟨defines, refers, texts, rfl⟩
    cases refers <;> simp [behindBlocks, List.dropWhile_append]

theorem frontInOrderCons (rest : List Char) :
    FrontInOrder ('H' :: rest) ↔ behindBlocks rest = [] := by
  simp only [FrontInOrder, List.cons.injEq, true_and, behindBlocksEqNil]

/-- The order does not depend on how texts beside each other are cut. -/
theorem frontInOrderOfJoined {first second : List Char}
    (same : joinTexts ('H' :: first) = joinTexts ('H' :: second)) :
    FrontInOrder ('H' :: first) ↔ FrontInOrder ('H' :: second) := by
  rw [joinTextsOther (by decide), joinTextsOther (by decide)] at same
  have joined : joinTexts (behindBlocks first) = joinTexts (behindBlocks second) := by
    simp only [behindBlocks, ← joinTextsDropWhile, (List.cons.inj same).2]
  rw [frontInOrderCons, frontInOrderCons, ← joinTextsEqNil, joined, joinTextsEqNil]

/-- Modifications behind a front without any tell where the front ends. -/
theorem frontUnique {first second : List Char} {count other : Nat} (unmodified : 'M' ∉ first)
    (alsoUnmodified : 'M' ∉ second)
    (same : first ++ List.replicate count 'M' = second ++ List.replicate other 'M') :
    first = second := by
  have kept {tags : List Char} (absent : 'M' ∉ tags) : tags.filter (· != 'M') = tags := by
    rw [List.filter_eq_self]
    intro tag inside
    exact bne_iff_ne.2 fun modification => absent (modification ▸ inside)
  have filtered := congrArg (List.filter (· != 'M')) same
  simpa [kept unmodified, kept alsoUnmodified] using filtered

instance (tags : List Char) : Decidable (FrontInOrder tags) :=
  decidable_of_iff (tags.head? = some 'H' ∧ behindBlocks tags.tail = []) (by
    cases tags with
    | nil => simp [FrontInOrder]
    | cons tag rest =>
      by_cases header : tag = 'H'
      · subst header
        simp [frontInOrderCons]
      · simp [FrontInOrder, header])

end Record

namespace Entry

/-- The tag of the record that a statement begins or takes part in. -/
def tag? (entry : Entry) : Option Char :=
  if entry.isComment then none
  else match entry.directive? with
    | some .start | some .csect => some 'H'
    | some .extdef => some 'D'
    | some .extref => some 'R'
    | some .ltorg | some .finish => if entry.pool.isEmpty then none else some 'T'
    | _ => if entry.code.isEmpty then none else some 'T'

/-- One statement asks for a header, and behind it all `EXTDEF` come before all `EXTREF`, and these
before all code. -/
def InOrder (entries : List Entry) : Prop :=
  Record.FrontInOrder (entries.filterMap tag?)

instance (entries : List Entry) : Decidable (InOrder entries) :=
  inferInstanceAs (Decidable (Record.FrontInOrder _))

theorem tagOfOpens {entry : Entry} (opens : entry.opens = true) : entry.tag? = some 'H' := by
  simp only [Statement.opens, Bool.and_eq_true, Bool.not_eq_true'] at opens
  obtain ⟨⟨plain, _⟩, directive⟩ := opens
  rw [tag?, plain]
  cases found : entry.directive? with
  | none => simp [found] at directive
  | some directive => cases directive <;> simp_all [Directive.opensSection]

/-- Only instructions and data have code, if no instruction has the name of a directive. -/
theorem dataOfCode {encoder : Encoder} {part : Section} {entry : Entry}
    (undirected : ∀ directive : Directive, encoder.catalog.get? directive.name = none)
    (coded : (encoder.code part entry.toStatement).value? = some entry.code)
    (written : entry.code ≠ []) :
    entry.isComment = false ∧ (entry.directive? = none ∨ entry.directive? = some .byte ∨
      entry.directive? = some .word) := by
  obtain ⟨plain, _, cases⟩ := Encoder.codeCases coded written
  refine ⟨plain, ?_⟩
  rcases cases with ⟨instruction, known, _⟩ | ⟨_, ⟨byte, _⟩ | ⟨word, _⟩⟩
  · refine .inl (Option.eq_none_iff_forall_ne_some.2 ?_)
    intro directive found
    rw [← Directive.nameOfName found, undirected] at known
    contradiction
  · exact .inr (.inl byte)
  · exact .inr (.inr word)

/-- Object code makes text records, if no instruction has the name of a directive. -/
theorem tagOfCode {encoder : Encoder} {part : Section} {entry : Entry}
    (undirected : ∀ directive : Directive, encoder.catalog.get? directive.name = none)
    (coded : (encoder.code part entry.toStatement).value? = some entry.code)
    (written : entry.code ≠ []) : entry.tag? = some 'T' := by
  obtain ⟨plain, data⟩ := dataOfCode undirected coded written
  rcases data with none | byte | word <;> simp [tag?, *]

end Entry

namespace Section

variable {part : Section}

theorem isolatedTags {entry : Entry} {own : List Record}
    (isolated : part.isolated? entry = some own) : own.map Record.tag = entry.tag?.toList := by
  have pooled : (if entry.pool.isEmpty then [] else [part.poolRecord entry.pool]).map Record.tag =
      (if entry.pool.isEmpty then none else some 'T').toList := by
    cases entry.pool.isEmpty <;> rfl
  have data (isolated : (if entry.code.isEmpty then some [] else none) = some own) :
      own.map Record.tag = (if entry.code.isEmpty then none else some 'T').toList := by
    split at isolated
    · next empty =>
      obtain rfl := Option.some.inj isolated
      rw [if_pos empty]
      rfl
    · contradiction
  unfold isolated? at isolated
  unfold Entry.tag?
  split at isolated
  · next comment =>
    obtain rfl := Option.some.inj isolated
    rw [if_pos comment]
    rfl
  · next plain =>
    rw [if_neg plain]
    generalize entry.directive? = found at isolated ⊢
    rcases found with _ | directive
    · exact data isolated
    · cases directive with
      | start | csect | extdef | extref =>
        obtain rfl := Option.some.inj isolated
        rfl
      | ltorg | finish =>
        obtain rfl := Option.some.inj isolated
        exact pooled
      | equ | byte | word | resb | resw => exact data isolated

/-- Up to the cuts between texts, the records are those that the statements ask for in order. -/
theorem emitTags {pending : Option Run} {entries : List Entry} {records : List Record}
    (emitted : part.emit pending entries = .ok records)
    (coded : ∀ entry ∈ entries, entry.code ≠ [] → entry.tag? = some 'T') :
    Record.joinTexts (records.map Record.tag) =
      Record.joinTexts ((closed pending).map Record.tag ++ entries.filterMap Entry.tag?) := by
  induction entries generalizing pending records with
  | nil =>
    obtain rfl := Except.ok.inj emitted
    rw [List.filterMap_nil, List.append_nil]
    rfl
  | cons entry rest inductionHypothesis =>
    have behind {next : Option Run} {later : List Record}
        (makes : part.emit next rest = .ok later) :
        Record.joinTexts (later.map Record.tag) =
          Record.joinTexts ((closed next).map Record.tag ++ rest.filterMap Entry.tag?) :=
      inductionHypothesis makes fun other inside => coded other (List.mem_cons_of_mem _ inside)
    rcases emitCases emitted with ⟨run, rfl, accepted, makes⟩ |
      ⟨_, later, ⟨own, isolated, makes, rfl⟩ | ⟨_, accepted, makes, rfl⟩⟩
    · have text := coded entry List.mem_cons_self (Run.acceptsCode accepted)
      rw [behind makes, List.filterMap_cons_some text]
      exact (Record.joinTextsTwice _).symm
    · rw [List.map_append, List.map_append, List.append_assoc, isolatedTags isolated]
      refine Record.joinTextsAppend ?_ _
      have same := Record.joinTextsAppend (behind makes) entry.tag?.toList
      cases tag : entry.tag? <;> simpa [tag, closed] using same
    · have text := coded entry List.mem_cons_self (Run.acceptsCode accepted)
      rw [List.map_append, List.filterMap_cons_some text]
      exact Record.joinTextsAppend (behind makes) _

/-- Modifications and the end do not come from statements. -/
theorem emitKinds {entries : List Entry} {records : List Record}
    (emitted : part.emit none entries = .ok records) {record : Record}
    (inside : record ∈ records) : record.tag ≠ 'M' ∧ record.tag ≠ 'E' := by
  rcases emitSources (begunNone : Begun none []) emitted inside with
    ⟨entry, _, own, isolated, listed⟩ | ⟨run, _, _, _, rfl⟩
  · rcases memIsolated isolated listed with rfl | ⟨_, rfl⟩ | ⟨_, rfl⟩ | ⟨_, rfl⟩ <;>
      simp [Record.tag, poolRecord]
  · simp [Record.tag, Run.record]

end Section

namespace Assembly

/-- The marks of a section begin with the header of its opener. -/
theorem Origin.tagsOfOpened {encoder : Encoder} {laid part : Section} {records : List Record}
    {sections : List Section} (origin : Origin encoder laid part records)
    (divided : Layout.Divided sections) (member : laid ∈ sections)
    (opened : ∃ entry ∈ part.entries, entry.opens = true) :
    ∃ rest, part.entries.filterMap Entry.tag? = 'H' :: rest := by
  obtain ⟨entry, inside, opens⟩ := opened
  obtain ⟨bare, listed, rfl⟩ := origin.bareEntry inside
  obtain ⟨earlier, later, cut⟩ := List.append_of_mem listed
  have comments := divided.openers member cut opens
  have silent : (earlier.map (encoder.coded laid)).filterMap Entry.tag? = [] := by
    rw [List.filterMap_eq_nil_iff]
    intro other inside
    obtain ⟨comment, before, rfl⟩ := List.mem_map.1 inside
    exact if_pos (comments comment before)
  refine ⟨(later.map (encoder.coded laid)).filterMap Entry.tag?, ?_⟩
  rw [origin.shape, cut, List.map_append, List.filterMap_append, silent, List.map_cons,
    List.filterMap_cons_some (Entry.tagOfOpens opens)]
  rfl

/-- Every record of a section that a statement opens has its place: a header is the first one, then
come the records that the statements ask for, in the order of the statements, then the
modifications, and one end. So the records are in the documented order exactly if the statements
are. -/
theorem recordsFollowStatements {settings : Settings} {file : Text} {lines : List Text}
    {assembly : Assembly} {part : Section} {records : List Record}
    (undirected : ∀ directive : Directive, settings.catalog.get? directive.name = none)
    (assembled : (ofLines settings file lines).result = .ok assembly)
    (emitted : (part, records) ∈ assembly.sections.zip assembly.modules)
    (opened : ∃ entry ∈ part.entries, entry.opens = true) :
    (∃ front, records.map Record.tag =
        'H' :: front ++ List.replicate part.patches.length 'M' ++ ['E'] ∧
      'M' ∉ front ∧ 'E' ∉ front ∧
      Record.joinTexts ('H' :: front) = Record.joinTexts (part.entries.filterMap Entry.tag?)) ∧
    (Record.InOrder records ↔ Entry.InOrder part.entries) := by
  obtain ⟨layout, laid, laidOut, member, origin⟩ := Assembly.origin assembled emitted
  have divided := (Layout.isDividedOfLines laidOut).divided
  obtain ⟨marks, headed⟩ := origin.tagsOfOpened divided member opened
  obtain ⟨emission, emits, rfl⟩ := Section.recordsCases origin.emitted
  have joined : Record.joinTexts (emission.map Record.tag) =
      Record.joinTexts (part.entries.filterMap Entry.tag?) :=
    Section.emitTags emits fun entry inside => Entry.tagOfCode undirected (origin.codeOf inside)
  obtain ⟨front, shape⟩ : ∃ front, emission.map Record.tag = 'H' :: front := by
    rw [← List.head?_eq_some_iff, ← Record.joinTextsHead, joined, Record.joinTextsHead, headed]
    rfl
  have kinds : ∀ tag ∈ 'H' :: front, tag ≠ 'M' ∧ tag ≠ 'E' := by
    intro tag inside
    rw [← shape] at inside
    obtain ⟨record, listed, rfl⟩ := List.mem_map.1 inside
    exact Section.emitKinds emits listed
  have whole : (emission ++ part.patchRecords ++ [part.finishRecord settings.catalog]).map
      Record.tag = 'H' :: front ++ List.replicate part.patches.length 'M' ++ ['E'] := by
    have patches : part.patchRecords.map Record.tag = List.replicate part.patches.length 'M' := by
      rw [Section.patchRecords, List.map_map]
      exact List.map_const' ..
    rw [List.map_append, List.map_append, shape, patches]
    rfl
  have ordered : Record.FrontInOrder ('H' :: front) ↔ Entry.InOrder part.entries := by
    rw [Entry.InOrder, headed]
    apply Record.frontInOrderOfJoined
    rw [← shape, joined, headed]
  refine ⟨⟨front, whole, ?_, ?_, shape ▸ joined⟩, ?_, ?_⟩
  · exact fun inside => (kinds 'M' (List.mem_cons_of_mem _ inside)).1 rfl
  · exact fun inside => (kinds 'E' (List.mem_cons_of_mem _ inside)).2 rfl
  · rintro ⟨other, count, frontOrdered, same⟩
    rw [whole] at same
    have unmodified : 'M' ∉ other := by
      obtain ⟨_, _, _, rfl⟩ := frontOrdered
      simp
    rw [← ordered, Record.frontUnique (fun inside => (kinds 'M' inside).1 rfl) unmodified
      (List.append_cancel_right same)]
    exact frontOrdered
  · intro inOrder
    exact ⟨_, _, ordered.2 inOrder, whole⟩

/-- Sections with their names defined before others are referred to, with these the other way round,
and with a marked `CSECT`. -/
def linkingLines : List Text :=
  ["P\tSTART\t0", "\tEXTDEF\tA", "\tEXTREF\tX", "A\tLDA\t#1", "Q\tCSECT", "\tEXTREF\tX",
    "\tEXTDEF\tQ", "R\tCSECT", "\t+CSECT", "\tEND\tA"].map String.toList

/-- Only the first section has its records in the documented order. -/
theorem linkingLinesOrder :
    ∃ assembly first firstRecords second secondRecords third thirdRecords,
      (ofLines ⟨Catalog.standard, true, false⟩ [] linkingLines).result = .ok assembly ∧
      (first, firstRecords) ∈ assembly.sections.zip assembly.modules ∧ first.name = ['P'] ∧
      (second, secondRecords) ∈ assembly.sections.zip assembly.modules ∧ second.name = ['Q'] ∧
      (third, thirdRecords) ∈ assembly.sections.zip assembly.modules ∧ third.name = ['R'] ∧
      Record.InOrder firstRecords ∧ ¬ Record.InOrder secondRecords ∧
      ¬ Record.InOrder thirdRecords := by
  have undirected : ∀ directive : Directive, Catalog.standard.get? directive.name = none := by
    intro directive
    cases directive <;> decide
  have evaluated : ∃ assembly ∈ (ofLines ⟨Catalog.standard, true, false⟩ [] linkingLines).value?,
      (∃ pair ∈ assembly.sections.zip assembly.modules, pair.1.name = ['P'] ∧
        (∃ entry ∈ pair.1.entries, entry.opens = true) ∧ Entry.InOrder pair.1.entries) ∧
      (∃ pair ∈ assembly.sections.zip assembly.modules, pair.1.name = ['Q'] ∧
        (∃ entry ∈ pair.1.entries, entry.opens = true) ∧ ¬ Entry.InOrder pair.1.entries) ∧
      ∃ pair ∈ assembly.sections.zip assembly.modules, pair.1.name = ['R'] ∧
        (∃ entry ∈ pair.1.entries, entry.opens = true) ∧ ¬ Entry.InOrder pair.1.entries := by
    decide +kernel
  obtain ⟨assembly, value,
    ⟨⟨first, firstRecords⟩, firstEmitted, firstName, firstOpened, ordered⟩,
    ⟨⟨second, secondRecords⟩, secondEmitted, secondName, secondOpened, reversed⟩,
    ⟨third, thirdRecords⟩, thirdEmitted, thirdName, thirdOpened, twice⟩ := evaluated
  have assembled := Logged.valueEqSome.1 value
  obtain ⟨_, firstIff⟩ := recordsFollowStatements undirected assembled firstEmitted firstOpened
  obtain ⟨_, secondIff⟩ := recordsFollowStatements undirected assembled secondEmitted secondOpened
  obtain ⟨_, thirdIff⟩ := recordsFollowStatements undirected assembled thirdEmitted thirdOpened
  exact ⟨assembly, first, firstRecords, second, secondRecords, third, thirdRecords, assembled,
    firstEmitted, firstName, secondEmitted, secondName, thirdEmitted, thirdName,
    firstIff.2 ordered, mt secondIff.1 reversed, mt thirdIff.1 twice⟩

end Assembly

end SicXe
