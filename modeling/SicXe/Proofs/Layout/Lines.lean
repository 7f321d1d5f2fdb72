/-
This file says that a layout holds the lines of its program, one entry for each, and where it
divides them into sections.
-/

import Mathlib.Data.List.Forall2
import SicXe.Catalog.Standard
import SicXe.Proofs.Layout.History

namespace SicXe

namespace Statement

/-- The statement opens a section: it is a `START` or a `CSECT` without a marker. -/
def opens (statement : Statement) : Bool :=
  !statement.isComment && !statement.extended && statement.directive?.any (·.opensSection)

end Statement

/-- The entry is read from a line, at its own location and with the number of the line. -/
def Entry.IsFrom (catalog : Catalog) (file : Text) (entry : Entry) (line : Text × Nat) : Prop :=
  entry.line = line.2 ∧
    Statement.read catalog file entry.location line.2 line.1 = .ok entry.toStatement

namespace Section

/-- The first statement of the section that is no comment opens it, and no other one would. -/
def OpenedBehind (comments : List Entry) (part : Section) : Prop :=
  ∃ opener rest, part.entries = comments ++ opener :: rest ∧ opener.opens = true ∧
    ∀ entry ∈ rest, entry.opens = false

/-- No statement of the section opens it. -/
def IsImplicit (part : Section) : Prop :=
  part.entries ≠ [] ∧ ∀ entry ∈ part.entries, entry.opens = false

end Section

namespace Layout

variable {catalog : Catalog} {file : Text} {layout : Layout}

def isBlankLine (raw : Text) : Bool :=
  Text.strip raw = []

def isCommentLine (raw : Text) : Bool :=
  Statement.labelOf (Statement.fieldsOf raw) = Statement.commentLabel

/-- The line names `START` or `CSECT` in its second field, and is no comment. -/
def isOpeningLine (raw : Text) : Bool :=
  !isCommentLine raw &&
    (Statement.fieldAt (Statement.fieldsOf raw) 1 = Directive.name .start ||
      Statement.fieldAt (Statement.fieldsOf raw) 1 = Directive.name .csect)

/-- The lines that are not blank, with their numbers. -/
def written (lines : List Text) : List (Text × Nat) :=
  (lines.zipIdx 1).filter fun line => !isBlankLine line.1

/-- What stands before the first opening makes up a section of its own: some of it is no comment, or
nothing else is there. -/
def leads {α : Type} (opens comments : α → Bool) (items : List α) : Bool :=
  (items.takeWhile (!opens ·)).any (!comments ·) || (!items.isEmpty && items.all (!opens ·))

theorem leadsIff {α : Type} {opens comments : α → Bool} {items : List α} :
    leads opens comments items = true ↔
      (∃ item ∈ items.takeWhile (!opens ·), comments item = false) ∨
        (items ≠ [] ∧ ∀ item ∈ items, opens item = false) := by
  simp [leads]

theorem leadsMap {α β : Type} (opens comments : β → Bool) (convert : α → β) (items : List α) :
    leads opens comments (items.map convert) =
      leads (fun item => opens (convert item)) (fun item => comments (convert item)) items := by
  simp [leads, List.takeWhile_map, Function.comp_def]

theorem writtenSnoc (lines : List Text) (raw : Text) :
    written (lines ++ [raw]) =
      written lines ++ if Text.strip raw = [] then [] else [(raw, lines.length + 1)] := by
  unfold written
  rw [List.zipIdx_append, List.filter_append, List.zipIdx_singleton, List.filter_singleton]
  by_cases blank : Text.strip raw = [] <;> simp [isBlankLine, blank, Nat.add_comm]

theorem writtenTexts (lines : List Text) :
    (written lines).map Prod.fst = lines.filter (!isBlankLine ·) := by
  have filtered := List.filter_map (f := Prod.fst) (p := (!isBlankLine ·)) (l := lines.zipIdx 1)
  rw [List.zipIdx_map_fst] at filtered
  exact filtered.symm

/-- The directives that open sections are `START` and `CSECT`. -/
theorem anyOpensSection (operator : Text) :
    (Directive.ofName? operator).any (·.opensSection) =
      (operator = Directive.name .start || operator = Directive.name .csect) := by
  cases found : Directive.ofName? operator with
  | none =>
    have other (directive : Directive) : operator ≠ directive.name := by
      rintro rfl
      rw [Directive.ofNameName] at found
      contradiction
    simp [other]
  | some directive =>
    obtain rfl := Directive.nameOfName found
    cases directive <;> rfl

theorem isSomeOpening (raw : Text) : (opening? raw).isSome = isOpeningLine raw := by
  unfold opening? isOpeningLine isCommentLine
  rw [← anyOpensSection]
  by_cases comment : Statement.labelOf (Statement.fieldsOf raw) = Statement.commentLabel
  · simp [comment]
  · simp only [comment, if_false, decide_false, Bool.not_false, Bool.true_and]
    cases Directive.ofName? (Statement.fieldAt (Statement.fieldsOf raw) 1) with
    | none => rfl
    | some directive => cases directive <;> rfl

/-- A statement is a comment or opens a section exactly if its line does. -/
theorem opensOfRead {location number : Int} {source raw : Text} {statement : Statement}
    (found : Statement.ofFields catalog location number source (Statement.fieldsOf raw) =
      .ok statement) :
    statement.isComment = isCommentLine raw ∧ statement.opens = isOpeningLine raw := by
  unfold isOpeningLine isCommentLine Statement.opens
  rcases Statement.ofFieldsCases found with ⟨comment, rfl⟩ | ⟨plain, _, _, _, label, marked, _⟩
  · simp [Statement.isComment, comment]
  · have same : statement.isComment = false := by
      rw [Statement.isComment, label]
      exact decide_eq_false plain
    rw [same, decide_eq_false plain, Bool.not_false, Bool.true_and, Bool.true_and,
      Statement.directive?, anyOpensSection]
    refine ⟨rfl, ?_⟩
    generalize Statement.fieldAt (Statement.fieldsOf raw) 1 = operator at marked ⊢
    unfold Statement.splitMarker at marked
    split at marked
    · obtain ⟨extended, _⟩ := Prod.mk.inj marked
      -- No directive has a name that begins with the marker.
      have unmarked (directive : Directive) (rest : Text) : '+' :: rest ≠ directive.name := by
        have heads : directive.name.head? ≠ some '+' := by cases directive <;> decide
        intro same
        exact heads (same ▸ rfl)
      simp [extended, unmarked]
    · obtain ⟨extended, rfl⟩ := Prod.mk.inj marked
      rw [extended, Bool.not_false, Bool.true_and]

/-- The detached comments and the sections behind them hold the same entries as before. -/
theorem detachCommentsFlatMap (layout : Layout) :
    layout.detachComments.2.sections.flatMap (·.entries) ++ layout.detachComments.1 =
      layout.sections.flatMap (·.entries) := by
  unfold detachComments
  split
  · split
    · simp [sections]
    · exact List.append_nil _
  · exact List.append_nil _

/-- To enter a line changes no entry, whichever section takes the line. -/
theorem enterFlatMap {number : Nat} {raw : Text} {finished : List Section} {part : Section}
    (entered : (layout.enter file number raw).value? = some (finished, part)) :
    (finished ++ [part]).flatMap (·.entries) = layout.sections.flatMap (·.entries) := by
  rcases enterCases entered with ⟨opening, start, _, rfl, rfl⟩ | ⟨_, active, rfl⟩ |
    ⟨_, _, rfl, rfl⟩
  · rw [← detachCommentsFlatMap layout]
    simp
  · simp [sections, active]
  · simp [Section.opened]

/-- The entries of all sections are read from the written lines, one from each. -/
def HoldsLines (catalog : Catalog) (file : Text) (lines : List Text) (layout : Layout) : Prop :=
  List.Forall₂ (Entry.IsFrom catalog file) (layout.sections.flatMap (·.entries)) (written lines)

theorem HoldsLines.addLine {done : List Text} {next : Layout} {raw : Text}
    (known : HoldsLines catalog file done layout)
    (added : (addLine catalog file layout (done.length + 1) raw).value? = some next) :
    HoldsLines catalog file (done ++ [raw]) next := by
  unfold HoldsLines at known ⊢
  rw [writtenSnoc]
  rcases addLineCases added with ⟨blank, rfl⟩ | ⟨solid, finished, part, grown, entered, grows, rfl⟩
  · rw [if_pos blank, List.append_nil]
    exact known
  · obtain ⟨entry, found, entries⟩ := Section.addLineEntries grows
    have same : sections ⟨finished, some grown⟩ = finished ++ [grown] := rfl
    have shape : (sections ⟨finished, some grown⟩).flatMap (·.entries) =
        layout.sections.flatMap (·.entries) ++ [entry] := by
      rw [same, ← enterFlatMap entered]
      simp [entries]
    have isFrom : Entry.IsFrom catalog file entry (raw, done.length + 1) := by
      refine ⟨Statement.ofFieldsLine found, Statement.readEqOk.2 ?_⟩
      rw [Statement.ofFieldsLocation found]
      exact found
    rw [shape, if_neg solid]
    exact List.rel_append known (.cons isFrom .nil)

theorem holdsLinesOfLines {lines : List Text}
    (laidOut : (ofLines catalog file lines).value? = some layout) :
    HoldsLines catalog file lines layout :=
  ofLinesInduction .nil (fun _ _ _ _ _ known added => known.addLine added) laidOut

/-- Every entry of a layout is read from a written line. -/
theorem entryLine {lines : List Text} {part : Section} {entry : Entry}
    (laidOut : (ofLines catalog file lines).value? = some layout)
    (member : part ∈ layout.sections) (inside : entry ∈ part.entries) :
    ∃ line ∈ written lines, entry.IsFrom catalog file line := by
  have held : entry ∈ layout.sections.flatMap (·.entries) :=
    List.mem_flatMap.2 ⟨part, member, inside⟩
  have holds := holdsLinesOfLines laidOut
  unfold HoldsLines at holds
  generalize layout.sections.flatMap (·.entries) = entries at holds held
  generalize written lines = numbered at holds ⊢
  induction holds with
  | nil => contradiction
  | @cons first line _ _ isFrom _ inductionHypothesis =>
    rcases List.mem_cons.1 held with rfl | deeper
    · exact ⟨line, List.mem_cons_self, isFrom⟩
    · obtain ⟨other, listed, found⟩ := inductionHypothesis deeper
      exact ⟨other, List.mem_cons_of_mem _ listed, found⟩

/-- Every statement of the layout is read from one of the lines. -/
def FromLines (catalog : Catalog) (lines : List Text) (layout : Layout) : Prop :=
  ∀ part ∈ layout.sections, ∀ entry ∈ part.entries, entry.isComment = false →
    ∃ raw ∈ lines, ∃ location number, Statement.ofFields catalog location number
      (Text.dropLineEnd raw) (Statement.fieldsOf raw) = .ok entry.toStatement

theorem fromLinesOfLines {lines : List Text}
    (laidOut : (ofLines catalog file lines).value? = some layout) :
    FromLines catalog lines layout := by
  intro part member entry inside _
  obtain ⟨line, listed, isFrom⟩ := entryLine laidOut member inside
  have text : line.1 ∈ (written lines).map Prod.fst := List.mem_map_of_mem listed
  rw [writtenTexts] at text
  exact ⟨line.1, List.mem_of_mem_filter text, _, _, Statement.readEqOk.1 isFrom.2⟩

/-- How the entries are divided into sections. Only the first section may be implicit, or have
comments before its opener; an implicit one with sections behind it has more than comments. -/
inductive Divided : List Section → Prop
  | none : Divided []
  | opened {first : Section} {rest : List Section} {comments : List Entry}
      (leading : ∀ entry ∈ comments, entry.isComment = true)
      (opens : first.OpenedBehind comments) (later : ∀ part ∈ rest, part.OpenedBehind []) :
      Divided (first :: rest)
  | implicit {first : Section} {rest : List Section} (implicit : first.IsImplicit)
      (settled : rest ≠ [] → ∃ entry ∈ first.entries, entry.isComment = false)
      (later : ∀ part ∈ rest, part.OpenedBehind []) : Divided (first :: rest)

/-- A section that a statement opens may follow the others, unless these are comments alone. -/
theorem Divided.snoc {parts : List Section} {part : Section} (divided : Divided parts)
    (opens : part.OpenedBehind [])
    (settled : ∀ first, parts = [first] → ∃ entry ∈ first.entries, entry.isComment = false) :
    Divided (parts ++ [part]) := by
  have behind {rest : List Section} (later : ∀ part ∈ rest, part.OpenedBehind []) :
      ∀ other ∈ rest ++ [part], other.OpenedBehind [] := by
    intro other inside
    rcases List.mem_append.1 inside with old | new
    · exact later other old
    · rw [List.mem_singleton.1 new]
      exact opens
  cases divided with
  | none => exact .opened (by simp) opens (by simp)
  | opened leading first later => exact .opened leading first (behind later)
  | @implicit first rest implicit plain later =>
    refine .implicit implicit ?_ (behind later)
    intro _
    cases rest with
    | nil => exact settled first rfl
    | cons next others => exact plain (by simp)

/-- The last section may take a statement that opens none. -/
theorem Divided.grow {parts : List Section} {part grown : Section} {entry : Entry}
    (divided : Divided (parts ++ [part])) (entries : grown.entries = part.entries ++ [entry])
    (closed : entry.opens = false) : Divided (parts ++ [grown]) := by
  have grows {comments : List Entry} (opens : part.OpenedBehind comments) :
      grown.OpenedBehind comments := by
    obtain ⟨opener, rest, shape, isOpener, others⟩ := opens
    refine ⟨opener, rest ++ [entry], by simp [entries, shape], isOpener, ?_⟩
    intro other inside
    rcases List.mem_append.1 inside with old | new
    · exact others other old
    · rw [List.mem_singleton.1 new]
      exact closed
  cases parts with
  | nil =>
    cases divided with
    | opened leading opens later => exact .opened leading (grows opens) (by simp)
    | implicit implicit plain later =>
      refine .implicit ⟨by simp [entries], ?_⟩ (by simp) (by simp)
      intro other inside
      rw [entries] at inside
      rcases List.mem_append.1 inside with old | new
      · exact implicit.2 other old
      · rw [List.mem_singleton.1 new]
        exact closed
  | cons first rest =>
    have behind (later : ∀ other ∈ rest ++ [part], other.OpenedBehind []) :
        ∀ other ∈ rest ++ [grown], other.OpenedBehind [] := by
      intro other inside
      rcases List.mem_append.1 inside with old | new
      · exact later other (List.mem_append_left _ old)
      · rw [List.mem_singleton.1 new]
        exact grows (later part (by simp))
    cases divided with
    | opened leading opens later => exact .opened leading opens (behind later)
    | implicit implicit plain later =>
      exact .implicit implicit (fun _ => plain (by simp)) (behind later)

/-- Comments are detached from a layout that has nothing else, and any other layout stays. -/
theorem detachCommentsCases (layout : Layout) :
    (∃ comments : List Entry, layout.detachComments = (comments, {}) ∧
      ∀ entry ∈ comments, entry.isComment = true) ∨
    (layout.detachComments = ([], layout) ∧
      ∀ first, layout = ⟨[], some first⟩ → ∃ entry ∈ first.entries, entry.isComment = false) := by
  unfold detachComments
  split
  · next first =>
    split
    · next comments => exact .inl ⟨first.entries, rfl, List.all_eq_true.1 comments⟩
    · next mixed =>
      refine .inr ⟨rfl, ?_⟩
      rintro _ ⟨⟩
      simpa using mixed
  · next other =>
    refine .inr ⟨rfl, ?_⟩
    rintro first rfl
    exact absurd rfl (other first)

/-- The sections are divided, and one of them is active if there are any. -/
structure IsDivided (layout : Layout) : Prop where
  idle : layout.active = none → layout.finished = []
  divided : Divided layout.sections

/-- The only section of a layout is active. -/
theorem IsDivided.only (known : layout.IsDivided) {first : Section}
    (single : layout.sections = [first]) : layout = ⟨[], some first⟩ := by
  obtain ⟨finished, active⟩ := layout
  cases active with
  | none =>
    obtain rfl : finished = [] := known.idle rfl
    simp [sections] at single
  | some part =>
    obtain ⟨rfl, rfl⟩ : finished = [] ∧ part = first := by
      simpa [sections, List.append_eq_singleton_iff] using single
    rfl

theorem IsDivided.addLine {next : Layout} {number : Nat} {raw : Text} (known : layout.IsDivided)
    (added : (addLine catalog file layout number raw).value? = some next) : next.IsDivided := by
  rcases addLineCases added with ⟨_, rfl⟩ | ⟨_, finished, part, grown, entered, grows, rfl⟩
  · exact known
  · refine ⟨by simp, ?_⟩
    change Divided (finished ++ [grown])
    obtain ⟨entry, found, entries⟩ := Section.addLineEntries grows
    have opens : entry.opens = (opening? raw).isSome := by
      rw [isSomeOpening]
      exact (opensOfRead found).2
    rcases enterCases entered with ⟨opening, start, isOpening, rfl, rfl⟩ | ⟨stays, active, rfl⟩ |
      ⟨stays, idle, rfl, rfl⟩
    · have isOpener : entry.opens = true := by rw [opens, isOpening, Option.isSome_some]
      have opened : grown.OpenedBehind layout.detachComments.1 :=
        ⟨entry, [], entries, isOpener, by simp⟩
      rcases detachCommentsCases layout with ⟨comments, detached, leading⟩ | ⟨settled, plain⟩
      · rw [detached] at opened ⊢
        exact .opened leading opened (by simp)
      · rw [settled] at opened ⊢
        exact known.divided.snoc opened fun first single => plain first (known.only single)
    · have closed : entry.opens = false := by rw [opens, stays, Option.isSome_none]
      have whole : layout.sections = layout.finished ++ [part] := by simp [sections, active]
      have divided := known.divided
      rw [whole] at divided
      exact divided.grow entries closed
    · have closed : entry.opens = false := by rw [opens, stays, Option.isSome_none]
      have empty : layout.sections = [] := by simp [sections, idle, known.idle idle]
      have only : grown.entries = [entry] := entries
      rw [empty]
      exact .implicit ⟨by simp [only], by simp [only, closed]⟩ (by simp) (by simp)

theorem isDividedOfLines {lines : List Text}
    (laidOut : (ofLines catalog file lines).value? = some layout) : layout.IsDivided :=
  addLinesInduction (fun _ _ _ _ known added => known.addLine added)
    (show IsDivided {} from ⟨fun _ => rfl, .none⟩) laidOut

/-- The sections carry the numbers from zero on. -/
def Indexed (layout : Layout) : Prop :=
  layout.sections.map (·.index) = List.range layout.sections.length

theorem indexGrown {part grown : Section} {number : Nat} {raw : Text}
    (grows : (part.addLine catalog file number raw).value? = some grown) :
    grown.index = part.index := by
  obtain ⟨statement, _, joins⟩ := Section.addLineCases grows
  rcases Section.addStatementCases joins with ⟨_, rfl⟩ | ⟨_, symbols, _, rfl⟩ <;> rfl

theorem Indexed.detachComments (indexed : layout.Indexed) :
    layout.detachComments.2.Indexed := by
  unfold Layout.detachComments
  split
  · split
    · rfl
    · exact indexed
  · exact indexed

theorem Indexed.entered {number : Nat} {raw : Text} {finished : List Section} {part : Section}
    (indexed : layout.Indexed)
    (entered : (layout.enter file number raw).value? = some (finished, part)) :
    (finished ++ [part]).map (·.index) = List.range (finished.length + 1) := by
  have extended {before : Layout} (known : before.Indexed) {next : Section}
      (number : next.index = before.sections.length) :
      (before.sections ++ [next]).map (·.index) = List.range (before.sections.length + 1) := by
    rw [List.map_append, known, List.range_succ, List.map_singleton, number]
  rcases enterCases entered with ⟨opening, start, _, rfl, rfl⟩ | ⟨_, active, rfl⟩ |
    ⟨_, _, rfl, rfl⟩
  · exact extended indexed.detachComments rfl
  · simpa [Indexed, sections, active] using indexed
  · exact extended indexed rfl

theorem Indexed.addLine {next : Layout} {number : Nat} {raw : Text} (indexed : layout.Indexed)
    (added : (addLine catalog file layout number raw).value? = some next) : next.Indexed := by
  rcases addLineCases added with ⟨_, rfl⟩ | ⟨_, finished, part, grown, entered, grows, rfl⟩
  · exact indexed
  · have numbers := indexed.entered entered
    simpa [Indexed, sections, indexGrown grows] using numbers

theorem indexedOfLines {lines : List Text}
    (laidOut : (ofLines catalog file lines).value? = some layout) : layout.Indexed :=
  addLinesInduction (fun _ _ _ _ indexed added => indexed.addLine added)
    (by simp [Indexed, sections]) laidOut

theorem opensOfComment {entry : Entry} (comment : entry.isComment = true) :
    entry.opens = false := by
  simp [Statement.opens, comment]

/-- The entries before the first opener are those that open nothing. -/
theorem takeWhileOpener {front back : List Entry} {opener : Entry}
    (closed : ∀ entry ∈ front, entry.opens = false) (opens : opener.opens = true) :
    (front ++ opener :: back).takeWhile (!·.opens) = front := by
  rw [List.takeWhile_append_of_pos (by simpa using closed)]
  simp [opens]

theorem countClosed {entries : List Entry} (closed : ∀ entry ∈ entries, entry.opens = false) :
    entries.countP (·.opens) = 0 := by
  rw [List.countP_eq_zero]
  intro entry inside
  rw [closed entry inside]
  exact Bool.false_ne_true

/-- A section behind comments has one opener. -/
theorem countOpener {part : Section} {comments : List Entry}
    (leading : ∀ entry ∈ comments, entry.isComment = true)
    (opened : part.OpenedBehind comments) : part.entries.countP (·.opens) = 1 := by
  obtain ⟨opener, rest, shape, opens, closed⟩ := opened
  rw [shape, List.countP_append, List.countP_cons, countClosed closed, opens,
    countClosed fun entry inside => opensOfComment (leading entry inside)]
  rfl

theorem countOpeners {parts : List Section} (opened : ∀ part ∈ parts, part.OpenedBehind []) :
    (parts.flatMap (·.entries)).countP (·.opens) = parts.length := by
  induction parts with
  | nil => rfl
  | cons part rest inductionHypothesis =>
    have first := countOpener (by simp) (opened part List.mem_cons_self)
    have later := inductionHypothesis fun other inside =>
      opened other (List.mem_cons_of_mem _ inside)
    rw [List.flatMap_cons, List.countP_append, first, later, List.length_cons]
    omega

/-- There is a section for each opener, and one more for entries that lead. -/
theorem Divided.length {parts : List Section} (divided : Divided parts) :
    parts.length = (parts.flatMap (·.entries)).countP (·.opens) +
      if leads (·.opens) (·.isComment) (parts.flatMap (·.entries)) then 1 else 0 := by
  cases divided with
  | none => rfl
  | @opened first rest comments leading opened later =>
    have count : ((first :: rest).flatMap (·.entries)).countP (·.opens) = rest.length + 1 := by
      rw [List.flatMap_cons, List.countP_append, countOpener leading opened, countOpeners later]
      omega
    have follows :
        ¬ leads (·.opens) (·.isComment) ((first :: rest).flatMap (·.entries)) = true := by
      obtain ⟨opener, others, shape, opens, _⟩ := opened
      have closed (entry : Entry) (inside : entry ∈ comments) : entry.opens = false :=
        opensOfComment (leading entry inside)
      rw [leadsIff, List.flatMap_cons, shape, List.append_assoc, List.cons_append,
        takeWhileOpener closed opens]
      rintro (⟨entry, inside, plain⟩ | ⟨_, none⟩)
      · rw [leading entry inside] at plain
        contradiction
      · rw [none opener (by simp)] at opens
        contradiction
    rw [count, if_neg follows]
    rfl
  | @implicit first rest implicit settled later =>
    have count : ((first :: rest).flatMap (·.entries)).countP (·.opens) = rest.length := by
      rw [List.flatMap_cons, List.countP_append, countClosed implicit.2, countOpeners later]
      omega
    have ahead : leads (·.opens) (·.isComment) ((first :: rest).flatMap (·.entries)) = true := by
      rw [leadsIff, List.flatMap_cons]
      cases rest with
      | nil =>
        rw [List.flatMap_nil, List.append_nil]
        exact .inr implicit
      | cons next others =>
        obtain ⟨opener, behind, shape, opens, _⟩ := later next List.mem_cons_self
        rw [List.flatMap_cons, shape, List.nil_append, List.cons_append,
          takeWhileOpener implicit.2 opens]
        exact .inl (settled (by simp))
    rw [count, if_pos ahead]
    rfl

/-- Only comments stand before the opener of a section. -/
theorem commentsBeforeOpener {part : Section} {comments earlier later : List Entry} {entry : Entry}
    (leading : ∀ entry ∈ comments, entry.isComment = true) (opened : part.OpenedBehind comments)
    (cut : part.entries = earlier ++ entry :: later) (opens : entry.opens = true) :
    ∀ other ∈ earlier, other.isComment = true := by
  obtain ⟨opener, rest, shape, _, closed⟩ := opened
  rw [cut] at shape
  rcases List.append_eq_append_iff.1 shape with ⟨between, rfl, _⟩ | ⟨between, rfl, behind⟩
  · intro other inside
    exact leading other (List.mem_append_left _ inside)
  · cases between with
    | nil => simpa using leading
    | cons first others =>
      have inside : entry ∈ rest := by
        rw [(List.cons.inj behind).2]
        simp
      rw [closed entry inside] at opens
      contradiction

theorem Divided.openers {parts : List Section} (divided : Divided parts) {part : Section}
    (member : part ∈ parts) {earlier later : List Entry} {entry : Entry}
    (cut : part.entries = earlier ++ entry :: later) (opens : entry.opens = true) :
    ∀ other ∈ earlier, other.isComment = true := by
  cases divided with
  | none => contradiction
  | opened leading opened later =>
    rcases List.mem_cons.1 member with rfl | behind
    · exact commentsBeforeOpener leading opened cut opens
    · exact commentsBeforeOpener (by simp) (later part behind) cut opens
  | implicit implicit settled later =>
    rcases List.mem_cons.1 member with rfl | behind
    · rw [implicit.2 entry (by simp [cut])] at opens
      contradiction
    · exact commentsBeforeOpener (by simp) (later part behind) cut opens

theorem Divided.later {parts : List Section} (divided : Divided parts) :
    ∀ part ∈ parts.tail, part.OpenedBehind [] := by
  cases divided with
  | none => simp
  | opened _ _ later => exact later
  | implicit _ _ later => exact later

/-- The entries open sections and comment as their lines do. -/
theorem HoldsLines.marks {lines : List Text} (known : HoldsLines catalog file lines layout) :
    (layout.sections.flatMap (·.entries)).map (fun entry => (entry.opens, entry.isComment)) =
      (lines.filter (!isBlankLine ·)).map fun raw => (isOpeningLine raw, isCommentLine raw) := by
  rw [← writtenTexts, List.map_map, ← List.forall₂_eq_eq_eq, List.forall₂_map_left_iff,
    List.forall₂_map_right_iff]
  refine known.imp ?_
  rintro entry ⟨raw, number⟩ ⟨_, found⟩
  obtain ⟨comment, opens⟩ := opensOfRead (Statement.readEqOk.1 found)
  exact Prod.ext opens comment

/-- Every line that is not blank has one entry, in order and with the number of the line. The
sections are numbered by their positions. All but the first begin with the statement that opens
them, and only comments stand before such a statement in the first. There is a section for each line
that opens one, and one more if a statement comes before all of these, or if the lines that are not
blank open none. -/
theorem sectionsDivideLines {lines : List Text}
    (laidOut : (ofLines catalog file lines).result = .ok layout) :
    List.Forall₂ (Entry.IsFrom catalog file) (layout.sections.flatMap (·.entries))
      (written lines) ∧
    layout.sections.map (·.index) = List.range layout.sections.length ∧
    (∀ part ∈ layout.sections.tail, ∃ opener rest, part.entries = opener :: rest ∧
      opener.opens = true) ∧
    (∀ part ∈ layout.sections, ∀ earlier entry later, part.entries = earlier ++ entry :: later →
      entry.opens = true → ∀ other ∈ earlier, other.isComment = true) ∧
    layout.sections.length = (lines.filter (!isBlankLine ·)).countP isOpeningLine +
      if leads isOpeningLine isCommentLine (lines.filter (!isBlankLine ·)) then 1 else 0 := by
  have value := Logged.valueEqSome.2 laidOut
  have holds := holdsLinesOfLines value
  have divided := (isDividedOfLines value).divided
  refine ⟨holds, indexedOfLines value, ?_, ?_, ?_⟩
  · intro part member
    obtain ⟨opener, rest, shape, opens, _⟩ := divided.later part member
    exact ⟨opener, rest, shape, opens⟩
  · intro part member earlier entry later cut opens
    exact divided.openers member cut opens
  · have openers : (layout.sections.flatMap (·.entries)).countP (·.opens) =
        (lines.filter (!isBlankLine ·)).countP isOpeningLine := by
      have counted := congrArg (List.countP Prod.fst) holds.marks
      rw [List.countP_map, List.countP_map] at counted
      exact counted
    have leading := congrArg (leads Prod.fst Prod.snd) holds.marks
    rw [leadsMap, leadsMap] at leading
    rw [divided.length, openers, leading]

/-- Blank lines, comments before and between statements, a marked `START`, and two sections behind a
statement. -/
def mixedLines : List Text :=
  [".\tintroduction", "", "\tLDA\t#1", ".\tlater", "P\tSTART\t16", "\t+START\t32", " \t ",
    ".\tinside", "Q\tCSECT", "\tEND"].map String.toList

/-- The lines without the first statement, so that the comments belong to the first opener. -/
def commentedLines : List Text :=
  mixedLines.eraseIdx 2

/-- A statement before the openers makes a third section, and comments alone do not. -/
theorem mixedLinesDivided :
    (∃ layout, (ofLines Catalog.standard [] mixedLines).result = .ok layout ∧
      (layout.sections.flatMap (·.entries)).map (·.line) = [1, 3, 4, 5, 6, 8, 9, 10] ∧
      layout.sections.map (·.index) = [0, 1, 2]) ∧
    ∃ layout, (ofLines Catalog.standard [] commentedLines).result = .ok layout ∧
      (layout.sections.flatMap (·.entries)).map (·.line) = [1, 3, 4, 5, 7, 8, 9] ∧
      layout.sections.map (·.index) = [0, 1] := by
  have numbers {lines : List Text} {layout : Layout}
      (holds : List.Forall₂ (Entry.IsFrom Catalog.standard []) (layout.sections.flatMap (·.entries))
        (written lines)) :
      (layout.sections.flatMap (·.entries)).map (·.line) =
        (written lines).map fun line => (line.2 : Int) := by
    rw [← List.forall₂_eq_eq_eq, List.forall₂_map_left_iff, List.forall₂_map_right_iff]
    exact holds.imp fun entry line isFrom => isFrom.1
  have mixed : ∃ layout ∈ (ofLines Catalog.standard [] mixedLines).value?,
      layout.sections ≠ [] := by
    decide +kernel
  have commented : ∃ layout ∈ (ofLines Catalog.standard [] commentedLines).value?,
      layout.sections ≠ [] := by
    decide +kernel
  obtain ⟨first, firstValue, _⟩ := mixed
  obtain ⟨second, secondValue, _⟩ := commented
  have firstLaidOut := Logged.valueEqSome.1 firstValue
  have secondLaidOut := Logged.valueEqSome.1 secondValue
  obtain ⟨firstHolds, firstIndices, _, _, firstLength⟩ := sectionsDivideLines firstLaidOut
  obtain ⟨secondHolds, secondIndices, _, _, secondLength⟩ := sectionsDivideLines secondLaidOut
  refine ⟨⟨first, firstLaidOut, ?_, ?_⟩, second, secondLaidOut, ?_, ?_⟩
  · rw [numbers firstHolds]
    decide +kernel
  · rw [firstIndices, firstLength]
    decide +kernel
  · rw [numbers secondHolds]
    decide +kernel
  · rw [secondIndices, secondLength]
    decide +kernel

end Layout

end SicXe
