/-
This file says what one line does to a layout, and that every section of a layout is built from
an opened one, statement by statement.
-/

import SicXe.Layout
import SicXe.Proofs.Section.Step
import SicXe.Proofs.Statement.Reading

namespace SicXe

/-- The sections that come about: one that is opened with the comments before it, and one that
takes a comment or a statement read at its counter. -/
inductive Section.Built (catalog : Catalog) (file : Text) : Section → Prop
  | opened (index : Nat) (name : Text) (start : Int) (comments : List Entry)
      (bare : ∀ entry ∈ comments, entry.isComment = true ∧ entry.pool = [] ∧
        entry.toStatement.IsRead catalog) :
      Built catalog file { Section.opened index name start with entries := comments }
  | comment {part : Section} {statement : Statement} (built : Built catalog file part)
      (reading : statement.IsRead catalog) (comment : statement.isComment = true) :
      Built catalog file (part.append { toStatement := statement })
  | statement {part : Section} {statement : Statement} {symbols : SymbolTable}
      (built : Built catalog file part) (reading : statement.IsRead catalog)
      (located : statement.location = part.counter) (plain : statement.isComment = false)
      (bound : part.symbolsWith? file statement = some symbols) :
      Built catalog file (part.grown statement symbols)

namespace Section

variable {catalog : Catalog} {file : Text}

/-- The line of a section is a statement that is read at the counter and added. -/
theorem addLineCases {part next : Section} {number : Nat} {raw : Text}
    (added : (part.addLine catalog file number raw).value? = some next) :
    ∃ statement, Statement.ofFields catalog part.counter number (Text.dropLineEnd raw)
        (Statement.fieldsOf raw) = .ok statement ∧
      (part.addStatement file statement).value? = some next := by
  simp only [addLine, Logged.valueBind, Logged.valueLift, Statement.readToOption,
    Option.bind_eq_some_iff] at added
  obtain ⟨statement, reading, rest⟩ := added
  refine ⟨statement, ?_, rest⟩
  cases found : Statement.ofFields catalog part.counter number (Text.dropLineEnd raw)
      (Statement.fieldsOf raw) with
  | error problem => simp [found, Except.toOption] at reading
  | ok other => simp_all [Except.toOption]

/-- The section gets one entry more, the statement of the line. -/
theorem addLineEntries {part next : Section} {number : Nat} {raw : Text}
    (added : (part.addLine catalog file number raw).value? = some next) :
    ∃ entry : Entry, Statement.ofFields catalog part.counter number (Text.dropLineEnd raw)
        (Statement.fieldsOf raw) = .ok entry.toStatement ∧
      next.entries = part.entries ++ [entry] := by
  obtain ⟨statement, found, grows⟩ := addLineCases added
  rcases addStatementCases grows with ⟨_, rfl⟩ | ⟨_, symbols, _, rfl⟩
  · exact ⟨{ toStatement := statement }, found, rfl⟩
  · exact ⟨{ toStatement := statement, pool := part.poolAt statement }, found, rfl⟩

theorem Built.addLine {part next : Section} {number : Nat} {raw : Text}
    (built : part.Built catalog file)
    (added : (part.addLine catalog file number raw).value? = some next) :
    next.Built catalog file := by
  obtain ⟨statement, found, grows⟩ := addLineCases added
  have reading : statement.IsRead catalog := ⟨_, _, _, _, found⟩
  rcases addStatementCases grows with ⟨comment, rfl⟩ | ⟨plain, symbols, bound, rfl⟩
  · exact built.comment reading comment
  · exact built.statement reading (Statement.ofFieldsLocation found) plain bound

/-- What holds of comments and of every statement with its pool holds of all entries. -/
theorem Built.entryInduction {holds : Entry → Prop}
    (comments : ∀ entry : Entry, entry.isComment = true → entry.pool = [] →
      entry.toStatement.IsRead catalog → holds entry)
    (statements : ∀ (part : Section) (statement : Statement), statement.IsRead catalog →
      statement.isComment = false →
      holds { toStatement := statement, pool := part.poolAt statement })
    {part : Section} (built : part.Built catalog file) : ∀ entry ∈ part.entries, holds entry := by
  induction built with
  | opened index name start leading bare =>
    intro entry inside
    obtain ⟨comment, empty, reading⟩ := bare entry inside
    exact comments entry comment empty reading
  | comment built reading comment inductionHypothesis =>
    intro entry inside
    rcases List.mem_append.1 inside with old | new
    · exact inductionHypothesis entry old
    · rw [List.mem_singleton.1 new]
      exact comments _ comment rfl reading
  | @statement part statement symbols built reading located plain bound inductionHypothesis =>
    intro entry inside
    rcases List.mem_append.1 inside with old | new
    · exact inductionHypothesis entry old
    · rw [List.mem_singleton.1 new]
      exact statements part statement reading plain

theorem Built.isRead {part : Section} (built : part.Built catalog file) :
    ∀ entry ∈ part.entries, entry.toStatement.IsRead catalog :=
  built.entryInduction (fun _ _ _ reading => reading) (fun _ _ reading _ => reading)

/-- Only a statement that places literals has a pool. -/
theorem Built.unpooled {part : Section} (built : part.Built catalog file) :
    ∀ entry ∈ part.entries, entry.placesLiterals = false → entry.pool = [] := by
  refine built.entryInduction ?_ ?_
  · intro entry _ empty _ _
    exact empty
  · intro before statement _ _ keeps
    exact if_neg (by simpa using keeps)

/-- No literals are placed at a comment. -/
theorem Built.commentPool {part : Section} (built : part.Built catalog file) :
    ∀ entry ∈ part.entries, entry.isComment = true → entry.pool = [] := by
  intro entry inside comment
  apply built.unpooled entry inside
  rw [Statement.placesLiterals, (built.isRead entry inside).commentDirective comment]
  rfl

end Section

namespace Layout

variable {catalog : Catalog} {file : Text}

/-- The opening line that a text is, if it is one. -/
def opening? (raw : Text) : Option Opening :=
  let fields := Statement.fieldsOf raw
  let name := Statement.labelOf fields
  if name = Statement.commentLabel then none
  else match Directive.ofName? (Statement.fieldAt fields 1) with
    | some directive =>
      if directive.opensSection then some ⟨directive, name, Statement.fieldAt fields 2⟩
      else none
    | none => none

theorem openingInEq (raw : Text) : openingIn raw = .ok (opening? raw) := by
  rw [openingIn, Statement.labelInEq (Statement.fieldsOfNeNil raw)]
  rfl

/-- A line is asked for a label that is there. -/
theorem enterEq (layout : Layout) (file : Text) (number : Nat) (raw : Text) :
    layout.enter file number raw =
      match opening? raw with
      | some opening => do
        let start ← openingAddress opening ⟨file, number⟩ raw
        layout.detachComments.2.newSection opening.name start layout.detachComments.1
      | none =>
        match layout.active with
        | some part => pure (layout.finished, part)
        | none => layout.newSection [] 0 [] := by
  rw [enter, openingInEq]
  rfl

/-- A line that opens a section takes the comments at the beginning along. -/
theorem enterOpening {raw : Text} {opening : Opening} (opens : opening? raw = some opening)
    (layout : Layout) (file : Text) (number : Nat) :
    (layout.enter file number raw).value? =
      (openingAddress opening ⟨file, number⟩ raw).toOption.map fun start =>
        (layout.detachComments.2.sections,
          { Section.opened layout.detachComments.2.sections.length opening.name start with
            entries := layout.detachComments.1 }) := by
  rw [enterEq]
  simp only [opens, Logged.valueBind, Logged.valueLift, newSection, Logged.valueReport,
    Logged.valuePure, Option.bind_some]
  exact Option.map_eq_bind.symm

/-- Any other line goes to the active section, or opens one without a name. -/
theorem enterActive {raw : Text} (stays : opening? raw = none)
    (layout : Layout) (file : Text) (number : Nat) :
    (layout.enter file number raw).value? =
      some (match layout.active with
        | some part => (layout.finished, part)
        | none => (layout.sections, Section.opened layout.sections.length [] 0)) := by
  rw [enterEq, stays]
  cases layout.active <;> rfl

/-- The section that takes a line is a new one, with the comments at the beginning if the line opens
it, or the active one. -/
theorem enterCases {layout : Layout} {number : Nat} {raw : Text} {finished : List Section}
    {part : Section} (entered : (layout.enter file number raw).value? = some (finished, part)) :
    (∃ opening start, opening? raw = some opening ∧
      finished = layout.detachComments.2.sections ∧
      part = { Section.opened finished.length opening.name start with
        entries := layout.detachComments.1 }) ∨
    (opening? raw = none ∧ layout.active = some part ∧ finished = layout.finished) ∨
    (opening? raw = none ∧ layout.active = none ∧ finished = layout.sections ∧
      part = Section.opened finished.length [] 0) := by
  cases opens : opening? raw with
  | some opening =>
    rw [enterOpening opens] at entered
    obtain ⟨start, _, same⟩ := Option.map_eq_some_iff.1 entered
    obtain ⟨rfl, rfl⟩ := Prod.mk.inj same
    exact .inl ⟨opening, start, rfl, rfl, rfl⟩
  | none =>
    rw [enterActive opens] at entered
    cases active : layout.active with
    | some current =>
      simp only [active, Option.some.injEq, Prod.mk.injEq] at entered
      obtain ⟨rfl, rfl⟩ := entered
      exact .inr (.inl ⟨rfl, rfl, rfl⟩)
    | none =>
      simp only [active, Option.some.injEq, Prod.mk.injEq] at entered
      obtain ⟨rfl, rfl⟩ := entered
      exact .inr (.inr ⟨rfl, rfl, rfl, rfl⟩)

theorem addLineValue (layout : Layout) (number : Nat) (raw : Text) :
    (addLine catalog file layout number raw).value? =
      if Text.strip raw = [] then some layout
      else (layout.enter file number raw).value?.bind fun entered =>
        (entered.2.addLine catalog file number raw).value?.map fun part =>
          ⟨entered.1, some part⟩ := by
  unfold addLine
  split
  · rfl
  · simp only [Logged.valueBind, Logged.valuePure, Option.map_eq_bind]
    rfl

/-- What a line does to a layout: nothing if it is blank; else its section takes it. -/
theorem addLineCases {layout next : Layout} {number : Nat} {raw : Text}
    (added : (addLine catalog file layout number raw).value? = some next) :
    (Text.strip raw = [] ∧ next = layout) ∨
      (Text.strip raw ≠ [] ∧ ∃ finished part grown,
        (layout.enter file number raw).value? = some (finished, part) ∧
        (part.addLine catalog file number raw).value? = some grown ∧
        next = ⟨finished, some grown⟩) := by
  rw [addLineValue] at added
  split at added
  · next blank => exact .inl ⟨blank, (Option.some.inj added).symm⟩
  · next written =>
    obtain ⟨⟨finished, part⟩, entered, rest⟩ := Option.bind_eq_some_iff.1 added
    obtain ⟨grown, grows, rfl⟩ := Option.map_eq_some_iff.1 rest
    exact .inr ⟨written, finished, part, grown, entered, grows, rfl⟩

/-- What holds of a layout and is kept by every line holds behind all lines. -/
theorem addLinesInduction {holds : Layout → Prop}
    (keeps : ∀ layout number raw next, holds layout →
      (addLine catalog file layout number raw).value? = some next → holds next)
    {layout final : Layout} {number : Nat} {lines : List Text} (initial : holds layout)
    (added : (addLines catalog file layout number lines).value? = some final) : holds final := by
  induction lines generalizing layout number with
  | nil =>
    obtain rfl := Option.some.inj added
    exact initial
  | cons raw rest inductionHypothesis =>
    rw [addLines, Logged.valueBind] at added
    obtain ⟨next, first, later⟩ := Option.bind_eq_some_iff.1 added
    exact inductionHypothesis (keeps layout number raw next initial first) later

/-- Every section of the layout is built. -/
def Built (catalog : Catalog) (file : Text) (layout : Layout) : Prop :=
  ∀ part ∈ layout.sections, part.Built catalog file

/-- The sections behind detached comments are sections of the layout. -/
theorem detachCommentsSections (layout : Layout) :
    ∀ part ∈ layout.detachComments.2.sections, part ∈ layout.sections := by
  intro part inside
  unfold detachComments at inside
  split at inside
  · split at inside
    · simp [sections] at inside
    · exact inside
  · exact inside

/-- The detached comments are all entries of a section of the layout. -/
theorem detachCommentsEntries (layout : Layout) :
    ∀ entry ∈ layout.detachComments.1,
      entry.isComment = true ∧ ∃ part ∈ layout.sections, entry ∈ part.entries := by
  intro entry inside
  unfold detachComments at inside
  split at inside
  · next part =>
    split at inside
    · next all =>
      exact ⟨List.all_eq_true.1 all entry inside, part, by simp [sections], inside⟩
    · simp at inside
  · simp at inside

theorem Built.entered {layout : Layout} {number : Nat} {raw : Text} {finished : List Section}
    {part : Section} (built : layout.Built catalog file)
    (entered : (layout.enter file number raw).value? = some (finished, part)) :
    (∀ other ∈ finished, other.Built catalog file) ∧ part.Built catalog file := by
  rcases enterCases entered with ⟨opening, start, _, rfl, rfl⟩ | ⟨_, active, rfl⟩ |
    ⟨_, _, rfl, rfl⟩
  · refine ⟨fun other inside => built other (detachCommentsSections layout other inside), ?_⟩
    apply Section.Built.opened
    intro entry inside
    obtain ⟨comment, owner, owned, member⟩ := detachCommentsEntries layout entry inside
    have ownerBuilt := built owner owned
    exact ⟨comment, ownerBuilt.commentPool entry member comment, ownerBuilt.isRead entry member⟩
  · refine ⟨fun other inside => built other ?_, built part ?_⟩
    · simp [sections, inside]
    · simp [sections, active]
  · exact ⟨built, .opened _ _ _ [] (by simp)⟩

theorem Built.addLine {layout next : Layout} {number : Nat} {raw : Text}
    (built : layout.Built catalog file)
    (added : (addLine catalog file layout number raw).value? = some next) :
    next.Built catalog file := by
  rcases addLineCases added with ⟨_, rfl⟩ | ⟨_, finished, part, grown, entered, grows, rfl⟩
  · exact built
  · obtain ⟨before, current⟩ := built.entered entered
    intro other inside
    rcases List.mem_append.1 inside with old | new
    · exact before other old
    · obtain rfl := List.mem_singleton.1 new
      exact current.addLine grows

/-- Every section that the lines of a program lay out is built. -/
theorem builtOfLines {lines : List Text} {layout : Layout}
    (laidOut : (ofLines catalog file lines).value? = some layout) : layout.Built catalog file :=
  addLinesInduction (fun _ _ _ _ built added => built.addLine added)
    (by simp [Built, sections]) laidOut

end Layout

end SicXe
