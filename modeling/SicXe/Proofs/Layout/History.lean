/-
This file traces the entries of a layout back to the lines that they come from: what was laid out
before the line of an entry, and what the line added.
-/

import Mathlib.Logic.Nonempty
import SicXe.Proofs.Layout.Step

namespace SicXe

/-- A member of a list with one more item behind it is a member of the list, or that item. -/
theorem splitLast {α : Type} {items before after : List α} {last item : α}
    (shape : items ++ [last] = before ++ item :: after) :
    (∃ tail, after = tail ++ [last] ∧ items = before ++ item :: tail) ∨
      (after = [] ∧ items = before ∧ last = item) := by
  rcases List.eq_nil_or_concat after with rfl | ⟨tail, final, rfl⟩
  · obtain ⟨same, single⟩ := List.append_inj' shape rfl
    exact .inr ⟨rfl, same, List.head_eq_of_cons_eq single⟩
  · rw [List.concat_eq_append, ← List.cons_append, ← List.append_assoc] at shape
    obtain ⟨same, single⟩ := List.append_inj' shape rfl
    exact .inl ⟨tail, by rw [List.concat_eq_append, single], same⟩

namespace Layout

variable {catalog : Catalog} {file : Text}

theorem ofLinesSnoc (lines : List Text) (raw : Text) :
    (ofLines catalog file (lines ++ [raw])).value? =
      (ofLines catalog file lines).value?.bind fun layout =>
        (addLine catalog file layout (lines.length + 1) raw).value? := by
  simp [ofLines, addLinesAppend, addLines, Nat.add_comm]

/-- What holds of the empty layout and is kept by every further line holds of all lines. -/
theorem ofLinesInduction {holds : List Text → Layout → Prop} (initial : holds [] {})
    (keeps : ∀ done layout raw next, (ofLines catalog file done).value? = some layout →
      holds done layout → (addLine catalog file layout (done.length + 1) raw).value? = some next →
      holds (done ++ [raw]) next)
    {lines : List Text} {layout : Layout}
    (laidOut : (ofLines catalog file lines).value? = some layout) : holds lines layout := by
  -- The lines already read grow while those to come shrink.
  have continued : ∀ rest done reached, (ofLines catalog file done).value? = some reached →
      holds done reached → (ofLines catalog file (done ++ rest)).value? = some layout →
      holds (done ++ rest) layout := by
    intro rest
    induction rest with
    | nil =>
      intro done reached readsDone holdsDone readsAll
      rw [List.append_nil, readsDone] at readsAll
      rw [List.append_nil, ← Option.some.inj readsAll]
      exact holdsDone
    | cons raw rest inductionHypothesis =>
      intro done reached readsDone holdsDone readsAll
      have regroup : done ++ raw :: rest = (done ++ [raw]) ++ rest := by simp
      rw [regroup] at readsAll ⊢
      cases added : (addLine catalog file reached (done.length + 1) raw).value? with
      | none =>
        have stuck : (ofLines catalog file (done ++ [raw])).value? = none := by
          rw [ofLinesSnoc, readsDone, Option.bind_some, added]
        rw [ofLines, addLinesAppend, Logged.valueBind, ← ofLines, stuck] at readsAll
        contradiction
      | some next =>
        apply inductionHypothesis (done ++ [raw]) next _ _ readsAll
        · rw [ofLinesSnoc, readsDone, Option.bind_some, added]
        · exact keeps done reached raw next readsDone holdsDone added
  exact continued lines [] {} rfl initial laidOut

/-- The sections behind which a line is entered are sections of the layout, and so is the one that
takes the line, unless it has no statement yet. -/
theorem enterSections {layout : Layout} {number : Nat} {raw : Text} {finished : List Section}
    {part : Section} (entered : (layout.enter file number raw).value? = some (finished, part)) :
    (∀ other ∈ finished, other ∈ layout.sections) ∧
      (part ∈ layout.sections ∨ ∀ entry ∈ part.entries, entry.isComment = true) := by
  rcases enterCases entered with ⟨opening, start, _, rfl, rfl⟩ | ⟨_, active, rfl⟩ |
    ⟨_, _, rfl, rfl⟩
  · refine ⟨detachCommentsSections layout, .inr ?_⟩
    intro entry inside
    exact (detachCommentsEntries layout entry inside).1
  · refine ⟨fun other inside => ?_, .inl ?_⟩
    · simp [sections, inside]
    · simp [sections, active]
  · exact ⟨fun other inside => inside, .inr (by simp [Section.opened])⟩

/-- The step of a run that adds an entry: the lines before it, the layout that they leave, and the
section that takes the statement behind the given entries. -/
structure Adds (catalog : Catalog) (file : Text) (lines : List Text) (earlier : List Entry)
    (statement : Statement) where
  done : List Text
  raw : Text
  rest : List Text
  layout : Layout
  finished : List Section
  part : Section
  symbols : SymbolTable
  cut : lines = done ++ raw :: rest
  line : statement.line = done.length + 1
  before : (ofLines catalog file done).value? = some layout
  entered : (layout.enter file (done.length + 1) raw).value? = some (finished, part)
  entries : part.entries = earlier
  after : (ofLines catalog file (done ++ [raw])).value? =
    some ⟨finished, some (part.grown statement symbols)⟩

/-- A step of a run is one of every longer run. -/
def Adds.later {lines : List Text} {earlier : List Entry} {statement : Statement}
    (step : Adds catalog file lines earlier statement) (raw : Text) :
    Adds catalog file (lines ++ [raw]) earlier statement :=
  { step with
    rest := step.rest ++ [raw]
    cut := by simp [step.cut] }

/-- Every statement of the layout was added by the step of its own line. -/
def Traced (catalog : Catalog) (file : Text) (lines : List Text) (layout : Layout) : Prop :=
  ∀ part ∈ layout.sections, ∀ earlier entry later, part.entries = earlier ++ entry :: later →
    entry.isComment = false → Nonempty (Adds catalog file lines earlier entry.toStatement)

theorem Traced.addLine {done : List Text} {layout next : Layout} {raw : Text}
    (traced : Traced catalog file done layout)
    (before : (ofLines catalog file done).value? = some layout)
    (added : (addLine catalog file layout (done.length + 1) raw).value? = some next) :
    Traced catalog file (done ++ [raw]) next := by
  have reached : (ofLines catalog file (done ++ [raw])).value? = some next := by
    rw [ofLinesSnoc, before, Option.bind_some, added]
  intro part member earlier entry later shape plain
  rcases addLineCases added with ⟨_, rfl⟩ | ⟨_, finished, current, grown, entered, grows, rfl⟩
  · exact (traced part member earlier entry later shape plain).map (·.later raw)
  · obtain ⟨oldFinished, oldCurrent⟩ := enterSections entered
    -- A statement that the section had before the line is traced already.
    have held (tail : List Entry) (cut : current.entries = earlier ++ entry :: tail) :
        Nonempty (Adds catalog file (done ++ [raw]) earlier entry.toStatement) := by
      rcases oldCurrent with old | comments
      · exact (traced current old earlier entry tail cut plain).map (·.later raw)
      · have comment := comments entry (by simp [cut])
        rw [plain] at comment
        contradiction
    rcases List.mem_append.1 member with old | new
    · exact (traced part (oldFinished part old) earlier entry later shape plain).map (·.later raw)
    · obtain rfl := List.mem_singleton.1 new
      obtain ⟨statement, found, joins⟩ := Section.addLineCases grows
      rcases Section.addStatementCases joins with ⟨comment, rfl⟩ | ⟨_, symbols, _, rfl⟩
      · rcases splitLast shape with ⟨tail, _, cut⟩ | ⟨_, _, rfl⟩
        · exact held tail cut
        · rw [comment] at plain
          contradiction
      · rcases splitLast shape with ⟨tail, _, cut⟩ | ⟨_, rfl, rfl⟩
        · exact held tail cut
        · refine ⟨⟨done, raw, [], layout, finished, current, symbols, rfl, ?_, before, entered, rfl,
            reached⟩⟩
          rw [Statement.ofFieldsLine found]
          exact Int.natCast_add done.length 1

theorem tracedOfLines {lines : List Text} {layout : Layout}
    (laidOut : (ofLines catalog file lines).value? = some layout) :
    Traced catalog file lines layout :=
  ofLinesInduction (by simp [Traced, sections])
    (fun _ _ _ _ before traced added => traced.addLine before added) laidOut

end Layout

end SicXe
