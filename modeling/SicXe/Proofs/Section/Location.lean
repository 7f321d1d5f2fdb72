/-
This file holds the invariant of the location counter: a statement stands where the statements
before it and their literals end.
-/

import SicXe.Catalog.Standard
import SicXe.Proofs.Layout.Step

namespace SicXe

/-- The bytes from a statement to the next one: the literals placed at it and its own. -/
def Entry.span (entry : Entry) : Int :=
  Literal.extent entry.pool + entry.size

def Entry.spans (entries : List Entry) : Int :=
  entries.foldr (fun entry total => entry.span + total) 0

/-- Every statement that is no comment stands where those before it end. -/
def Entry.Consecutive : Int → List Entry → Prop
  | _, [] => True
  | here, entry :: rest =>
    (entry.isComment = false → entry.location = here) ∧ Consecutive (here + entry.span) rest

namespace Entry

@[simp] theorem spansNil : spans [] = 0 := rfl

@[simp] theorem spansCons (entry : Entry) (rest : List Entry) :
    spans (entry :: rest) = entry.span + spans rest := rfl

theorem spansAppend (first second : List Entry) :
    spans (first ++ second) = spans first + spans second := by
  induction first with
  | nil => simp
  | cons entry rest inductionHypothesis =>
    rw [List.cons_append, spansCons, spansCons, inductionHypothesis, Int.add_assoc]

theorem consecutiveAppend (here : Int) (first second : List Entry) :
    Consecutive here (first ++ second) ↔
      Consecutive here first ∧ Consecutive (here + spans first) second := by
  induction first generalizing here with
  | nil => simp [Consecutive]
  | cons entry rest inductionHypothesis =>
    simp only [List.cons_append, Consecutive, inductionHypothesis, spansCons, and_assoc,
      Int.add_assoc]

/-- A statement stands where the entries before it end. -/
theorem Consecutive.location {here : Int} {earlier later : List Entry} {entry : Entry}
    (consecutive : Consecutive here (earlier ++ entry :: later))
    (plain : entry.isComment = false) : entry.location = here + spans earlier := by
  obtain ⟨_, located, _⟩ := (consecutiveAppend here earlier (entry :: later)).1 consecutive
  exact located plain

/-- Places depend on the statements and their pools alone. -/
theorem consecutiveMap {convert : Entry → Entry}
    (keeps : ∀ entry, (convert entry).toStatement = entry.toStatement ∧
      (convert entry).pool = entry.pool) (here : Int) (entries : List Entry) :
    Consecutive here (entries.map convert) ↔ Consecutive here entries := by
  induction entries generalizing here with
  | nil => rfl
  | cons entry rest inductionHypothesis =>
    obtain ⟨statement, pool⟩ := keeps entry
    simp only [List.map_cons, Consecutive, span, statement, pool, inductionHypothesis]

/-- A comment takes no place. -/
theorem spanOfComment {catalog : Catalog} {entry : Entry}
    (reading : entry.toStatement.IsRead catalog) (comment : entry.isComment = true)
    (empty : entry.pool = []) : entry.span = 0 := by
  obtain ⟨_, _, size⟩ := reading.comment comment
  rw [span, empty, size]
  rfl

end Entry

namespace Section

variable {catalog : Catalog} {file : Text} {part : Section}

theorem commentsConsecutive {comments : List Entry} (here : Int)
    (bare : ∀ entry ∈ comments, entry.isComment = true ∧ entry.pool = [] ∧
      entry.toStatement.IsRead catalog) :
    Entry.Consecutive here comments ∧ Entry.spans comments = 0 := by
  induction comments generalizing here with
  | nil => exact ⟨trivial, rfl⟩
  | cons entry rest inductionHypothesis =>
    obtain ⟨comment, empty, reading⟩ := bare entry List.mem_cons_self
    have noSpan := Entry.spanOfComment reading comment empty
    obtain ⟨later, total⟩ := inductionHypothesis (here + entry.span)
      fun other inside => bare other (List.mem_cons_of_mem _ inside)
    refine ⟨⟨?_, later⟩, ?_⟩
    · intro plain
      rw [comment] at plain
      contradiction
    · rw [Entry.spansCons, noSpan, total]
      rfl

/-- The counter stands behind all statements, each of which stands behind those before it. -/
theorem Built.located (built : part.Built catalog file) :
    Entry.Consecutive part.start part.entries ∧
      part.counter = part.start + Entry.spans part.entries := by
  induction built with
  | opened index name start comments bare =>
    obtain ⟨consecutive, total⟩ := commentsConsecutive start bare
    refine ⟨consecutive, ?_⟩
    change start = start + Entry.spans comments
    rw [total, Int.add_zero]
  | @comment part statement built reading comment inductionHypothesis =>
    obtain ⟨consecutive, counter⟩ := inductionHypothesis
    have noSpan : Entry.span { toStatement := statement } = 0 :=
      Entry.spanOfComment reading comment rfl
    refine ⟨(Entry.consecutiveAppend _ _ _).2 ⟨consecutive, ?_, trivial⟩, ?_⟩
    · intro plain
      rw [comment] at plain
      contradiction
    · change part.counter = part.start + Entry.spans (part.entries ++ [_])
      rw [Entry.spansAppend, Entry.spansCons, noSpan, counter, Entry.spansNil]
      omega
  | @statement part statement symbols built reading located plain bound inductionHypothesis =>
    obtain ⟨consecutive, counter⟩ := inductionHypothesis
    refine ⟨(Entry.consecutiveAppend _ _ _).2 ⟨consecutive, ?_, trivial⟩, ?_⟩
    · intro _
      rw [located, counter]
      rfl
    · change part.counter + Literal.extent (part.poolAt statement) + statement.size =
        part.start + Entry.spans (part.entries ++ [_])
      rw [Entry.spansAppend, Entry.spansCons, Entry.spansNil, Entry.span, counter]
      simp only
      omega

end Section

namespace Layout

/-- In every section that is laid out, a statement stands at the start of the section plus the bytes
of the statements before it and of their literals, and the counter stands behind all of them. -/
theorem locationsSumSizes {catalog : Catalog} {file : Text} {lines : List Text} {layout : Layout}
    {part : Section} (laidOut : (ofLines catalog file lines).result = .ok layout)
    (member : part ∈ layout.sections) :
    (∀ earlier entry later, part.entries = earlier ++ entry :: later → entry.isComment = false →
      entry.location = part.start + Entry.spans earlier) ∧
    part.counter = part.start + Entry.spans part.entries := by
  have built := builtOfLines (Logged.valueEqSome.2 laidOut) part member
  obtain ⟨consecutive, counter⟩ := built.located
  refine ⟨?_, counter⟩
  intro earlier entry later shape plain
  rw [shape] at consecutive
  exact consecutive.location plain

/-- A comment before the section, a reservation that goes back, a marker on `LTORG`, and a literal
that each of the two pools places. -/
def windingLines : List Text :=
  [".\tbefore", "P\tSTART\t100", "\tLDA\t=C'EOF'", "\tLDA\t===X'05'", "\tRESB\t-2", "\t+LTORG",
    "\tEND\tP"].map String.toList

theorem windingLocations :
    ∃ layout part earlier entry,
      (ofLines Catalog.standard [] windingLines).result = .ok layout ∧ part ∈ layout.sections ∧
      part.entries = earlier ++ [entry] ∧ entry.isComment = false ∧
      earlier.map (·.pool.length) = [0, 0, 0, 0, 0, 2] ∧ entry.pool.length = 1 ∧
      entry.location = 100 + Entry.spans earlier ∧ entry.location = 112 ∧ part.counter = 113 := by
  have evaluated : ∃ layout ∈ (ofLines Catalog.standard [] windingLines).value?,
      ∃ part ∈ layout.sections, ∃ entry ∈ part.entries[6]?,
        part.entries = part.entries.take 6 ++ [entry] ∧ entry.isComment = false ∧
        (part.entries.take 6).map (·.pool.length) = [0, 0, 0, 0, 0, 2] ∧ entry.pool.length = 1 ∧
        part.start = 100 ∧ Entry.spans (part.entries.take 6) = 12 ∧
        Entry.spans part.entries = 13 := by
    decide +kernel
  obtain ⟨layout, value, part, member, entry, _, shape, plain, pools, pool, start, before, total⟩ :=
    evaluated
  have laidOut := Logged.valueEqSome.1 value
  obtain ⟨locations, counter⟩ := locationsSumSizes laidOut member
  have location := locations (part.entries.take 6) entry [] shape plain
  rw [start] at location counter
  refine ⟨layout, part, part.entries.take 6, entry, laidOut, member, shape, plain, pools, pool,
    location, ?_, ?_⟩
  · rw [location, before]
    rfl
  · rw [counter, total]
    rfl

end Layout

end SicXe
