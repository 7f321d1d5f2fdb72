/-
This file lists the patches of a section from its statements alone: each statement that names an
external symbol asks for its patches, and only the `EXTREF`s before it say what is external.
-/

import SicXe.Catalog.Standard
import SicXe.Proofs.Section.External

namespace SicXe

namespace Statement

/-- The patch that adds a name with its sign to the field of the statement. -/
def patch (statement : Statement) (sign : Char) (name : Text) : Patch :=
  if statement.extended then ⟨sign :: name, statement.location + 1, 5⟩
  else ⟨sign :: name, statement.location, 6⟩

/-- The patches that a statement asks for behind the given entries. A difference has one for either
side, be it external or not. -/
def patchesBehind (earlier : List Entry) (statement : Statement) : List Patch :=
  match statement.operand with
  | none => []
  | some operand =>
    if statement.isComment = false ∧ statement.asksPatches = true ∧
        statement.refersTo earlier = true then
      match operand.form with
      | .difference left right => [statement.patch '+' left, statement.patch '-' right]
      | form => form.symbols.map (statement.patch '+')
    else []

variable {statement : Statement} {earlier : List Entry}

theorem patchesBehindOfComment (comment : statement.isComment = true) :
    statement.patchesBehind earlier = [] := by
  unfold patchesBehind
  split
  · rfl
  · exact if_neg fun plain => by simp [comment] at plain

/-- A patch is asked for by a statement with symbols, and has its place in the statement's field. -/
theorem patchesBehindCases {patch : Patch} (asked : patch ∈ statement.patchesBehind earlier) :
    statement.isComment = false ∧ statement.symbols ≠ [] ∧
      ∃ sign name, patch = statement.patch sign name := by
  unfold patchesBehind at asked
  split at asked
  · simp at asked
  · next operand _ =>
    split at asked
    · next asks =>
      obtain ⟨plain, _, refers⟩ := asks
      obtain ⟨name, named, _⟩ := List.any_eq_true.1 refers
      refine ⟨plain, List.ne_nil_of_mem named, ?_⟩
      split at asked
      · next left right _ =>
        rcases List.mem_cons.1 asked with rfl | second
        · exact ⟨'+', left, rfl⟩
        · exact ⟨'-', right, List.mem_singleton.1 second⟩
      · obtain ⟨symbol, _, rfl⟩ := List.mem_map.1 asked
        exact ⟨'+', symbol, rfl⟩
    · simp at asked

end Statement

namespace Entry

/-- The patches of the entries in their order, each entry behind all those before it. -/
def patchesAlong : List Entry → List Entry → List Patch
  | _, [] => []
  | earlier, entry :: rest =>
    entry.patchesBehind earlier ++ patchesAlong (earlier ++ [entry]) rest

theorem patchesAlongSnoc (earlier entries : List Entry) (entry : Entry) :
    patchesAlong earlier (entries ++ [entry]) =
      patchesAlong earlier entries ++ entry.patchesBehind (earlier ++ entries) := by
  induction entries generalizing earlier with
  | nil => simp [patchesAlong]
  | cons first rest inductionHypothesis =>
    simp only [List.cons_append, patchesAlong, inductionHypothesis, List.append_assoc,
      List.nil_append]

theorem patchesAlongOfComments (earlier : List Entry) {entries : List Entry}
    (comments : ∀ entry ∈ entries, entry.isComment = true) :
    patchesAlong earlier entries = [] := by
  induction entries generalizing earlier with
  | nil => rfl
  | cons entry rest inductionHypothesis =>
    have first := comments entry List.mem_cons_self
    have later := inductionHypothesis (earlier ++ [entry]) fun other inside =>
      comments other (List.mem_cons_of_mem _ inside)
    rw [patchesAlong, Statement.patchesBehindOfComment first, later]
    rfl

end Entry

namespace Section

variable {catalog : Catalog} {file : Text} {part : Section} {statement : Statement}

/-- What a statement adds to the patches is what it asks for behind the entries of the section. -/
theorem Built.patchesAtEq (built : part.Built catalog file)
    (located : statement.location = part.counter) (plain : statement.isComment = false) :
    part.patchesAt statement = statement.patchesBehind part.entries := by
  unfold Section.patchesAt patchesFor Statement.patchesBehind
  cases operand : statement.operand with
  | none => simp
  | some written =>
    have mentions : written.symbols.any part.isExternal = statement.refersTo part.entries := by
      rw [← built.mentionsExternal, Section.mentionsExternal, operand, Option.any_some]
    simp only [mentions]
    by_cases silent : statement.placesLiterals = true ∨ statement.directive? = some .extref
    · simp [Statement.asksPatches, silent]
    · cases refers : statement.refersTo part.entries with
      | false => simp
      | true =>
        obtain ⟨text, form⟩ := written
        have asks : statement.asksPatches = true := by simpa [Statement.asksPatches] using silent
        rw [if_neg silent, if_pos rfl, ← located]
        dsimp only
        rw [if_pos ⟨plain, asks, rfl⟩]
        cases form with
        | difference left right => simp [signedSymbols, Statement.patch]
        | _ => simp [signedSymbols, Operand.symbols, Statement.patch]

/-- Every statement asks for its patches behind the entries that stood before it. -/
theorem Built.patchesAlong (built : part.Built catalog file) :
    part.patches = Entry.patchesAlong [] part.entries := by
  induction built with
  | opened index name start comments bare =>
    exact (Entry.patchesAlongOfComments [] fun entry inside => (bare entry inside).1).symm
  | @comment part statement built reading comment inductionHypothesis =>
    change part.patches = Entry.patchesAlong [] (part.entries ++ [_])
    rw [Entry.patchesAlongSnoc, Statement.patchesBehindOfComment comment, List.append_nil]
    exact inductionHypothesis
  | @statement part statement symbols built reading located plain bound inductionHypothesis =>
    change part.patches ++ part.patchesAt statement =
      Entry.patchesAlong [] (part.entries ++ [_])
    rw [Entry.patchesAlongSnoc, List.nil_append, inductionHypothesis,
      built.patchesAtEq located plain]

end Section

namespace Layout

/-- The patches of a section that is laid out are those that its statements ask for, one statement
after the other. -/
theorem patchesListStatements {catalog : Catalog} {file : Text} {lines : List Text}
    {layout : Layout} {part : Section}
    (laidOut : (ofLines catalog file lines).result = .ok layout)
    (member : part ∈ layout.sections) :
    part.patches = Entry.patchesAlong [] part.entries := by
  have built := builtOfLines (Logged.valueEqSome.2 laidOut) part member
  exact built.patchesAlong

/-- References before and behind the declarations of their symbols. -/
def interleavedLines : List Text :=
  ["P\tSTART\t0", "\tEXTREF\tX,Y", "\t+LDA\tX", "\tWORD\tX-L", "\tLDA\tZ", "\tEXTREF\t=Z",
    "\tLDA\t#Z", "L\tWORD\t0", "\tEND\tP"].map String.toList

theorem interleavedPatches :
    ∃ layout part,
      (ofLines Catalog.standard [] interleavedLines).result = .ok layout ∧
      part ∈ layout.sections ∧
      part.patches = [⟨"+X".toList, 1, 5⟩, ⟨"+X".toList, 4, 6⟩, ⟨"-L".toList, 4, 6⟩,
        ⟨"+Z".toList, 10, 6⟩] := by
  have evaluated : ∃ layout ∈ (ofLines Catalog.standard [] interleavedLines).value?,
      ∃ part ∈ layout.sections,
        Entry.patchesAlong [] part.entries = [⟨"+X".toList, 1, 5⟩, ⟨"+X".toList, 4, 6⟩,
          ⟨"-L".toList, 4, 6⟩, ⟨"+Z".toList, 10, 6⟩] := by
    decide +kernel
  obtain ⟨layout, value, part, member, listed⟩ := evaluated
  have laidOut := Logged.valueEqSome.1 value
  exact ⟨layout, part, laidOut, member, (patchesListStatements laidOut member).trans listed⟩

end Layout

end SicXe
