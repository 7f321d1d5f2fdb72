/-
This file shows that words with blanks between them, and lines that are written one after the other,
are cut apart again as they were.
-/

import SicXe.Proofs.Text.Pieces
import SicXe.Text.Lines

namespace SicXe.Text

def IsWord (text : Text) : Prop :=
  text ≠ [] ∧ text.any isBlank = false

instance (text : Text) : Decidable (IsWord text) :=
  inferInstanceAs (Decidable (_ ∧ _))

theorem IsWord.unbroken {word : Text} (isWord : IsWord word) :
    ∀ char ∈ word, isBlank char = false := by
  simpa using isWord.2

/-- Words with blanks between them are cut at these blanks. -/
theorem wordsJoin {pieces : List Text} (each : ∀ piece ∈ pieces, IsWord piece) :
    words (join ' ' pieces) = pieces := by
  induction pieces with
  | nil => rfl
  | cons piece rest inductionHypothesis =>
    obtain ⟨isWord, eachOther⟩ := List.forall_mem_cons.1 each
    cases rest with
    | nil => simp [words, join, List.splitOnP_eq_singleton isWord.unbroken, isWord.1]
    | cons next others =>
      have later : words (join ' ' (next :: others)) = _ := inductionHypothesis eachOther
      rw [joinConsCons, words,
        List.splitOnP_append_cons_of_forall_mem isWord.unbroken ' ' (by decide)]
      simpa [words, isWord.1] using later

theorem headWords {char : Char} (solid : isBlank char = false) (rest : Text) :
    ∃ word others, words (char :: rest) = (char :: word) :: others := by
  obtain ⟨piece, pieces, cut⟩ :=
    List.exists_cons_of_ne_nil (List.splitOnP_ne_nil isBlank rest)
  exact ⟨piece, pieces.filter (!·.isEmpty),
    by simp [words, List.splitOnP_cons_eq_if_modifyHead, solid, cut]⟩

theorem linesCons {char : Char} (inside : isLineBreak char = false) (text : Text) :
    lines (char :: text) = match lines text with
      | [] => [[char]]
      | line :: later => (char :: line) :: later := by
  rw [lines]
  · exact if_neg (by simp [inside])
  · rintro rest rfl
    contradiction

theorem linesFeed (text : Text) : lines ('\n' :: text) = [] :: lines text := by
  rw [lines]
  · rfl
  · rintro rest same
    contradiction

theorem linesAppend {line : Text} (unbroken : ∀ char ∈ line, isLineBreak char = false)
    (rest : Text) : lines (line ++ '\n' :: rest) = line :: lines rest := by
  induction line with
  | nil => exact linesFeed rest
  | cons char others inductionHypothesis =>
    obtain ⟨inside, unbrokenOthers⟩ := List.forall_mem_cons.1 unbroken
    rw [List.cons_append, linesCons inside, inductionHypothesis unbrokenOthers]

/-- Lines that are written one after the other are read as they were. -/
theorem linesUnlines {written : List Text}
    (unbroken : ∀ line ∈ written, ∀ char ∈ line, isLineBreak char = false) :
    lines (unlines written) = written := by
  induction written with
  | nil => rfl
  | cons line rest inductionHypothesis =>
    obtain ⟨unbrokenLine, unbrokenRest⟩ := List.forall_mem_cons.1 unbroken
    rw [unlines, List.flatMap_cons, List.append_assoc, List.singleton_append,
      linesAppend unbrokenLine]
    exact congrArg (line :: ·) (inductionHypothesis unbrokenRest)

theorem unifyLineEndsOfFeeds {text : Text} (feeds : '\r' ∉ text) : unifyLineEnds text = text := by
  induction text with
  | nil => rfl
  | cons char rest inductionHypothesis =>
    simp only [List.mem_cons, not_or] at feeds
    rw [unifyLineEnds, inductionHypothesis feeds.2]
    · rintro later rfl
      exact absurd rfl feeds.1
    · rintro rfl
      exact absurd rfl feeds.1

/-- The line ends of lines that are written one after the other are alike. -/
theorem unifyLineEndsUnlines {written : List Text}
    (unbroken : ∀ line ∈ written, ∀ char ∈ line, isLineBreak char = false) :
    unifyLineEnds (unlines written) = unlines written := by
  refine unifyLineEndsOfFeeds fun inside => ?_
  obtain ⟨line, listed, held⟩ := List.mem_flatMap.1 inside
  rcases List.mem_append.1 held with within | feed
  · have unbrokenLine := unbroken line listed _ within
    contradiction
  · simp at feed

theorem blankOfLineBreak {char : Char} (breaks : isLineBreak char = true) :
    isBlank char = true := by
  obtain ⟨range, member, low, high⟩ := (inRangesIff _ _).1 breaks
  have wider : ∀ range ∈ lineBreaks, ∃ wide ∈ blanks,
      wide.first ≤ range.first ∧ range.last ≤ wide.last := by
    decide
  obtain ⟨wide, listed, lower, higher⟩ := wider range member
  exact (inRangesIff _ _).2 ⟨wide, listed, by omega, by omega⟩

theorem wordsOnOneLine {pieces : List Text} (each : ∀ piece ∈ pieces, IsWord piece) :
    ∀ char ∈ join ' ' pieces, isLineBreak char = false := by
  intro char inside
  rcases memJoin inside with rfl | ⟨piece, listed, held⟩
  · rfl
  · rw [Bool.eq_false_iff]
    intro breaks
    have solid := (each piece listed).unbroken char held
    rw [blankOfLineBreak breaks] at solid
    contradiction

end SicXe.Text
