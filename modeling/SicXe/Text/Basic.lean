/-
This file cuts texts at separators and trims them.
A text is a list of characters, so that every rule on it is a recursion over its characters.
-/

namespace SicXe

abbrev Text := List Char

namespace Text

/-- The parts before and after the first separator. -/
def cut? (separator : Char) : Text → Option (Text × Text)
  | [] => none
  | char :: rest =>
    if char = separator then some ([], rest)
    else (cut? separator rest).map fun parts => (char :: parts.1, parts.2)

/-- The text is cut at the first separators only, as many as the bound allows. -/
def splitAtMost (separator : Char) : Nat → Text → List Text
  | 0, text => [text]
  | cuts + 1, text =>
    match cut? separator text with
    | none => [text]
    | some (before, after) => before :: splitAtMost separator cuts after

def join (separator : Char) (pieces : List Text) : Text :=
  [separator].intercalate pieces

def trimStart (drops : Char → Bool) (text : Text) : Text :=
  text.dropWhile drops

def trimEnd (drops : Char → Bool) (text : Text) : Text :=
  (text.reverse.dropWhile drops).reverse

def trim (drops : Char → Bool) (text : Text) : Text :=
  trimEnd drops (trimStart drops text)

theorem cutEqSome {separator : Char} {text before after : Text}
    (found : cut? separator text = some (before, after)) :
    text = before ++ separator :: after ∧ separator ∉ before := by
  induction text generalizing before with
  | nil => simp [cut?] at found
  | cons char rest inductionHypothesis =>
    unfold cut? at found
    split at found
    · next same => simp_all
    · next different =>
      simp only [Option.map_eq_some_iff, Prod.exists, Prod.mk.injEq] at found
      obtain ⟨first, second, cutRest, rfl, rfl⟩ := found
      obtain ⟨shape, absent⟩ := inductionHypothesis cutRest
      refine ⟨by rw [shape]; rfl, ?_⟩
      intro present
      rcases List.mem_cons.1 present with same | inside
      · exact different same.symm
      · exact absent inside

theorem cutEqNone {separator : Char} {text : Text} :
    cut? separator text = none ↔ separator ∉ text := by
  induction text with
  | nil => simp [cut?]
  | cons char rest inductionHypothesis =>
    by_cases same : char = separator
    · simp [cut?, same]
    · have different : ¬ separator = char := fun equal => same equal.symm
      simp [cut?, same, different, inductionHypothesis]

end Text

end SicXe
