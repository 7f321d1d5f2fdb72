/-
This file says how the pieces of a text between separators follow from its first separator, and what
becomes of them when only some separators cut or when the blanks around the text are dropped.
-/

import SicXe.Text.Blank

namespace SicXe.Text

variable {separator : Char}

/-- A character that is no separator goes into the first piece. -/
theorem splitOnCons {char : Char} (inside : char ≠ separator) {rest piece : Text}
    {pieces : List Text} (cutRest : List.splitOn separator rest = piece :: pieces) :
    List.splitOn separator (char :: rest) = (char :: piece) :: pieces := by
  have kept : (char == separator) = false := by simpa using inside
  simp [List.splitOn_cons_eq_if_modifyHead, kept, cutRest]

theorem splitOnSeparator (rest : Text) :
    List.splitOn separator (separator :: rest) = [] :: List.splitOn separator rest :=
  List.splitOn_append_cons_self_of_not_mem List.not_mem_nil rest

/-- There is one piece more than there are separators. -/
theorem splitOnLength (text : Text) :
    (List.splitOn separator text).length = text.count separator + 1 := by
  induction text with
  | nil => rfl
  | cons first rest inductionHypothesis =>
    by_cases same : first = separator
    · subst same
      rw [splitOnSeparator, List.length_cons, inductionHypothesis, List.count_cons_self]
    · obtain ⟨piece, pieces, cutRest⟩ :=
        List.exists_cons_of_ne_nil (List.splitOn_ne_nil separator rest)
      rw [cutRest] at inductionHypothesis
      rw [splitOnCons same cutRest, List.count_cons_of_ne same]
      exact inductionHypothesis

/-- A further character that is no separator goes into the last piece. -/
theorem splitOnSnoc {char : Char} (inside : char ≠ separator) (text : Text) :
    ∃ before last, List.splitOn separator text = before ++ [last] ∧
      List.splitOn separator (text ++ [char]) = before ++ [last ++ [char]] := by
  induction text with
  | nil => exact ⟨[], [], rfl, splitOnCons inside rfl⟩
  | cons first rest inductionHypothesis =>
    obtain ⟨before, last, cutRest, cutLonger⟩ := inductionHypothesis
    by_cases same : first = separator
    · subst same
      refine ⟨[] :: before, last, ?_, ?_⟩
      · rw [splitOnSeparator, cutRest, List.cons_append]
      · rw [List.cons_append, splitOnSeparator, cutLonger, List.cons_append]
    · cases before with
      | nil => exact ⟨[], first :: last, splitOnCons same cutRest, splitOnCons same cutLonger⟩
      | cons piece pieces =>
        exact ⟨(first :: piece) :: pieces, last, splitOnCons same cutRest,
          splitOnCons same cutLonger⟩

/-- Every character of a text is a separator or stands in a piece. -/
theorem memPiece (separator : Char) {text : Text} {char : Char} (inside : char ∈ text) :
    char = separator ∨ ∃ piece ∈ List.splitOn separator text, char ∈ piece := by
  induction text with
  | nil => simp at inside
  | cons first rest inductionHypothesis =>
    by_cases same : first = separator
    · subst same
      rw [splitOnSeparator]
      rcases List.mem_cons.1 inside with rfl | later
      · exact .inl rfl
      · refine (inductionHypothesis later).imp_right ?_
        rintro ⟨piece, member, held⟩
        exact ⟨piece, List.mem_cons_of_mem _ member, held⟩
    · obtain ⟨piece, pieces, cutRest⟩ :=
        List.exists_cons_of_ne_nil (List.splitOn_ne_nil separator rest)
      rw [splitOnCons same cutRest]
      rw [cutRest] at inductionHypothesis
      rcases List.mem_cons.1 inside with rfl | later
      · exact .inr ⟨char :: piece, List.mem_cons_self, List.mem_cons_self⟩
      · refine (inductionHypothesis later).imp_right ?_
        rintro ⟨other, member, held⟩
        rcases List.mem_cons.1 member with rfl | deeper
        · exact ⟨first :: other, List.mem_cons_self, List.mem_cons_of_mem _ held⟩
        · exact ⟨other, List.mem_cons_of_mem _ deeper, held⟩

/-- A piece has no separator, and all its characters are in the text. -/
theorem splitOnPiece {text piece : Text} (member : piece ∈ List.splitOn separator text) :
    separator ∉ piece ∧ piece ⊆ text := by
  induction text generalizing piece with
  | nil =>
    obtain rfl := List.mem_singleton.1 member
    simp
  | cons first rest inductionHypothesis =>
    by_cases same : first = separator
    · subst same
      rw [splitOnSeparator] at member
      rcases List.mem_cons.1 member with rfl | deeper
      · simp
      · obtain ⟨absent, held⟩ := inductionHypothesis deeper
        exact ⟨absent, List.subset_cons_of_subset _ held⟩
    · obtain ⟨head, pieces, cutRest⟩ :=
        List.exists_cons_of_ne_nil (List.splitOn_ne_nil separator rest)
      rw [splitOnCons same cutRest] at member
      rw [cutRest] at inductionHypothesis
      rcases List.mem_cons.1 member with rfl | deeper
      · obtain ⟨absent, held⟩ := inductionHypothesis List.mem_cons_self
        exact ⟨by simp [Ne.symm same, absent], List.cons_subset_cons _ held⟩
      · obtain ⟨absent, held⟩ := inductionHypothesis (List.mem_cons_of_mem _ deeper)
        exact ⟨absent, List.subset_cons_of_subset _ held⟩

theorem joinConsCons (piece next : Text) (others : List Text) :
    join separator (piece :: next :: others) =
      piece ++ separator :: join separator (next :: others) := by
  rw [join, join, List.intercalate_cons_cons, List.append_assoc, List.singleton_append]

theorem joinSnoc {pieces : List Text} (some : pieces ≠ []) (last : Text) :
    join separator (pieces ++ [last]) = join separator pieces ++ separator :: last := by
  induction pieces with
  | nil => contradiction
  | cons piece rest inductionHypothesis =>
    cases rest with
    | nil => simp [join]
    | cons next others =>
      have later := inductionHypothesis (by simp)
      simp only [join, List.cons_append, List.intercalate_cons_cons] at later ⊢
      rw [later]
      simp

theorem memJoin {pieces : List Text} {char : Char} (inside : char ∈ join separator pieces) :
    char = separator ∨ ∃ piece ∈ pieces, char ∈ piece := by
  induction pieces with
  | nil => simp [join] at inside
  | cons piece rest inductionHypothesis =>
    have behind (held : char ∈ join separator rest) :
        char = separator ∨ ∃ other ∈ piece :: rest, char ∈ other := by
      refine (inductionHypothesis held).imp_right ?_
      rintro ⟨other, member, found⟩
      exact ⟨other, List.mem_cons_of_mem _ member, found⟩
    cases rest with
    | nil => exact .inr ⟨piece, List.mem_cons_self, by simpa [join] using inside⟩
    | cons next others =>
      rw [join, List.intercalate_cons_cons, List.mem_append, List.mem_append] at inside
      rcases inside with (first | cut) | later
      · exact .inr ⟨piece, List.mem_cons_self, first⟩
      · exact .inl (List.mem_singleton.1 cut)
      · exact behind later

theorem cutOfAppend {before : Text} (absent : separator ∉ before) (after : Text) :
    cut? separator (before ++ separator :: after) = some (before, after) := by
  induction before with
  | nil => simp [cut?]
  | cons char rest inductionHypothesis =>
    obtain ⟨different, later⟩ := not_or.1 (mt List.mem_cons.2 absent)
    rw [List.cons_append, cut?, if_neg (Ne.symm different), inductionHypothesis later]
    rfl

/-- A bound on the cuts that the text does not exceed leaves all its pieces. -/
theorem splitAtMostOfShort {cuts : Nat} {text : Text}
    (short : (List.splitOn separator text).length ≤ cuts + 1) :
    splitAtMost separator cuts text = List.splitOn separator text := by
  induction cuts generalizing text with
  | zero =>
    cases found : cut? separator text with
    | none => exact (List.splitOn_eq_singleton (cutEqNone.1 found)).symm
    | some parts =>
      obtain ⟨shape, absent⟩ := cutEqSome found
      obtain ⟨piece, pieces, cutRest⟩ :=
        List.exists_cons_of_ne_nil (List.splitOn_ne_nil separator parts.2)
      simp [shape, List.splitOn_append_cons_self_of_not_mem absent, cutRest] at short
  | succ cuts inductionHypothesis =>
    rw [splitAtMost]
    split
    · next found => exact (List.splitOn_eq_singleton (cutEqNone.1 found)).symm
    · next before after found =>
      obtain ⟨rfl, absent⟩ := cutEqSome found
      rw [List.splitOn_append_cons_self_of_not_mem absent] at short ⊢
      rw [inductionHypothesis (Nat.le_of_succ_le_succ short)]

/-- As many pieces as the bound allows are found again, and the last one may hold separators. -/
theorem splitAtMostJoin {cuts : Nat} {pieces : List Text} (some : pieces ≠ [])
    (short : pieces.length ≤ cuts + 1) (absent : ∀ piece ∈ pieces.take cuts, separator ∉ piece) :
    splitAtMost separator cuts (join separator pieces) = pieces := by
  induction cuts generalizing pieces with
  | zero =>
    obtain ⟨piece, rfl⟩ := List.length_eq_one_iff.1
      (Nat.le_antisymm short (List.length_pos_iff.2 some))
    rw [join, List.intercalate_singleton]
    rfl
  | succ cuts inductionHypothesis =>
    obtain ⟨piece, rest, rfl⟩ := List.exists_cons_of_ne_nil some
    rw [List.take_succ_cons, List.forall_mem_cons] at absent
    obtain ⟨first, later⟩ := absent
    cases rest with
    | nil =>
      rw [join, List.intercalate_singleton, splitAtMost, cutEqNone.2 first]
    | cons next others =>
      have deeper := inductionHypothesis (by simp) (Nat.le_of_succ_le_succ short) later
      rw [joinConsCons, splitAtMost, cutOfAppend first]
      exact congrArg (piece :: ·) deeper

theorem splitAtMostLength (cuts : Nat) (text : Text) :
    (splitAtMost separator cuts text).length ≤ cuts + 1 := by
  induction cuts generalizing text with
  | zero => simp [splitAtMost]
  | succ cuts inductionHypothesis =>
    rw [splitAtMost]
    split
    · simp
    · exact Nat.succ_le_succ (inductionHypothesis _)

theorem trimEndSnoc {drops : Char → Bool} {char : Char} (dropped : drops char = true)
    (text : Text) : trimEnd drops (text ++ [char]) = trimEnd drops text := by
  simp [trimEnd, dropped]

theorem trimEndSnocKept {drops : Char → Bool} {char : Char} (kept : drops char = false)
    (text : Text) : trimEnd drops (text ++ [char]) = text ++ [char] := by
  simp [trimEnd, kept]

theorem stripCons {char : Char} (blank : isBlank char = true) (text : Text) :
    strip (char :: text) = strip text := by
  simp [strip, trim, trimStart, blank]

theorem stripSnoc {char : Char} (blank : isBlank char = true) (text : Text) :
    strip (text ++ [char]) = strip text := by
  unfold strip trim trimStart
  rw [List.dropWhile_append]
  split
  · next none =>
    rw [List.isEmpty_iff.1 none]
    simp [blank]
  · exact trimEndSnoc blank _

/-- What stands in a text and not between its outer blanks is a blank. -/
theorem memStrip {text : Text} {char : Char} (inside : char ∈ text)
    (written : isBlank char = false) : char ∈ strip text := by
  have kept {other : Text} (held : char ∈ other) : char ∈ other.dropWhile isBlank := by
    rw [← List.takeWhile_append_dropWhile (p := isBlank) (l := other)] at held
    rcases List.mem_append.1 held with front | back
    · rw [List.all_eq_true.1 List.all_takeWhile char front] at written
      contradiction
    · exact back
  simp only [strip, trim, trimEnd, trimStart, List.mem_reverse]
  exact kept (List.mem_reverse.2 (kept inside))

theorem stripSublist (text : Text) : (strip text).Sublist text := by
  unfold strip trim trimEnd trimStart
  rw [← List.reverse_sublist, List.reverse_reverse]
  exact (List.dropWhile_sublist _).trans (List.dropWhile_sublist _).reverse

/-- What begins a trimmed text needs no trimming at its front. -/
theorem dropWhileOfTrimmed {drops : Char → Bool} {kept text : Text}
    (begins : kept <+: text.dropWhile drops) : kept.dropWhile drops = kept := by
  obtain ⟨after, shape⟩ := begins
  cases kept with
  | nil => rfl
  | cons first rest =>
    have head := List.head?_dropWhile_not drops text
    rw [← shape] at head
    have solid : drops first = false := by simpa using head
    rw [List.dropWhile_cons, solid]
    rfl

theorem trimTrim (drops : Char → Bool) (text : Text) :
    trim drops (trim drops text) = trim drops text := by
  have begins : trim drops text <+: text.dropWhile drops := by
    rw [← List.reverse_suffix, trim, trimEnd, List.reverse_reverse]
    exact List.dropWhile_suffix _
  have front : trimStart drops (trim drops text) = trim drops text := dropWhileOfTrimmed begins
  have back : trimEnd drops (trim drops text) = trim drops text := by
    rw [trim, trimEnd, trimEnd, List.reverse_reverse, dropWhileOfTrimmed (List.prefix_refl _)]
  exact (congrArg (trimEnd drops) front).trans back

theorem stripStrip (text : Text) : strip (strip text) = strip text :=
  trimTrim isBlank text

/-- What trimming takes away stands at the two ends of the text. -/
theorem trimParts (drops : Char → Bool) (text : Text) :
    ∃ front back, text = front ++ (trim drops text ++ back) ∧
      (∀ char ∈ front, drops char = true) ∧ ∀ char ∈ back, drops char = true := by
  have first : text.takeWhile drops ++ trimStart drops text = text :=
    List.takeWhile_append_dropWhile
  have last := congrArg List.reverse
    (List.takeWhile_append_dropWhile (p := drops) (l := (trimStart drops text).reverse))
  rw [List.reverse_append, List.reverse_reverse] at last
  refine ⟨text.takeWhile drops, ((trimStart drops text).reverse.takeWhile drops).reverse, ?_,
    ?_, ?_⟩
  · exact first.symm.trans (congrArg (text.takeWhile drops ++ ·) last.symm)
  · exact fun char inside => List.all_eq_true.1 List.all_takeWhile char inside
  · intro char inside
    exact List.all_eq_true.1 List.all_takeWhile char (List.mem_reverse.1 inside)

theorem trimStartSolid {drops : Char → Bool} {text : Text}
    (first : ∀ char ∈ text.head?, drops char = false) : trimStart drops text = text := by
  cases text with
  | nil => rfl
  | cons char rest => rw [trimStart, List.dropWhile_cons, first char rfl]; rfl

theorem trimEndSolid {drops : Char → Bool} {text : Text}
    (last : ∀ char ∈ text.getLast?, drops char = false) : trimEnd drops text = text := by
  rw [← List.head?_reverse] at last
  exact (congrArg List.reverse (trimStartSolid last)).trans (List.reverse_reverse text)

/-- A text that neither begins nor ends with what is trimmed away is left as it is. -/
theorem trimSolid {drops : Char → Bool} {text : Text}
    (first : ∀ char ∈ text.head?, drops char = false)
    (last : ∀ char ∈ text.getLast?, drops char = false) : trim drops text = text := by
  rw [trim, trimStartSolid first, trimEndSolid last]

theorem trimEndAppend {drops : Char → Bool} {back : Text}
    (dropped : ∀ char ∈ back, drops char = true) (text : Text) :
    trimEnd drops (text ++ back) = trimEnd drops text := by
  rw [trimEnd, trimEnd, List.reverse_append, List.dropWhile_append_of_pos]
  intro char inside
  exact dropped char (List.mem_reverse.1 inside)

/-- A text without blanks around it begins and ends with other characters. -/
theorem solidOfStrip {text : Text} (stripped : strip text = text) :
    (∀ char ∈ text.head?, isBlank char = false) ∧ ∀ char ∈ text.getLast?, isBlank char = false := by
  -- A text that loses a blank at an end would be longer than what is left of it.
  have longer {other : Text} (same : strip text = strip other) : text.length ≤ other.length := by
    rw [← stripped, same]
    exact (stripSublist other).length_le
  constructor
  · intro char first
    obtain ⟨rest, shape⟩ := List.head?_eq_some_iff.1 first
    rw [Bool.eq_false_iff]
    intro blank
    have bound := longer ((congrArg strip shape).trans (stripCons blank rest))
    rw [shape, List.length_cons] at bound
    omega
  · intro char last
    obtain ⟨rest, shape⟩ := List.getLast?_eq_some_iff.1 last
    rw [Bool.eq_false_iff]
    intro blank
    have bound := longer ((congrArg strip shape).trans (stripSnoc blank rest))
    rw [shape, List.length_append, List.length_singleton] at bound
    omega

theorem lastOfCons {char first : Char} {rest : Text} (last : char ∈ (first :: rest).getLast?) :
    char = first ∨ char ∈ rest.getLast? := by
  rw [List.getLast?_cons, Option.mem_def, Option.some.injEq] at last
  cases behind : rest.getLast? with
  | none => exact .inl (by rw [← last, behind]; rfl)
  | some other => exact .inr (by rw [← last, behind]; rfl)

/-- Pieces without blanks around them make a text without blanks around it. -/
theorem stripJoin (solid : isBlank separator = false) {pieces : List Text}
    (stripped : ∀ piece ∈ pieces, strip piece = piece) :
    strip (join separator pieces) = join separator pieces := by
  induction pieces with
  | nil => rfl
  | cons piece rest inductionHypothesis =>
    obtain ⟨pieceStripped, later⟩ := List.forall_mem_cons.1 stripped
    cases rest with
    | nil => rwa [join, List.intercalate_singleton]
    | cons next others =>
      obtain ⟨first, _⟩ := solidOfStrip pieceStripped
      obtain ⟨_, last⟩ := solidOfStrip (inductionHypothesis later)
      rw [joinConsCons]
      apply trimSolid
      · intro char begins
        rw [List.head?_append, Option.mem_def, Option.or_eq_some_iff] at begins
        rcases begins with own | ⟨_, cut⟩
        · exact first char own
        · exact Option.some.inj cut ▸ solid
      · intro char ends
        rw [List.getLast?_append, Option.or_of_isSome (by simp)] at ends
        rcases lastOfCons ends with rfl | behind
        · exact solid
        · exact last char behind

/-- What one blank at an end of the text does not change is the same for all blanks around it. -/
theorem sameAround {β : Type} {view : Text → β}
    (ahead : ∀ char, isBlank char = true → ∀ text, view (char :: text) = view text)
    (behind : ∀ char, isBlank char = true → ∀ text, view (text ++ [char]) = view text)
    {front back : Text} (before : ∀ char ∈ front, isBlank char = true)
    (after : ∀ char ∈ back, isBlank char = true) (text : Text) :
    view (front ++ (text ++ back)) = view text := by
  have last : view (text ++ back) = view text := by
    induction back generalizing text with
    | nil => rw [List.append_nil]
    | cons char rest inductionHypothesis =>
      have later := inductionHypothesis
        (fun other inside => after other (List.mem_cons_of_mem _ inside)) (text ++ [char])
      rw [← behind char (after char List.mem_cons_self) text, ← later, List.append_assoc,
        List.singleton_append]
  induction front with
  | nil => exact last
  | cons char rest inductionHypothesis =>
    rw [List.cons_append, ahead char (before char List.mem_cons_self)]
    exact inductionHypothesis fun other inside => before other (List.mem_cons_of_mem _ inside)

theorem stripAround {front back : Text} (before : ∀ char ∈ front, isBlank char = true)
    (after : ∀ char ∈ back, isBlank char = true) (text : Text) :
    strip (front ++ (text ++ back)) = strip text :=
  sameAround (fun _ blank => stripCons blank) (fun _ blank => stripSnoc blank) before after text

/-- The words of a text do not depend on the blanks around it. -/
theorem wordsStrip (text : Text) : words (strip text) = words text := by
  have ahead (char : Char) (blank : isBlank char = true) (text : Text) :
      words (char :: text) = words text := by
    simp [words, List.splitOnP_cons_eq_if_modifyHead, blank]
  have behind (char : Char) (blank : isBlank char = true) (text : Text) :
      words (text ++ [char]) = words text := by
    simp [words, List.splitOnP_append_cons text [] blank]
  obtain ⟨front, back, shape, before, after⟩ := trimParts isBlank text
  calc words (strip text)
    _ = words (front ++ (trim isBlank text ++ back)) :=
      (sameAround ahead behind before after _).symm
    _ = words text := congrArg words shape.symm

/-- The blanks around a text are blanks around its first and last pieces. -/
theorem mapStripSplitOn (solid : isBlank separator = false) (text : Text) :
    (List.splitOn separator (strip text)).map strip = (List.splitOn separator text).map strip := by
  have inner {char : Char} (blank : isBlank char = true) : char ≠ separator := by
    rintro rfl
    rw [blank] at solid
    contradiction
  have front (text : Text) :
      (List.splitOn separator (trimStart isBlank text)).map strip =
        (List.splitOn separator text).map strip := by
    induction text with
    | nil => rfl
    | cons char rest inductionHypothesis =>
      cases blank : isBlank char with
      | false => simp [trimStart, blank]
      | true =>
        obtain ⟨piece, pieces, cutRest⟩ :=
          List.exists_cons_of_ne_nil (List.splitOn_ne_nil separator rest)
        have shorter : trimStart isBlank (char :: rest) = trimStart isBlank rest := by
          simp [trimStart, blank]
        rw [shorter, inductionHypothesis, splitOnCons (inner blank) cutRest, cutRest,
          List.map_cons, List.map_cons, stripCons blank]
  -- The blanks behind the text go one by one, so the induction is on the reversed text.
  have back (reversed : Text) :
      (List.splitOn separator (trimEnd isBlank reversed.reverse)).map strip =
        (List.splitOn separator reversed.reverse).map strip := by
    induction reversed with
    | nil => rfl
    | cons char rest inductionHypothesis =>
      rw [List.reverse_cons]
      cases blank : isBlank char with
      | false => rw [trimEndSnocKept blank]
      | true =>
        obtain ⟨before, last, cutRest, cutLonger⟩ := splitOnSnoc (inner blank) rest.reverse
        rw [trimEndSnoc blank, inductionHypothesis, cutRest, cutLonger]
        simp [stripSnoc blank]
  have both := back (trimStart isBlank text).reverse
  rw [List.reverse_reverse] at both
  exact both.trans (front text)

end SicXe.Text
