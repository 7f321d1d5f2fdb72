/-
This file shows that paths are written in their shortest way once and for all. Doing it again
changes nothing, also behind a change of the extension.
-/

import SicXe.Files.Path
import SicXe.Proofs.Text.Pieces

namespace SicXe.Path

/-- A component that is kept when a path is written in its shortest way. -/
structure IsComponent (part : Text) : Prop where
  solid : part ≠ []
  moving : part ≠ ['.']
  undivided : '/' ∉ part

/-- What may stand before the first component. -/
inductive IsRoot : Text → Prop where
  | relative : IsRoot []
  | absolute : IsRoot ['/']
  | double : IsRoot ['/', '/']

theorem isRootRootOf (path : Text) : IsRoot (rootOf path) := by
  unfold rootOf
  split
  · exact .relative
  · exact .double
  · exact .absolute

theorem isComponentOfMem {path part : Text} (member : part ∈ components path) :
    IsComponent part := by
  obtain ⟨listed, kept⟩ := List.mem_filter.1 member
  simp only [Bool.and_eq_true, bne_iff_ne] at kept
  exact ⟨kept.1, kept.2, (Text.splitOnPiece listed).1⟩

/-- Slashes do not stand in front of components. -/
theorem headJoin {parts : List Text} (proper : ∀ part ∈ parts, IsComponent part) :
    (Text.join '/' parts).head? ≠ some '/' := by
  cases parts with
  | nil => simp [Text.join]
  | cons part rest =>
    obtain ⟨solid, _, undivided⟩ := proper part List.mem_cons_self
    obtain ⟨char, others, rfl⟩ := List.exists_cons_of_ne_nil solid
    have different : char ≠ '/' := by
      rintro rfl
      simp at undivided
    cases rest <;> simpa [Text.join] using different

theorem rootOfAppend {root text : Text} (known : IsRoot root) (unrooted : text.head? ≠ some '/') :
    rootOf (root ++ text) = root := by
  have front : (root ++ text).takeWhile (· == '/') = root := by
    have slashes : ∀ char ∈ root, (char == '/') = true := by
      cases known <;> simp
    have behind : text.takeWhile (· == '/') = [] := by
      cases text with
      | nil => rfl
      | cons char rest =>
        refine List.takeWhile_cons_of_neg ?_
        simpa using unrooted
    rw [List.takeWhile_append_of_pos slashes, behind, List.append_nil]
  rw [rootOf, front]
  cases known <;> rfl

theorem componentsOfAppend {root : Text} {parts : List Text} (known : IsRoot root)
    (proper : ∀ part ∈ parts, IsComponent part) :
    components (root ++ Text.join '/' parts) = parts := by
  have kept : (List.splitOn '/' (Text.join '/' parts)).filter
      (fun part => part != [] && part != ['.']) = parts := by
    by_cases nothing : parts = []
    · subst nothing
      rfl
    · rw [Text.join,
        List.splitOn_intercalate '/' (fun part inside => (proper part inside).undivided) nothing,
        List.filter_eq_self]
      intro part inside
      obtain ⟨solid, moving, _⟩ := proper part inside
      simp [solid, moving]
  cases known <;> simpa [components, Text.splitOnSeparator] using kept

theorem normalOfParts {root : Text} {parts : List Text} (known : IsRoot root)
    (proper : ∀ part ∈ parts, IsComponent part) (shown : root ++ Text.join '/' parts ≠ []) :
    normal (root ++ Text.join '/' parts) = root ++ Text.join '/' parts := by
  rw [normal, rootOfAppend known (headJoin proper), componentsOfAppend known proper]
  split
  · contradiction
  · rfl

/-- A path in its shortest form is a single dot or made of components. -/
theorem normalShape (path : Text) : normal path = ['.'] ∨
    ∃ root parts, IsRoot root ∧ (∀ part ∈ parts, IsComponent part) ∧
      root ++ Text.join '/' parts ≠ [] ∧ normal path = root ++ Text.join '/' parts := by
  unfold normal
  split
  · exact .inl rfl
  · next shown =>
    exact .inr ⟨_, _, isRootRootOf path, fun _ => isComponentOfMem, shown, rfl⟩

theorem normalNormal (path : Text) : normal (normal path) = normal path := by
  rcases normalShape path with dot | ⟨root, parts, known, proper, shown, shape⟩
  · rw [dot]
    rfl
  · rw [shape]
    exact normalOfParts known proper shown

/-- The last component alone is exchanged. -/
theorem joinLast {root : Text} (known : IsRoot root) (parts : List Text) :
    ∃ before, (before = [] ∨ ∃ front, before = front ++ ['/']) ∧
      ∀ last, root ++ Text.join '/' (parts ++ [last]) = before ++ last := by
  cases parts with
  | nil =>
    refine ⟨root, ?_, fun last => by simp [Text.join]⟩
    cases known with
    | relative => exact .inl rfl
    | absolute => exact .inr ⟨[], rfl⟩
    | double => exact .inr ⟨['/'], rfl⟩
  | cons part rest =>
    refine ⟨root ++ Text.join '/' (part :: rest) ++ ['/'], .inr ⟨_, rfl⟩, ?_⟩
    intro last
    rw [Text.joinSnoc (by simp)]
    simp

theorem withExtensionAppend {before last : Text}
    (divided : before = [] ∨ ∃ front, before = front ++ ['/']) (undivided : '/' ∉ last)
    (extension : Text) :
    withExtension (before ++ last) extension = before ++ (stem last ++ extension) := by
  unfold withExtension
  rcases divided with rfl | ⟨front, rfl⟩
  · rw [List.nil_append, Text.cutEqNone.2 (by simpa using undivided)]
    rfl
  · have turned : (front ++ ['/'] ++ last).reverse = last.reverse ++ '/' :: front.reverse := by
      simp
    rw [turned, Text.cutOfAppend (by simpa using undivided)]
    simp

theorem stemSubset (name : Text) : stem name ⊆ name := by
  unfold stem
  split
  · next extension before found =>
    split
    · exact List.Subset.refl _
    · intro char inside
      have held : char ∈ name.reverse := by
        rw [(Text.cutEqSome found).1]
        simp [List.mem_reverse.1 inside]
      exact List.mem_reverse.1 held
  · exact List.Subset.refl _

theorem normalWithExtension (path : Text) {extension : Text} (undivided : '/' ∉ extension)
    (long : 2 ≤ extension.length) :
    normal (withExtension (normal path) extension) = withExtension (normal path) extension := by
  -- A path that ends with its root has an empty last component.
  have last : ∃ root parts name, IsRoot root ∧ (∀ part ∈ parts, IsComponent part) ∧ '/' ∉ name ∧
      normal path = root ++ Text.join '/' (parts ++ [name]) := by
    rcases normalShape path with dot | ⟨root, parts, known, proper, _, shape⟩
    · exact ⟨[], [], ['.'], .relative, by simp, by decide, dot⟩
    · rcases List.eq_nil_or_concat parts with rfl | ⟨front, name, rfl⟩
      · exact ⟨root, [], [], known, by simp, by simp, shape⟩
      · rw [List.concat_eq_append] at proper shape
        exact ⟨root, front, name, known, fun part inside => proper part (by simp [inside]),
          (proper name (by simp)).undivided, shape⟩
  obtain ⟨root, parts, name, known, proper, plain, shape⟩ := last
  obtain ⟨before, divided, same⟩ := joinLast known parts
  rw [shape, same, withExtensionAppend divided plain, ← same]
  refine normalOfParts known ?_ ?_
  · intro part inside
    rcases List.mem_append.1 inside with early | late
    · exact proper part early
    · obtain rfl := List.mem_singleton.1 late
      have length : 2 ≤ (stem name ++ extension).length := by
        rw [List.length_append]
        omega
      refine ⟨?_, ?_, ?_⟩
      · intro empty
        simp [empty] at length
      · intro dot
        simp [dot] at length
      · simp [undivided, mt (stemSubset name ·) plain]
  · rw [same]
    intro empty
    have length := congrArg List.length empty
    simp only [List.length_append, List.length_nil] at length
    omega

theorem memNormal {path : Text} {char : Char} (inside : char ∈ normal path) :
    char ∈ path ∨ char = '/' ∨ char = '.' := by
  have held : char = '.' ∨ char ∈ rootOf path ++ Text.join '/' (components path) := by
    unfold normal at inside
    split at inside
    · exact .inl (List.mem_singleton.1 inside)
    · exact .inr inside
  rcases held with dot | held
  · exact .inr (.inr dot)
  · rcases List.mem_append.1 held with front | back
    · have known := isRootRootOf path
      generalize rootOf path = root at front known
      refine .inr (.inl ?_)
      cases known with
      | relative => simp at front
      | absolute | double => simpa using front
    · rcases Text.memJoin back with slash | ⟨part, member, found⟩
      · exact .inr (.inl slash)
      · exact .inl ((Text.splitOnPiece (List.mem_filter.1 member).1).2 found)

theorem memWithExtension {path extension : Text} {char : Char}
    (inside : char ∈ withExtension path extension) :
    char ∈ path ∨ char ∈ extension := by
  unfold withExtension at inside
  split at inside
  · next name directory found =>
    have shape : path = directory.reverse ++ '/' :: name.reverse := by
      rw [← List.reverse_reverse path, (Text.cutEqSome found).1]
      simp
    rw [shape]
    simp only [List.mem_append, List.mem_cons] at inside ⊢
    rcases inside with front | slash | named | extended
    · exact .inl (.inl front)
    · exact .inl (.inr (.inl slash))
    · exact .inl (.inr (.inr (stemSubset _ named)))
    · exact .inr extended
  · exact (List.mem_append.1 inside).imp_left (stemSubset path ·)

theorem wellFormedNormal {path : Text} (formed : isWellFormed path = true) :
    isWellFormed (normal path) = true := by
  simp only [isWellFormed, Bool.not_eq_true', List.contains_eq_mem, decide_eq_false_iff_not]
    at formed ⊢
  intro inside
  rcases memNormal inside with held | slash | dot
  · exact formed held
  · contradiction
  · contradiction

theorem wellFormedWithExtension {path extension : Text} (formed : isWellFormed path = true)
    (alsoFormed : isWellFormed extension = true) :
    isWellFormed (withExtension path extension) = true := by
  simp only [isWellFormed, Bool.not_eq_true', List.contains_eq_mem, decide_eq_false_iff_not]
    at formed alsoFormed ⊢
  intro inside
  exact (memWithExtension inside).elim formed alsoFormed

/-- A path in its shortest form that can lead to a file. -/
structure IsProper (path : Text) : Prop where
  normal : normal path = path
  formed : isWellFormed path = true

theorem properNormal {path : Text} (formed : isWellFormed path = true) : IsProper (normal path) :=
  ⟨normalNormal path, wellFormedNormal formed⟩

theorem properWithExtension {path extension : Text} (formed : isWellFormed path = true)
    (alsoFormed : isWellFormed extension = true) (undivided : '/' ∉ extension)
    (long : 2 ≤ extension.length) : IsProper (withExtension (normal path) extension) :=
  ⟨normalWithExtension path undivided long,
    wellFormedWithExtension (wellFormedNormal formed) alsoFormed⟩

end SicXe.Path
