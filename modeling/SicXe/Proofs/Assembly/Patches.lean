/-
This file compares two views of external references. While a program is laid out, a statement asks
for patches if an `EXTREF` before it declares one of its symbols. When it is encoded, its field is
left to the linker if any `EXTREF` of its section does.
-/

import SicXe.Catalog.Standard
import SicXe.Proofs.Assembly.Sections
import SicXe.Proofs.Code.Width
import SicXe.Proofs.Layout.History
import SicXe.Proofs.Section.External

namespace SicXe

open Numeral

/-- The digits of a `WORD` or of the address in a long instruction, which a linker can fill. -/
def Entry.linkField? (catalog : Catalog) (entry : Entry) : Option Text :=
  if entry.isComment ∨ entry.operator = [] then none
  else match catalog.get? entry.operator with
    | some instruction =>
      if entry.extended ∨ instruction.format = .three then some (entry.code.drop 3) else none
    | none => if entry.directive? = some .word then some entry.code else none

namespace Encoder

variable {encoder : Encoder} {part : Section} {statement : Statement} {code : Text}

theorem longCodeOfExternal {instruction : Instruction}
    (external : part.mentionsExternal statement = true)
    (coded : (encoder.longCode part statement instruction).value? = some code) :
    code.drop 3 = Hex.field (if statement.extended then 5 else 3) 0 := by
  have zero : encoder.displacement part statement instruction = pure 0 := by
    unfold displacement
    cases statement.operand with
    | none => rfl
    | some operand => exact if_pos (.inr external)
  obtain ⟨value, displaced, field⟩ := longCodeField coded
  rw [zero] at displaced
  rw [field, ← Option.some.inj displaced]

theorem wordCodeOfExternal (external : part.mentionsExternal statement = true)
    (coded : (encoder.wordCode part statement).value? = some code) : code = Hex.field 6 0 := by
  unfold wordCode at coded
  split at coded
  · exact (Option.some.inj coded).symm
  · rw [if_pos external] at coded
    exact (Option.some.inj coded).symm

/-- The field of a statement with an external symbol is zero. -/
theorem linkFieldOfExternal {entry : Entry} {field : Text}
    (external : part.mentionsExternal entry.toStatement = true)
    (coded : (encoder.code part entry.toStatement).value? = some entry.code)
    (found : entry.linkField? encoder.catalog = some field) : ∀ digit ∈ field, digit = '0' := by
  unfold Entry.linkField? at found
  unfold Encoder.code at coded
  split at found
  · contradiction
  · next written =>
    rw [if_neg written] at coded
    cases known : encoder.catalog.get? entry.operator with
    | some instruction =>
      simp only [known] at coded found
      split at found
      · next long =>
        rw [instructionCode, if_pos long] at coded
        rw [← Option.some.inj found, longCodeOfExternal external coded]
        exact Hex.fieldZero _
      · contradiction
    | none =>
      simp only [known] at coded found
      split at found
      · next word =>
        rw [word] at coded
        rw [← Option.some.inj found, wordCodeOfExternal external coded]
        exact Hex.fieldZero 6
      · contradiction

/-- What an entry declares is a matter of its statement. -/
theorem refersToCoded (encoder : Encoder) (part : Section) (statement : Statement)
    (entries : List Entry) :
    statement.refersTo (entries.map (encoder.coded part)) = statement.refersTo entries := by
  simp only [Statement.refersTo, List.any_map, Function.comp_def, coded]

end Encoder

namespace Layout

variable {catalog : Catalog} {file : Text} {layout : Layout}

/-- The patches of all sections so far. -/
def patches (layout : Layout) : List Patch :=
  layout.sections.flatMap (·.patches)

theorem patchesDetachComments (built : layout.Built catalog file) :
    layout.detachComments.2.patches = layout.patches := by
  unfold detachComments
  split
  · next part =>
    split
    · next comments =>
      have none := (built part (by simp [sections])).patchesOfComments
        (List.all_eq_true.1 comments)
      simp [patches, sections, none]
    · rfl
  · rfl

theorem patchesEntered {number : Nat} {raw : Text} {finished : List Section} {part : Section}
    (built : layout.Built catalog file)
    (entered : (layout.enter file number raw).value? = some (finished, part)) :
    layout.patches = finished.flatMap (·.patches) ++ part.patches := by
  rcases enterCases entered with ⟨opening, start, _, rfl, rfl⟩ | ⟨_, active, rfl⟩ |
    ⟨_, _, rfl, rfl⟩
  · rw [← patchesDetachComments built]
    exact (List.append_nil _).symm
  · simp [patches, sections, active]
  · exact (List.append_nil _).symm

namespace Adds

variable {lines : List Text} {earlier : List Entry} {statement : Statement}

/-- The line of a statement adds the patches of the statement, and no others. -/
theorem patches (step : Adds catalog file lines earlier statement) :
    Layout.patches ⟨step.finished, some (step.part.grown statement step.symbols)⟩ =
      step.layout.patches ++ step.part.patchesAt statement := by
  rw [patchesEntered (builtOfLines step.before) step.entered]
  simp [Layout.patches, sections, Section.grown]

theorem built (step : Adds catalog file lines earlier statement) :
    step.part.Built catalog file :=
  ((builtOfLines step.before).entered step.entered).2

theorem beforeLine (step : Adds catalog file lines earlier statement) :
    (Layout.ofLines catalog file (lines.take (statement.line.toNat - 1))).result =
      .ok step.layout := by
  have number : statement.line.toNat - 1 = step.done.length := by
    rw [step.line]
    omega
  have taken : lines.take step.done.length = step.done := by
    rw [congrArg (List.take step.done.length) step.cut, List.take_left]
  rw [number, taken]
  exact Logged.valueEqSome.1 step.before

theorem behindLine (step : Adds catalog file lines earlier statement) :
    (Layout.ofLines catalog file (lines.take statement.line.toNat)).result =
      .ok ⟨step.finished, some (step.part.grown statement step.symbols)⟩ := by
  have number : statement.line.toNat = (step.done ++ [step.raw]).length := by
    rw [step.line, List.length_append, List.length_singleton]
    omega
  have regroup : lines = (step.done ++ [step.raw]) ++ step.rest := by
    rw [List.append_assoc]
    exact step.cut
  have taken : lines.take (step.done ++ [step.raw]).length = step.done ++ [step.raw] := by
    rw [congrArg (List.take (step.done ++ [step.raw]).length) regroup, List.take_left]
  rw [number, taken]
  exact Logged.valueEqSome.1 step.after

end Adds

end Layout

namespace Assembly

variable {settings : Settings} {file : Text} {lines : List Text} {assembly : Assembly}
  {part : Section} {earlier later : List Entry} {entry : Entry} {field : Text}

/-- A field is zero, for the linker to fill, if any entry of the section declares a symbol of its
statement. The line of the statement adds a patch for the field if an entry before it does, unless
its operator is `LTORG`, `END` or `EXTREF`. The two agree exactly if no symbol is declared too late,
and no such operator is an instruction with an external operand. -/
theorem patchesFollowDeclarations
    (assembled : (ofLines settings file lines).result = .ok assembly)
    (member : part ∈ assembly.sections)
    (shape : part.entries = earlier ++ entry :: later)
    (coded : entry.linkField? settings.catalog = some field) :
    ∃ before after,
      (Layout.ofLines settings.catalog file (lines.take (entry.line.toNat - 1))).result =
        .ok before ∧
      (Layout.ofLines settings.catalog file (lines.take entry.line.toNat)).result = .ok after ∧
      (part.mentionsExternal entry.toStatement = true → ∀ digit ∈ field, digit = '0') ∧
      (part.mentionsExternal entry.toStatement = true ↔ entry.refersTo part.entries = true) ∧
      (before.patches.length < after.patches.length ↔
        entry.refersTo earlier = true ∧ entry.asksPatches = true) ∧
      ((part.mentionsExternal entry.toStatement = true ↔
          before.patches.length < after.patches.length) ↔
        (entry.refersTo part.entries = true →
          entry.refersTo earlier = true ∧ entry.asksPatches = true)) := by
  obtain ⟨records, emitted⟩ := recordsOfSection assembled member
  obtain ⟨layout, laid, laidOut, laidMember, origin⟩ := Assembly.origin assembled emitted
  have plain : entry.isComment = false := by
    rw [Bool.eq_false_iff]
    intro comment
    simp [Entry.linkField?, comment] at coded
  -- The entries get their code last; the steps of the layout know them without it.
  have external : part.mentionsExternal entry.toStatement =
      laid.mentionsExternal entry.toStatement := by
    rw [origin.shape]
    rfl
  have refers : entry.refersTo part.entries = entry.refersTo laid.entries := by
    rw [origin.shape]
    exact Encoder.refersToCoded _ _ _ _
  have zero : part.mentionsExternal entry.toStatement = true → ∀ digit ∈ field, digit = '0' := by
    intro mentions
    have own : entry ∈ part.entries := by simp [shape]
    rw [origin.shape] at own
    obtain ⟨bare, bareMember, rfl⟩ := List.mem_map.1 own
    exact Encoder.linkFieldOfExternal (external ▸ mentions) (origin.codes bare bareMember) coded
  have same : part.mentionsExternal entry.toStatement = true ↔
      entry.refersTo part.entries = true := by
    rw [external, refers, origin.built.mentionsExternal]
  have whole : entry.refersTo earlier = true → entry.refersTo part.entries = true := by
    intro early
    rw [shape, Statement.refersToAppend, early, Bool.true_or]
  rw [origin.shape] at shape
  obtain ⟨bareEarlier, bareRest, cut, rfl, restShape⟩ := List.map_eq_append_iff.1 shape
  obtain ⟨bare, bareLater, rfl, rfl, rfl⟩ := List.map_eq_cons_iff.1 restShape
  obtain ⟨step⟩ := Layout.tracedOfLines laidOut laid laidMember bareEarlier bare bareLater cut plain
  have adds : step.layout.patches.length <
      (Layout.patches ⟨step.finished,
        some (step.part.grown bare.toStatement step.symbols)⟩).length ↔
      bare.refersTo bareEarlier = true ∧ bare.asksPatches = true := by
    have asked := step.built.patchesAt bare.toStatement
    rw [step.entries] at asked
    rw [step.patches, List.length_append, ← asked, ← List.length_pos_iff]
    omega
  rw [← Encoder.refersToCoded _ laid] at adds
  refine ⟨_, _, step.beforeLine, step.behindLine, zero, same, adds, ?_⟩
  rw [same, adds]
  exact ⟨fun agrees => agrees.1, fun declared => ⟨declared, fun early => whole early.1⟩⟩

/-- A program with an `EXTREF` behind the reference to its symbol. -/
def lateDeclaration : List Text :=
  ["P\tSTART\t0", "\tLDA\tX", "\tEXTREF\tX", "\tEND\tP"].map String.toList

/-- The field of the reference is left to a linker that gets no patch for it. -/
theorem lateDeclarationUnpatched :
    ∃ assembly part entry field before after,
      (ofLines ⟨Catalog.standard, true, false⟩ [] lateDeclaration).result = .ok assembly ∧
      part ∈ assembly.sections ∧
      part.entries = part.entries.take 1 ++ entry :: part.entries.drop 2 ∧
      entry.linkField? Catalog.standard = some field ∧
      (Layout.ofLines Catalog.standard [] (lateDeclaration.take 1)).result = .ok before ∧
      (Layout.ofLines Catalog.standard [] (lateDeclaration.take 2)).result = .ok after ∧
      part.mentionsExternal entry.toStatement = true ∧
      ¬ before.patches.length < after.patches.length := by
  have evaluated : ∃ assembly ∈
      (ofLines ⟨Catalog.standard, true, false⟩ [] lateDeclaration).value?,
      ∃ part ∈ assembly.sections, ∃ entry ∈ part.entries[1]?,
      ∃ field ∈ entry.linkField? Catalog.standard,
        part.entries = part.entries.take 1 ++ entry :: part.entries.drop 2 ∧ entry.line = 2 ∧
        entry.refersTo part.entries = true ∧ entry.refersTo (part.entries.take 1) = false := by
    decide +kernel
  obtain ⟨assembly, value, part, member, entry, _, field, coded, shape, line, refers, early⟩ :=
    evaluated
  have assembled := Logged.valueEqSome.1 value
  obtain ⟨before, after, laidBefore, laidAfter, _, external, adds, _⟩ :=
    patchesFollowDeclarations assembled member shape coded
  rw [line] at laidBefore laidAfter
  refine ⟨assembly, part, entry, field, before, after, assembled, member, shape, coded, laidBefore,
    laidAfter, external.2 refers, ?_⟩
  rw [adds, early]
  simp

end Assembly

end SicXe
