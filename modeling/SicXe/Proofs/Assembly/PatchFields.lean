/-
This file says which patches stay inside the code of the statements that ask for them: those of
statements with a field for the linker, and no others.
-/

import SicXe.Proofs.Assembly.Patches
import SicXe.Proofs.Section.Patches

namespace SicXe

/-- The three bytes that the patch changes are bytes of the entry, and the entry has code. -/
def Patch.Inside (patch : Patch) (entry : Entry) : Prop :=
  entry.location ≤ patch.location ∧ patch.location + 3 ≤ entry.location + entry.size ∧
    entry.code ≠ []

/-- An entry holds its patches if it has code and reaches to the end of the field. -/
theorem Patch.insideIff (entry : Entry) (sign : Char) (name : Text) :
    Patch.Inside (entry.patch sign name) entry ↔
      (if entry.extended then 4 else 3) ≤ entry.size ∧ entry.code ≠ [] := by
  unfold Patch.Inside Statement.patch
  rw [← and_assoc]
  apply and_congr_left'
  cases entry.extended with
  | true =>
    simp only [if_true]
    omega
  | false =>
    simp only [Bool.false_eq_true, if_false]
    omega

/-- The linker has a field to fill in a `WORD` and in a long instruction. -/
theorem Entry.linkFieldIsSome {catalog : Catalog} {entry : Entry} :
    (entry.linkField? catalog).isSome = true ↔
      entry.isComment = false ∧ entry.operator ≠ [] ∧
        ((∃ instruction, catalog.get? entry.operator = some instruction ∧
            (entry.extended = true ∨ instruction.format = .three)) ∨
          (catalog.get? entry.operator = none ∧ entry.directive? = some .word)) := by
  unfold Entry.linkField?
  by_cases silent : entry.isComment = true ∨ entry.operator = []
  · rw [if_pos silent]
    refine iff_of_false (by simp) ?_
    rintro ⟨plain, named, _⟩
    rcases silent with comment | unnamed
    · rw [plain] at comment
      contradiction
    · exact named unnamed
  · obtain ⟨plain, named⟩ := not_or.1 silent
    rw [if_neg silent]
    cases catalog.get? entry.operator with
    | some instruction => simp [plain, named]
    | none => simp [plain, named]

namespace Encoder

variable {encoder : Encoder} {part : Section} {entry : Entry}

/-- A `BYTE` has code for constants and numbers, which name no symbols. -/
theorem byteCodeOfSymbols {statement : Statement} (symbols : statement.symbols ≠ []) :
    byteCode statement = [] := by
  unfold byteCode
  split
  · next operand =>
    rw [Statement.symbols, operand] at symbols
    exact absurd rfl symbols
  · next operand =>
    rw [Statement.symbols, operand] at symbols
    exact absurd rfl symbols
  · rfl

/-- A statement with a field for the linker has the bytes of the field. -/
theorem fitsOfLinkField (reading : entry.toStatement.IsRead encoder.catalog)
    (coded : (encoder.code part entry.toStatement).value? = some entry.code)
    (found : (entry.linkField? encoder.catalog).isSome = true) :
    (if entry.extended then 4 else 3) ≤ entry.size ∧ entry.code ≠ [] := by
  obtain ⟨plain, named, kinds⟩ := Entry.linkFieldIsSome.1 found
  have coherent := reading.coherent plain
  rw [Encoder.code, if_neg (by simp [plain, named])] at coded
  rcases kinds with ⟨instruction, known, long⟩ | ⟨unknown, word⟩
  · simp only [known, instructionCode, if_pos long] at coded
    refine ⟨?_, (longCodeWidth coded).neNil (by split <;> decide)⟩
    rw [coherent.sizeOfInstruction known]
    cases extended : entry.extended with
    | true => exact Int.le_refl _
    | false =>
      have three : instruction.format = .three := by simpa [extended] using long
      rw [three]
      exact Int.le_refl _
  · simp only [unknown, word] at coded
    refine ⟨?_, (wordCodeWidth coded).neNil (by decide)⟩
    exact Int.le_of_eq (coherent.sizeOfWord unknown word).symm

/-- Code that has the bytes of a field, and comes from a statement with symbols, has the field. -/
theorem linkFieldOfFits (reading : entry.toStatement.IsRead encoder.catalog)
    (coded : (encoder.code part entry.toStatement).value? = some entry.code)
    (symbols : entry.symbols ≠ []) (fits : (if entry.extended then 4 else 3) ≤ entry.size)
    (written : entry.code ≠ []) : (entry.linkField? encoder.catalog).isSome = true := by
  obtain ⟨plain, named, ⟨instruction, known, _⟩ | ⟨unknown, ⟨_, byte⟩ | ⟨word, _⟩⟩⟩ :=
    codeCases coded written
  · refine Entry.linkFieldIsSome.2 ⟨plain, named, .inl ⟨instruction, known, ?_⟩⟩
    rw [(reading.coherent plain).sizeOfInstruction known] at fits
    cases extended : entry.extended with
    | true => exact .inl rfl
    | false =>
      -- Without a marker only the longest format has the three bytes.
      rw [extended, if_neg Bool.false_ne_true, if_neg Bool.false_ne_true] at fits
      cases format : instruction.format with
      | one | two =>
        rw [format] at fits
        contradiction
      | three => exact .inr rfl
  · exact absurd (byte.symm.trans (byteCodeOfSymbols symbols)) written
  · exact Entry.linkFieldIsSome.2 ⟨plain, named, .inr ⟨unknown, word⟩⟩

/-- A patch stays inside the code of its statement exactly if the statement has a field for the
linker. -/
theorem patchInsideIff (reading : entry.toStatement.IsRead encoder.catalog)
    (coded : (encoder.code part entry.toStatement).value? = some entry.code)
    {earlier : List Entry} {patch : Patch} (asked : patch ∈ entry.patchesBehind earlier) :
    patch.Inside entry ↔ (entry.linkField? encoder.catalog).isSome = true := by
  obtain ⟨_, symbols, sign, name, rfl⟩ := Statement.patchesBehindCases asked
  rw [Patch.insideIff]
  refine ⟨?_, fitsOfLinkField reading coded⟩
  rintro ⟨fits, written⟩
  exact linkFieldOfFits reading coded symbols fits written

theorem patchesBehindCoded (statement : Statement) (entries : List Entry) :
    statement.patchesBehind (entries.map (encoder.coded part)) =
      statement.patchesBehind entries := by
  unfold Statement.patchesBehind
  rw [refersToCoded]

/-- The patches of the entries are a matter of their statements. -/
theorem patchesAlongCoded (earlier entries : List Entry) :
    Entry.patchesAlong (earlier.map (encoder.coded part)) (entries.map (encoder.coded part)) =
      Entry.patchesAlong earlier entries := by
  induction entries generalizing earlier with
  | nil => rfl
  | cons entry rest inductionHypothesis =>
    have later := inductionHypothesis (earlier ++ [entry])
    rw [List.map_append, List.map_singleton] at later
    rw [List.map_cons, Entry.patchesAlong, Entry.patchesAlong, later, patchesBehindCoded]
    rfl

end Encoder

namespace Assembly

/-- The patches of a section are those that its statements ask for, one statement after the other.
A patch stays inside the code of its statement exactly if the statement is a `WORD` or a long
instruction. -/
theorem patchesInsideFields {settings : Settings} {file : Text} {lines : List Text}
    {assembly : Assembly} {part : Section}
    (assembled : (ofLines settings file lines).result = .ok assembly)
    (member : part ∈ assembly.sections) :
    part.patches = Entry.patchesAlong [] part.entries ∧
      ∀ earlier entry later, part.entries = earlier ++ entry :: later →
        ∀ patch ∈ entry.patchesBehind earlier,
          (patch.Inside entry ↔ (entry.linkField? settings.catalog).isSome = true) := by
  obtain ⟨records, emitted⟩ := recordsOfSection assembled member
  obtain ⟨_, laid, _, _, origin⟩ := Assembly.origin assembled emitted
  constructor
  · rw [origin.shape]
    exact origin.built.patchesAlong.trans (Encoder.patchesAlongCoded [] laid.entries).symm
  · intro earlier entry later shape patch asked
    have inside : entry ∈ part.entries := by simp [shape]
    exact Encoder.patchInsideIff (origin.isRead inside) (origin.codeOf inside) asked

/-- A directive that is not known, with an external symbol, before an instruction without one. -/
def strayLines : List Text :=
  ["P\tSTART\t0", "\tEXTREF\tX", "\t+LDA\tX", "\tBASE\tX", "\tLDA\t#5", "\tEND\tP"].map
    String.toList

/-- The patch of the directive changes the bytes of the instruction that stands behind it. -/
theorem strayPatchOverwrites :
    ∃ assembly part earlier entry later,
      (ofLines ⟨Catalog.standard, true, false⟩ [] strayLines).result = .ok assembly ∧
      part ∈ assembly.sections ∧ part.entries = earlier ++ entry :: later ∧
      part.patches = [⟨"+X".toList, 1, 5⟩, ⟨"+X".toList, 4, 6⟩] ∧
      entry.patchesBehind earlier = [⟨"+X".toList, 4, 6⟩] ∧
      ¬ Patch.Inside ⟨"+X".toList, 4, 6⟩ entry ∧
      later.head?.map (·.location) = some 4 := by
  have evaluated : ∃ assembly ∈
      (ofLines ⟨Catalog.standard, true, false⟩ [] strayLines).value?,
      ∃ part ∈ assembly.sections, ∃ entry ∈ part.entries[3]?,
        part.entries = part.entries.take 3 ++ entry :: part.entries.drop 4 ∧
        Entry.patchesAlong [] part.entries = [⟨"+X".toList, 1, 5⟩, ⟨"+X".toList, 4, 6⟩] ∧
        entry.patchesBehind (part.entries.take 3) = [⟨"+X".toList, 4, 6⟩] ∧
        entry.linkField? Catalog.standard = none ∧
        (part.entries.drop 4).head?.map (·.location) = some 4 := by
    decide +kernel
  obtain ⟨assembly, value, part, member, entry, _, shape, listed, asked, noField, behind⟩ :=
    evaluated
  have assembled := Logged.valueEqSome.1 value
  obtain ⟨patches, insideIff⟩ := patchesInsideFields assembled member
  refine ⟨assembly, part, part.entries.take 3, entry, part.entries.drop 4, assembled, member, shape,
    patches.trans listed, asked, ?_, behind⟩
  have own : (⟨"+X".toList, 4, 6⟩ : Patch) ∈ entry.patchesBehind (part.entries.take 3) := by
    simp [asked]
  rw [insideIff _ _ _ shape _ own, noField]
  decide

end Assembly

end SicXe
