/-
This file says what a line adds to a catalog, and what is true of every catalog that is loaded from
lines.
-/

import SicXe.Catalog.Basic
import SicXe.Proofs.Outcome

namespace SicXe

/-- No character vanishes in upper case. -/
theorem Text.upperCharNeNil (char : Char) : upperChar char ≠ [] := by
  have sequences : ∀ pair ∈ caseSequences, pair.2 ≠ [] := by decide
  unfold upperChar
  split
  · simp
  · split
    · next codes found =>
      have solid := sequences _ (List.mem_of_find?_eq_some found)
      simpa using solid
    · split <;> simp

theorem Text.upperNeNil {text : Text} (solid : text ≠ []) : upper text ≠ [] := by
  obtain ⟨first, rest, rfl⟩ := List.exists_cons_of_ne_nil solid
  rw [upper, List.flatMap_cons]
  exact List.append_ne_nil_of_left_ne_nil (upperCharNeNil first) _

/-- A line that holds an instruction names it. -/
theorem Instruction.mnemonicOfLine {line : Text} {instruction : Instruction}
    (found : ofLine line = .ok instruction) : instruction.mnemonic ≠ [] := by
  unfold ofLine at found
  split at found
  · next mnemonic format opcode operandCount fields =>
    have solid : mnemonic ≠ [] := by
      have member : mnemonic ∈ Text.words line := by simp [fields]
      simpa using (List.mem_filter.1 member).2
    split at found
    · unfold ofFields at found
      split at found
      · contradiction
      · split at found
        · split at found
          · obtain rfl := Except.ok.inj found
            exact Text.upperNeNil solid
          · contradiction
        · contradiction
    · contradiction
  · contradiction

namespace Catalog

variable {catalog next : Catalog}

/-- A line holds nothing, or an instruction that the catalog has from then on. -/
theorem addLineCases {number : Nat} {raw : Text}
    (added : (catalog.addLine number raw).value? = some next) :
    (isIgnored (Text.strip raw) = true ∧ next = catalog) ∨
      ∃ instruction, Instruction.ofLine (Text.strip raw) = .ok instruction ∧
        next = catalog.set instruction.mnemonic instruction := by
  unfold addLine at added
  simp only at added
  split at added
  · next ignored => exact .inl ⟨ignored, (Option.some.inj added).symm⟩
  · split at added
    · simp at added
    · next instruction read =>
      simp only [add, Logged.valueBind, Logged.valueReportIf, Logged.valuePure, Option.bind_some,
        Option.some.injEq] at added
      exact .inr ⟨instruction, read, added.symm⟩

/-- What every line keeps is true of the catalog in the end. -/
theorem loadFromInduction {holds : Catalog → Prop} {number : Nat} {lines : List Text}
    (step : ∀ catalog number raw next, holds catalog →
      (Catalog.addLine catalog number raw).value? = some next → holds next)
    (start : holds catalog) (loaded : (catalog.loadFrom number lines).value? = some next) :
    holds next := by
  induction lines generalizing catalog number with
  | nil => exact Option.some.inj loaded ▸ start
  | cons line rest inductionHypothesis =>
    simp only [loadFrom, Logged.valueBind, Option.bind_eq_some_iff] at loaded
    obtain ⟨reached, added, later⟩ := loaded
    exact inductionHypothesis (step _ _ _ _ start added) later

theorem memNamesSet {name other : Text} {instruction : Instruction}
    (inside : other ∈ (Table.set catalog name instruction).names) :
    other = name ∨ other ∈ catalog.names := by
  unfold Table.set at inside
  split at inside
  · rw [Table.namesReplace] at inside
    exact .inr inside
  · rw [Table.namesAppend, List.mem_append, List.mem_singleton] at inside
    exact inside.symm

/-- Every instruction has a name. -/
def Named (catalog : Catalog) : Prop :=
  ∀ name ∈ catalog.names, name ≠ []

theorem Named.addLine {number : Nat} {raw : Text} (named : Named catalog)
    (added : (catalog.addLine number raw).value? = some next) : Named next := by
  rcases addLineCases added with ⟨_, rfl⟩ | ⟨instruction, read, rfl⟩
  · exact named
  · intro name inside
    rcases memNamesSet inside with rfl | old
    · exact Instruction.mnemonicOfLine read
    · exact named name old

theorem namedOfLoad {lines : List Text} (loaded : (load lines).value? = some catalog) :
    Named catalog := by
  simp only [load, Logged.valueBind, Logged.valueReport, Logged.valuePure, Option.bind_some,
    Option.bind_eq_some_iff, Option.some.injEq] at loaded
  obtain ⟨reached, loads, rfl⟩ := loaded
  have start : Named Table.empty := nofun
  exact loadFromInduction (fun _ _ _ _ named added => Named.addLine named added) start loads

/-- What has no name is no instruction of a loaded catalog. -/
theorem solidOfLoad {lines : List Text} (loaded : (load lines).value? = some catalog) :
    catalog.get? [] = none := by
  have absent : Table.contains catalog [] = false := by
    rw [Bool.eq_false_iff]
    intro present
    exact namedOfLoad loaded [] (List.contains_iff_mem.1 present) rfl
  rw [Table.containsEqIsSome] at absent
  exact Option.not_isSome_iff_eq_none.1 (Bool.eq_false_iff.1 absent)

end Catalog

end SicXe
