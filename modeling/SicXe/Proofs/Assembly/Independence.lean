/-
This file proves that the sections of a program are assembled independently: a program that opens
a section can be put behind another one, and each of the two is assembled as it is alone.
-/

import SicXe.Catalog.Standard
import SicXe.Proofs.Assembly.Shift
import SicXe.Proofs.Layout.Lines

namespace SicXe

namespace Assembly

/-- Only the module of the first section changes behind other sections. -/
theorem shiftModulesRecords {modules : List (Section × List Record)}
    (indexed : modules.map (·.1.index) = List.range modules.length) (sections lines : Nat) :
    (modules.map (shiftModule sections lines)).map Prod.snd =
      (modules.map Prod.snd).modifyHead Section.unentered := by
  cases modules with
  | nil => rfl
  | cons first rest =>
    rw [List.length_cons, List.range_succ_eq_map, List.map_cons] at indexed
    obtain ⟨zero, others⟩ := List.cons.inj indexed
    have same : (rest.map (shiftModule sections lines)).map Prod.snd = rest.map Prod.snd := by
      rw [List.map_map]
      apply List.map_congr_left
      intro module inside
      have number : module.1.index ∈ (List.range rest.length).map Nat.succ := by
        rw [← others]
        exact List.mem_map_of_mem inside
      obtain ⟨previous, _, successor⟩ := List.mem_map.1 number
      exact if_neg (by omega)
    rw [List.map_cons, List.map_cons, same]
    change (if first.1.index = 0 then _ else _) :: _ = _
    rw [if_pos zero]
    rfl

/-- The sections are numbered further. -/
theorem shiftModulesSections (modules : List (Section × List Record)) (sections lines : Nat) :
    (modules.map (shiftModule sections lines)).map Prod.fst =
      (modules.map Prod.fst).map (·.shifted sections lines) := by
  rw [List.map_map, List.map_map]
  rfl

/-- The assembly of two programs, the second of which opens a section, from those of each: the
sections of the second are numbered further, and its first module has no entry point. -/
def followedBy (first : Assembly) (lines : Nat) (second : Assembly) : Assembly :=
  { first with
    sections := first.sections ++ second.sections.map (·.shifted first.sections.length lines)
    modules := first.modules ++ second.modules.modifyHead Section.unentered }

theorem ofLinesAppend {settings : Settings} {file : Text} {first second : List Text}
    (written : first.any Layout.holdsStatement = true)
    (opens : Layout.opensSection second = true) :
    (ofLines settings file (first ++ second)).value? =
      (ofLines settings file first).value?.bind fun before =>
        (ofLines settings file second).value?.map (before.followedBy first.length) := by
  rw [ofLinesValue, ofLinesValue, ofLinesValue, Layout.ofLinesAppend written opens]
  generalize Encoder.mk settings.catalog file settings.strict = encoder
  cases laidFirst : (Layout.ofLines settings.catalog file first).value? with
  | none => rfl
  | some before =>
    cases laidSecond : (Layout.ofLines settings.catalog file second).value? with
    | none => simp
    | some after =>
      have some : before.sections.length ≠ 0 := by
        simpa using (Layout.begunOfLines written laidFirst).sections
      simp only [Option.map_some, Option.bind_some, Layout.sectionsBehind, modulesOfAppend,
        modulesOfShifted _ some]
      cases madeFirst : (modulesOf encoder before.sections).value? with
      | none => rfl
      | some firstModules =>
        cases madeSecond : (modulesOf encoder after.sections).value? with
        | none => rfl
        | some secondModules =>
          have firstLength : firstModules.length = before.sections.length := by
            simpa using congrArg List.length (modulesOfIndices madeFirst)
          have secondLength : secondModules.length = after.sections.length := by
            simpa using congrArg List.length (modulesOfIndices madeSecond)
          have indexed : secondModules.map (·.1.index) = List.range secondModules.length := by
            rw [modulesOfIndices madeSecond, secondLength]
            exact Layout.indexedOfLines laidSecond
          simp only [Option.map_some, Option.bind_some, followedBy, List.map_append,
            shiftModulesRecords indexed, shiftModulesSections, List.length_map, firstLength]

/-- Sections are assembled independently. Of two programs, of which the first has a statement and
the second opens a section, the one behind the other is assembled exactly if each of them is. Its
sections are those of the first, then those of the second, numbered further; so are its modules,
but for the entry point of the second. -/
theorem sectionsAssembleIndependently {settings : Settings} {file : Text}
    {first second : List Text} (written : first.any Layout.holdsStatement = true)
    (opens : Layout.opensSection second = true) :
    ((∃ whole, (ofLines settings file (first ++ second)).result = .ok whole) ↔
      (∃ before, (ofLines settings file first).result = .ok before) ∧
        ∃ after, (ofLines settings file second).result = .ok after) ∧
    ∀ before after, (ofLines settings file first).result = .ok before →
      (ofLines settings file second).result = .ok after →
      (ofLines settings file (first ++ second)).result =
        .ok (before.followedBy first.length after) := by
  have appended : (ofLines settings file (first ++ second)).value? = _ :=
    ofLinesAppend written opens
  simp only [← Logged.valueEqSome, appended]
  refine ⟨⟨?_, ?_⟩, ?_⟩
  · rintro ⟨whole, made⟩
    obtain ⟨before, madeFirst, rest⟩ := Option.bind_eq_some_iff.1 made
    obtain ⟨after, madeSecond, _⟩ := Option.map_eq_some_iff.1 rest
    exact ⟨⟨before, madeFirst⟩, ⟨after, madeSecond⟩⟩
  · rintro ⟨⟨before, madeFirst⟩, ⟨after, madeSecond⟩⟩
    exact ⟨before.followedBy first.length after, by rw [madeFirst, madeSecond]; rfl⟩
  · intro before after madeFirst madeSecond
    rw [madeFirst, madeSecond]
    rfl

/-- A program that calls another one and keeps a literal. -/
def callingProgram : List Text :=
  [".\tmain", "MAIN\tSTART\t4096", "\tEXTREF\tSUB", "\t+JSUB\tSUB", "\tLDA\t=C'EOF'",
    "\tLTORG"].map String.toList

/-- A program of two sections behind a blank line. -/
def calledProgram : List Text :=
  ["", "SUB\tCSECT", "\tLDA\tDATA", "\tRSUB", "DATA\tWORD\t7", "TAIL\tSTART\t8", ".\trest",
    "\tBYTE\tX'0F'", "\tEND\tTAIL"].map String.toList

theorem callsAssembleIndependently :
    callingProgram.any Layout.holdsStatement = true ∧
      Layout.opensSection calledProgram = true ∧
      ∃ before after,
        (ofLines ⟨Catalog.standard, true, false⟩ [] callingProgram).result = .ok before ∧
        (ofLines ⟨Catalog.standard, true, false⟩ [] calledProgram).result = .ok after ∧
        before.sections.length = 1 ∧ after.sections.length = 2 ∧
        (ofLines ⟨Catalog.standard, true, false⟩ [] (callingProgram ++ calledProgram)).result =
          .ok (before.followedBy 6 after) := by
  have written : callingProgram.any Layout.holdsStatement = true := by decide +kernel
  have opens : Layout.opensSection calledProgram = true := by decide +kernel
  have evaluatedFirst : ∃ before ∈
      (ofLines ⟨Catalog.standard, true, false⟩ [] callingProgram).value?,
      before.sections.length = 1 := by
    decide +kernel
  have evaluatedSecond : ∃ after ∈
      (ofLines ⟨Catalog.standard, true, false⟩ [] calledProgram).value?,
      after.sections.length = 2 := by
    decide +kernel
  obtain ⟨before, firstValue, one⟩ := evaluatedFirst
  obtain ⟨after, secondValue, two⟩ := evaluatedSecond
  have madeFirst := Logged.valueEqSome.1 firstValue
  have madeSecond := Logged.valueEqSome.1 secondValue
  exact ⟨written, opens, before, after, madeFirst, madeSecond, one, two,
    (sectionsAssembleIndependently written opens).2 before after madeFirst madeSecond⟩

end Assembly

end SicXe
