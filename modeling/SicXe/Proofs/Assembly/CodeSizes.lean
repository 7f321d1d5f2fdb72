/-
This file compares the sizes that the layout counts with the object code that is made later: which
statements and which literals of an assembly have two digits for each of their bytes.
-/

import SicXe.Catalog.Standard
import SicXe.Proofs.Assembly.Sections
import SicXe.Proofs.Code.Fill

namespace SicXe.Assembly

/-- The object code of a statement has two digits for each byte of its size exactly if the statement
is an instruction or data that fills its size, and so has the code of a literal exactly if its
constant fills its bytes. -/
theorem codeFillsSizes {settings : Settings} {file : Text} {lines : List Text}
    {assembly : Assembly} {part : Section}
    (assembled : (ofLines settings file lines).result = .ok assembly)
    (member : part ∈ assembly.sections) :
    (∀ entry ∈ part.entries, entry.code ≠ [] →
      ((entry.code.length : Int) = 2 * entry.size ↔ entry.FillsSize settings.catalog)) ∧
    (∀ name ∈ part.literals.names,
      ((Literal.code name).length = 2 * Literal.size name ↔
        ∀ constant ∈ Constant.ofLiteral? name, constant.fillsBytes = true)) := by
  obtain ⟨records, emitted⟩ := recordsOfSection assembled member
  obtain ⟨_, laid, _, _, origin⟩ := Assembly.origin assembled emitted
  refine ⟨?_, fun name _ => Literal.codeLengthIff name⟩
  intro entry inside written
  exact Encoder.codeLengthIff (origin.isRead inside) (origin.codeOf inside) written

/-- A constant and a literal with an odd digit, and a word with a marker. -/
def misfitLines : List Text :=
  ["P\tSTART\t0", "\tLDA\t=X'ABC'", "\tBYTE\tX'F'", "\t+WORD\t5", "\tEND\tP"].map String.toList

/-- The instruction fills its three bytes; the odd digits are half a byte short, and the marker asks
for a byte that the word does not have. -/
theorem misfitCode :
    ∃ assembly part,
      (ofLines ⟨Catalog.standard, true, false⟩ [] misfitLines).result = .ok assembly ∧
      part ∈ assembly.sections ∧
      (∃ entry ∈ part.entries, entry.operator = "LDA".toList ∧
        (entry.code.length : Int) = 2 * entry.size) ∧
      (∃ entry ∈ part.entries, entry.code = ['F'] ∧
        (entry.code.length : Int) ≠ 2 * entry.size) ∧
      (∃ entry ∈ part.entries, entry.code = "000005".toList ∧
        (entry.code.length : Int) ≠ 2 * entry.size) ∧
      "X'ABC'".toList ∈ part.literals.names ∧
      (Literal.code "X'ABC'".toList).length ≠ 2 * Literal.size "X'ABC'".toList := by
  have evaluated : ∃ assembly ∈
      (ofLines ⟨Catalog.standard, true, false⟩ [] misfitLines).value?,
      ∃ part ∈ assembly.sections,
        (∃ entry ∈ part.entries, entry.operator = "LDA".toList ∧ entry.code ≠ [] ∧
          entry.FillsSize Catalog.standard) ∧
        (∃ entry ∈ part.entries, entry.code = ['F'] ∧ ¬ entry.FillsSize Catalog.standard) ∧
        (∃ entry ∈ part.entries, entry.code = "000005".toList ∧
          ¬ entry.FillsSize Catalog.standard) ∧
        "X'ABC'".toList ∈ part.literals.names := by
    decide +kernel
  obtain ⟨assembly, value, part, member, ⟨first, firstMember, name, coded, fills⟩,
    ⟨odd, oddMember, digit, short⟩, ⟨word, wordMember, zeros, marked⟩, named⟩ := evaluated
  have assembled := Logged.valueEqSome.1 value
  obtain ⟨entries, literals⟩ := codeFillsSizes assembled member
  refine ⟨assembly, part, assembled, member, ⟨first, firstMember, name, ?_⟩,
    ⟨odd, oddMember, digit, ?_⟩, ⟨word, wordMember, zeros, ?_⟩, named, ?_⟩
  · exact (entries first firstMember coded).2 fills
  · intro same
    exact short ((entries odd oddMember (by simp [digit])).1 same)
  · intro same
    exact marked ((entries word wordMember (by simp [zeros])).1 same)
  · intro same
    have all : "ABC".toList.all Constant.isPayloadDigit = true := by decide
    have even := (Constant.fillsBytesOfDigits all).1 ((literals _ named).1 same _ rfl)
    contradiction

end SicXe.Assembly
