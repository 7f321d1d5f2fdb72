/-
This file says how much a define record and a refer record tell about their names. These stand one
after the other without a separator, so that a reader has to know how long they are.
-/

import SicXe.AddressExpression
import SicXe.Proofs.Code.Bytes
import SicXe.Record

namespace SicXe

open Numeral

/-- The address fits into a field of six digits. -/
def IsAddress (address : Int) : Prop :=
  0 ≤ address ∧ address < 0x1000000

instance (address : Int) : Decidable (IsAddress address) :=
  inferInstanceAs (Decidable (_ ∧ _))

namespace Numeral.Hex

/-- Two numbers with the same field agree in two's complement. -/
theorem ofIntOfField {width : Nat} (positive : 0 < width) {first second : Int}
    (same : field width first = field width second) :
    BitVec.ofInt (4 * width) first = BitVec.ofInt (4 * width) second := by
  have read := congrArg ofField? same
  rw [ofFieldField positive, ofFieldField positive] at read
  exact BitVec.eq_of_toNat_eq (Option.some.inj read)

theorem addressOfField {first second : Int} (isFirst : IsAddress first)
    (isSecond : IsAddress second) (same : field 6 first = field 6 second) : first = second := by
  have numbers := congrArg BitVec.toNat (ofIntOfField (by decide) same)
  rw [BitVec.toNat_ofInt, BitVec.toNat_ofInt] at numbers
  obtain ⟨firstLeast, firstMost⟩ := isFirst
  obtain ⟨secondLeast, secondMost⟩ := isSecond
  omega

end Numeral.Hex

/-- Pieces of one length that make the same text are equally many. -/
theorem Text.lengthsOfFlatten {length : Nat} (positive : 0 < length) {first second : List Text}
    (firstLength : ∀ piece ∈ first, piece.length = length)
    (secondLength : ∀ piece ∈ second, piece.length = length)
    (same : first.flatten = second.flatten) :
    first.map List.length = second.map List.length := by
  have firstLengths := List.map_eq_replicate_iff.2 firstLength
  have secondLengths := List.map_eq_replicate_iff.2 secondLength
  have total := congrArg List.length same
  rw [List.length_flatten, List.length_flatten, firstLengths, secondLengths,
    List.sum_replicate_nat, List.sum_replicate_nat] at total
  rw [firstLengths, secondLengths, Nat.eq_of_mul_eq_mul_right positive total]

namespace Record

/-- What a define record holds for one symbol. -/
def definition (symbol : Text × Int) : Text :=
  symbol.1 ++ Hex.field 6 symbol.2

theorem definitionLength (symbol : Text × Int) :
    (definition symbol).length = symbol.1.length + 6 := by
  rw [definition, List.length_append, Hex.fieldLength (by decide)]

/-- All that a refer record tells is its names in one text. -/
theorem referLineEq {first second : List Text} :
    (refer first).line = (refer second).line ↔ first.flatten = second.flatten := by
  simp [line, tag, body]

theorem defineLineEq {first second : List (Text × Int)} :
    (define first).line = (define second).line ↔
      (first.map definition).flatten = (second.map definition).flatten := by
  have shape (symbols : List (Text × Int)) :
      (define symbols).line = 'D' :: (symbols.map definition).flatten := by
    rw [← List.flatMap_def]
    rfl
  rw [shape, shape, List.cons.injEq]
  exact and_iff_right rfl

/-- A symbol can be read off its definition if the length of its name is known. -/
theorem symbolOfDefinition {first second : Text × Int} (isFirst : IsAddress first.2)
    (isSecond : IsAddress second.2) (length : first.1.length = second.1.length)
    (same : definition first = definition second) : first = second := by
  obtain ⟨name, field⟩ := List.append_inj same length
  exact Prod.ext name (Hex.addressOfField isFirst isSecond field)

theorem symbolsOfDefinitions {first second : List (Text × Int)}
    (firstAddresses : ∀ symbol ∈ first, IsAddress symbol.2)
    (secondAddresses : ∀ symbol ∈ second, IsAddress symbol.2)
    (lengths : first.map (·.1.length) = second.map (·.1.length))
    (same : (first.map definition).flatten = (second.map definition).flatten) :
    first = second := by
  induction first generalizing second with
  | nil =>
    rw [List.map_nil] at lengths
    exact (List.map_eq_nil_iff.1 lengths.symm).symm
  | cons symbol rest inductionHypothesis =>
    cases second with
    | nil => simp at lengths
    | cons other later =>
      obtain ⟨length, restLengths⟩ := List.cons.inj lengths
      change symbol.1.length = other.1.length at length
      obtain ⟨piece, restSame⟩ := List.append_inj same
        (by rw [definitionLength, definitionLength, length])
      rw [symbolOfDefinition (firstAddresses _ List.mem_cons_self)
          (secondAddresses _ List.mem_cons_self) length piece,
        inductionHypothesis (fun _ inside => firstAddresses _ (List.mem_cons_of_mem _ inside))
          (fun _ inside => secondAddresses _ (List.mem_cons_of_mem _ inside)) restLengths restSame]

/-- Names of one length can be read back from a refer record. -/
theorem namesOfEqualLength {length : Nat} {first second : List Text}
    (known : ∀ name ∈ first ++ second, isIdentifier name = true ∧ name.length = length)
    (same : (refer first).line = (refer second).line) : first = second := by
  have texts := referLineEq.1 same
  have firstLength (name : Text) (inside : name ∈ first) :=
    (known name (List.mem_append_left _ inside)).2
  have secondLength (name : Text) (inside : name ∈ second) :=
    (known name (List.mem_append_right _ inside)).2
  by_cases none : first ++ second = []
  · obtain ⟨rfl, rfl⟩ := List.append_eq_nil_iff.1 none
    rfl
  · obtain ⟨name, inside⟩ := List.exists_mem_of_ne_nil _ none
    obtain ⟨identifier, isLength⟩ := known name inside
    have positive : 0 < length := by
      rw [← isLength, List.length_pos_iff]
      rintro rfl
      contradiction
    exact List.eq_iff_flatten_eq.2
      ⟨texts, Text.lengthsOfFlatten positive firstLength secondLength texts⟩

/-- Symbols with names of one length can be read back from a define record. -/
theorem symbolsOfEqualLength {length : Nat} {first second : List (Text × Int)}
    (known : ∀ symbol ∈ first ++ second, symbol.1.length = length ∧ IsAddress symbol.2)
    (same : (define first).line = (define second).line) : first = second := by
  have texts := defineLineEq.1 same
  have inFirst (symbol : Text × Int) (inside : symbol ∈ first) :=
    known symbol (List.mem_append_left _ inside)
  have inSecond (symbol : Text × Int) (inside : symbol ∈ second) :=
    known symbol (List.mem_append_right _ inside)
  have pieces {symbols : List (Text × Int)}
      (each : ∀ symbol ∈ symbols, symbol.1.length = length ∧ IsAddress symbol.2) :
      ∀ piece ∈ symbols.map definition, piece.length = length + 6 := by
    intro piece inside
    obtain ⟨symbol, member, rfl⟩ := List.mem_map.1 inside
    rw [definitionLength, (each symbol member).1]
  have lengths := Text.lengthsOfFlatten (Nat.succ_pos _) (pieces inFirst) (pieces inSecond) texts
  have counts : first.length = second.length := by
    simpa using congrArg List.length lengths
  apply symbolsOfDefinitions (fun symbol inside => (inFirst symbol inside).2)
    (fun symbol inside => (inSecond symbol inside).2) ?_ texts
  rw [List.map_eq_replicate_iff.2 fun symbol inside => (inFirst symbol inside).1,
    List.map_eq_replicate_iff.2 fun symbol inside => (inSecond symbol inside).1, counts]

/-- Lists of names with the same refer record, and lists of symbols with the same define record, are
the same exactly if their names have the same lengths. So these records can be read back if all
names have one length. -/
theorem linkTextsNeedLengths :
    (∀ first second : List Text, (refer first).line = (refer second).line →
      (first = second ↔ first.map List.length = second.map List.length)) ∧
    (∀ first second : List (Text × Int), (∀ symbol ∈ first, IsAddress symbol.2) →
      (∀ symbol ∈ second, IsAddress symbol.2) → (define first).line = (define second).line →
      (first = second ↔ first.map (·.1.length) = second.map (·.1.length))) ∧
    (∀ (length : Nat) (first second : List Text),
      (∀ name ∈ first ++ second, isIdentifier name = true ∧ name.length = length) →
      (refer first).line = (refer second).line → first = second) ∧
    ∀ (length : Nat) (first second : List (Text × Int)),
      (∀ symbol ∈ first ++ second, isIdentifier symbol.1 = true ∧ symbol.1.length = length ∧
        IsAddress symbol.2) →
      (define first).line = (define second).line → first = second := by
  refine ⟨?_, ?_, ?_, ?_⟩
  · intro first second same
    rw [List.eq_iff_flatten_eq]
    exact and_iff_right (referLineEq.1 same)
  · intro first second firstAddresses secondAddresses same
    refine ⟨fun equal => by rw [equal], fun lengths => ?_⟩
    exact symbolsOfDefinitions firstAddresses secondAddresses lengths (defineLineEq.1 same)
  · intro length first second known same
    exact namesOfEqualLength known same
  · intro length first second known same
    exact symbolsOfEqualLength (fun symbol inside => (known symbol inside).2) same

/-- Two ways to cut the names of one refer record, and two to cut the symbols of one define record;
each time the lengths tell them apart. -/
theorem linkTextsOfOtherCuts :
    (refer ["RDREC".toList, "WRREC".toList]).line = "RRDRECWRREC".toList ∧
    (refer ["RD".toList, "RECWRREC".toList]).line = "RRDRECWRREC".toList ∧
    ["RDREC".toList, "WRREC".toList] ≠ ["RD".toList, "RECWRREC".toList] ∧
    (define [("X".toList, 0x33), ("BX".toList, 0x1033)]).line = "DX000033BX001033".toList ∧
    (define [("X0".toList, 0x33B), ("X".toList, 0x1033)]).line = "DX000033BX001033".toList ∧
    [("X".toList, (0x33 : Int)), ("BX".toList, 0x1033)] ≠
      [("X0".toList, 0x33B), ("X".toList, 0x1033)] := by
  obtain ⟨refers, defines, _⟩ := linkTextsNeedLengths
  refine ⟨by decide, by decide, ?_, by decide, by decide, ?_⟩
  · intro equal
    have lengths := (refers _ _ (by decide)).1 equal
    contradiction
  · intro equal
    have lengths := (defines _ _ (by decide) (by decide) (by decide)).1 equal
    contradiction

/-- Identifiers alone, with addresses that fit, do not make the records readable. -/
theorem linkTextsCollide :
    (¬ ∀ first second : List Text, (∀ name ∈ first ++ second, isIdentifier name = true) →
      (refer first).line = (refer second).line → first = second) ∧
    ¬ ∀ first second : List (Text × Int),
      (∀ symbol ∈ first ++ second, isIdentifier symbol.1 = true ∧ IsAddress symbol.2) →
      (define first).line = (define second).line → first = second := by
  refine ⟨fun readable => ?_, fun readable => ?_⟩
  · have same := readable ["AB".toList] [['A'], ['B']] (by decide) (by decide)
    contradiction
  · have same := readable [("A000000B".toList, 0)] [(['A'], 0), (['B'], 0)] (by decide) (by decide)
    contradiction

end Record

end SicXe
