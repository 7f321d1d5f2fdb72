/-
This file shows that the bytes of a text are read back as that text, and that no other bytes are.
-/

import SicXe.Text.Utf8

namespace SicXe.Text

def IsContinuation (byte : UInt8) : Prop :=
  0x80 ≤ byte.toNat ∧ byte.toNat ≤ 0xBF

/-- The bits collected so far are followed by those of a further byte. -/
def gathered (bits : Nat) (byte : UInt8) : Nat :=
  bits * 0x40 + (byte.toNat - 0x80)

theorem gatheredEq (bits : Nat) (byte : UInt8) :
    gathered bits byte = bits * 0x40 + (byte.toNat - 0x80) :=
  rfl

/-- The bytes complete the character that a first byte begins, and this is its number. -/
inductive Utf8Lead.Completes : Utf8Lead → Bytes → Nat → Prop where
  | done {least greatest : UInt8} {bits : Nat} : Completes ⟨0, least, greatest, bits⟩ [] bits
  | next {following bits number : Nat} {least greatest byte : UInt8} {tail : Bytes}
      (allowed : least ≤ byte ∧ byte ≤ greatest)
      (completes : Completes ⟨following, 0x80, 0xBF, gathered bits byte⟩ tail number) :
      Completes ⟨following + 1, least, greatest, bits⟩ (byte :: tail) number

open Utf8Lead (Completes)

section Lead

variable {byte : UInt8}

theorem notBelow {bound : UInt8} (above : bound.toNat ≤ byte.toNat) : ¬byte < bound :=
  Nat.not_lt.2 above

theorem leadOfOne (one : byte.toNat < 0x80) :
    utf8Lead? byte = some ⟨0, 0x80, 0xBF, byte.toNat⟩ :=
  if_pos one

theorem leadOfTwo (two : 0xC2 ≤ byte.toNat ∧ byte.toNat < 0xE0) :
    utf8Lead? byte = some ⟨1, 0x80, 0xBF, byte.toNat - 0xC0⟩ := by
  have one : ¬byte < 0x80 := notBelow (show 0x80 ≤ byte.toNat by omega)
  have short : ¬byte < 0xC2 := notBelow (show 0xC2 ≤ byte.toNat by omega)
  have below : byte < 0xE0 := two.2
  simp only [utf8Lead?, if_neg one, if_neg short, if_pos below]

/-- The byte after the first of three leaves out the numbers below `0x800`, which have shorter
forms, and those that stand for halves of pairs. -/
theorem leadOfThree (three : 0xE0 ≤ byte.toNat ∧ byte.toNat < 0xF0) :
    ∃ least greatest, utf8Lead? byte = some ⟨2, least, greatest, byte.toNat - 0xE0⟩ ∧
      ∀ second : UInt8, (least ≤ second ∧ second ≤ greatest) ↔ IsContinuation second ∧
        0x20 ≤ gathered (byte.toNat - 0xE0) second ∧
        (gathered (byte.toNat - 0xE0) second < 0x360 ∨
          0x380 ≤ gathered (byte.toNat - 0xE0) second) := by
  have one : ¬byte < 0x80 := notBelow (show 0x80 ≤ byte.toNat by omega)
  have short : ¬byte < 0xC2 := notBelow (show 0xC2 ≤ byte.toNat by omega)
  have two : ¬byte < 0xE0 := notBelow (show 0xE0 ≤ byte.toNat by omega)
  have below : byte < 0xF0 := three.2
  simp only [utf8Lead?, if_neg one, if_neg short, if_neg two, if_pos below,
    UInt8.le_iff_toNat_le]
  split
  case isTrue least =>
    subst least
    exact ⟨_, _, rfl, fun second => by simp [IsContinuation, gatheredEq]; omega⟩
  split
  case isTrue pairs =>
    subst pairs
    exact ⟨_, _, rfl, fun second => by simp [IsContinuation, gatheredEq]; omega⟩
  case isFalse notLeast notPairs =>
    have notLeast : byte.toNat ≠ 0xE0 := fun same => notLeast (UInt8.toNat_inj.mp same)
    have notPairs : byte.toNat ≠ 0xED := fun same => notPairs (UInt8.toNat_inj.mp same)
    exact ⟨_, _, rfl, fun second => by simp [IsContinuation, gatheredEq]; omega⟩

/-- The byte after the first of four leaves out the numbers below `0x10000` and those from
`0x110000`. -/
theorem leadOfFour (four : 0xF0 ≤ byte.toNat ∧ byte.toNat < 0xF5) :
    ∃ least greatest, utf8Lead? byte = some ⟨3, least, greatest, byte.toNat - 0xF0⟩ ∧
      ∀ second : UInt8, (least ≤ second ∧ second ≤ greatest) ↔ IsContinuation second ∧
        0x10 ≤ gathered (byte.toNat - 0xF0) second ∧
        gathered (byte.toNat - 0xF0) second < 0x110 := by
  have one : ¬byte < 0x80 := notBelow (show 0x80 ≤ byte.toNat by omega)
  have short : ¬byte < 0xC2 := notBelow (show 0xC2 ≤ byte.toNat by omega)
  have two : ¬byte < 0xE0 := notBelow (show 0xE0 ≤ byte.toNat by omega)
  have notLeastThree : byte ≠ 0xE0 := by rintro rfl; simp at four
  have notPairs : byte ≠ 0xED := by rintro rfl; simp at four
  have three : ¬byte < 0xF0 := notBelow (show 0xF0 ≤ byte.toNat by omega)
  simp only [utf8Lead?, if_neg one, if_neg short, if_neg two, if_neg notLeastThree,
    if_neg notPairs, if_neg three, UInt8.le_iff_toNat_le]
  split
  case isTrue least =>
    subst least
    exact ⟨_, _, rfl, fun second => by simp [IsContinuation, gatheredEq]; omega⟩
  case isFalse notLeast =>
    have notLeast : byte.toNat ≠ 0xF0 := fun same => notLeast (UInt8.toNat_inj.mp same)
    split
    case isTrue between =>
      have between : byte.toNat < 0xF4 := between
      exact ⟨_, _, rfl, fun second => by simp [IsContinuation, gatheredEq]; omega⟩
    case isFalse notBetween =>
      have least : 0xF4 ≤ byte.toNat := Nat.not_lt.1 notBetween
      have greatest : byte = 0xF4 := UInt8.toNat_inj.mp (show byte.toNat = 0xF4 by omega)
      subst greatest
      exact ⟨_, _, rfl, fun second => by simp [IsContinuation, gatheredEq]; omega⟩

/-- No other bytes are first bytes. -/
theorem firstByteCases {lead : Utf8Lead} (found : utf8Lead? byte = some lead) :
    byte.toNat < 0x80 ∨ (0xC2 ≤ byte.toNat ∧ byte.toNat < 0xE0) ∨
      (0xE0 ≤ byte.toNat ∧ byte.toNat < 0xF0) ∨ (0xF0 ≤ byte.toNat ∧ byte.toNat < 0xF5) := by
  refine Decidable.byContradiction fun outside => ?_
  have one : ¬byte < 0x80 := notBelow (show 0x80 ≤ byte.toNat by omega)
  rw [utf8Lead?, if_neg one] at found
  split at found
  case isTrue => cases found
  case isFalse short =>
    have long : 0xC2 ≤ byte.toNat := Nat.not_lt.1 short
    have beyond : 0xF5 ≤ byte.toNat := by omega
    have two : ¬byte < 0xE0 := notBelow (show 0xE0 ≤ byte.toNat by omega)
    have notLeastThree : byte ≠ 0xE0 := by rintro rfl; simp at beyond
    have notPairs : byte ≠ 0xED := by rintro rfl; simp at beyond
    have three : ¬byte < 0xF0 := notBelow (show 0xF0 ≤ byte.toNat by omega)
    have notLeastFour : byte ≠ 0xF0 := by rintro rfl; simp at beyond
    have four : ¬byte < 0xF4 := notBelow (show 0xF4 ≤ byte.toNat by omega)
    have notGreatest : byte ≠ 0xF4 := by rintro rfl; simp at beyond
    simp only [if_neg two, if_neg notLeastThree, if_neg notPairs, if_neg three,
      if_neg notLeastFour, if_neg four, if_neg notGreatest] at found
    cases found

end Lead

section Character

variable {char : Char} {byte second third fourth : UInt8}

theorem byteOfNat {number : Nat} (same : number = byte.toNat) : UInt8.ofNat number = byte := by
  rw [same, UInt8.ofNat_toNat]

theorem encodedOne (one : byte.toNat < 0x80) (same : char.toNat = byte.toNat) :
    String.utf8EncodeChar char = [byte] := by
  have range : char.toNat ≤ 0x7F := by omega
  simp only [String.utf8EncodeChar, Char.toNat_val, if_pos range, byteOfNat same]

theorem encodedTwo (two : 0xC2 ≤ byte.toNat ∧ byte.toNat < 0xE0) (goesOn : IsContinuation second)
    (same : char.toNat = gathered (byte.toNat - 0xC0) second) :
    String.utf8EncodeChar char = [byte, second] := by
  simp only [IsContinuation, gatheredEq] at goesOn same
  have notOne : ¬char.toNat ≤ 0x7F := by omega
  have range : char.toNat ≤ 0x7FF := by omega
  simp only [String.utf8EncodeChar, Char.toNat_val, if_neg notOne, if_pos range, List.cons.injEq]
  refine ⟨byteOfNat ?_, byteOfNat ?_, trivial⟩ <;> omega

theorem encodedThree (three : 0xE0 ≤ byte.toNat ∧ byte.toNat < 0xF0)
    (goesOn : IsContinuation second) (ends : IsContinuation third)
    (least : 0x20 ≤ gathered (byte.toNat - 0xE0) second)
    (same : char.toNat = gathered (gathered (byte.toNat - 0xE0) second) third) :
    String.utf8EncodeChar char = [byte, second, third] := by
  simp only [IsContinuation, gatheredEq] at goesOn ends least same
  have notOne : ¬char.toNat ≤ 0x7F := by omega
  have notTwo : ¬char.toNat ≤ 0x7FF := by omega
  have range : char.toNat ≤ 0xFFFF := by omega
  simp only [String.utf8EncodeChar, Char.toNat_val, if_neg notOne, if_neg notTwo, if_pos range,
    List.cons.injEq]
  refine ⟨byteOfNat ?_, byteOfNat ?_, byteOfNat ?_, trivial⟩ <;> omega

theorem encodedFour (four : 0xF0 ≤ byte.toNat ∧ byte.toNat < 0xF5)
    (goesOn : IsContinuation second) (further : IsContinuation third)
    (ends : IsContinuation fourth) (least : 0x10 ≤ gathered (byte.toNat - 0xF0) second)
    (same : char.toNat = gathered (gathered (gathered (byte.toNat - 0xF0) second) third) fourth) :
    String.utf8EncodeChar char = [byte, second, third, fourth] := by
  simp only [IsContinuation, gatheredEq] at goesOn further ends least same
  have notOne : ¬char.toNat ≤ 0x7F := by omega
  have notTwo : ¬char.toNat ≤ 0x7FF := by omega
  have notThree : ¬char.toNat ≤ 0xFFFF := by omega
  simp only [String.utf8EncodeChar, Char.toNat_val, if_neg notOne, if_neg notTwo, if_neg notThree,
    List.cons.injEq]
  refine ⟨byteOfNat ?_, byteOfNat ?_, byteOfNat ?_, byteOfNat ?_, trivial⟩ <;> omega

/-- A number that is no half of a pair is that of its character. -/
theorem toNatOfNat {number : Nat} (below : number < 0x110000)
    (single : number < 0xD800 ∨ 0xE000 ≤ number) : (Char.ofNat number).toNat = number := by
  have valid : number.isValidChar := by
    rcases single with low | high
    · exact .inl low
    · exact .inr ⟨by omega, below⟩
  rw [Char.ofNat, dif_pos valid]
  rfl

/-- A first byte and the bytes that complete it are the bytes of the character of their
number. -/
theorem encodedOfCompletes {lead : Utf8Lead} {tail : Bytes} {number : Nat}
    (found : utf8Lead? byte = some lead) (completes : Completes lead tail number) :
    String.utf8EncodeChar (Char.ofNat number) = byte :: tail := by
  rcases firstByteCases found with one | two | three | four
  · cases Option.some.inj ((leadOfOne one).symm.trans found)
    cases completes
    exact encodedOne one (toNatOfNat (by omega) (by omega))
  · cases Option.some.inj ((leadOfTwo two).symm.trans found)
    obtain _ | ⟨goesOn, completes⟩ := completes
    cases completes
    have goesOn : IsContinuation _ := goesOn
    refine encodedTwo two goesOn (toNatOfNat ?_ ?_) <;>
      simp only [IsContinuation, gatheredEq] at goesOn ⊢ <;> omega
  · obtain ⟨least, greatest, table, second⟩ := leadOfThree three
    cases Option.some.inj (table.symm.trans found)
    obtain _ | ⟨allowed, completes⟩ := completes
    obtain _ | ⟨ends, completes⟩ := completes
    cases completes
    have ends : IsContinuation _ := ends
    obtain ⟨goesOn, notShort, single⟩ := (second _).mp allowed
    refine encodedThree three goesOn ends notShort (toNatOfNat ?_ ?_) <;>
      simp only [IsContinuation, gatheredEq] at goesOn ends notShort single ⊢ <;> omega
  · obtain ⟨least, greatest, table, second⟩ := leadOfFour four
    cases Option.some.inj (table.symm.trans found)
    obtain _ | ⟨allowed, completes⟩ := completes
    obtain _ | ⟨further, completes⟩ := completes
    obtain _ | ⟨ends, completes⟩ := completes
    cases completes
    have further : IsContinuation _ := further
    have ends : IsContinuation _ := ends
    obtain ⟨goesOn, notShort, inRange⟩ := (second _).mp allowed
    refine encodedFour four goesOn further ends notShort (toNatOfNat ?_ ?_) <;>
      simp only [IsContinuation, gatheredEq] at goesOn further ends notShort inRange ⊢ <;> omega

theorem byteOfNumber {number : Nat} (small : number < 0x100) :
    ∃ byte : UInt8, byte.toNat = number :=
  ⟨UInt8.ofNat number, by simp; omega⟩

/-- The bits of a number below its last six are followed by these. -/
theorem gatheredOfNumber {number : Nat} (byte : UInt8) (last : byte.toNat = number % 0x40 + 0x80) :
    IsContinuation byte ∧ gathered (number / 0x40) byte = number := by
  rw [IsContinuation, gatheredEq]
  omega

/-- Every character is spelled by a first byte and bytes that complete it. -/
theorem completesOfEncoded (char : Char) :
    ∃ byte tail lead, String.utf8EncodeChar char = byte :: tail ∧ utf8Lead? byte = some lead ∧
      Completes lead tail char.toNat := by
  have valid : char.toNat < 0xD800 ∨ 0xDFFF < char.toNat ∧ char.toNat < 0x110000 := char.valid
  obtain ⟨last, lastNat⟩ := byteOfNumber (show char.toNat % 0x40 + 0x80 < 0x100 by omega)
  obtain ⟨ends, whole⟩ := gatheredOfNumber last lastNat
  by_cases one : char.toNat < 0x80
  · obtain ⟨byte, byteNat⟩ := byteOfNumber (show char.toNat < 0x100 by omega)
    refine ⟨byte, [], _, encodedOne (by omega) byteNat.symm, leadOfOne (by omega), ?_⟩
    rw [byteNat]
    exact .done
  by_cases two : char.toNat < 0x800
  · obtain ⟨byte, byteNat⟩ := byteOfNumber (show char.toNat / 0x40 + 0xC0 < 0x100 by omega)
    have bits : char.toNat / 0x40 = byte.toNat - 0xC0 := by omega
    rw [bits] at whole
    refine ⟨byte, [last], _, encodedTwo (by omega) ends whole.symm, leadOfTwo (by omega), ?_⟩
    rw [← whole]
    exact .next ends .done
  obtain ⟨third, thirdNat⟩ :=
    byteOfNumber (show char.toNat / 0x40 % 0x40 + 0x80 < 0x100 by omega)
  obtain ⟨further, upper⟩ := gatheredOfNumber third thirdNat
  by_cases three : char.toNat < 0x10000
  · obtain ⟨byte, byteNat⟩ := byteOfNumber (show char.toNat / 0x1000 + 0xE0 < 0x100 by omega)
    have bits : char.toNat / 0x40 / 0x40 = byte.toNat - 0xE0 := by omega
    rw [bits] at upper
    have range : 0xE0 ≤ byte.toNat ∧ byte.toNat < 0xF0 := by omega
    obtain ⟨least, greatest, table, allowed⟩ := leadOfThree range
    rw [← upper] at whole
    refine ⟨byte, [third, last], _,
      encodedThree range further ends (by omega) whole.symm, table, ?_⟩
    rw [← whole]
    exact .next ((allowed third).mpr ⟨further, by omega, by omega⟩) (.next ends .done)
  · obtain ⟨byte, byteNat⟩ := byteOfNumber (show char.toNat / 0x40000 + 0xF0 < 0x100 by omega)
    obtain ⟨second, secondNat⟩ :=
      byteOfNumber (show char.toNat / 0x40 / 0x40 % 0x40 + 0x80 < 0x100 by omega)
    obtain ⟨goesOn, uppermost⟩ := gatheredOfNumber second secondNat
    have bits : char.toNat / 0x40 / 0x40 / 0x40 = byte.toNat - 0xF0 := by omega
    rw [bits] at uppermost
    have range : 0xF0 ≤ byte.toNat ∧ byte.toNat < 0xF5 := by omega
    obtain ⟨least, greatest, table, allowed⟩ := leadOfFour range
    rw [← upper, ← uppermost] at whole
    refine ⟨byte, [second, third, last], _,
      encodedFour range goesOn further ends (by omega) whole.symm, table, ?_⟩
    rw [← whole]
    exact .next ((allowed second).mpr ⟨goesOn, by omega, by omega⟩)
      (.next further (.next ends .done))

end Character

section Bytes

variable {first : UInt8} {lead : Utf8Lead} {taken position : Nat} {bytes : Bytes} {text : Text}

/-- The bytes that complete a character are all taken, and then the reading starts anew. -/
theorem decodeFromCompleted {tail : Bytes} {number : Nat} (completes : Completes lead tail number)
    (begun : lead.following ≠ 0) (rest : Bytes) :
    decodeFrom (some ⟨taken, first, lead⟩) position (tail ++ rest) =
      (decodeFrom none (position + tail.length) rest).map (Char.ofNat number :: ·) := by
  induction completes generalizing position taken with
  | done => exact absurd rfl begun
  | @next following bits number least greatest byte tail allowed completes inductionHypothesis =>
    rw [List.cons_append, decodeFrom, if_pos allowed]
    by_cases last : following = 0
    · subst last
      cases completes
      rfl
    · have more : ¬following + 1 ≤ 1 := by omega
      simp only [if_neg more, Nat.add_sub_cancel]
      rw [← gatheredEq, inductionHypothesis last, List.length_cons]
      congr 2
      omega

theorem okOfMapCons {char : Char} {read : Except Utf8Fault Text}
    (mapped : read.map (char :: ·) = .ok text) :
    ∃ after, read = .ok after ∧ text = char :: after := by
  cases read with
  | error fault => cases mapped
  | ok after => exact ⟨after, rfl, (Except.ok.inj mapped).symm⟩

/-- A character that is begun and read takes bytes that complete it. -/
theorem completesOfDecodeFrom (begun : lead.following ≠ 0)
    (decoded : decodeFrom (some ⟨taken, first, lead⟩) position bytes = .ok text) :
    ∃ tail rest number after, bytes = tail ++ rest ∧ Completes lead tail number ∧
      decodeFrom none (position + tail.length) rest = .ok after ∧
      text = Char.ofNat number :: after := by
  induction bytes generalizing position taken lead with
  | nil => simp [decodeFrom] at decoded
  | cons byte rest inductionHypothesis =>
    obtain ⟨following, least, greatest, bits⟩ := lead
    obtain ⟨following, rfl⟩ := Nat.exists_eq_succ_of_ne_zero begun
    rw [decodeFrom] at decoded
    split at decoded
    case isFalse => cases decoded
    case isTrue allowed =>
      by_cases last : following = 0
      · subst last
        obtain ⟨after, tailDecoded, same⟩ := okOfMapCons decoded
        exact ⟨[byte], rest, _, after, rfl, .next allowed .done, tailDecoded, same⟩
      · have more : ¬following + 1 ≤ 1 := by omega
        simp only [Nat.succ_eq_add_one, if_neg more, Nat.add_sub_cancel] at decoded
        obtain ⟨tail, after, number, text, cut, completes, tailDecoded, same⟩ :=
          inductionHypothesis last decoded
        refine ⟨byte :: tail, after, number, text, by rw [cut, List.cons_append],
          .next allowed completes, ?_, same⟩
        rw [← tailDecoded, List.length_cons]
        congr 1
        omega

theorem decodeFromFirst {byte : UInt8} (found : utf8Lead? byte = some lead)
    (begun : lead.following ≠ 0) (position : Nat) (rest : Bytes) :
    decodeFrom none position (byte :: rest) =
      decodeFrom (some ⟨1, byte, lead⟩) (position + 1) rest := by
  rw [decodeFrom, found]
  obtain ⟨following, least, greatest, bits⟩ := lead
  obtain ⟨following, rfl⟩ := Nat.exists_eq_succ_of_ne_zero begun
  rfl

theorem decodeFromSingle {byte least greatest : UInt8} {bits : Nat}
    (found : utf8Lead? byte = some ⟨0, least, greatest, bits⟩) (position : Nat) (rest : Bytes) :
    decodeFrom none position (byte :: rest) =
      (decodeFrom none (position + 1) rest).map (Char.ofNat bits :: ·) := by
  simp only [decodeFrom, found]

/-- When no character is begun, the bytes of a character are read as that character. -/
theorem decodeFromChar (char : Char) (position : Nat) (rest : Bytes) :
    decodeFrom none position (String.utf8EncodeChar char ++ rest) =
      (decodeFrom none (position + (String.utf8EncodeChar char).length) rest).map (char :: ·) := by
  obtain ⟨byte, tail, lead, encoded, found, completes⟩ := completesOfEncoded char
  rw [encoded, List.cons_append, List.length_cons]
  by_cases single : lead.following = 0
  · obtain ⟨following, least, greatest, bits⟩ := lead
    subst single
    cases completes
    rw [decodeFromSingle found, Char.ofNat_toNat]
    rfl
  · rw [decodeFromFirst found single, decodeFromCompleted completes single, Char.ofNat_toNat,
      Nat.add_assoc, Nat.add_comm 1]

/-- What is read starts with the bytes of a character. -/
theorem charOfDecodeFrom {byte : UInt8} {rest : Bytes}
    (decoded : decodeFrom none position (byte :: rest) = .ok text) :
    ∃ char rest' position' after, byte :: rest = String.utf8EncodeChar char ++ rest' ∧
      decodeFrom none position' rest' = .ok after ∧ text = char :: after := by
  cases found : utf8Lead? byte with
  | none => simp [decodeFrom, found] at decoded
  | some lead =>
    by_cases single : lead.following = 0
    · obtain ⟨following, least, greatest, bits⟩ := lead
      subst single
      rw [decodeFromSingle found] at decoded
      obtain ⟨after, restDecoded, same⟩ := okOfMapCons decoded
      refine ⟨_, rest, _, after, ?_, restDecoded, same⟩
      rw [encodedOfCompletes found .done]
      rfl
    · rw [decodeFromFirst found single] at decoded
      obtain ⟨tail, rest', number, after, cut, completes, restDecoded, same⟩ :=
        completesOfDecodeFrom single decoded
      refine ⟨_, rest', _, after, ?_, restDecoded, same⟩
      rw [encodedOfCompletes found completes, cut]
      rfl

theorem decodeFromEncoded (text : Text) (position : Nat) :
    decodeFrom none position (encodeUtf8 text) = .ok text := by
  induction text generalizing position with
  | nil => rfl
  | cons char rest inductionHypothesis =>
    rw [encodeUtf8, List.flatMap_cons, decodeFromChar]
    exact congrArg (Except.map (char :: ·)) (inductionHypothesis _)

theorem encodedOfDecodeFrom (decoded : decodeFrom none position bytes = .ok text) :
    bytes = encodeUtf8 text := by
  -- A character takes at least one byte, so that the bytes left are fewer.
  induction length : bytes.length using Nat.strongRecOn generalizing bytes position text with
  | ind count inductionHypothesis =>
    cases bytes with
    | nil =>
      cases decoded
      rfl
    | cons byte rest =>
      obtain ⟨char, rest', position', after, cut, restDecoded, same⟩ := charOfDecodeFrom decoded
      have shorter : rest'.length < count := by
        have taken : 0 < (String.utf8EncodeChar char).length :=
          List.length_pos_iff.mpr String.utf8EncodeChar_ne_nil
        rw [← length, cut, List.length_append]
        omega
      rw [cut, same, encodeUtf8, List.flatMap_cons]
      exact congrArg _ (inductionHypothesis _ shorter restDecoded rfl)

/-- Bytes are read as a text exactly when they are the bytes of that text. -/
theorem decodeUtf8Iff : decodeUtf8 bytes = .ok text ↔ bytes = encodeUtf8 text := by
  constructor
  · exact encodedOfDecodeFrom
  · rintro rfl
    exact decodeFromEncoded text 0

theorem decodeUtf8EncodeUtf8 (text : Text) : decodeUtf8 (encodeUtf8 text) = .ok text :=
  decodeUtf8Iff.mpr rfl

end Bytes

end SicXe.Text
