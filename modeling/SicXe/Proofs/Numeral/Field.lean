/-
This file says which numbers a field of fixed width tells apart. The field holds the number in two's
complement, so that it reads back as the number modulo the range of the width.
-/

import Mathlib.Algebra.Order.Ring.Int
import Mathlib.Data.Int.ModEq
import SicXe.Proofs.Code.Bytes
import SicXe.Proofs.Text.Numerals

namespace SicXe.Numeral.Hex

/-- The digits that a field is written with. -/
def upperDigits : Text := "0123456789ABCDEF".toList

/-- The number in two's complement that a field stands for; the upper half of the range is below
zero. -/
def readSigned? (text : Text) : Option Int :=
  (read? text).map fun number =>
    if 2 * number < 16 ^ text.length then number else number - 16 ^ text.length

variable {width : Nat}

theorem memUpperDigits {char : Char} (isDigit : IsDigit char) : char ∈ upperDigits := by
  obtain ⟨value, bound, rfl⟩ := isDigit
  have table : ∀ value < 16, digit value ∈ upperDigits := by decide
  exact table value bound

/-- A digit has a value, and it is no blank, no sign and no mark between digits. -/
theorem digitAlone {char : Char} (isDigit : IsDigit char) :
    digitValue? char = some ((digitValue? char).getD 0) ∧ Decimal.isPadding char = false ∧
      char ∉ ['-', '+', 'x', 'X', '_'] := by
  obtain ⟨value, bound, rfl⟩ := isDigit
  have table : ∀ value < 16, digitValue? (digit value) = some ((digitValue? (digit value)).getD 0) ∧
      Decimal.isPadding (digit value) = false ∧ digit value ∉ ['-', '+', 'x', 'X', '_'] := by
    decide
  exact table value bound

section Reading

variable {text : Text} (digits : ∀ char ∈ text, IsDigit char)

include digits

theorem splitSignOfDigits : splitSign text = (false, text) := by
  have unsigned {mark : Char} {rest : Text} (marked : mark ∈ ['-', '+', 'x', 'X', '_']) :
      text ≠ mark :: rest := by
    rintro rfl
    exact (digitAlone (digits mark List.mem_cons_self)).2.2 marked
  unfold splitSign
  split
  · exact absurd rfl (unsigned (by decide))
  · exact absurd rfl (unsigned (by decide))
  · rfl

theorem dropMarkerOfDigits : dropMarker text = text := by
  unfold dropMarker
  split
  · next mark rest =>
    have alone := (digitAlone (digits mark (by simp))).2.2
    rw [if_neg]
    rintro ⟨_, rfl | rfl⟩ <;> exact alone (by decide)
  · rfl

theorem ofFieldOfDigits :
    ofField? text = some (ofDigits 16 (text.map fun char => (digitValue? char).getD 0)) := by
  have each : text.mapM digitValue? = some (text.map fun char => (digitValue? char).getD 0) := by
    induction text with
    | nil => rfl
    | cons char rest inductionHypothesis =>
      have later := inductionHypothesis fun other inside =>
        digits other (List.mem_cons_of_mem _ inside)
      rw [List.mapM_cons, (digitAlone (digits char List.mem_cons_self)).1, later]
      rfl
  rw [ofField?, each, Option.map_some]

/-- A text of digits is read digit by digit. -/
theorem readOfDigits (solid : text ≠ []) : read? text = (ofField? text).map Int.ofNat := by
  have padding {char : Char} (inside : char ∈ text) : Decimal.isPadding char = false :=
    (digitAlone (digits char inside)).2.1
  have trimmed : Text.trim Decimal.isPadding text = text :=
    Text.trimSolid (fun _ first => padding (List.mem_of_head? first))
      fun _ last => padding (List.mem_of_getLast? last)
  have each := readDigitsEach solid (fun char inside => (digitAlone (digits char inside)).1)
    fun inside => (digitAlone (digits '_' inside)).2.2 (by decide)
  simp only [read?, trimmed, splitSignOfDigits digits, dropMarkerOfDigits digits, each,
    ofFieldOfDigits digits]
  rfl

end Reading

theorem fieldDigits (positive : 0 < width) (value : Int) :
    ∀ char ∈ field width value, IsDigit char := by
  rw [field, if_neg (Nat.ne_of_gt positive)]
  exact lowDigitsDigits width value

/-- The field reads back as the number modulo the range of the width. -/
theorem readField (positive : 0 < width) (value : Int) :
    read? (field width value) = some (value % 16 ^ width) := by
  have solid : field width value ≠ [] :=
    List.ne_nil_of_length_pos (by rwa [fieldLength positive])
  have range : ((2 ^ (4 * width) : Nat) : Int) = 16 ^ width := by
    rw [pow_mul]
    exact Nat.cast_pow 16 width
  have least : 0 ≤ value % 16 ^ width := Int.emod_nonneg value (pow_ne_zero width (by decide))
  rw [readOfDigits (fieldDigits positive value) solid, ofFieldField positive, BitVec.toNat_ofInt,
    range, Option.map_some]
  exact congrArg some (Int.toNat_of_nonneg least)

/-- Numbers that are congruent modulo the range have the same lowest digits. -/
theorem lowDigitsCongr {count : Nat} {first second : Int}
    (congruent : first ≡ second [ZMOD 16 ^ count]) :
    lowDigits count first = lowDigits count second := by
  induction count generalizing first second with
  | zero => rfl
  | succ count inductionHypothesis =>
    obtain ⟨turns, difference⟩ := Int.modEq_iff_dvd.1 congruent
    rw [pow_succ', mul_assoc] at difference
    obtain rfl : second = first + 16 * (16 ^ count * turns) := by omega
    have high : first / 16 ≡ (first + 16 * (16 ^ count * turns)) / 16 [ZMOD 16 ^ count] := by
      rw [Int.add_mul_ediv_left _ _ (by decide)]
      exact Int.modEq_iff_dvd.2 ⟨turns, add_sub_cancel_left _ _⟩
    rw [lowDigitsSucc, lowDigitsSucc, inductionHypothesis high, Int.add_mul_emod_self_left]

/-- The fewest digits of a number are those of its sixteenth part and one more. -/
theorem ofNatSucc {value : Nat} (large : 16 ≤ value) :
    ofNat value = ofNat (value / 16) ++ [digit (value % 16)] := by
  have table : ∀ low < 16, (Nat.digitChar low).toUpper = digit low := by decide
  rw [ofNat, Nat.toDigits_of_base_le (by decide) large, List.map_append, ← ofNat,
    List.map_singleton, table _ (Nat.mod_lt value (by decide))]

theorem ofNatBelow {value : Nat} (small : value < 16) : ofNat value = [digit value] := by
  have table : ∀ value < 16, ofNat value = [digit value] := by decide
  exact table value small

/-- Zeros before the fewest digits of a number that the width can hold are its lowest digits. -/
theorem leftpadOfNat {count : Nat} (positive : 0 < count) {value : Nat}
    (fits : value < 16 ^ count) :
    List.leftpad count '0' (ofNat value) = lowDigits count value := by
  induction count generalizing value with
  | zero => omega
  | succ count inductionHypothesis =>
    rw [lowDigitsSucc]
    rcases Nat.lt_or_ge value 16 with small | large
    · have zeros : lowDigits count ((value : Int) / 16) = List.replicate count '0' := by
        rw [Int.ediv_eq_zero_of_lt (by omega) (by omega)]
        exact List.eq_replicate_of_mem (lowDigitsZero count) ▸ by rw [lowDigitsLength]
      have last : ((value : Int) % 16).toNat = value := by omega
      rw [ofNatBelow small, zeros, last, List.leftpad, List.length_singleton, Nat.add_sub_cancel]
    · rw [pow_succ'] at fits
      have quotient : value / 16 < 16 ^ count := Nat.div_lt_of_lt_mul fits
      have wider : 0 < count := by
        rcases count with - | count
        · rw [pow_zero] at quotient
          omega
        · omega
      have high : List.leftpad count '0' (ofNat (value / 16)) =
          lowDigits count ((value : Int) / 16) :=
        inductionHypothesis wider quotient
      have last : ((value : Int) % 16).toNat = value % 16 := by omega
      rw [ofNatSucc large, last, ← high]
      simp [List.leftpad]

/-- A field is the number modulo the range of the width, in the fewest digits and with zeros before
them. -/
theorem fieldPadded (positive : 0 < width) (value : Int) :
    field width value = List.leftpad width '0' (ofNat (value % 16 ^ width).toNat) := by
  have range : (0 : Int) < 16 ^ width := pow_pos (by decide) width
  have least := Int.emod_nonneg value (Int.ne_of_gt range)
  have fits : (value % 16 ^ width).toNat < 16 ^ width := by
    rw [Int.toNat_lt least, Nat.cast_pow]
    exact Int.emod_lt_of_pos value range
  rw [leftpadOfNat positive fits, Int.toNat_of_nonneg least, field, if_neg (Nat.ne_of_gt positive)]
  exact lowDigitsCongr (Int.mod_modEq value _).symm

theorem fieldEqIff (positive : 0 < width) (first second : Int) :
    field width first = field width second ↔ first ≡ second [ZMOD 16 ^ width] := by
  constructor
  · intro same
    have read := congrArg read? same
    rw [readField positive, readField positive] at read
    exact Option.some.inj read
  · intro congruent
    rw [field, field, lowDigitsCongr congruent]

/-- Just the numbers of the signed range are recovered from their fields. -/
theorem readSignedField (positive : 0 < width) (value : Int) :
    readSigned? (field width value) = some value ↔
      -(16 ^ width) / 2 ≤ value ∧ value < 16 ^ width / 2 := by
  rw [readSigned?, readField positive, fieldLength positive, Option.map_some, Option.some.injEq]
  have even : (16 ^ width : Int) % 2 = 0 := by
    rw [← Nat.succ_pred_eq_of_pos positive, pow_succ']
    omega
  have range : (0 : Int) < 16 ^ width := pow_pos (by decide) width
  have least := Int.emod_nonneg value (Int.ne_of_gt range)
  have most := Int.emod_lt_of_pos value range
  have above (fits : 0 ≤ value) (below : value < 16 ^ width) : value % 16 ^ width = value :=
    Int.emod_eq_of_lt fits below
  have below (negative : value < 0) (fits : -(16 ^ width) ≤ value) :
      value % 16 ^ width = value + 16 ^ width := by
    rw [← Int.add_emod_right]
    exact Int.emod_eq_of_lt (by omega) (by omega)
  -- The rest is linear in the range, of which only its sign and its evenness count.
  generalize (16 ^ width : Int) = size at *
  constructor
  · intro same
    split at same <;> omega
  · rintro ⟨low, high⟩
    rcases lt_or_ge value 0 with negative | natural
    · rw [below negative (by omega), if_neg (by omega)]
      omega
    · rw [above natural (by omega), if_pos (by omega)]

/-- A field has so many upper case digits as its width says and reads back as the number modulo
`16 ^ width`. So two numbers share a field just if they are congruent, and a number is recovered
with its sign just if it is in the signed range of the width. -/
theorem fieldsShowTwosComplement (width : Nat) (positive : 0 < width) :
    (∀ value : Int,
      field? width value = .ok (field width value) ∧
      (field width value).length = width ∧
      (∀ char ∈ field width value, char ∈ upperDigits) ∧
      read? (field width value) = some (value % 16 ^ width)) ∧
    (∀ first second : Int,
      field width first = field width second ↔ first ≡ second [ZMOD 16 ^ width]) ∧
    ∀ value : Int, readSigned? (field width value) = some value ↔
      -(16 ^ width) / 2 ≤ value ∧ value < 16 ^ width / 2 := by
  refine ⟨fun value => ⟨?_, fieldLength positive value, ?_, readField positive value⟩,
    fieldEqIff positive, readSignedField positive⟩
  · rw [field?, if_neg (by omega), Int.toNat_natCast]
  · exact fun char inside => memUpperDigits (fieldDigits positive value char inside)

/-- The displacement -5 and a number that is some ranges larger have the same three digits, from
which -5 is recovered; 2048 is the first number that is not. -/
theorem wrappedFields :
    field 3 (-5) = "FFB".toList ∧ read? (field 3 (-5)) = some 4091 ∧
      field 3 (-5) = field 3 (16 ^ 3 * 10 ^ 20 - 5) ∧ readSigned? (field 3 (-5)) = some (-5) ∧
      readSigned? (field 3 2048) ≠ some 2048 := by
  obtain ⟨each, same, signed⟩ := fieldsShowTwosComplement 3 (by decide)
  refine ⟨by decide, (each (-5)).2.2.2, (same _ _).2 (by decide), (signed _).2 (by decide), ?_⟩
  rw [Ne, signed]
  decide

end SicXe.Numeral.Hex
