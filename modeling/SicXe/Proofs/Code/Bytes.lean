/-
This file reads object code as bytes, two upper case digits each, and says which constants have
such code.
-/

import SicXe.Constant

namespace SicXe

namespace Numeral.Hex

/-- The character is an upper case hexadecimal digit. -/
def IsDigit (char : Char) : Prop :=
  ∃ value < 16, char = digit value

theorem digitValueDigit {value : Nat} (bound : value < 16) :
    digitValue? (digit value) = some value := by
  have table : ∀ value < 16, digitValue? (digit value) = some value := by decide
  exact table value bound

theorem lowDigitsDigits (count : Nat) (value : Int) :
    ∀ char ∈ lowDigits count value, IsDigit char := by
  induction count generalizing value with
  | zero => simp [lowDigits, lowDigitsOnto]
  | succ count inductionHypothesis =>
    intro char inside
    rw [lowDigitsSucc] at inside
    rcases List.mem_append.1 inside with high | low
    · exact inductionHypothesis _ char high
    · exact ⟨(value % 16).toNat, by omega, List.mem_singleton.1 low⟩

theorem lowDigitsZero (count : Nat) : ∀ char ∈ lowDigits count 0, char = '0' := by
  induction count with
  | zero => simp [lowDigits, lowDigitsOnto]
  | succ count inductionHypothesis =>
    intro char inside
    rw [lowDigitsSucc] at inside
    rcases List.mem_append.1 inside with high | low
    · exact inductionHypothesis char high
    · exact List.mem_singleton.1 low

theorem fieldZero (width : Nat) : ∀ char ∈ field width 0, char = '0' := by
  unfold field
  split
  · exact fun char inside => List.mem_singleton.1 inside
  · exact lowDigitsZero width

theorem ofFieldSnoc {value : Nat} (bound : value < 16) (text : Text) :
    ofField? (text ++ [digit value]) = (ofField? text).map (· * 16 + value) := by
  simp only [ofField?, List.mapM_append, List.mapM_cons, List.mapM_nil, digitValueDigit bound]
  cases text.mapM digitValue? with
  | none => rfl
  | some values => simp [ofDigits]

/-- The lowest digit of a number in two's complement is what its sixteenth part leaves over. -/
theorem toNatOfIntSucc (count : Nat) (value : Int) :
    (BitVec.ofInt (4 * (count + 1)) value).toNat =
      (BitVec.ofInt (4 * count) (value / 16)).toNat * 16 + (value % 16).toNat := by
  have range : ((2 ^ (4 * (count + 1)) : Nat) : Int) = 16 * (2 ^ (4 * count) : Nat) := by
    rw [Nat.mul_succ, Nat.pow_add]
    omega
  have positive : (0 : Int) < (2 ^ (4 * count) : Nat) :=
    Int.natCast_pos.2 (Nat.pow_pos (by decide))
  rw [BitVec.toNat_ofInt, BitVec.toNat_ofInt, range]
  generalize ((2 ^ (4 * count) : Nat) : Int) = high at positive
  have whole : value / 16 % high * 16 + value % 16 + 16 * high * (value / 16 / high) = value := by
    have parts := Int.emod_add_mul_ediv (value / 16) high
    rw [Int.mul_assoc]
    omega
  have least := Int.emod_nonneg (value / 16) (Int.ne_of_gt positive)
  have bound := Int.emod_lt_of_pos (value / 16) positive
  rw [((Int.ediv_emod_unique (by omega)).2 ⟨whole, by omega, by omega⟩).2]
  omega

/-- The digits read back as the number in two's complement. -/
theorem ofFieldLowDigits (count : Nat) (value : Int) :
    ofField? (lowDigits count value) = some (BitVec.ofInt (4 * count) value).toNat := by
  induction count generalizing value with
  | zero => simp [lowDigits, lowDigitsOnto, ofField?, ofDigits, BitVec.of_length_zero]
  | succ count inductionHypothesis =>
    rw [lowDigitsSucc, ofFieldSnoc (by omega), inductionHypothesis, toNatOfIntSucc,
      Option.map_some]

theorem ofFieldField {width : Nat} (positive : 0 < width) (value : Int) :
    ofField? (field width value) = some (BitVec.ofInt (4 * width) value).toNat := by
  rw [field, if_neg (Nat.ne_of_gt positive), ofFieldLowDigits]

end Numeral.Hex

open Numeral

/-- Object code of so many bytes. -/
structure IsCode (size : Nat) (code : Text) : Prop where
  length : code.length = 2 * size
  digits : ∀ char ∈ code, Hex.IsDigit char

namespace IsCode

theorem append {firstSize secondSize : Nat} {first second : Text} (left : IsCode firstSize first)
    (right : IsCode secondSize second) : IsCode (firstSize + secondSize) (first ++ second) where
  length := by rw [List.length_append, left.length, right.length, Nat.mul_add]
  digits := by
    intro char inside
    rcases List.mem_append.1 inside with before | after
    · exact left.digits char before
    · exact right.digits char after

theorem field {size : Nat} (positive : 0 < size) (value : Int) :
    IsCode size (Hex.field (2 * size) value) where
  length := Hex.fieldLength (by omega) value
  digits := by
    rw [Hex.field, if_neg (by omega)]
    exact Hex.lowDigitsDigits _ _

theorem neNil {size : Nat} {code : Text} (isCode : IsCode size code) (positive : 0 < size) :
    code ≠ [] := by
  apply List.ne_nil_of_length_pos
  have length := isCode.length
  omega

end IsCode

/-- The bytes of object code; an odd digit or another character spoils it. -/
def bytes? : Text → Option (List UInt8)
  | [] => some []
  | [_] => none
  | high :: low :: rest =>
    match Hex.digitValue? high, Hex.digitValue? low, bytes? rest with
    | some first, some second, some later => some (UInt8.ofNat (16 * first + second) :: later)
    | _, _, _ => none

theorem bytesAppend {first : Text} {bytes : List UInt8} (read : bytes? first = some bytes)
    (second : Text) : bytes? (first ++ second) = (bytes? second).map (bytes ++ ·) := by
  fun_induction bytes? first generalizing bytes with
  | case1 =>
    obtain rfl := Option.some.inj read
    simp
  | case2 => simp at read
  | case3 high low rest firstValue secondValue later isLater isSecond isFirst inductionHypothesis =>
    obtain rfl := Option.some.inj read
    simp only [List.cons_append, bytes?, isFirst, isSecond, inductionHypothesis isLater]
    cases bytes? second <;> rfl
  | case4 => simp at read

theorem IsCode.bytes {size : Nat} {code : Text} (isCode : IsCode size code) :
    ∃ bytes, bytes? code = some bytes ∧ bytes.length = size := by
  induction size generalizing code with
  | zero =>
    have empty : code = [] := List.eq_nil_of_length_eq_zero isCode.length
    exact ⟨[], by rw [empty]; rfl, rfl⟩
  | succ size inductionHypothesis =>
    match code, isCode with
    | [], isCode => exact absurd isCode.length (by simp)
    | [_], isCode => exact absurd isCode.length (by simp; omega)
    | high :: low :: rest, isCode =>
      have length := isCode.length
      simp only [List.length_cons] at length
      obtain ⟨first, firstBound, rfl⟩ := isCode.digits high (by simp)
      obtain ⟨second, secondBound, rfl⟩ := isCode.digits low (by simp)
      obtain ⟨later, read, count⟩ := inductionHypothesis
        ⟨show rest.length = 2 * size by omega,
          fun char inside => isCode.digits char (by simp [inside])⟩
      refine ⟨UInt8.ofNat (16 * first + second) :: later, ?_, by simp [count]⟩
      simp only [bytes?, Hex.digitValueDigit firstBound, Hex.digitValueDigit secondBound, read]

namespace Constant

/-- A digit of a hexadecimal constant, in either case. -/
def isPayloadDigit (char : Char) : Bool :=
  ('0' ≤ char && char ≤ '9') || ('A' ≤ char && char ≤ 'F') || ('a' ≤ char && char ≤ 'f')

/-- The constant has two digits a byte, or characters of one byte. -/
def isPlain : Constant → Bool
  | hex digits => digits.length % 2 = 0 && digits.all isPayloadDigit
  | chars payload => payload.all (·.toNat ≤ 0xFF)

theorem upperPayloadDigit {char : Char} (isDigit : isPayloadDigit char = true) :
    ∃ digit, Text.upperChar char = [digit] ∧ Hex.IsDigit digit := by
  have small : char.toNat < 0x80 := by
    simp only [isPayloadDigit, Bool.or_eq_true, Bool.and_eq_true, decide_eq_true_eq,
      Char.le_def] at isDigit
    have bound : char.val.toNat < 0x80 := by
      rcases isDigit with ((⟨_, below⟩ | ⟨_, below⟩) | ⟨_, below⟩) <;>
        exact Nat.lt_of_le_of_lt (UInt32.le_iff_toNat_le.1 below) (by decide)
    exact bound
  refine ⟨char.toUpper, by rw [Text.upperChar, if_pos small], ?_⟩
  have table : ∀ code < 0x80, isPayloadDigit (Char.ofNat code) = true →
      ∃ value < 16, (Char.ofNat code).toUpper = Hex.digit value := by decide
  have found := table char.toNat small
  rw [Char.ofNat_toNat] at found
  exact found isDigit

/-- Every digit stays one digit in upper case. -/
theorem upperDigits {digits : Text} (all : digits.all isPayloadDigit = true) :
    (Text.upper digits).length = digits.length ∧
      ∀ char ∈ Text.upper digits, Hex.IsDigit char := by
  induction digits with
  | nil => simp [Text.upper]
  | cons first rest inductionHypothesis =>
    rw [List.all_cons, Bool.and_eq_true] at all
    obtain ⟨digit, upper, isDigit⟩ := upperPayloadDigit all.1
    obtain ⟨length, later⟩ := inductionHypothesis all.2
    have shape : Text.upper (first :: rest) = digit :: Text.upper rest := by
      rw [Text.upper, List.flatMap_cons, upper]
      rfl
    rw [shape]
    refine ⟨by rw [List.length_cons, length, List.length_cons], ?_⟩
    intro char inside
    rcases List.mem_cons.1 inside with same | deeper
    · exact same ▸ isDigit
    · exact later char deeper

/-- A character of one byte is written with two digits. -/
theorem charDigitsIsCode {char : Char} (small : char.toNat ≤ 0xFF) :
    IsCode 1 (charDigits char) := by
  have table : ∀ code < 0x100, List.leftpad 2 '0' (Hex.ofNat code) =
      [Hex.digit (code / 16), Hex.digit (code % 16)] := by decide +kernel
  rw [charDigits, table _ (by omega)]
  refine ⟨rfl, ?_⟩
  intro digit inside
  rcases List.mem_cons.1 inside with high | low
  · exact ⟨_, by omega, high⟩
  · exact ⟨_, by omega, List.mem_singleton.1 low⟩

theorem charsIsCode {payload : Text} (all : payload.all (·.toNat ≤ 0xFF) = true) :
    IsCode payload.length (payload.flatMap charDigits) := by
  induction payload with
  | nil => exact ⟨rfl, by simp⟩
  | cons first rest inductionHypothesis =>
    rw [List.all_cons, Bool.and_eq_true, decide_eq_true_eq] at all
    have joined := (charDigitsIsCode all.1).append (inductionHypothesis all.2)
    rwa [Nat.add_comm] at joined

/-- The code of a plain constant has the bytes of its size. -/
theorem isCodeOfPlain {constant : Constant} (plain : constant.isPlain = true) :
    IsCode constant.size constant.code := by
  cases constant with
  | hex digits =>
    simp only [isPlain, Bool.and_eq_true, decide_eq_true_eq] at plain
    obtain ⟨length, isDigits⟩ := upperDigits plain.2
    refine ⟨?_, isDigits⟩
    change (Text.upper digits).length = 2 * ((digits.length + 1) / 2)
    rw [length]
    omega
  | chars payload => exact charsIsCode plain

end Constant

/-- A literal that is no constant has no bytes and no code. -/
theorem Literal.isCodeOfPlain {literal : Text} (plain : ∀ constant,
    Constant.ofLiteral? literal = some constant → constant.isPlain = true) :
    IsCode (Literal.size literal) (Literal.code literal) := by
  unfold Literal.size Literal.code
  cases found : Constant.ofLiteral? literal with
  | none => exact ⟨rfl, by simp⟩
  | some constant => exact Constant.isCodeOfPlain (plain constant found)

end SicXe
