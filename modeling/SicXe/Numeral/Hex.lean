/-
This file reads and writes hexadecimal numerals and fields of fixed width.
-/

import SicXe.Numeral.Decimal

namespace SicXe.Numeral.Hex

/-- The upper case digit of a value below sixteen. -/
def digit (value : Nat) : Char :=
  if value < 10 then Char.ofNat (0x30 + value) else Char.ofNat (0x37 + value)

/-- The value of a digit, in either case and in any script. -/
def digitValue? (char : Char) : Option Nat :=
  if 'a' ≤ char ∧ char ≤ 'f' then some (char.toNat - 0x57)
  else if 'A' ≤ char ∧ char ≤ 'F' then some (char.toNat - 0x37)
  else Text.digitValue? char

/-- A zero and an `x` may stand before the digits, with one underscore behind them. -/
def dropMarker (text : Text) : Text :=
  match text with
  | zeroDigit :: mark :: rest =>
    if Text.digitValue? zeroDigit = some 0 ∧ (mark = 'x' ∨ mark = 'X') then
      match rest with
      | '_' :: digits => digits
      | digits => digits
    else text
  | _ => text

def read? (text : Text) : Option Int :=
  let (negative, body) := splitSign (Text.trim Decimal.isPadding text)
  (readDigits? digitValue? (dropMarker body)).map (applySign negative ∘ ofDigits 16)

/-- The fewest digits of a number. -/
def ofNat (value : Nat) : Text :=
  (Nat.toDigits 16 value).map Char.toUpper

def ofInt (value : Int) : Text :=
  if value < 0 then '-' :: ofNat value.natAbs else ofNat value.natAbs

/-- Zeros fill the width, in which a minus sign counts. -/
def padded (width : Nat) (value : Int) : Text :=
  if value < 0 then '-' :: List.leftpad (width - 1) '0' (ofNat value.natAbs)
  else List.leftpad width '0' (ofNat value.natAbs)

/-- The lowest digits of a number in two's complement, in front of those already written. -/
def lowDigitsOnto (written : Text) : Nat → Int → Text
  | 0, _ => written
  | count + 1, value => lowDigitsOnto (digit (value % 16).toNat :: written) count (value / 16)

def lowDigits (count : Nat) (value : Int) : Text :=
  lowDigitsOnto [] count value

/-- A field of fixed width; one of width zero still shows a zero. -/
def field (width : Nat) (value : Int) : Text :=
  if width = 0 then ['0'] else lowDigits width value

def field? (width : Int) (value : Int) : Except Fault Text :=
  if width < 0 then .error .negativeWidth else .ok (field width.toNat value)

/-- The number that a digit sequence stands for. -/
def ofField? (text : Text) : Option Nat :=
  (text.mapM digitValue?).map (ofDigits 16)

theorem lowDigitsOntoEqAppend (written : Text) (count : Nat) (value : Int) :
    lowDigitsOnto written count value = lowDigits count value ++ written := by
  induction count generalizing written value with
  | zero => rfl
  | succ count inductionHypothesis =>
    rw [lowDigits, lowDigitsOnto, lowDigitsOnto, inductionHypothesis, inductionHypothesis [_]]
    simp

/-- The digits of the sixteenth part stand before the last digit. -/
theorem lowDigitsSucc (count : Nat) (value : Int) :
    lowDigits (count + 1) value = lowDigits count (value / 16) ++ [digit (value % 16).toNat] := by
  rw [lowDigits, lowDigitsOnto, lowDigitsOntoEqAppend]

theorem lowDigitsLength (count : Nat) (value : Int) : (lowDigits count value).length = count := by
  induction count generalizing value with
  | zero => rfl
  | succ count inductionHypothesis => simp [lowDigitsSucc, inductionHypothesis]

theorem fieldLength {width : Nat} (positive : 0 < width) (value : Int) :
    (field width value).length = width := by
  rw [field, if_neg (Nat.ne_of_gt positive), lowDigitsLength]

end SicXe.Numeral.Hex
