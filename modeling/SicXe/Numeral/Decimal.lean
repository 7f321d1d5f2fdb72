/-
This file reads and writes decimal numerals.
-/

import SicXe.Numeral.Basic
import SicXe.Text.Blank

namespace SicXe.Numeral.Decimal

/-- The blanks around a numeral; the four file separators are none of them. -/
def isPadding (char : Char) : Bool :=
  Text.isBlank char && !(0x1C ≤ char.toNat && char.toNat ≤ 0x1F)

/-- A numeral is a signed digit sequence of bounded length, with blanks around it. -/
def read? (text : Text) : Option Int :=
  let (negative, body) := splitSign (Text.trim isPadding text)
  match readDigits? Text.digitValue? body with
  | none => none
  | some digits =>
    if digits.length ≤ maxDigits then some (applySign negative (ofDigits 10 digits)) else none

def isAsciiDigit (char : Char) : Bool :=
  '0' ≤ char && char ≤ '9'

/-- The grammar of plain numerals: an optional minus sign, then digits `0` to `9`. -/
def isPlain : Text → Bool
  | '-' :: digits => !digits.isEmpty && digits.all isAsciiDigit
  | digits => !digits.isEmpty && digits.all isAsciiDigit

/-- The value of a plain numeral, which can only fail to be read for its length. -/
def readPlain (text : Text) : Except Fault Int :=
  match read? text with
  | some value => .ok value
  | none => .error (.tooManyDigits (splitSign text).2.length)

def ofNat (value : Nat) : Text :=
  Nat.toDigits 10 value

def ofInt (value : Int) : Text :=
  if value < 0 then '-' :: ofNat value.natAbs else ofNat value.natAbs

/-- Numbers with too many digits are not written. -/
def write (value : Int) : Except Fault Text :=
  let digits := ofNat value.natAbs
  if digits.length ≤ maxDigits then .ok (ofInt value) else .error .tooLargeToWrite

end SicXe.Numeral.Decimal
