/-
This file reads the digits and the sign of numerals.
-/

import SicXe.Text.Digit

namespace SicXe.Numeral

/-- The value of a digit sequence, most significant digit first. -/
def ofDigits (base : Nat) (digits : List Nat) : Nat :=
  digits.foldl (fun value digit => value * base + digit) 0

/-- One underscore may stand between two digits. -/
def readDigits? (digit? : Char → Option Nat) : Text → Option (List Nat)
  | [] => none
  | [char] => (digit? char).map ([·])
  | char :: '_' :: rest =>
    match digit? char, readDigits? digit? rest with
    | some digit, some digits => some (digit :: digits)
    | _, _ => none
  | char :: rest =>
    match digit? char, readDigits? digit? rest with
    | some digit, some digits => some (digit :: digits)
    | _, _ => none

/-- A numeral begins with at most one sign. -/
def splitSign : Text → Bool × Text
  | '-' :: rest => (true, rest)
  | '+' :: rest => (false, rest)
  | text => (false, text)

def applySign (negative : Bool) (magnitude : Nat) : Int :=
  if negative then -magnitude else magnitude

/-- Why a number has no numeral, or a numeral no number. -/
inductive Fault where
  | tooManyDigits (count : Nat)
  | tooLargeToWrite
  | negativeWidth
  deriving DecidableEq, Repr

/-- The most digits that a decimal numeral may have. -/
def maxDigits : Nat := 4300

def Fault.message : Fault → String
  | .tooManyDigits count =>
    s!"Exceeds the limit ({maxDigits} digits) for integer string conversion: value has {count} " ++
      "digits; use sys.set_int_max_str_digits() to increase the limit"
  | .tooLargeToWrite =>
    s!"Exceeds the limit ({maxDigits} digits) for integer string conversion; " ++
      "use sys.set_int_max_str_digits() to increase the limit"
  | .negativeWidth => "negative shift count"

end SicXe.Numeral
