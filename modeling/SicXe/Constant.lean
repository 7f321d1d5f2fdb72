/-
This file holds the constants `X'..'` and `C'..'`, whose text alone fixes their size and bytes.
-/

import SicXe.Numeral.Hex
import SicXe.Text.Upper

namespace SicXe

inductive Constant where
  | hex (digits : Text)
  | chars (payload : Text)
  deriving DecidableEq, Repr

namespace Constant

/-- A letter in either case, a quote, the payload and a quote. -/
def ofText? : Text → Option Constant
  | letter :: '\'' :: rest =>
    if rest.getLast? = some '\'' then
      if letter = 'X' ∨ letter = 'x' then some (hex rest.dropLast)
      else if letter = 'C' ∨ letter = 'c' then some (chars rest.dropLast)
      else none
    else none
  | _ => none

/-- The constant of a literal, whose text may begin with equals signs. -/
def ofLiteral? (literal : Text) : Option Constant :=
  ofText? (literal.dropWhile (· == '='))

def letter : Constant → Char
  | hex _ => 'X'
  | chars _ => 'C'

def payload : Constant → Text
  | hex digits => digits
  | chars payload => payload

/-- Two digits a byte, or one character a byte. -/
def size : Constant → Nat
  | hex digits => (digits.length + 1) / 2
  | chars payload => payload.length

/-- The digits of a character's code, at least two. -/
def charDigits (char : Char) : Text :=
  List.leftpad 2 '0' (Numeral.Hex.ofNat char.toNat)

/-- The bytes of the constant as hexadecimal digits. -/
def code : Constant → Text
  | hex digits => Text.upper digits
  | chars payload => payload.flatMap charDigits

end Constant

/-- A literal that is no constant has no bytes. -/
def Literal.size (literal : Text) : Nat :=
  (Constant.ofLiteral? literal).elim 0 Constant.size

def Literal.code (literal : Text) : Text :=
  (Constant.ofLiteral? literal).elim [] Constant.code

end SicXe
