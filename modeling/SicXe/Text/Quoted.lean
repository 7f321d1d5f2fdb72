/-
This file writes texts between quotes, with escapes for what cannot be printed.
-/

import SicXe.Text.Printable

namespace SicXe.Text

/-- Double quotes are used only around a text that holds single quotes and no double ones. -/
def quoteFor (text : Text) : Char :=
  if text.contains '\'' && !text.contains '"' then '"' else '\''

/-- The lower case digits of a code point, filled with zeros to the width. -/
def codeDigits (width : Nat) (char : Char) : Text :=
  List.leftpad width '0' (Nat.toDigits 16 char.toNat)

def escape (quote char : Char) : Text :=
  if char = quote ∨ char = '\\' then ['\\', char]
  else if char = '\t' then ['\\', 't']
  else if char = '\n' then ['\\', 'n']
  else if char = '\r' then ['\\', 'r']
  else if isPrintable char then [char]
  else if char.toNat < 0x100 then '\\' :: 'x' :: codeDigits 2 char
  else if char.toNat < 0x10000 then '\\' :: 'u' :: codeDigits 4 char
  else '\\' :: 'U' :: codeDigits 8 char

def quoted (text : Text) : Text :=
  let quote := quoteFor text
  quote :: text.flatMap (escape quote) ++ [quote]

end SicXe.Text
