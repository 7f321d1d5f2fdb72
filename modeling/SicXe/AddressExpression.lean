/-
This file holds the expressions for addresses: the location counter, a number, a symbol, or the
difference of two symbols.
-/

import SicXe.Section.SymbolTable

namespace SicXe

def isIdentifierStart (char : Char) : Bool :=
  ('A' ≤ char && char ≤ 'Z') || ('a' ≤ char && char ≤ 'z') || char == '_'

def isIdentifierPart (char : Char) : Bool :=
  isIdentifierStart char || ('0' ≤ char && char ≤ '9')

/-- An identifier has letters, digits and underscores, and no digit in front. -/
def isIdentifier : Text → Bool
  | [] => false
  | first :: rest => isIdentifierStart first && rest.all isIdentifierPart

inductive AddressExpression where
  | counter
  | number (numeral : Text)
  | symbol (name : Text)
  | difference (left right : Text)
  deriving DecidableEq, Repr

namespace AddressExpression

/-- Two identifiers with one minus sign between them, and blanks around each. -/
def differenceIn (text : Text) : Except Lapse (Option (Text × Text)) :=
  if text.count '-' = 1 then
    (pairOf (List.splitOn '-' text)).map fun (left, right) =>
      if isIdentifier (Text.strip left) && isIdentifier (Text.strip right) then
        some (Text.strip left, Text.strip right)
      else none
  else .ok none

/-- The expression that a text without blanks around it stands for, if any. -/
def parse (text : Text) : Except Lapse (Option AddressExpression) :=
  if text = ['*'] then .ok (some counter)
  else if Numeral.Decimal.isPlain text then .ok (some (number text))
  else if isIdentifier text then .ok (some (symbol text))
  else (differenceIn text).map (·.map fun names => difference names.1 names.2)

/-- A symbol without a value counts as minus one. -/
def value (counter : Int) (symbols : SymbolTable) :
    AddressExpression → Except Numeral.Fault Int
  | .counter => .ok counter
  | number numeral => Numeral.Decimal.readPlain numeral
  | symbol name => .ok (symbols.lookup name)
  | difference left right => .ok (symbols.lookup left - symbols.lookup right)

/-- The value of an expression, or what is wrong with it. -/
def evaluate (text : Text) (counter : Int) (symbols : SymbolTable)
    (place : Option Place) (sourceLine : Option Text) : Except AssemblyError Int := do
  match ← parse (Text.strip text) with
  | none => .error (.source ⟨.unsupportedExpression text, place, sourceLine⟩)
  | some expression => (expression.value counter symbols).mapError .numeral

end AddressExpression

end SicXe
