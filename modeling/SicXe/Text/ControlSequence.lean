/-
This file removes the control sequences of terminals from texts.
A sequence is an escape and an opening bracket, then digits, semicolons and question marks, and
last a letter; an opening that no letter closes is plain text.
-/

import SicXe.Text.Basic

namespace SicXe.Text

/-- What may stand between the opening of a control sequence and its letter. -/
def isControlParameter (char : Char) : Bool :=
  char.isDigit || char == ';' || char == '?'

/-- How many characters close an opened sequence, its letter included. -/
def closingLength? : Text → Option Nat
  | [] => none
  | char :: rest =>
    if char.isAlpha then some 1
    else if isControlParameter char then (closingLength? rest).map (· + 1)
    else none

/-- The length of the control sequence that begins the text, zero if none does. -/
def controlLength : Text → Nat
  | '\x1b' :: '[' :: rest =>
    match closingLength? rest with
    | some length => length + 2
    | none => 0
  | _ => 0

/-- The text without its control sequences, after the characters that the one before still has. -/
def withoutControlsAfter : Nat → Text → Text
  | _, [] => []
  | skipped + 1, _ :: rest => withoutControlsAfter skipped rest
  | 0, char :: rest =>
    match controlLength (char :: rest) with
    | 0 => char :: withoutControlsAfter 0 rest
    | length + 1 => withoutControlsAfter length rest

def withoutControls (text : Text) : Text :=
  withoutControlsAfter 0 text

/-- A message as one line of plain text. -/
def plainLine (message : String) : String :=
  String.ofList (withoutControls message.toList) ++ "\n"

end SicXe.Text
