/-
This file reads and writes texts as UTF-8 bytes and says where bytes are no text.
-/

import SicXe.Text.Basic

namespace SicXe.Text

abbrev Bytes := List UInt8

/-- What is wrong with a byte sequence. -/
inductive Utf8Flaw where
  | start
  | continuation
  | truncated
  deriving DecidableEq, Repr

/-- The flaw covers `count` bytes from `position`, of which `byte` is the first. -/
structure Utf8Fault where
  flaw : Utf8Flaw
  position : Nat
  count : Nat
  byte : UInt8
  deriving DecidableEq, Repr

def Utf8Flaw.reason : Utf8Flaw → String
  | .start => "invalid start byte"
  | .continuation => "invalid continuation byte"
  | .truncated => "unexpected end of data"

def Utf8Fault.message (fault : Utf8Fault) : String :=
  let span :=
    if fault.count = 1 then
      let digits := String.ofList (List.leftpad 2 '0' (Nat.toDigits 16 fault.byte.toNat))
      s!"byte 0x{digits} in position {fault.position}"
    else s!"bytes in position {fault.position}-{fault.position + fault.count - 1}"
  s!"'utf-8' codec can't decode {span}: {fault.flaw.reason}"

/-- What a first byte asks of the bytes after it: how many there are, and the least and the
greatest value of the next one. -/
structure Utf8Lead where
  following : Nat
  least : UInt8
  greatest : UInt8
  bits : Nat
  deriving DecidableEq, Repr

def utf8Lead? (byte : UInt8) : Option Utf8Lead :=
  if byte < 0x80 then some ⟨0, 0x80, 0xBF, byte.toNat⟩
  else if byte < 0xC2 then none
  else if byte < 0xE0 then some ⟨1, 0x80, 0xBF, byte.toNat - 0xC0⟩
  else if byte = 0xE0 then some ⟨2, 0xA0, 0xBF, 0⟩
  else if byte = 0xED then some ⟨2, 0x80, 0x9F, 0xD⟩
  else if byte < 0xF0 then some ⟨2, 0x80, 0xBF, byte.toNat - 0xE0⟩
  else if byte = 0xF0 then some ⟨3, 0x90, 0xBF, 0⟩
  else if byte < 0xF4 then some ⟨3, 0x80, 0xBF, byte.toNat - 0xF0⟩
  else if byte = 0xF4 then some ⟨3, 0x80, 0x8F, 4⟩
  else none

/-- The reader of one character: the bytes taken so far, the first of them, the bits
collected, and what is still asked. -/
structure Utf8State where
  taken : Nat
  first : UInt8
  lead : Utf8Lead

/-- The bytes are read from the position, with a character possibly begun. -/
def decodeFrom : Option Utf8State → Nat → Bytes → Except Utf8Fault Text
  | none, _, [] => .ok []
  | some state, position, [] =>
    .error ⟨.truncated, position - state.taken, state.taken, state.first⟩
  | none, position, byte :: rest =>
    match utf8Lead? byte with
    | none => .error ⟨.start, position, 1, byte⟩
    | some ⟨0, _, _, bits⟩ =>
      (decodeFrom none (position + 1) rest).map (Char.ofNat bits :: ·)
    | some lead => decodeFrom (some ⟨1, byte, lead⟩) (position + 1) rest
  | some state, position, byte :: rest =>
    if state.lead.least ≤ byte ∧ byte ≤ state.lead.greatest then
      let bits := state.lead.bits * 0x40 + (byte.toNat - 0x80)
      if state.lead.following ≤ 1 then
        (decodeFrom none (position + 1) rest).map (Char.ofNat bits :: ·)
      else
        let lead := ⟨state.lead.following - 1, 0x80, 0xBF, bits⟩
        decodeFrom (some ⟨state.taken + 1, state.first, lead⟩) (position + 1) rest
    else .error ⟨.continuation, position - state.taken, state.taken, state.first⟩

def decodeUtf8 (bytes : Bytes) : Except Utf8Fault Text :=
  decodeFrom none 0 bytes

def encodeUtf8 (text : Text) : Bytes :=
  text.flatMap String.utf8EncodeChar

end SicXe.Text
