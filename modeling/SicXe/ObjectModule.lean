/-
This file builds the object module of a section: its records in order.
-/

import SicXe.Record
import SicXe.Section.Basic

namespace SicXe

/-- Object code of consecutive statements, on its way into one text record. -/
structure Run where
  start : Int
  code : Text := []
  size : Int := 0
  deriving DecidableEq, Repr

namespace Run

/-- The most bytes that a text record holds. -/
def maxSize : Int := 30

def record (run : Run) : Record :=
  .text run.start run.code

/-- A statement joins a run if it has bytes and code, reserves no storage, and fits. -/
def accepts (run : Run) (entry : Entry) : Bool :=
  entry.size != 0 && !entry.code.isEmpty && !entry.directive?.any (·.reserves) &&
    run.size + entry.size ≤ maxSize

def add (run : Run) (entry : Entry) : Run :=
  { run with code := run.code ++ entry.code, size := run.size + entry.size }

def extend? (run : Run) (entry : Entry) : Option Run :=
  if run.accepts entry then some (run.add entry) else none

/-- The run that begins with a statement. -/
def begin? (entry : Entry) : Option Run :=
  Run.extend? ⟨entry.location, [], 0⟩ entry

end Run

namespace Section

/-- The code of the literals placed at a statement, from the address of the first on. -/
def literalRecord (part : Section) (pool : List Text) : Except Lapse Record :=
  (itemAt pool 0).map fun first =>
    .text (part.literals.lookup first) (pool.flatMap Literal.code)

/-- The records of a statement that stands outside of runs; one with code belongs to a run. -/
def ownRecords (part : Section) (entry : Entry) : Except Lapse (Option (List Record)) :=
  if entry.isComment then .ok (some [])
  else match entry.directive? with
    | some .start | some .csect => .ok (some [.header entry.label part.start part.length])
    | some .extdef =>
      .ok (some [.define (entry.operands.map fun name => (name, part.symbols.lookup name))])
    | some .extref => .ok (some [.refer entry.operands])
    | some .ltorg | some .finish =>
      if entry.pool.isEmpty then .ok (some [])
      else (part.literalRecord entry.pool).map fun record => some [record]
    | _ => .ok (if entry.code.isEmpty then some [] else none)

/-- The records of the statements, behind a run in progress. -/
def emit (part : Section) : Option Run → List Entry → Except AssemblyError (List Record)
  | pending, [] => .ok (pending.map Run.record).toList
  | pending, entry :: rest =>
    match pending.bind (·.extend? entry) with
    | some run => emit part (some run) rest
    | none => do
      let closed := (pending.map Run.record).toList
      match ← part.ownRecords entry with
      | some records => (emit part none rest).map (closed ++ records ++ ·)
      | none =>
        match Run.begin? entry with
        | some run => (emit part (some run) rest).map (closed ++ ·)
        | none => .error .stalled

/-- The address that an `END` statement names. -/
def namedEntry? (part : Section) (entry : Entry) : Option Int :=
  match entry.directive?, entry.operands with
  | some .finish, name :: _ =>
    let address := part.symbols.lookup name
    if address = -1 then none else some address
  | _, _ => none

/-- Execution begins at the address that `END` names, or at the first instruction, or at the
start of the section. -/
def entryPoint (part : Section) (catalog : Catalog) : Int :=
  match part.entries.findSome? part.namedEntry? with
  | some address => address
  | none =>
    match part.entries.find? (catalog.contains ·.operator) with
    | some entry => entry.location
    | none => part.start

/-- Only the first section has an entry point. -/
def finishRecord (part : Section) (catalog : Catalog) : Record :=
  .finish (if part.index = 0 then some (part.entryPoint catalog) else none)

def patchRecords (part : Section) : List Record :=
  part.patches.map fun patch => .modification patch.location patch.width patch.symbol

/-- The records of the statements, then the patches, then the end. -/
def records (part : Section) (catalog : Catalog) : Except AssemblyError (List Record) :=
  (part.emit none part.entries).map fun records =>
    records ++ part.patchRecords ++ [part.finishRecord catalog]

end Section

end SicXe
