/-
This file says how a section grows by a statement: what the statement does to the tables, and
the bytes that it takes.
-/

import SicXe.AddressExpression
import SicXe.Section.Basic
import SicXe.Statement.Reader

namespace SicXe

namespace Section

variable {ε : Type}

/-- The value of a label is the location counter, or that of the expression behind `EQU`, which is
empty without operands. -/
def labelValue (part : Section) (file : Text) (statement : Statement) :
    Except AssemblyError Int :=
  if statement.directive? = some .equ then
    AddressExpression.evaluate (statement.operands.headD []) part.counter part.symbols
      (some (statement.place file)) (some statement.source)
  else .ok part.counter

/-- The first definition of a label counts, and a later one is a warning. -/
def bindLabel (part : Section) (file : Text) (statement : Statement) :
    Logged AssemblyError Section :=
  if statement.isLabelled then do
    let value ← part.labelValue file statement
    Logged.reportIf (part.symbols.contains statement.label)
      (.duplicateLabel (statement.place file) statement.label)
    let symbols ← part.symbols.define statement.label value
    return { part with symbols }
  else pure part

def registerLiteral (part : Section) (statement : Statement) : Logged ε Section :=
  match statement.operand with
  | some ⟨_, .literal name⟩ => do
    let literals ← part.literals.register name
    return { part with literals }
  | _ => pure part

/-- The literals follow each other from the location counter on. -/
def placeLiterals (part : Section) : List Text → Logged ε Section
  | [] => pure part
  | name :: rest => do
    Logged.report (.literalPlaced name part.counter)
    let literals := part.literals.place name part.counter
    placeLiterals ({ part with literals }.moveBy (Literal.size name)) rest

def declareExternals (part : Section) : List Text → Logged ε Section
  | [] => pure part
  | name :: rest => do
    let externals ← part.externals.declare name
    declareExternals { part with externals } rest

/-- The signed names that a linker adds to the operand field. -/
def signedSymbols (operand : Operand) : List Text :=
  match operand.form with
  | .difference left right => ['+' :: left, '-' :: right]
  | _ => operand.symbols.map ('+' :: ·)

/-- The address field of an extended instruction begins one byte behind its location and has
five half-bytes; any other field has six. -/
def patchesFor (part : Section) (statement : Statement) : List Patch :=
  match statement.operand with
  | none => []
  | some operand =>
    if operand.symbols.any part.isExternal then
      (signedSymbols operand).map fun symbol =>
        if statement.extended then ⟨symbol, part.counter + 1, 5⟩ else ⟨symbol, part.counter, 6⟩
    else []

def addPatches (part : Section) : List Patch → Logged ε Section
  | [] => pure part
  | patch :: rest => do
    let patches ← Patch.add part.patches patch
    addPatches { part with patches } rest

/-- What the operator does to the tables, and the literals that it places. -/
def applyOperator (part : Section) (statement : Statement) : Logged ε (Section × List Text) :=
  match statement.directive? with
  | some .ltorg | some .finish => do
    let pool := part.literals.waiting
    return (← part.placeLiterals pool, pool)
  | some .extref => return (← part.declareExternals statement.operands, [])
  | _ => return (← part.addPatches (part.patchesFor statement), [])

/-- A statement changes the tables first and takes its bytes last. -/
def addStatement (part : Section) (file : Text) (statement : Statement) :
    Logged AssemblyError Section :=
  if statement.isComment then pure (part.append { toStatement := statement })
  else do
    let part ← part.bindLabel file statement
    let part ← part.registerLiteral statement
    let (part, pool) ← part.applyOperator statement
    return (part.append { toStatement := statement, pool }).moveBy statement.size

def addLine (part : Section) (catalog : Catalog) (file : Text) (number : Nat) (raw : Text) :
    Logged AssemblyError Section := do
  let statement ← Statement.read catalog file part.counter number raw
  part.addStatement file statement

end Section

end SicXe
