/-
This file says what one statement does to a section, table by table, apart from the reports.
Every invariant of the layout follows from `addStatementValue`.
-/

import SicXe.Proofs.Outcome
import SicXe.Proofs.Statement.Accesses
import SicXe.Section.Growth

namespace SicXe

variable {ε : Type}

/-- The bytes of literals that follow each other. -/
def Literal.extent (names : List Text) : Nat :=
  names.foldr (fun name total => Literal.size name + total) 0

@[simp] theorem Literal.extentNil : Literal.extent [] = 0 := rfl

@[simp] theorem Literal.extentCons (name : Text) (rest : List Text) :
    Literal.extent (name :: rest) = Literal.size name + Literal.extent rest := rfl

theorem Literal.extentAppend (first second : List Text) :
    Literal.extent (first ++ second) = Literal.extent first + Literal.extent second := by
  induction first with
  | nil => simp
  | cons name rest inductionHypothesis =>
    rw [List.cons_append, extentCons, extentCons, inductionHypothesis, Nat.add_assoc]

/-- The statement places the literals that wait for an address. -/
def Statement.placesLiterals (statement : Statement) : Bool :=
  statement.directive?.any (·.placesLiterals)

/-- Where an expression stands matters for its errors only. -/
theorem AddressExpression.evaluateToOption (text : Text) (counter : Int) (symbols : SymbolTable)
    (place otherPlace : Option Place) (source otherSource : Option Text) :
    (evaluate text counter symbols place source).toOption =
      (evaluate text counter symbols otherPlace otherSource).toOption := by
  rw [evaluateEq, evaluateEq]
  cases ofText? text <;> rfl

namespace SymbolTable

def declareAll (table : SymbolTable) (names : List Text) : SymbolTable :=
  names.foldl (fun table name => table.insert name 0) table

@[simp] theorem valueDefine (table : SymbolTable) (name : Text) (value : Int) :
    (table.define name value : Logged ε SymbolTable).value? = some (table.insert name value) := by
  unfold define
  cases table.get? (withoutMark name) <;> rfl

end SymbolTable

namespace LiteralTable

/-- The table with a literal that has no address yet. -/
def mention (table : LiteralTable) (name : Text) : LiteralTable :=
  { table with addresses := table.addresses.insert name 0 }

@[simp] theorem valueRegister (table : LiteralTable) (name : Text) :
    (table.register name : Logged ε LiteralTable).value? = some (table.mention name) := by
  simp [register, mention]

/-- The literals get addresses that follow each other from the given one on. -/
def placeFrom (table : LiteralTable) (address : Int) : List Text → LiteralTable
  | [] => table
  | name :: rest => (table.place name address).placeFrom (address + Literal.size name) rest

end LiteralTable

namespace Section

/-- The literals with the one that the statement mentions. -/
def literalsWith (part : Section) (statement : Statement) : LiteralTable :=
  match statement.operand with
  | some ⟨_, .literal name⟩ => part.literals.mention name
  | _ => part.literals

/-- The literals that the statement places. -/
def poolAt (part : Section) (statement : Statement) : List Text :=
  if statement.placesLiterals then (part.literalsWith statement).waiting else []

def externalsWith (part : Section) (statement : Statement) : SymbolTable :=
  if statement.directive? = some .extref then part.externals.declareAll statement.operands
  else part.externals

/-- The patches that the statement asks for. -/
def patchesAt (part : Section) (statement : Statement) : List Patch :=
  if statement.placesLiterals = true ∨ statement.directive? = some .extref then []
  else part.patchesFor statement

/-- The symbols with the label of the statement, if the label has a value. -/
def symbolsWith? (part : Section) (file : Text) (statement : Statement) : Option SymbolTable :=
  if statement.isLabelled then
    (part.labelValue file statement).toOption.map (part.symbols.insert statement.label)
  else some part.symbols

/-- The section behind a statement, with the symbols that it leaves. -/
def grown (part : Section) (statement : Statement) (symbols : SymbolTable) : Section :=
  { part with
    symbols
    counter := part.counter + Literal.extent (part.poolAt statement) + statement.size
    literals := (part.literalsWith statement).placeFrom part.counter (part.poolAt statement)
    externals := part.externalsWith statement
    patches := part.patches ++ part.patchesAt statement
    entries := part.entries ++ [{ toStatement := statement, pool := part.poolAt statement }] }

theorem valueBindLabel (part : Section) (file : Text) (statement : Statement) :
    (part.bindLabel file statement).value? =
      (part.symbolsWith? file statement).map fun symbols => { part with symbols } := by
  unfold bindLabel symbolsWith?
  split
  · cases part.labelValue file statement <;> simp [Except.toOption]
  · rfl

theorem valueRegisterLiteral (part : Section) (statement : Statement) :
    (part.registerLiteral statement : Logged ε Section).value? =
      some { part with literals := part.literalsWith statement } := by
  unfold registerLiteral literalsWith
  cases statement.operand with
  | none => rfl
  | some operand =>
    obtain ⟨text, form⟩ := operand
    cases form <;> simp

theorem valuePlaceLiterals (part : Section) (pool : List Text) :
    (part.placeLiterals pool : Logged ε Section).value? =
      some { part with
        literals := part.literals.placeFrom part.counter pool
        counter := part.counter + Literal.extent pool } := by
  induction pool generalizing part with
  | nil => simp [placeLiterals, LiteralTable.placeFrom]
  | cons name rest inductionHypothesis =>
    simp only [placeLiterals, Logged.valueBind, Logged.valueReport, Option.bind_some,
      inductionHypothesis, moveBy, LiteralTable.placeFrom, Literal.extentCons]
    rw [Int.add_assoc, Int.natCast_add]

theorem valueDeclareExternals (part : Section) (names : List Text) :
    (part.declareExternals names : Logged ε Section).value? =
      some { part with externals := part.externals.declareAll names } := by
  induction names generalizing part with
  | nil => rfl
  | cons name rest inductionHypothesis =>
    simp only [declareExternals, SymbolTable.declare, Logged.valueBind, SymbolTable.valueDefine,
      Option.bind_some, inductionHypothesis, SymbolTable.declareAll, List.foldl_cons]

theorem valueAddPatches (part : Section) (patches : List Patch) :
    (part.addPatches patches : Logged ε Section).value? =
      some { part with patches := part.patches ++ patches } := by
  induction patches generalizing part with
  | nil => simp [addPatches]
  | cons patch rest inductionHypothesis =>
    simp [addPatches, Patch.add, inductionHypothesis]

theorem valueApplyOperator (part : Section) (statement : Statement) :
    (part.applyOperator statement : Logged ε (Section × List Text)).value? =
      let pool := if statement.placesLiterals then part.literals.waiting else []
      some ({ part with
        counter := part.counter + Literal.extent pool
        literals := part.literals.placeFrom part.counter pool
        externals := part.externalsWith statement
        patches := part.patches ++ part.patchesAt statement }, pool) := by
  unfold applyOperator externalsWith patchesAt Statement.placesLiterals
  cases statement.directive? with
  | none => simp [valueAddPatches, LiteralTable.placeFrom]
  | some directive =>
    cases directive <;>
      simp [valuePlaceLiterals, valueDeclareExternals, valueAddPatches, LiteralTable.placeFrom,
        Directive.placesLiterals]

/-- A comment is kept and changes nothing; any other statement changes every table by a rule of
its own, and only its label can lack a value. -/
theorem addStatementValue (part : Section) (file : Text) (statement : Statement) :
    (part.addStatement file statement).value? =
      if statement.isComment then some (part.append { toStatement := statement })
      else (part.symbolsWith? file statement).map (part.grown statement) := by
  unfold addStatement
  split
  · rfl
  · simp only [Logged.valueBind, valueBindLabel, Option.map_eq_bind]
    cases part.symbolsWith? file statement with
    | none => rfl
    | some symbols =>
      simp only [Option.bind_some, Function.comp_apply, valueRegisterLiteral, valueApplyOperator,
        Logged.valuePure, append, moveBy]
      rfl

/-- What a line does to a section: a comment joins it, or a statement makes it grow. -/
theorem addStatementCases {part next : Section} {file : Text} {statement : Statement}
    (added : (part.addStatement file statement).value? = some next) :
    (statement.isComment = true ∧ next = part.append { toStatement := statement }) ∨
      (statement.isComment = false ∧ ∃ symbols,
        part.symbolsWith? file statement = some symbols ∧ next = part.grown statement symbols) := by
  rw [addStatementValue] at added
  split at added
  · next comment => exact .inl ⟨comment, (Option.some.inj added).symm⟩
  · next plain =>
    obtain ⟨symbols, bound, rfl⟩ := Option.map_eq_some_iff.1 added
    exact .inr ⟨by simpa using plain, symbols, bound, rfl⟩

end Section

end SicXe
