/-
This file compares the targets of instructions with the values of the same texts as expressions.
They are the same but for the location counter, which an instruction takes for zero.
-/

import SicXe.Proofs.Code.Decode
import SicXe.Proofs.Statement.Expressions
import SicXe.Proofs.Undefined.Missing

namespace SicXe

open Numeral

/-- Of the four kinds of expressions, only the counter has another target than its value. -/
theorem Section.targetOfDenotes {part : Section} {counter value : Int} {text : Text}
    {form : Operand.Form}
    (denotes : AddressExpression.Denotes counter part.symbols text form value) :
    part.target form = (if text = ['*'] then 0 else value) ∧ (text = ['*'] → value = counter) := by
  have direct (named : form ≠ .counter) (same : part.target form = value) :
      part.target form = (if text = ['*'] then 0 else value) ∧
        (text = ['*'] → value = counter) := by
    have other : text ≠ ['*'] := by
      rintro rfl
      exact named (Except.ok.inj (Operand.Form.ofAddressOfDenotes denotes).symm)
    rw [if_neg other]
    exact ⟨same, fun star => absurd star other⟩
  cases denotes with
  | counter => exact ⟨rfl, fun _ => rfl⟩
  | number negative digits plain short => exact direct nofun rfl
  | symbol name identifier => exact direct nofun rfl
  | difference left before after right isFirst isSecond blankBefore blankAfter =>
    exact direct nofun rfl

/-- An instruction asks for the values of all names in an expression. -/
theorem AddressExpression.Denotes.resolvedEqSymbols {counter value : Int} {symbols : SymbolTable}
    {text : Text} {form : Operand.Form} (denotes : Denotes counter symbols text form value) :
    form.resolved = form.symbols := by
  cases denotes <;> rfl

namespace Encoder

variable {encoder : Encoder} {part : Section} {statement : Statement} {instruction : Instruction}

/-- The form of an operand is that of its text as an expression. -/
theorem denotesOperand {operand : Operand} {value : Int} {place : Option Place}
    {sourceLine : Option Text} (reading : statement.IsRead encoder.catalog)
    (known : encoder.catalog.get? statement.operator = some instruction)
    (format : instruction.format = .three) (held : statement.operand = some operand)
    (evaluated : AddressExpression.evaluate operand.text statement.location part.symbols place
      sourceLine = .ok value) :
    AddressExpression.Denotes statement.location part.symbols operand.text operand.form value := by
  have plain := reading.plainOfOperand held
  have coherent := reading.coherent plain
  cases shape : statement.operands with
  | nil =>
    rw [coherent.noOperand shape] at held
    contradiction
  | cons first rest =>
    obtain ⟨form, formed, isOperand⟩ := coherent.someOperand first rest shape
    obtain rfl := Option.some.inj (held.symm.trans isOperand)
    have stripped : Text.strip first = first :=
      reading.stripOperand plain (by rw [shape]; exact List.mem_cons_self)
    obtain ⟨other, denotes⟩ := (AddressExpression.evaluateEqOk place sourceLine).1 evaluated
    rw [stripped] at denotes
    rw [known, Operand.Form.ofTextOfDenotes denotes (by simp [format])] at formed
    obtain rfl := Except.ok.inj formed
    exact denotes

/-- Reports end a strict encoder, and no other. -/
theorem valueReportAll (names : List Text) :
    (encoder.reportAll part statement names).value? = some () ↔
      (encoder.strict = true → names = []) := by
  cases strict : encoder.strict with
  | false =>
    have same : encoder = encoder.inMode false := by rw [inMode, ← strict]
    rw [same, reportAllLenient]
    exact iff_of_true rfl (absurd · Bool.false_ne_true)
  | true =>
    have same : encoder = encoder.inMode true := by rw [inMode, ← strict]
    rw [same]
    cases names with
    | nil => exact iff_of_true rfl fun _ => rfl
    | cons name rest =>
      rw [reportAllStrict]
      apply iff_of_false
      · exact (Option.some_ne_none ()).symm
      · exact fun complete => List.cons_ne_nil _ _ (complete rfl)

/-- A computation that misses names has its value unless the encoder is strict. -/
theorem Tells.valueIff {α : Type} {names : List Text} {value result : α}
    {computation : Encoder → Logged AssemblyError α}
    (tells : Tells encoder part statement names (.ok value) computation) :
    (computation encoder).value? = some result ↔
      result = value ∧ (encoder.strict = true → names = []) := by
  rw [← valueReportAll, tells.computationEq]
  simp only [Logged.valueBind, Logged.valueLift, Except.toOption, Logged.valuePure,
    Option.bind_some, Option.bind_eq_some_iff, Option.some.injEq]
  constructor
  · rintro ⟨_, reported, rfl⟩
    exact ⟨rfl, reported⟩
  · rintro ⟨rfl, reported⟩
    exact ⟨(), reported, rfl⟩

theorem targetIff (form : Operand.Form) (target : Int) :
    (encoder.target part statement form).result = .ok target ↔
      target = part.target form ∧
        (encoder.strict = true → ∀ name ∈ form.resolved, part.lacks name = false) := by
  obtain ⟨value, tells⟩ := @tellsTarget encoder part statement form
  -- A lenient encoder has the value, so that it must be the target of the section.
  have lenient : ((encoder.inMode false).target part statement form).value? = some value := by
    have same : (encoder.inMode false).target part statement form = _ := tells false
    rw [same, reportAllLenient]
    rfl
  obtain rfl := targetEqTarget lenient
  rw [← Logged.valueEqSome, tells.valueIff, List.filter_eq_nil_iff]
  simp only [Bool.not_eq_true]

/-- The field of a relative instruction holds the way from the next instruction to the target. -/
theorem longCodeIff {operand : Operand} {code : Text} (held : statement.operand = some operand)
    (takes : instruction.operandCount.val ≠ 0) (internal : part.mentionsExternal statement = false)
    (plain : statement.extended = false) (relative : statement.addressing.p = true) :
    (encoder.longCode part statement instruction).value? = some code ↔
      ∃ target, (encoder.target part statement operand.form).result = .ok target ∧
        code = Hex.field 2 (firstByte instruction statement.addressing) ++
          Hex.digit statement.addressing.xbpe ::
            Hex.field 3 (target - (statement.location + statement.size)) := by
  have displaced : encoder.displacement part statement instruction =
      encoder.target part statement operand.form >>= fun target =>
        pure (target - (statement.location + statement.size)) := by
    simp [displacement, held, takes, internal, plain, relative]
  simp only [longCode, displaced, plain, Logged.valueBind, Logged.valuePure,
    Option.bind_eq_some_iff, Option.some.injEq, ← Logged.valueEqSome]
  constructor
  · rintro ⟨_, ⟨target, resolved, rfl⟩, rfl⟩
    exact ⟨target, resolved, rfl⟩
  · rintro ⟨target, resolved, rfl⟩
    exact ⟨_, ⟨target, resolved, rfl⟩, rfl⟩

theorem codeEqLongCode {lines : List Text}
    (loaded : (Catalog.load lines).result = .ok encoder.catalog)
    (plain : statement.isComment = false)
    (known : encoder.catalog.get? statement.operator = some instruction)
    (format : instruction.format = .three) :
    encoder.code part statement = encoder.longCode part statement instruction := by
  have named : statement.operator ≠ [] := by
    intro empty
    rw [empty, Catalog.solidOfLoad (Logged.valueEqSome.2 loaded)] at known
    contradiction
  rw [code, if_neg (by simp [plain, named]), known]
  exact if_pos (.inr format)

/-- Without external symbols an instruction lacks the names that have no value. -/
theorem lacksIff {operand : Operand} {name : Text} (held : statement.operand = some operand)
    (internal : part.mentionsExternal statement = false) (inside : name ∈ operand.symbols) :
    part.lacks name = false ↔ part.symbols.lookup name ≠ -1 := by
  rw [Section.mentionsExternal, held, Option.any_some] at internal
  have own : part.isExternal name = false := by
    rw [← Bool.not_eq_true]
    exact List.any_eq_false.1 internal name inside
  simp [Section.lacks, own]

/-- The operand of an instruction of three bytes that is not extended, has a value as an expression
and names no external symbol. Its target is this value, unless it is the location counter: then the
target is zero. There is a target if every name has a value or the encoder is not strict, and with
it there is the code, whose field holds the way from the next instruction to the target. -/
theorem operandsMeanExpressions {lines : List Text} {file raw : Text} {location line value : Int}
    {operand : Operand} {place : Option Place} {sourceLine : Option Text}
    (loaded : (Catalog.load lines).result = .ok encoder.catalog)
    (read : Statement.read encoder.catalog file location line raw = .ok statement)
    (known : encoder.catalog.get? statement.operator = some instruction)
    (format : instruction.format = .three) (plain : statement.extended = false)
    (held : statement.operand = some operand)
    (evaluated : AddressExpression.evaluate operand.text statement.location part.symbols place
      sourceLine = .ok value)
    (internal : part.mentionsExternal statement = false) :
    ((∃ target, (encoder.target part statement operand.form).result = .ok target) ↔
      (encoder.strict = true → ∀ name ∈ operand.symbols, part.symbols.lookup name ≠ -1)) ∧
    (∀ target, (encoder.target part statement operand.form).result = .ok target →
      target = (if operand.text = ['*'] then 0 else value) ∧
        (operand.text = ['*'] → value = statement.location)) ∧
    ∀ code, (encoder.code part statement).result = .ok code ↔
      ∃ target, (encoder.target part statement operand.form).result = .ok target ∧
        code = Hex.field 2 (firstByte instruction statement.addressing) ++
          Hex.digit statement.addressing.xbpe ::
            Hex.field 3 (target - (statement.location + 3)) := by
  have reading : statement.IsRead encoder.catalog := ⟨_, _, _, _, Statement.readEqOk.1 read⟩
  have coherent := reading.coherent (reading.plainOfOperand held)
  have denotes := denotesOperand reading known format held evaluated
  refine ⟨?_, ?_, ?_⟩
  · constructor
    · rintro ⟨target, resolved⟩ strict name inside
      exact (lacksIff held internal inside).1 (((targetIff _ _).1 resolved).2 strict name
        (denotes.resolvedEqSymbols ▸ inside))
    · intro complete
      refine ⟨_, (targetIff _ _).2 ⟨rfl, fun strict name inside => ?_⟩⟩
      rw [denotes.resolvedEqSymbols] at inside
      exact (lacksIff held internal inside).2 (complete strict name inside)
  · intro target resolved
    obtain ⟨rfl, _⟩ := (targetIff _ _).1 resolved
    exact part.targetOfDenotes denotes
  · intro code
    have size : statement.size = 3 := by
      rw [coherent.sizeOfInstruction known, plain, format]
      rfl
    have takes : instruction.operandCount.val ≠ 0 := by
      intro zero
      have bare := coherent.noOperand (coherent.bare (by rw [known]; exact decide_eq_true zero))
      rw [held] at bare
      contradiction
    have relative : statement.addressing.p = true := by
      rw [(coherent.bitsFollow known Iff.rfl).relative format]
      refine ⟨plain, operand, held, fun marked => ?_⟩
      rw [AddressExpression.evaluateEq, AddressExpression.unsupportedOfMark (by decide)
        (List.mem_of_head? marked)] at evaluated
      contradiction
    rw [← Logged.valueEqSome, codeEqLongCode loaded (reading.plainOfOperand held) known format,
      longCodeIff held takes internal plain relative, size]

/-- A jump to the location counter. -/
def counterJump : Statement where
  location := 0x10
  operator := "J".toList
  operands := ["*".toList]
  operand := some ⟨"*".toList, .counter⟩
  addressing := { n := true, i := true, p := true }
  size := 3
  line := 1
  source := "\tJ\t*".toList

/-- The jump to itself at location sixteen leads to zero. -/
theorem counterJumpLeadsToZero :
    ∃ catalog, (Catalog.load ["J 3 3C 1".toList]).result = .ok catalog ∧
      Statement.read catalog [] 0x10 1 "\tJ\t*".toList = .ok counterJump ∧
      AddressExpression.evaluate "*".toList 0x10 Table.empty none none = .ok 0x10 ∧
      (Encoder.target ⟨catalog, [], true⟩ {} counterJump .counter).result = .ok 0 ∧
      (Encoder.code ⟨catalog, [], true⟩ {} counterJump).result = .ok "3F2FED".toList := by
  have evaluable : ∃ catalog ∈ (Catalog.load ["J 3 3C 1".toList]).value?,
      (Statement.read catalog [] 0x10 1 "\tJ\t*".toList).toOption = some counterJump ∧
      ∃ instruction ∈ catalog.get? "J".toList, instruction.format = .three ∧
        instruction.opcode.toNat = 0x3C := by
    decide +kernel
  obtain ⟨catalog, loadedValue, readValue, instruction, known, format, opcode⟩ := evaluable
  have loaded := Logged.valueEqSome.1 loadedValue
  have read : Statement.read catalog [] 0x10 1 "\tJ\t*".toList = .ok counterJump := by
    generalize Statement.read catalog [] 0x10 1 "\tJ\t*".toList = found at readValue ⊢
    cases found with
    | error error => contradiction
    | ok statement => exact congrArg _ (Option.some.inj readValue)
  have evaluated : AddressExpression.evaluate "*".toList 0x10 Table.empty none none = .ok 0x10 :=
    rfl
  have agrees := @operandsMeanExpressions ⟨catalog, [], true⟩ {} counterJump
  obtain ⟨yields, same, codes⟩ := agrees loaded read known format rfl rfl evaluated rfl
  obtain ⟨target, resolved⟩ := yields.2 nofun
  obtain rfl : target = 0 := (same target resolved).1
  refine ⟨catalog, loaded, read, evaluated, resolved, (codes _).2 ⟨0, resolved, ?_⟩⟩
  rw [firstByte, opcode]
  decide

end Encoder

end SicXe
