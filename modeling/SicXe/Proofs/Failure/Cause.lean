/-
This file says with which errors lines and expressions fail. A lapse is never one of their causes,
and no numeral in an expression is: what stands in the operand field of a statement has been read
before.
-/

import SicXe.Proofs.Outcome
import SicXe.Proofs.Statement.Reading
import SicXe.Proofs.Text.Numerals

namespace SicXe

open Numeral

variable {ε δ α β : Type}

/-- What is the case if a problem is told. Undefined symbols are told in strict mode only. -/
def Problem.Occurs (strict : Bool) : Problem → Prop
  | invalidNumber text => Decimal.read? text = none
  | missingCount directive => directive.reserves = true
  | unsupportedExpression text => AddressExpression.parse (Text.strip text) = .ok none
  | undefinedSymbol _ _ => strict = true

/-- The error is a problem that occurs, and no lapse. -/
def LineError.Occurs (strict : Bool) : LineError → Prop
  | problem cause => cause.Occurs strict
  | lapse _ => False

/-- The error tells a problem that occurs, with the number of a line and its text. -/
def AssemblyError.Blames (strict : Bool) (file : Text) (line : Text × Nat)
    (error : AssemblyError) : Prop :=
  ∃ problem sourceLine, error = .source ⟨problem, some ⟨file, line.2⟩, some sourceLine⟩ ∧
    problem.Occurs strict ∧ (sourceLine = line.1 ∨ sourceLine = Text.dropLineEnd line.1)

/-- If there is no result, the error has the given cause. -/
def FailsBy (cause : ε → Prop) (result : Except ε α) : Prop :=
  ∀ error, result = .error error → cause error

namespace FailsBy

variable {cause : ε → Prop} {result : Except ε α}

theorem ok (value : α) : FailsBy cause (.ok value) := nofun

theorem error {error : ε} (known : cause error) : FailsBy cause (.error error : Except ε α) := by
  intro other same
  exact Except.error.inj same ▸ known

theorem mono {told : ε → Prop} (early : FailsBy cause result)
    (weaker : ∀ error, cause error → told error) : FailsBy told result :=
  fun error failed => weaker error (early error failed)

/-- The second computation matters only with the result of the first. -/
theorem bind {next : α → Except ε β} (early : FailsBy cause result)
    (late : ∀ value, result = .ok value → FailsBy cause (next value)) :
    FailsBy cause (result >>= next) := by
  cases result with
  | error first => exact error (early first rfl)
  | ok value => exact late value rfl

theorem map (early : FailsBy cause result) (convert : α → β) :
    FailsBy cause (result.map convert) := by
  cases result with
  | error first => exact error (early first rfl)
  | ok value => exact ok _

theorem mapError {convert : ε → δ} {told : δ → Prop}
    (early : FailsBy (fun error => told (convert error)) result) :
    FailsBy told (result.mapError convert) := by
  cases result with
  | error first => exact error (early first rfl)
  | ok value => exact ok _

/-- A computation that reports events fails like one that does not. -/
theorem logged {first : Logged ε α} {next : α → Logged ε β} (early : FailsBy cause first.result)
    (late : ∀ value, first.result = .ok value → FailsBy cause (next value).result) :
    FailsBy cause (first >>= next).result := by
  rw [Logged.resultBind]
  exact early.bind late

theorem ofIsSome {computation : Logged ε α} (yields : computation.value?.isSome = true) :
    FailsBy cause computation.result := by
  obtain ⟨value, found⟩ := Option.isSome_iff_exists.1 yields
  rw [Logged.valueEqSome.1 found]
  exact ok value

end FailsBy

variable {strict : Bool}

/-- A problem that is told with a line blames the line. -/
theorem LineError.Occurs.blames {error : LineError} {file sourceLine : Text} {line : Text × Nat}
    (occurs : error.Occurs strict)
    (shown : sourceLine = line.1 ∨ sourceLine = Text.dropLineEnd line.1) :
    AssemblyError.Blames strict file line (error.told ⟨file, line.2⟩ sourceLine) := by
  cases error with
  | problem cause => exact ⟨cause, sourceLine, rfl, occurs, shown⟩
  | lapse cause => exact occurs.elim

theorem failsReadNumber (text : Text) : FailsBy (LineError.Occurs strict) (readNumber text) := by
  unfold readNumber
  split
  · exact .ok _
  · next unread => exact .error unread

theorem numberOfRead {convert : Int → α} {text : Text} {value : α}
    (read : (readNumber text).map convert = .ok value) :
    ∃ number, Decimal.read? text = some number ∧ value = convert number := by
  unfold readNumber at read
  split at read
  · next number found => exact ⟨number, found, (Except.ok.inj read).symm⟩
  · contradiction

theorem readOfNumber {convert : Int → α} {text : Text} {value : α}
    (read : (readNumber text).map convert = .ok value) : (Decimal.read? text).isSome = true := by
  obtain ⟨number, found, _⟩ := numberOfRead read
  rw [found]
  rfl

namespace Operand

/-- A plain numeral is a digit and more digits, behind a sign or not. -/
theorem plainShape {text : Text} (plain : Decimal.isPlain text = true) :
    ∃ digit rest, Decimal.isAsciiDigit digit = true ∧
      (text = digit :: rest ∨ text = '-' :: digit :: rest) := by
  obtain ⟨negative, digits, isDigits, rfl⟩ := Decimal.plainIff.1 plain
  obtain ⟨digit, rest, rfl⟩ := List.exists_cons_of_ne_nil isDigits.1
  have first := isDigits.2 digit List.mem_cons_self
  cases negative with
  | true => exact ⟨digit, rest, first, .inr rfl⟩
  | false => exact ⟨digit, rest, first, .inl rfl⟩

/-- A plain numeral has none of the marks of an address. -/
theorem Form.ofAddressPlain {text : Text} (plain : Decimal.isPlain text = true) :
    ofAddress text = (readNumber text).map number := by
  obtain ⟨digit, rest, isDigit, shape⟩ := plainShape plain
  have unmarked (mark : Char) (other : Decimal.isAsciiDigit mark = false) : digit ≠ mark := by
    rintro rfl
    rw [isDigit] at other
    contradiction
  have begins : beginsLikeNumber text = true := by
    rcases shape with rfl | rfl
    · unfold beginsLikeNumber
      split
      · next same => exact absurd (List.cons.inj same).1 (unmarked '-' (by decide))
      · next same => exact (List.cons.inj same).1 ▸ Text.isDigitOfAscii isDigit
      · contradiction
    · exact Text.isDigitOfAscii isDigit
  rw [ofAddressEq]
  rcases shape with rfl | rfl
  · split
    · next same => exact absurd (List.cons.inj same).1 (unmarked '#' (by decide))
    · next same => exact absurd (List.cons.inj same).1 (unmarked '@' (by decide))
    · next same => exact absurd (List.cons.inj same).1 (unmarked '=' (by decide))
    · next same => exact absurd (List.cons.inj same).1 (unmarked '*' (by decide))
    · rw [if_pos begins]
  · simp [begins]

/-- The operand of a statement other than `BYTE` is no plain numeral unless it can be read. -/
theorem Form.readOfText {text operator : Text} {instruction : Option Instruction} {form : Form}
    (other : operator ≠ Directive.name .byte) (plain : Decimal.isPlain text = true)
    (formed : Form.ofText text operator instruction = .ok form) :
    (Decimal.read? text).isSome = true := by
  unfold Form.ofText at formed
  split at formed
  · split at formed
    · next named =>
      obtain ⟨register, found⟩ := Option.isSome_iff_exists.1 named
      obtain rfl := Register.nameOfName found
      cases register <;> contradiction
    · exact readOfNumber formed
  · simp only [Form.ofAddressPlain plain] at formed
    split at formed <;> exact readOfNumber formed

theorem failsOfAddress (text : Text) :
    FailsBy (LineError.Occurs strict) (Form.ofAddress text) := by
  rw [Form.ofAddressEq]
  split
  · split
    · exact (failsReadNumber _).map _
    · exact .ok _
  · exact .ok _
  · exact .ok _
  · exact .ok _
  · split
    · exact (failsReadNumber _).map _
    · split <;> exact .ok _

theorem failsOfText (text operator : Text) (instruction : Option Instruction) :
    FailsBy (LineError.Occurs strict) (ofText text operator instruction) := by
  refine FailsBy.map ?_ _
  unfold Form.ofText
  split
  · split
    · exact .ok _
    · exact (failsReadNumber _).map _
  · split
    · split
      · exact .ok _
      · exact failsOfAddress text
    · exact failsOfAddress text

end Operand

namespace Statement

variable {catalog : Catalog} {statement : Statement}

theorem failsSizeFor (extended : Bool) (instruction : Option Instruction) (operator : Text)
    (operands : List Text) (operand : Option Operand) :
    FailsBy (LineError.Occurs strict) (sizeFor extended instruction operator operands operand) := by
  unfold sizeFor
  split
  · exact .ok _
  split
  · exact .ok _
  split
  · exact .error rfl
  · exact failsReadNumber _
  · exact .error rfl
  · exact (failsReadNumber _).map _
  · split <;> exact .ok _
  · exact .ok _
  · exact .ok _

/-- A line fails to be read for a number or for a count that is missing. -/
theorem failsOfFields (location line : Int) (source : Text) {fields : List Text}
    (solid : fields ≠ []) :
    FailsBy (LineError.Occurs strict) (ofFields catalog location line source fields) := by
  rw [ofFieldsEq catalog location line source solid]
  simp only
  split
  · exact .ok _
  · split <;> refine FailsBy.bind ?_ fun operand _ =>
      (failsSizeFor _ _ _ _ _).bind fun size _ => .ok _
    · exact .ok _
    · exact (Operand.failsOfText _ _ _).map _

theorem failsRead (file : Text) (location : Int) (number : Nat) (raw : Text) :
    FailsBy (AssemblyError.Blames strict file (raw, number))
      (read catalog file location number raw) := by
  apply FailsBy.mapError
  exact (failsOfFields _ _ _ (fieldsOfNeNil raw)).mono fun error occurs =>
    LineError.Occurs.blames occurs (.inr rfl)

/-- The statement has the number of the line and its text. -/
def IsAt (line : Text × Nat) (statement : Statement) : Prop :=
  statement.line = line.2 ∧ statement.source = Text.dropLineEnd line.1

theorem IsAt.blames {line : Text × Nat} {file : Text} {problem : Problem}
    (isAt : statement.IsAt line) (occurs : problem.Occurs strict) :
    AssemblyError.Blames strict file line
      (.source ⟨problem, some (statement.place file), some statement.source⟩) := by
  refine ⟨problem, statement.source, ?_, occurs, .inr isAt.2⟩
  rw [place, isAt.1]

/-- The operands of a statement have no blanks at their ends. -/
theorem IsRead.stripOperand (reading : statement.IsRead catalog)
    (plain : statement.isComment = false) {text : Text} (inside : text ∈ statement.operands) :
    Text.strip text = text := by
  obtain ⟨location, line, source, fields, found⟩ := id reading
  cases takes : takesNoOperand (catalog.get? statement.operator) with
  | true =>
    rw [(reading.coherent plain).bare takes] at inside
    contradiction
  | false =>
    rw [ofFieldsOperands found plain takes, operandTexts] at inside
    split at inside
    · contradiction
    · split at inside
      · obtain rfl := List.mem_singleton.1 inside
        rw [fieldAtEq]
        exact Text.stripStrip _
      · obtain ⟨piece, _, rfl⟩ := List.mem_map.1 inside
        exact Text.stripStrip piece

/-- A number in the first operand of a statement other than `BYTE` was read with the statement. -/
theorem IsRead.readNumeral (reading : statement.IsRead catalog)
    (plain : statement.isComment = false) (other : statement.directive? ≠ some .byte)
    {numeral : Text} (formed : AddressExpression.ofText? (statement.operands.headD []) =
      some (.number numeral)) : (Decimal.read? numeral).isSome = true := by
  cases shape : statement.operands with
  | nil =>
    rw [shape] at formed
    contradiction
  | cons first rest =>
    have stripped : Text.strip first = first :=
      reading.stripOperand plain (by rw [shape]; exact List.mem_cons_self)
    obtain ⟨form, isForm, _⟩ := (reading.coherent plain).someOperand first rest shape
    have operator : statement.operator ≠ Directive.name .byte :=
      mt (Directive.ofNameEqSomeIff _ _).2 other
    rw [shape, List.headD_cons, AddressExpression.ofText?, stripped,
      AddressExpression.ofStripped?] at formed
    split at formed
    · cases Option.some.inj formed
    · split at formed
      · next numeric =>
        obtain rfl := AddressExpression.number.inj (Option.some.inj formed)
        exact Operand.Form.readOfText operator numeric isForm
      · split at formed
        · cases Option.some.inj formed
        · simp at formed

/-- The first operand of a statement fails as an expression only by its form. -/
theorem IsRead.failsEvaluate (reading : statement.IsRead catalog)
    (plain : statement.isComment = false) (other : statement.directive? ≠ some .byte)
    {line : Text × Nat} (isAt : statement.IsAt line) (file : Text) (counter : Int)
    (symbols : SymbolTable) :
    FailsBy (AssemblyError.Blames strict file line)
      (AddressExpression.evaluate (statement.operands.headD []) counter symbols
        (some (statement.place file)) (some statement.source)) := by
  rw [AddressExpression.evaluateEq]
  split
  · next shapeless =>
    have unread := AddressExpression.parseEq (Text.strip (statement.operands.headD []))
    exact .error (isAt.blames (unread.trans (congrArg _ shapeless)))
  · next expression formed =>
    apply FailsBy.mapError
    cases expression with
    | number numeral =>
      obtain ⟨value, found⟩ := Option.isSome_iff_exists.1 (reading.readNumeral plain other formed)
      rw [AddressExpression.value, Decimal.readPlain, found]
      exact .ok value
    | _ => exact .ok _

end Statement

end SicXe
