/-
This file writes the fields of a statement on a line and reads them back. Tabs separate the fields
and commas the operands, so that a field has no tab and only the last operand may have commas.
-/

import SicXe.Proofs.Outcome
import SicXe.Proofs.Statement.Reading
import SicXe.Proofs.Text.Pieces

namespace SicXe.Statement

/-- What a line says about a statement. -/
structure Fields where
  label : Text
  operator : Text
  extended : Bool
  operands : List Text
  comment : Text

namespace Fields

/-- The operator behind its marker. -/
def markedOperator (fields : Fields) : Text :=
  if fields.extended then '+' :: fields.operator else fields.operator

def operandField (fields : Fields) : Text :=
  Text.join ',' fields.operands

/-- The fields on a line, with tabs between them. -/
def text (fields : Fields) : Text :=
  Text.join separator
    [fields.label, fields.markedOperator, fields.operandField, fields.comment]

/-- The fields can be told apart on their line. A constant may hold commas, so that a list of
operands must not look like one. -/
structure IsWritable (catalog : Catalog) (fields : Fields) : Prop where
  labelStripped : Text.strip fields.label = fields.label
  labelWithoutTab : separator ∉ fields.label
  labelIsNoMark : fields.label ≠ commentLabel
  operatorStripped : Text.strip fields.operator = fields.operator
  operatorWithoutTab : separator ∉ fields.operator
  operatorUnmarked : fields.operator.head? ≠ some '+'
  operatorNotByte : fields.operator ≠ Directive.name .byte
  operatorTakesOperand : takesNoOperand (catalog.get? fields.operator) = false
  someOperands : fields.operands ≠ []
  fewOperands : fields.operands.length ≤ 3
  operandsStripped : ∀ operand ∈ fields.operands, Text.strip operand = operand
  operandsWithoutTab : ∀ operand ∈ fields.operands, separator ∉ operand
  operandsWithoutComma : ∀ operand ∈ fields.operands.take 2, ',' ∉ operand
  operandFieldSolid : fields.operandField ≠ []
  operandFieldIsNoConstant : 2 ≤ fields.operands.length →
    Constant.ofLiteral? fields.operandField = none
  commentEnd : ∀ char ∈ fields.comment.getLast?, char ≠ '\r' ∧ char ≠ '\n'

/-- The statement of the fields, with the operand and the size that follow from them. -/
def statement (fields : Fields) (catalog : Catalog) (location line : Int) (source : Text)
    (operand : Operand) (size : Int) : Statement where
  location := location
  label := fields.label
  operator := fields.operator
  extended := fields.extended
  operands := fields.operands
  operand := some operand
  comment := fields.comment
  addressing := addressingOf fields.extended (catalog.get? fields.operator) fields.operands
  size := size
  line := line
  source := source

variable {catalog : Catalog} {fields : Fields}

theorem IsWritable.stripMarkedOperator (writable : fields.IsWritable catalog) :
    Text.strip fields.markedOperator = fields.markedOperator := by
  unfold markedOperator
  split
  · obtain ⟨_, last⟩ := Text.solidOfStrip writable.operatorStripped
    apply Text.trimSolid
    · intro char first
      exact Option.some.inj first ▸ by decide
    · intro char ends
      rcases Text.lastOfCons ends with rfl | behind
      · decide
      · exact last char behind
  · exact writable.operatorStripped

theorem IsWritable.splitMarker (writable : fields.IsWritable catalog) :
    Statement.splitMarker fields.markedOperator = (fields.extended, fields.operator) := by
  unfold markedOperator
  cases fields.extended with
  | true => rfl
  | false =>
    rw [if_neg Bool.false_ne_true]
    unfold Statement.splitMarker
    split
    · next rest shape =>
      exact absurd (congrArg List.head? shape) writable.operatorUnmarked
    · rfl

/-- The operands are found again in their field. -/
theorem IsWritable.operandTexts (writable : fields.IsWritable catalog) :
    Statement.operandTexts fields.operator fields.operandField = fields.operands := by
  rw [Statement.operandTexts, if_neg writable.operandFieldSolid]
  split
  · next whole =>
    -- Only a constant stays whole, and then it is the one operand.
    have constant := whole.resolve_left writable.operatorNotByte
    have single : fields.operands.length = 1 := by
      have positive := List.length_pos_iff.2 writable.someOperands
      have fewer : ¬ 2 ≤ fields.operands.length := by
        intro many
        rw [writable.operandFieldIsNoConstant many] at constant
        contradiction
      omega
    obtain ⟨operand, shape⟩ := List.length_eq_one_iff.1 single
    rw [operandField, shape, Text.join, List.intercalate_singleton]
  · rw [operandField, Text.splitAtMostJoin writable.someOperands writable.fewOperands
      writable.operandsWithoutComma]
    exact (List.map_congr_left writable.operandsStripped).trans (List.map_id' _)

/-- What follows a tab ends the line as it ends itself, or with the tab. -/
theorem IsWritable.dropLineEnd (writable : fields.IsWritable catalog) {ends : Text}
    (ending : ∀ char ∈ ends, char = '\r' ∨ char = '\n') :
    Text.dropLineEnd (fields.text ++ ends) = fields.text := by
  rw [Text.dropLineEnd, Text.trimEndAppend (by simpa using ending)]
  apply Text.trimEndSolid
  intro char last
  have shape : fields.text = (fields.label ++ separator :: fields.markedOperator ++
      separator :: fields.operandField) ++ separator :: fields.comment := by
    simp [text, Text.join]
  rw [shape, List.getLast?_append, Option.or_of_isSome (by simp)] at last
  rcases Text.lastOfCons last with rfl | behind
  · decide
  · simpa using writable.commentEnd char behind

/-- The tabs of the line are the separators, and those of the comment. -/
theorem IsWritable.fieldsOf (writable : fields.IsWritable catalog) {ends : Text}
    (ending : ∀ char ∈ ends, char = '\r' ∨ char = '\n') :
    Statement.fieldsOf (fields.text ++ ends) =
      fields.label :: fields.markedOperator :: fields.operandField ::
        List.splitOn separator fields.comment := by
  have marked : separator ∉ fields.markedOperator := by
    unfold markedOperator
    split
    · rw [List.mem_cons, not_or]
      exact ⟨by decide, writable.operatorWithoutTab⟩
    · exact writable.operatorWithoutTab
  have operands : separator ∉ fields.operandField := by
    intro inside
    rcases Text.memJoin inside with comma | ⟨operand, member, held⟩
    · exact absurd comma (by decide)
    · exact writable.operandsWithoutTab operand member held
  rw [Statement.fieldsOf, writable.dropLineEnd ending, text, Text.joinConsCons,
    List.splitOn_append_cons_self_of_not_mem writable.labelWithoutTab, Text.joinConsCons,
    List.splitOn_append_cons_self_of_not_mem marked, Text.joinConsCons,
    List.splitOn_append_cons_self_of_not_mem operands, Text.join, List.intercalate_singleton]

/-- The first operand and the size are all that is still to find when the fields are known. -/
theorem IsWritable.ofFields (writable : fields.IsWritable catalog) {ends : Text}
    (ending : ∀ char ∈ ends, char = '\r' ∨ char = '\n') (location line : Int) (source : Text)
    {first : Text} {rest : List Text} (shape : fields.operands = first :: rest) :
    Statement.ofFields catalog location line source (Statement.fieldsOf (fields.text ++ ends)) = do
      let operand ← Operand.ofText first fields.operator (catalog.get? fields.operator)
      let size ← sizeFor fields.extended (catalog.get? fields.operator) fields.operator
        fields.operands (some operand)
      return fields.statement catalog location line source operand size := by
  have labelled : labelOf (Statement.fieldsOf (fields.text ++ ends)) = fields.label := by
    rw [writable.fieldsOf ending]
    exact writable.labelStripped
  have marked : fieldAt (Statement.fieldsOf (fields.text ++ ends)) 1 = fields.markedOperator := by
    rw [writable.fieldsOf ending]
    exact writable.stripMarkedOperator
  have listed : fieldAt (Statement.fieldsOf (fields.text ++ ends)) 2 = fields.operandField := by
    rw [writable.fieldsOf ending]
    exact Text.stripJoin (by decide) writable.operandsStripped
  have commented : Text.join separator ((Statement.fieldsOf (fields.text ++ ends)).drop 3) =
      fields.comment := by
    rw [writable.fieldsOf ending]
    exact List.intercalate_splitOn separator
  rw [ofFieldsEq _ _ _ _ (fieldsOfNeNil _)]
  simp only [labelled, if_neg writable.labelIsNoMark, marked, writable.splitMarker,
    writable.operatorTakesOperand, listed, writable.operandTexts, Bool.false_eq_true, if_false,
    commented]
  split
  · next none => exact absurd none writable.someOperands
  · next head tail found =>
    obtain ⟨rfl, rfl⟩ := List.cons.inj (found.symm.trans shape)
    cases Operand.ofText head fields.operator (catalog.get? fields.operator) <;> rfl

/-- The line is read as the statement of its fields if the first operand has a form and the
statement has a size. -/
theorem IsWritable.readEqOk (writable : fields.IsWritable catalog) {ends : Text}
    (ending : ∀ char ∈ ends, char = '\r' ∨ char = '\n') {file : Text} {location line : Int}
    {statement : Statement} :
    read catalog file location line (fields.text ++ ends) = .ok statement ↔
      ∃ first ∈ fields.operands.head?, ∃ operand size,
        Operand.ofText first fields.operator (catalog.get? fields.operator) = .ok operand ∧
        sizeFor fields.extended (catalog.get? fields.operator) fields.operator fields.operands
          (some operand) = .ok size ∧
        statement = fields.statement catalog location line fields.text operand size := by
  obtain ⟨first, rest, shape⟩ := List.exists_cons_of_ne_nil writable.someOperands
  rw [Statement.readEqOk, writable.dropLineEnd ending,
    writable.ofFields ending location line fields.text shape]
  simp only [bindEqOk]
  constructor
  · rintro ⟨operand, formed, size, sized, made⟩
    exact ⟨first, congrArg List.head? shape, operand, size, formed, sized,
      (Except.ok.inj made).symm⟩
  · rintro ⟨head, leads, operand, size, formed, sized, rfl⟩
    obtain rfl : first = head := Option.some.inj ((congrArg List.head? shape).symm.trans leads)
    exact ⟨operand, formed, size, sized, rfl⟩

end Fields

/-- What a line is read as has just the fields that the line was written from, whatever line ends
stand behind them. It is read if its first operand has a form and the statement has a size. -/
theorem writtenFieldsReadBack (catalog : Catalog) (file : Text) (location line : Int)
    (fields : Fields) (writable : fields.IsWritable catalog) (ends : Text)
    (ending : ∀ char ∈ ends, char = '\r' ∨ char = '\n') :
    (∀ statement, read catalog file location line (fields.text ++ ends) = .ok statement →
      statement.label = fields.label ∧ statement.operator = fields.operator ∧
      statement.extended = fields.extended ∧ statement.operands = fields.operands ∧
      statement.comment = fields.comment) ∧
    ((∃ statement, read catalog file location line (fields.text ++ ends) = .ok statement) ↔
      ∃ first ∈ fields.operands.head?, ∃ operand size,
        Operand.ofText first fields.operator (catalog.get? fields.operator) = .ok operand ∧
        sizeFor fields.extended (catalog.get? fields.operator) fields.operator fields.operands
          (some operand) = .ok size) := by
  refine ⟨?_, ?_, ?_⟩
  · intro statement found
    obtain ⟨first, _, operand, size, _, _, rfl⟩ := (writable.readEqOk ending).1 found
    exact ⟨rfl, rfl, rfl, rfl, rfl⟩
  · rintro ⟨statement, found⟩
    obtain ⟨first, leads, operand, size, formed, sized, _⟩ := (writable.readEqOk ending).1 found
    exact ⟨first, leads, operand, size, formed, sized⟩
  · rintro ⟨first, leads, operand, size, formed, sized⟩
    exact ⟨_, (writable.readEqOk ending).2 ⟨first, leads, operand, size, formed, sized, rfl⟩⟩

/-- An empty operand, the commas of the third one and the tabs of the comment are kept. -/
def crowdedFields : Fields where
  label := "LOOP".toList
  operator := "XOP".toList
  extended := true
  operands := ["X".toList, [], "C'a,b'".toList]
  comment := "two\twords".toList

theorem crowdedFieldsWritable : crowdedFields.IsWritable Table.empty where
  labelStripped := by decide +kernel
  labelWithoutTab := by decide
  labelIsNoMark := by decide
  operatorStripped := by decide +kernel
  operatorWithoutTab := by decide
  operatorUnmarked := by decide
  operatorNotByte := by decide
  operatorTakesOperand := by decide +kernel
  someOperands := by decide
  fewOperands := by decide
  operandsStripped := by decide +kernel
  operandsWithoutTab := by decide
  operandsWithoutComma := by decide
  operandFieldSolid := by decide
  operandFieldIsNoConstant := by decide +kernel
  commentEnd := by
    intro char last
    obtain rfl := Option.some.inj last
    decide

theorem crowdedFieldsReadBack :
    ∃ statement, read Table.empty [] 0 1
        "LOOP\t+XOP\tX,,C'a,b'\ttwo\twords\r\n".toList = .ok statement ∧
      statement.operands = ["X".toList, [], "C'a,b'".toList] ∧
      statement.comment = "two\twords".toList := by
  have back := writtenFieldsReadBack Table.empty [] 0 1 crowdedFields crowdedFieldsWritable
    "\r\n".toList (by simp)
  obtain ⟨statement, found⟩ := back.2.2 ⟨_, rfl, _, _, rfl, rfl⟩
  obtain ⟨_, _, _, operands, comment⟩ := back.1 statement found
  exact ⟨statement, found, operands, comment⟩

end SicXe.Statement
