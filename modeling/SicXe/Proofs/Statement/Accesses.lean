/-
This file says that no line and no expression is asked for a part that it lacks. It gives the reader
in the form that it has without such accesses.
-/

import SicXe.AddressExpression
import SicXe.Proofs.Text.Pieces
import SicXe.Statement.Reader

namespace SicXe

/-- A text is asked for the names on both sides of a minus sign only if it has one. -/
theorem Operand.Form.ofAddressEq (text : Text) :
    ofAddress text =
      match text with
      | '#' :: body =>
        if beginsLikeNumber body then (readNumber body).map immediateValue
        else .ok (immediateSymbol body)
      | '@' :: name => .ok (indirect name)
      | '=' :: name => .ok (literal name)
      | ['*'] => .ok counter
      | _ =>
        if beginsLikeNumber text then (readNumber text).map number
        else match Text.cut? '-' text with
          | some (left, right) => .ok (difference (Text.strip left) (Text.strip right))
          | none => .ok (symbol text) := by
  have named : (if text.contains '-' then liftM (ofDifference text) else .ok (symbol text)) =
      (match Text.cut? '-' text with
        | some (left, right) => .ok (difference (Text.strip left) (Text.strip right))
        | none => .ok (symbol text) : Except LineError Form) := by
    cases cuts : Text.cut? '-' text with
    | none =>
      have absent := Text.cutEqNone.1 cuts
      rw [if_neg (by simpa using absent)]
    | some parts =>
      have shape := (Text.cutEqSome cuts).1
      rw [if_pos (by simp [shape]), ofDifference, Text.splitAtMost, cuts]
      rfl
  rw [← named]
  rfl

namespace Statement

/-- The label of a line, which has at least one field. -/
def labelOf (fields : List Text) : Text :=
  Text.strip (fields.headD [])

theorem labelInEq {fields : List Text} (solid : fields ≠ []) :
    labelIn fields = .ok (labelOf fields) := by
  obtain ⟨first, rest, rfl⟩ := List.exists_cons_of_ne_nil solid
  rfl

theorem fieldsOfNeNil (raw : Text) : fieldsOf raw ≠ [] :=
  List.splitOn_ne_nil separator _

theorem fieldAtEq (fields : List Text) (index : Nat) :
    fieldAt fields index = Text.strip (fields.getD index []) := by
  rw [List.getD_eq_getElem?_getD]
  unfold fieldAt
  split
  · next present =>
    rw [List.getElem?_eq_getElem present]
    rfl
  · next short =>
    rw [List.getElem?_eq_none (Nat.le_of_not_lt short)]
    rfl

/-- The reader asks for a label that is there. -/
theorem ofFieldsEq (catalog : Catalog) (location line : Int) (source : Text) {fields : List Text}
    (solid : fields ≠ []) : ofFields catalog location line source fields =
    if labelOf fields = commentLabel then
      .ok { location, label := labelOf fields, line, source,
            comment := Text.join separator fields.tail }
    else do
      let (extended, operator) := splitMarker (fieldAt fields 1)
      let instruction := catalog.get? operator
      let bare := takesNoOperand instruction
      let operands := if bare then [] else operandTexts operator (fieldAt fields 2)
      let comment := Text.join separator (fields.drop (if bare then 2 else 3))
      let operand ← match operands with
        | [] => pure none
        | first :: _ => (Operand.ofText first operator instruction).map some
      let size ← sizeFor extended instruction operator operands operand
      let addressing := addressingOf extended instruction operands
      return { location, label := labelOf fields, operator, extended, operands, operand, comment,
               addressing, size, line, source } := by
  rw [ofFields, labelInEq solid]
  rfl

end Statement

namespace AddressExpression

/-- The names on both sides of a single minus sign. -/
def differenceOf? (text : Text) : Option (Text × Text) :=
  match List.splitOn '-' text with
  | [left, right] =>
    if isIdentifier (Text.strip left) && isIdentifier (Text.strip right) then
      some (Text.strip left, Text.strip right)
    else none
  | _ => none

/-- A single minus sign has a part on each of its sides. -/
theorem differenceInEq (text : Text) : differenceIn text = .ok (differenceOf? text) := by
  have parts := @Text.splitOnLength '-' text
  unfold differenceIn differenceOf?
  split
  · next single =>
    rw [single] at parts
    generalize List.splitOn '-' text = pieces at parts
    match pieces, parts with
    | [left, right], _ => rfl
  · next other =>
    split
    · next left right shape =>
      rw [shape] at parts
      exact absurd (Nat.succ.inj parts).symm other
    · rfl

/-- The expression that a text without blanks around it stands for, if any. -/
def ofStripped? (text : Text) : Option AddressExpression :=
  if text = ['*'] then some counter
  else if Numeral.Decimal.isPlain text then some (number text)
  else if isIdentifier text then some (symbol text)
  else (differenceOf? text).map fun names => difference names.1 names.2

def ofText? (text : Text) : Option AddressExpression :=
  ofStripped? (Text.strip text)

theorem parseEq (text : Text) : parse text = .ok (ofStripped? text) := by
  unfold parse ofStripped?
  rw [differenceInEq]
  split
  · rfl
  · split
    · rfl
    · split <;> rfl

theorem evaluateEq (text : Text) (counter : Int) (symbols : SymbolTable) (place : Option Place)
    (sourceLine : Option Text) : evaluate text counter symbols place sourceLine =
      match ofText? text with
      | none => .error (.source ⟨.unsupportedExpression text, place, sourceLine⟩)
      | some expression => (expression.value counter symbols).mapError .numeral := by
  rw [evaluate, parseEq]
  rfl

end AddressExpression

end SicXe
