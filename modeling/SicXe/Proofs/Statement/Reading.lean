/-
This file says what is true of every statement that is read from a line: how its size, its
addressing bits and its operand follow from its fields.
-/

import SicXe.Proofs.Statement.Accesses

namespace SicXe

/-- Only a text that begins with the mark of a literal is one. -/
theorem Operand.Form.markOfLiteral {text operator name : Text} {instruction : Option Instruction}
    (formed : Form.ofText text operator instruction = .ok (.literal name)) :
    text = '=' :: name := by
  have number {convert : Int → Form} (other : ∀ value, convert value ≠ .literal name)
      (shown : Text) : (readNumber shown).map convert ≠ .ok (.literal name) := by
    cases readNumber shown with
    | error problem => simp [Except.map]
    | ok value => simpa [Except.map] using other value
  have address (formed : ofAddress text = .ok (.literal name)) : text = '=' :: name := by
    rw [ofAddressEq] at formed
    split at formed
    · split at formed
      · exact absurd formed (number (by simp) _)
      · simp at formed
    · simp at formed
    · simpa using formed
    · simp at formed
    · split at formed
      · exact absurd formed (number (by simp) _)
      · split at formed <;> simp at formed
  unfold Form.ofText at formed
  split at formed
  · split at formed
    · simp at formed
    · exact absurd formed (number (by simp) _)
  · split at formed
    · split at formed
      · simp at formed
      · exact address formed
    · exact address formed

/-- Only a name of a register is taken for one. -/
theorem Operand.Form.isNameOfRegister {text operator name : Text}
    {instruction : Option Instruction}
    (formed : Form.ofText text operator instruction = .ok (.register name)) :
    Register.isName name = true := by
  have number {convert : Int → Form} (other : ∀ value, convert value ≠ .register name)
      (shown : Text) : (readNumber shown).map convert ≠ .ok (.register name) := by
    cases readNumber shown with
    | error problem => simp [Except.map]
    | ok value => simpa [Except.map] using other value
  have address : ofAddress text ≠ .ok (.register name) := by
    rw [ofAddressEq]
    split
    · split
      · exact number (by simp) _
      · simp
    · simp
    · simp
    · simp
    · split
      · exact number (by simp) _
      · split <;> simp
  unfold Form.ofText at formed
  split at formed
  · split at formed
    · next named => exact Form.register.inj (Except.ok.inj formed) ▸ named
    · exact absurd formed (number (by simp) _)
  · split at formed
    · split at formed
      · simp at formed
      · exact absurd formed address
    · exact absurd formed address

namespace Statement

/-- The statement is read from the fields of some line. -/
def IsRead (catalog : Catalog) (statement : Statement) : Prop :=
  ∃ location line source fields,
    ofFields catalog location line source fields = .ok statement

/-- What the fields of a statement that is no comment say about each other. -/
structure Coherent (catalog : Catalog) (statement : Statement) : Prop where
  bare : takesNoOperand (catalog.get? statement.operator) = true → statement.operands = []
  noOperand : statement.operands = [] → statement.operand = none
  someOperand : ∀ first rest, statement.operands = first :: rest →
    ∃ form, Operand.Form.ofText first statement.operator (catalog.get? statement.operator) =
      .ok form ∧ statement.operand = some ⟨first, form⟩
  size : sizeFor statement.extended (catalog.get? statement.operator) statement.operator
    statement.operands statement.operand = .ok statement.size
  addressing : statement.addressing =
    addressingOf statement.extended (catalog.get? statement.operator) statement.operands

variable {catalog : Catalog} {location line : Int} {source : Text} {fields : List Text}
  {statement : Statement}

/-- The names that the operand of a statement refers to, if it has one. -/
def symbols (statement : Statement) : List Text :=
  statement.operand.elim [] Operand.symbols

/-- A statement with operands has the form of the first one. -/
theorem Coherent.heldOperand {first : Text} {rest : List Text}
    (coherent : statement.Coherent catalog) (shape : statement.operands = first :: rest) :
    ∃ operand, statement.heldOperand = .ok operand ∧ statement.symbols = operand.symbols := by
  obtain ⟨form, _, held⟩ := coherent.someOperand first rest shape
  refine ⟨⟨first, form⟩, ?_, ?_⟩
  · rw [Statement.heldOperand, held]
  · rw [symbols, held, Option.elim_some]

/-- A register is the first operand, and there is one of its name. -/
theorem Coherent.isNameOfRegister {text name : Text} (coherent : statement.Coherent catalog)
    (held : statement.operand = some ⟨text, .register name⟩) : Register.isName name = true := by
  cases shape : statement.operands with
  | nil => simp [coherent.noOperand shape] at held
  | cons first rest =>
    obtain ⟨form, formed, operand⟩ := coherent.someOperand first rest shape
    rw [held] at operand
    obtain ⟨rfl, rfl⟩ := Operand.mk.inj (Option.some.inj operand)
    exact Operand.Form.isNameOfRegister formed

/-- A literal is the first operand, and its text begins with the mark. -/
theorem Coherent.textOfLiteral {text name : Text} (coherent : statement.Coherent catalog)
    (literal : statement.operand = some ⟨text, .literal name⟩) :
    ∃ rest, statement.operands = text :: rest ∧ text = '=' :: name := by
  cases shape : statement.operands with
  | nil => simp [coherent.noOperand shape] at literal
  | cons first rest =>
    obtain ⟨form, formed, operand⟩ := coherent.someOperand first rest shape
    rw [literal] at operand
    obtain ⟨rfl, rfl⟩ := Operand.mk.inj (Option.some.inj operand)
    exact ⟨rest, rfl, Operand.Form.markOfLiteral formed⟩

theorem neNilOfFields (found : ofFields catalog location line source fields = .ok statement) :
    fields ≠ [] := by
  rintro rfl
  contradiction

/-- A line holds a comment, or a statement whose fields are coherent. -/
theorem ofFieldsCases (found : ofFields catalog location line source fields = .ok statement) :
    (labelOf fields = commentLabel ∧ statement =
      { location, label := labelOf fields, line, source,
        comment := Text.join separator fields.tail }) ∨
    (labelOf fields ≠ commentLabel ∧ statement.location = location ∧ statement.line = line ∧
      statement.source = source ∧ statement.label = labelOf fields ∧
      (statement.extended, statement.operator) = splitMarker (fieldAt fields 1) ∧
      Coherent catalog statement) := by
  rw [ofFieldsEq _ _ _ _ (neNilOfFields found)] at found
  by_cases comment : labelOf fields = commentLabel
  · simp only [if_pos comment, Except.ok.injEq] at found
    exact .inl ⟨comment, found.symm⟩
  · refine .inr ⟨comment, ?_⟩
    simp only [if_neg comment] at found
    generalize splitMarker (fieldAt fields 1) = marked at found ⊢
    obtain ⟨extended, operator⟩ := marked
    simp only at found
    generalize chosen : (if takesNoOperand (catalog.get? operator) = true then []
      else operandTexts operator (fieldAt fields 2)) = operands at found
    have bare : takesNoOperand (catalog.get? operator) = true → operands = [] := by
      intro none
      rw [← chosen, if_pos none]
    cases operands with
    | nil =>
      cases sized : sizeFor extended (catalog.get? operator) operator [] none with
      | error problem => simp [sized, bind, Except.bind, pure, Except.pure] at found
      | ok size =>
        simp only [sized, bind, Except.bind, pure, Except.pure, Except.ok.injEq] at found
        subst found
        exact ⟨rfl, rfl, rfl, rfl, rfl, bare, fun _ => rfl, by simp, sized, rfl⟩
    | cons first rest =>
      cases formed : Operand.Form.ofText first operator (catalog.get? operator) with
      | error problem =>
        simp [Operand.ofText, formed, bind, Except.bind, Except.map] at found
      | ok form =>
        cases sized : sizeFor extended (catalog.get? operator) operator (first :: rest)
            (some ⟨first, form⟩) with
        | error problem =>
          simp [Operand.ofText, formed, sized, bind, Except.bind, Except.map] at found
        | ok size =>
          simp only [Operand.ofText, formed, sized, bind, Except.bind, Except.map, pure,
            Except.pure, Except.ok.injEq] at found
          subst found
          refine ⟨rfl, rfl, rfl, rfl, rfl, bare, by simp, ?_, sized, rfl⟩
          intro head tail same
          obtain ⟨rfl, rfl⟩ := List.cons.inj same
          exact ⟨form, formed, rfl⟩

theorem ofFieldsLocation (found : ofFields catalog location line source fields = .ok statement) :
    statement.location = location := by
  rcases ofFieldsCases found with ⟨_, rfl⟩ | ⟨_, same, _⟩
  · rfl
  · exact same

theorem ofFieldsLine (found : ofFields catalog location line source fields = .ok statement) :
    statement.line = line := by
  rcases ofFieldsCases found with ⟨_, rfl⟩ | ⟨_, _, same, _⟩
  · rfl
  · exact same

theorem ofFieldsSource (found : ofFields catalog location line source fields = .ok statement) :
    statement.source = source := by
  rcases ofFieldsCases found with ⟨_, rfl⟩ | ⟨_, _, _, same, _⟩
  · rfl
  · exact same

/-- The operands of a statement are the texts of its third field, if its operator takes any. -/
theorem ofFieldsOperands (found : ofFields catalog location line source fields = .ok statement)
    (plain : statement.isComment = false)
    (takes : takesNoOperand (catalog.get? statement.operator) = false) :
    statement.operands = operandTexts statement.operator (fieldAt fields 2) := by
  rw [ofFieldsEq _ _ _ _ (neNilOfFields found)] at found
  by_cases comment : labelOf fields = commentLabel
  · simp only [if_pos comment, Except.ok.injEq] at found
    simp [← found, isComment, comment] at plain
  · simp only [if_neg comment] at found
    generalize splitMarker (fieldAt fields 1) = marked at found
    obtain ⟨extended, operator⟩ := marked
    simp only at found
    generalize chosen : (if takesNoOperand (catalog.get? operator) = true then []
      else operandTexts operator (fieldAt fields 2)) = operands at found
    -- The first operand and the size only decide whether there is a statement at all.
    have kept : statement.operator = operator ∧ statement.operands = operands := by
      simp only [bind, Except.bind, pure, Except.pure] at found
      cases operands with
      | nil =>
        simp only at found
        split at found
        · contradiction
        · exact Except.ok.inj found ▸ ⟨rfl, rfl⟩
      | cons first rest =>
        simp only at found
        split at found
        · contradiction
        · split at found
          · contradiction
          · exact Except.ok.inj found ▸ ⟨rfl, rfl⟩
    rw [kept.1] at takes ⊢
    rw [kept.2, ← chosen, takes]
    rfl

theorem IsRead.coherent (reading : IsRead catalog statement)
    (plain : statement.isComment = false) : Coherent catalog statement := by
  obtain ⟨location, line, source, fields, found⟩ := reading
  rcases ofFieldsCases found with ⟨comment, rfl⟩ | ⟨_, _, _, _, _, _, coherent⟩
  · simp [isComment, comment] at plain
  · exact coherent

/-- A comment takes no bytes and names no operator and no operand. -/
theorem IsRead.comment (reading : IsRead catalog statement)
    (comment : statement.isComment = true) :
    statement.operator = [] ∧ statement.operand = none ∧ statement.size = 0 := by
  obtain ⟨location, line, source, fields, found⟩ := reading
  rcases ofFieldsCases found with ⟨_, rfl⟩ | ⟨plain, _, _, _, label, _⟩
  · exact ⟨rfl, rfl, rfl⟩
  · simp only [isComment, decide_eq_true_eq] at comment
    exact absurd (label.symm.trans comment) plain

/-- Only a statement that is no comment has an operand. -/
theorem IsRead.plainOfOperand {operand : Operand} (reading : IsRead catalog statement)
    (written : statement.operand = some operand) : statement.isComment = false := by
  rw [Bool.eq_false_iff]
  intro comment
  rw [(reading.comment comment).2.1] at written
  contradiction

theorem IsRead.commentDirective (reading : IsRead catalog statement)
    (comment : statement.isComment = true) : statement.directive? = none := by
  rw [directive?, (reading.comment comment).1]
  rfl

theorem readEqOk {file raw : Text} :
    read catalog file location line raw = .ok statement ↔
      ofFields catalog location line (Text.dropLineEnd raw) (fieldsOf raw) = .ok statement := by
  simp only [read]
  cases ofFields catalog location line (Text.dropLineEnd raw) (fieldsOf raw) with
  | error problem => exact ⟨nofun, nofun⟩
  | ok other => exact ⟨fun same => congrArg _ (Except.ok.inj same),
      fun same => congrArg _ (Except.ok.inj same)⟩

theorem readToOption (catalog : Catalog) (file : Text) (location line : Int) (raw : Text) :
    (read catalog file location line raw).toOption =
      (ofFields catalog location line (Text.dropLineEnd raw) (fieldsOf raw)).toOption := by
  simp only [read]
  cases ofFields catalog location line (Text.dropLineEnd raw) (fieldsOf raw) <;> rfl

end Statement

end SicXe
