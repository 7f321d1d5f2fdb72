/-
This file compares the two readings of an address: as an expression, which has a value, and as the
operand of a statement, which has a form. The expressions have a grammar of four cases, and each
case is one form. The forms with a mark are no expressions, and a number is one if it is plain.
-/

import SicXe.Proofs.Failure.Cause
import SicXe.Proofs.Statement.Names

namespace SicXe

open Numeral

/-- The grammar of the expressions, with the form that the text has as an operand and its value. -/
inductive AddressExpression.Denotes (counter : Int) (symbols : SymbolTable) :
    Text → Operand.Form → Int → Prop
  | counter : Denotes counter symbols ['*'] .counter counter
  | number (negative : Bool) (digits : Text) (plain : Decimal.IsPlainDigits digits)
      (short : digits.length ≤ maxDigits) :
      Denotes counter symbols (Decimal.signed negative digits)
        (.number (applySign negative (Decimal.plainValue digits)))
        (applySign negative (Decimal.plainValue digits))
  | symbol (name : Text) (identifier : isIdentifier name = true) :
      Denotes counter symbols name (.symbol name) (symbols.lookup name)
  | difference (left before after right : Text) (first : isIdentifier left = true)
      (second : isIdentifier right = true)
      (blankBefore : ∀ char ∈ before, Text.isBlank char = true)
      (blankAfter : ∀ char ∈ after, Text.isBlank char = true) :
      Denotes counter symbols (left ++ before ++ '-' :: (after ++ right))
        (.difference left right) (symbols.lookup left - symbols.lookup right)

/-- The forms that are written with a mark: a number sign, an at sign, an equals sign or quotes. -/
def Operand.Form.isMarked : Form → Bool
  | immediateValue _ | immediateSymbol _ | indirect _ | literal _ | constant _ => true
  | register _ | number _ | counter | difference _ _ | symbol _ => false

/-- The characters that make these marks, of which no expression has one. -/
def Operand.marks : List Char := ['#', '@', '=', '\'']

theorem startRange {char : Char} (start : isIdentifierStart char = true) :
    0x41 ≤ char.toNat ∧ char.toNat ≤ 0x7A := by
  simp only [isIdentifierStart, Bool.or_eq_true, Bool.and_eq_true, decide_eq_true_eq,
    beq_iff_eq] at start
  rcases start with (⟨low, high⟩ | ⟨low, high⟩) | rfl
  · have least : 0x41 ≤ char.toNat := low
    have most : char.toNat ≤ 0x5A := high
    omega
  · have least : 0x61 ≤ char.toNat := low
    have most : char.toNat ≤ 0x7A := high
    omega
  · decide

theorem partRange {char : Char} (part : isIdentifierPart char = true) :
    0x30 ≤ char.toNat ∧ char.toNat ≤ 0x7A := by
  rcases Bool.or_eq_true_iff.1 part with start | digit
  · have := startRange start
    omega
  · have := Text.asciiRange.1 digit
    omega

theorem startNotDigit {char : Char} (start : isIdentifierStart char = true) :
    Text.isDigit char = false := by
  have within := startRange start
  rw [← Bool.not_eq_true]
  intro digit
  have := Text.asciiRange.1 (Text.asciiOfDigit digit (by omega))
  omega

theorem solidOfIdentifier {name : Text} {char : Char} (identifier : isIdentifier name = true)
    (inside : char ∈ name) : Text.isBlank char = false := by
  have within := partRange (partOfIdentifier identifier inside)
  rw [← Bool.not_eq_true]
  intro blank
  have := Text.blankRange blank
  omega

theorem noDashInIdentifier {name : Text} (identifier : isIdentifier name = true) : '-' ∉ name := by
  intro inside
  have := partOfIdentifier identifier inside
  contradiction

theorem identifierCons {name : Text} (identifier : isIdentifier name = true) :
    ∃ first rest, name = first :: rest ∧ isIdentifierStart first = true := by
  cases name with
  | nil => contradiction
  | cons first rest => exact ⟨first, rest, rfl, (Bool.and_eq_true_iff.1 identifier).1⟩

theorem stripIdentifier {name : Text} (identifier : isIdentifier name = true) :
    Text.strip name = name :=
  Text.trimSolid (fun _ first => solidOfIdentifier identifier (List.mem_of_head? first))
    fun _ last => solidOfIdentifier identifier (List.mem_of_getLast? last)

theorem stripBehind {name blanks : Text} (identifier : isIdentifier name = true)
    (spaced : ∀ char ∈ blanks, Text.isBlank char = true) : Text.strip (name ++ blanks) = name :=
  (Text.stripAround (List.forall_mem_nil _) spaced name).trans (stripIdentifier identifier)

theorem stripAhead {name blanks : Text} (identifier : isIdentifier name = true)
    (spaced : ∀ char ∈ blanks, Text.isBlank char = true) : Text.strip (blanks ++ name) = name := by
  have around := Text.stripAround spaced (List.forall_mem_nil _) name
  rw [List.append_nil] at around
  exact around.trans (stripIdentifier identifier)

/-- A text from an identifier to an identifier has no blanks at its ends. -/
theorem stripBetween {left right : Text} (first : isIdentifier left = true)
    (second : isIdentifier right = true) (middle : Text) :
    Text.strip (left ++ (middle ++ right)) = left ++ (middle ++ right) := by
  obtain ⟨head, rest, rfl, start⟩ := identifierCons first
  obtain ⟨other, others, rfl, _⟩ := identifierCons second
  apply Text.trimSolid
  · intro char begins
    obtain rfl : head = char := Option.some.inj begins
    exact solidOfIdentifier first List.mem_cons_self
  · intro char ends
    rw [← List.append_assoc, List.getLast?_append, Option.or_of_isSome (by simp)] at ends
    exact solidOfIdentifier second (List.mem_of_getLast? ends)

namespace AddressExpression

variable {counter value : Int} {symbols : SymbolTable} {text : Text} {form : Operand.Form}

section Difference

variable {left before after right : Text}

theorem noDash {name blanks : Text} (identifier : isIdentifier name = true)
    (spaced : ∀ char ∈ blanks, Text.isBlank char = true)
    (made : ∀ char ∈ text, char ∈ name ∨ char ∈ blanks) : '-' ∉ text := by
  intro inside
  rcases made '-' inside with named | blank
  · exact noDashInIdentifier identifier named
  · have := spaced '-' blank
    contradiction

theorem differenceOfJoined (first : isIdentifier left = true) (second : isIdentifier right = true)
    (blankBefore : ∀ char ∈ before, Text.isBlank char = true)
    (blankAfter : ∀ char ∈ after, Text.isBlank char = true) :
    differenceOf? (left ++ before ++ '-' :: (after ++ right)) = some (left, right) := by
  have cut : List.splitOn '-' (left ++ before ++ '-' :: (after ++ right)) =
      [left ++ before, after ++ right] := by
    rw [List.splitOn_append_cons_self_of_not_mem, List.splitOn_eq_singleton]
    · exact noDash second blankAfter fun _ inside => (List.mem_append.1 inside).symm
    · exact noDash first blankBefore fun _ => List.mem_append.1
  simp only [differenceOf?, cut, stripBehind first blankBefore, stripAhead second blankAfter, first,
    second, Bool.and_self, if_true]

/-- The blanks around a minus sign are those that the names before and behind it leave over. -/
theorem joinedOfDifference (stripped : Text.strip text = text)
    (found : differenceOf? text = some (left, right)) :
    isIdentifier left = true ∧ isIdentifier right = true ∧ ∃ before after,
      (∀ char ∈ before, Text.isBlank char = true) ∧ (∀ char ∈ after, Text.isBlank char = true) ∧
        text = left ++ before ++ '-' :: (after ++ right) := by
  unfold differenceOf? at found
  split at found
  · next first second cut =>
    split at found
    · next identifiers =>
      obtain ⟨rfl, rfl⟩ := Prod.mk.inj (Option.some.inj found)
      obtain ⟨isFirst, isSecond⟩ := Bool.and_eq_true_iff.1 identifiers
      obtain ⟨front, before, leftShape, blankFront, blankBefore⟩ :=
        Text.trimParts Text.isBlank first
      obtain ⟨after, back, rightShape, blankAfter, blankBack⟩ :=
        Text.trimParts Text.isBlank second
      refine ⟨isFirst, isSecond, before, after, blankBefore, blankAfter, ?_⟩
      have joined : text = first ++ '-' :: second := by
        have := @List.intercalate_splitOn Char text _ _ '-'
        rw [cut] at this
        simpa using this.symm
      -- The text is stripped, so the outer blanks of its two pieces are not there.
      have spread : first ++ '-' :: second = front ++ ((Text.strip first ++
          ((before ++ '-' :: after) ++ Text.strip second)) ++ back) := by
        calc first ++ '-' :: second
          _ = front ++ (Text.strip first ++ before) ++
                '-' :: (after ++ (Text.strip second ++ back)) :=
            congr (congrArg HAppend.hAppend leftShape) (congrArg ('-' :: ·) rightShape)
          _ = _ := by simp
      rw [← stripped, joined, spread, Text.stripAround blankFront blankBack,
        stripBetween isFirst isSecond]
      simp
    · contradiction
  · contradiction

end Difference

/-- A text that begins with a letter is neither the counter nor a number. -/
theorem ofStrippedNamed {first : Char} (start : isIdentifierStart first = true) (rest : Text) :
    ofStripped? (first :: rest) =
      if isIdentifier (first :: rest) then some (symbol (first :: rest))
      else (differenceOf? (first :: rest)).map fun names => difference names.1 names.2 := by
  have other : first :: rest ≠ ['*'] := by
    intro same
    rw [(List.cons.inj same).1] at start
    contradiction
  have unplain : ¬ Decimal.isPlain (first :: rest) = true := by
    intro plain
    obtain ⟨digit, others, isDigit, shape | shape⟩ := Operand.plainShape plain
    · have digits := Text.isDigitOfAscii isDigit
      rw [← (List.cons.inj shape).1, startNotDigit start] at digits
      contradiction
    · rw [(List.cons.inj shape).1] at start
      contradiction
  rw [ofStripped?, if_neg other, if_neg unplain]

theorem ofStrippedPlain (plain : Decimal.isPlain text = true) :
    ofStripped? text = some (number text) := by
  have other : text ≠ ['*'] := by
    rintro rfl
    contradiction
  rw [ofStripped?, if_neg other, if_pos plain]

theorem expressionOfDenotes (denotes : Denotes counter symbols text form value) :
    ∃ expression, ofStripped? text = some expression ∧
      expression.value counter symbols = .ok value := by
  cases denotes with
  | counter => exact ⟨.counter, rfl, rfl⟩
  | number negative digits plain short =>
    refine ⟨_, ofStrippedPlain (Decimal.plainIff.2 ⟨negative, digits, plain, rfl⟩), ?_⟩
    rw [AddressExpression.value, Decimal.readPlain, Decimal.readSigned plain, if_pos short]
  | symbol name identifier =>
    obtain ⟨first, rest, rfl, start⟩ := identifierCons identifier
    exact ⟨.symbol (first :: rest), by rw [ofStrippedNamed start, if_pos identifier], rfl⟩
  | difference left before after right isFirst isSecond blankBefore blankAfter =>
    have joined := differenceOfJoined isFirst isSecond blankBefore blankAfter
    have unnamed : ¬ isIdentifier (left ++ before ++ '-' :: (after ++ right)) = true :=
      fun identifier => noDashInIdentifier identifier (by simp)
    refine ⟨.difference left right, ?_, rfl⟩
    obtain ⟨first, rest, rfl, start⟩ := identifierCons isFirst
    simp only [List.cons_append] at joined unnamed ⊢
    rw [ofStrippedNamed start, if_neg unnamed, joined, Option.map_some]

/-- What the parts of a text in the grammar are. -/
theorem ofStrippedCases {expression : AddressExpression} (stripped : Text.strip text = text)
    (formed : ofStripped? text = some expression) :
    (text = ['*'] ∧ expression = .counter) ∨
      (∃ negative digits, Decimal.IsPlainDigits digits ∧
        text = Decimal.signed negative digits ∧ expression = number text) ∨
      (isIdentifier text = true ∧ expression = symbol text) ∨
      ∃ left before after right, isIdentifier left = true ∧ isIdentifier right = true ∧
        (∀ char ∈ before, Text.isBlank char = true) ∧
        (∀ char ∈ after, Text.isBlank char = true) ∧
        text = left ++ before ++ '-' :: (after ++ right) ∧ expression = difference left right := by
  unfold ofStripped? at formed
  split at formed
  · next same => exact .inl ⟨same, (Option.some.inj formed).symm⟩
  · split at formed
    · next plain =>
      obtain ⟨negative, digits, isDigits, shape⟩ := Decimal.plainIff.1 plain
      exact .inr (.inl ⟨negative, digits, isDigits, shape, (Option.some.inj formed).symm⟩)
    · split at formed
      · next identifier => exact .inr (.inr (.inl ⟨identifier, (Option.some.inj formed).symm⟩))
      · obtain ⟨⟨left, right⟩, found, rfl⟩ := Option.map_eq_some_iff.1 formed
        obtain ⟨isFirst, isSecond, before, after, blankBefore, blankAfter, shape⟩ :=
          joinedOfDifference stripped found
        exact .inr (.inr (.inr ⟨left, before, after, right, isFirst, isSecond, blankBefore,
          blankAfter, shape, rfl⟩))

theorem denotesOfExpression {expression : AddressExpression} (stripped : Text.strip text = text)
    (formed : ofStripped? text = some expression)
    (valued : expression.value counter symbols = .ok value) :
    ∃ form, Denotes counter symbols text form value := by
  rcases ofStrippedCases stripped formed with ⟨rfl, rfl⟩ | ⟨negative, digits, plain, rfl, rfl⟩ |
    ⟨identifier, rfl⟩ | ⟨left, before, after, right, isFirst, isSecond, blankBefore, blankAfter,
      rfl, rfl⟩
  · obtain rfl := Except.ok.inj valued
    exact ⟨_, .counter⟩
  · rw [AddressExpression.value, Decimal.readPlain, Decimal.readSigned plain] at valued
    by_cases short : digits.length ≤ maxDigits
    · rw [if_pos short] at valued
      obtain rfl := Except.ok.inj valued
      exact ⟨_, .number negative digits plain short⟩
    · rw [if_neg short] at valued
      contradiction
  · obtain rfl := Except.ok.inj valued
    exact ⟨_, .symbol text identifier⟩
  · obtain rfl := Except.ok.inj valued
    exact ⟨_, .difference left before after right isFirst isSecond blankBefore blankAfter⟩

theorem stripDenotes (denotes : Denotes counter symbols text form value) :
    Text.strip text = text := by
  cases denotes with
  | counter => decide
  | number negative digits plain short =>
    exact Text.trimSolid (fun _ first => Decimal.solidSigned plain (List.mem_of_head? first))
      fun _ last => Decimal.solidSigned plain (List.mem_of_getLast? last)
  | symbol name identifier => exact stripIdentifier identifier
  | difference left before after right isFirst isSecond blankBefore blankAfter =>
    simpa using stripBetween isFirst isSecond (before ++ '-' :: after)

/-- The values are those of the grammar. -/
theorem evaluateEqOk (place : Option Place) (sourceLine : Option Text) :
    evaluate text counter symbols place sourceLine = .ok value ↔
      ∃ form, Denotes counter symbols (Text.strip text) form value := by
  constructor
  · intro evaluated
    rw [evaluateEq] at evaluated
    split at evaluated
    · contradiction
    · next expression formed =>
      cases valued : expression.value counter symbols with
      | error fault =>
        rw [valued] at evaluated
        contradiction
      | ok result =>
        rw [valued] at evaluated
        obtain rfl := Except.ok.inj evaluated
        exact denotesOfExpression (Text.stripStrip text) formed valued
  · rintro ⟨form, denotes⟩
    obtain ⟨expression, formed, valued⟩ := expressionOfDenotes denotes
    rw [evaluateEq, ofText?, formed]
    simp only [valued]
    rfl

/-- The characters of an expression. -/
theorem characterOfStripped {expression : AddressExpression} {char : Char}
    (stripped : Text.strip text = text) (formed : ofStripped? text = some expression)
    (inside : char ∈ text) :
    char = '*' ∨ char = '-' ∨ isIdentifierPart char = true ∨ Text.isBlank char = true := by
  rcases ofStrippedCases stripped formed with ⟨rfl, _⟩ | ⟨negative, digits, plain, rfl, _⟩ |
    ⟨identifier, _⟩ | ⟨left, before, after, right, isFirst, isSecond, blankBefore, blankAfter,
      rfl, _⟩
  · exact .inl (List.mem_singleton.1 inside)
  · rcases Decimal.memSigned plain inside with dash | digit
    · exact .inr (.inl dash)
    · exact .inr (.inr (.inl (Bool.or_eq_true_iff.2 (.inr digit))))
  · exact .inr (.inr (.inl (partOfIdentifier identifier inside)))
  · simp only [List.mem_append, List.mem_cons] at inside
    rcases inside with (named | blank) | dash | blank | named
    · exact .inr (.inr (.inl (partOfIdentifier isFirst named)))
    · exact .inr (.inr (.inr (blankBefore char blank)))
    · exact .inr (.inl dash)
    · exact .inr (.inr (.inr (blankAfter char blank)))
    · exact .inr (.inr (.inl (partOfIdentifier isSecond named)))

theorem markOutside {mark : Char} (marked : mark ∈ Operand.marks) :
    mark ≠ '*' ∧ mark ≠ '-' ∧ isIdentifierPart mark = false ∧ Text.isBlank mark = false := by
  simp only [Operand.marks, List.mem_cons, List.not_mem_nil, or_false] at marked
  rcases marked with rfl | rfl | rfl | rfl <;> exact ⟨by decide, by decide, by decide, by decide⟩

/-- A mark stands in no expression. -/
theorem unsupportedOfMark {mark : Char} (marked : mark ∈ Operand.marks) (inside : mark ∈ text) :
    ofText? text = none := by
  obtain ⟨noCounter, noDash, noPart, noBlank⟩ := markOutside marked
  cases formed : ofText? text with
  | none => rfl
  | some expression =>
    rcases characterOfStripped (Text.stripStrip text) formed (Text.memStrip inside noBlank) with
      same | same | part | blank
    · exact absurd same noCounter
    · exact absurd same noDash
    · rw [part] at noPart
      contradiction
    · rw [blank] at noBlank
      contradiction

end AddressExpression

namespace Operand.Form

variable {text operator : Text} {instruction : Option Instruction} {form : Form}

theorem markOfAddress (formed : ofAddress text = .ok form) (marked : form.isMarked = true) :
    ∃ mark ∈ marks, mark ∈ text := by
  rw [ofAddressEq] at formed
  split at formed
  · exact ⟨'#', by decide, List.mem_cons_self⟩
  · exact ⟨'@', by decide, List.mem_cons_self⟩
  · exact ⟨'=', by decide, List.mem_cons_self⟩
  · obtain rfl := Except.ok.inj formed
    contradiction
  · split at formed
    · obtain ⟨value, _, rfl⟩ := numberOfRead formed
      contradiction
    · split at formed
      · obtain rfl := Except.ok.inj formed
        contradiction
      · obtain rfl := Except.ok.inj formed
        contradiction

/-- The forms with a mark are written with one. -/
theorem markOfText (formed : ofText text operator instruction = .ok form)
    (marked : form.isMarked = true) : ∃ mark ∈ marks, mark ∈ text := by
  unfold ofText at formed
  split at formed
  · split at formed
    · obtain rfl := Except.ok.inj formed
      contradiction
    · obtain ⟨value, _, rfl⟩ := numberOfRead formed
      contradiction
  · split at formed
    · next constant found =>
      exact ⟨'\'', by decide, quoteOfConstant (by rw [found]; rfl)⟩
    · exact markOfAddress formed marked

/-- A text that begins with a letter is a name, or the difference that its first minus sign
makes. -/
theorem ofAddressNamed {first : Char} (start : isIdentifierStart first = true) (rest : Text) :
    ofAddress (first :: rest) = match Text.cut? '-' (first :: rest) with
      | some (left, right) => .ok (difference (Text.strip left) (Text.strip right))
      | none => .ok (symbol (first :: rest)) := by
  have unmarked (mark : Char) (other : isIdentifierStart mark = false) : first ≠ mark := by
    rintro rfl
    rw [start] at other
    contradiction
  have begins : beginsLikeNumber (first :: rest) = false := by
    unfold beginsLikeNumber
    split
    · next same => exact absurd (List.cons.inj same).1 (unmarked '-' (by decide))
    · next same => exact (List.cons.inj same).1 ▸ startNotDigit start
    · rfl
  rw [ofAddressEq]
  split
  · next same => exact absurd (List.cons.inj same).1 (unmarked '#' (by decide))
  · next same => exact absurd (List.cons.inj same).1 (unmarked '@' (by decide))
  · next same => exact absurd (List.cons.inj same).1 (unmarked '=' (by decide))
  · next same => exact absurd (List.cons.inj same).1 (unmarked '*' (by decide))
  · rw [begins]
    rfl

variable {counter value : Int} {symbols : SymbolTable}

theorem ofAddressOfDenotes (denotes : AddressExpression.Denotes counter symbols text form value) :
    ofAddress text = .ok form := by
  cases denotes with
  | counter => rfl
  | number negative digits plain short =>
    rw [ofAddressPlain (Decimal.plainIff.2 ⟨negative, digits, plain, rfl⟩), readNumber,
      Decimal.readSigned plain, if_pos short]
    rfl
  | symbol name identifier =>
    have uncut := Text.cutEqNone.2 (noDashInIdentifier identifier)
    obtain ⟨first, rest, rfl, start⟩ := identifierCons identifier
    rw [ofAddressNamed start, uncut]
  | difference left before after right isFirst isSecond blankBefore blankAfter =>
    have cut := Text.cutOfAppend (AddressExpression.noDash isFirst blankBefore
      fun _ => List.mem_append.1) (after ++ right)
    have stripLeft := stripBehind isFirst blankBefore
    have stripRight := stripAhead isSecond blankAfter
    obtain ⟨first, rest, rfl, start⟩ := identifierCons isFirst
    simp only [List.cons_append] at cut stripLeft ⊢
    rw [ofAddressNamed start]
    simp only [cut, stripLeft, stripRight]

/-- An expression has its form with every operator but those of two bytes. -/
theorem ofTextOfDenotes (denotes : AddressExpression.Denotes counter symbols text form value)
    (long : instruction.map (·.format) ≠ some .two) :
    ofText text operator instruction = .ok form := by
  have unquoted : Constant.ofText? text = none := by
    rw [← Option.not_isSome_iff_eq_none]
    intro found
    obtain ⟨expression, formed, _⟩ := AddressExpression.expressionOfDenotes denotes
    have unformed := AddressExpression.unsupportedOfMark (by decide) (quoteOfConstant found)
    rw [AddressExpression.ofText?, AddressExpression.stripDenotes denotes, formed] at unformed
    contradiction
  rw [ofText, if_neg long, unquoted]
  exact ofAddressOfDenotes denotes

theorem ofAddressNumber (formed : ofAddress text = .ok (number value)) :
    beginsLikeNumber text = true ∧ Decimal.read? text = some value := by
  rw [ofAddressEq] at formed
  split at formed
  · split at formed
    · obtain ⟨other, _, same⟩ := numberOfRead formed
      contradiction
    · cases Except.ok.inj formed
  · cases Except.ok.inj formed
  · cases Except.ok.inj formed
  · cases Except.ok.inj formed
  · split at formed
    · next begins =>
      obtain ⟨other, read, same⟩ := numberOfRead formed
      exact ⟨begins, (Form.number.inj same).symm ▸ read⟩
    · split at formed
      · cases Except.ok.inj formed
      · cases Except.ok.inj formed

theorem ofTextNumber (formed : ofText text operator instruction = .ok (number value)) :
    Decimal.read? text = some value ∧
      (instruction.map (·.format) ≠ some .two → beginsLikeNumber text = true) := by
  unfold ofText at formed
  split at formed
  · next short =>
    split at formed
    · cases Except.ok.inj formed
    · obtain ⟨other, read, same⟩ := numberOfRead formed
      exact ⟨(Form.number.inj same).symm ▸ read, absurd short⟩
  · split at formed
    · split at formed
      · cases Except.ok.inj formed
      · exact (ofAddressNumber formed).symm.imp_right fun begins _ => begins
    · exact (ofAddressNumber formed).symm.imp_right fun begins _ => begins

end Operand.Form

/-- A numeral that is taken for one by its first characters has no plus sign. -/
theorem Operand.noPlusInNumber {text : Text} {value : Int} (begins : beginsLikeNumber text = true)
    (read : Decimal.read? text = some value) : '+' ∉ text := by
  have head : ∃ first rest, text = first :: rest ∧ first ≠ '+' ∧ Text.isBlank first = false := by
    unfold beginsLikeNumber at begins
    split at begins
    · exact ⟨_, _, rfl, by decide, by decide⟩
    · next first rest _ =>
      refine ⟨first, rest, rfl, ?_, Text.digitNotBlank begins⟩
      rintro rfl
      contradiction
    · contradiction
  obtain ⟨first, rest, rfl, other, solid⟩ := head
  obtain ⟨mark, body, digits, marked, marks, readBody, _⟩ := Decimal.shapeOfRead read
  obtain ⟨front, back, shape, before, after⟩ := Text.trimParts Decimal.isPadding (first :: rest)
  rw [marked] at shape
  intro inside
  rw [shape, List.mem_append, List.mem_append, List.mem_append] at inside
  rcases inside with padding | (sign | digit) | padding
  · have := before '+' padding
    contradiction
  · rcases marks with rfl | rfl | rfl
    · contradiction
    · have := List.mem_singleton.1 sign
      contradiction
    · cases front with
      | nil => exact other (List.cons.inj shape).1
      | cons char others =>
        have padding := before char List.mem_cons_self
        rw [← (List.cons.inj shape).1, Decimal.isPadding, solid] at padding
        contradiction
  · rcases (isDigitTextOfRead readBody).inside '+' digit with same | decimal
    · contradiction
    · contradiction
  · have := after '+' padding
    contradiction

namespace AddressExpression

variable {counter value : Int} {symbols : SymbolTable} {text : Text}

theorem evaluateOfPlain {number : Int} (read : Decimal.read? text = some number)
    (plain : Decimal.isPlain (Text.strip text) = true) (place : Option Place)
    (sourceLine : Option Text) :
    evaluate text counter symbols place sourceLine = .ok number := by
  rw [evaluateEq, ofText?, ofStrippedPlain plain]
  simp only [AddressExpression.value, Decimal.readPlain, Decimal.readStrip read]
  rfl

/-- A numeral begins neither like the counter nor like a name. -/
theorem headOfNumeral {number : Int} (read : Decimal.read? text = some number) :
    ∀ char ∈ (Text.strip text).head?, char ≠ '*' ∧ isIdentifierStart char = false := by
  obtain ⟨mark, body, digits, marked, marks, readBody, _⟩ := Decimal.shapeOfRead read
  rw [Decimal.stripEqTrim read, marked]
  intro char first
  rcases marks with rfl | rfl | rfl
  · have digit : Text.isDigit char = true :=
      Text.isDigitOfDecimal ((isDigitTextOfRead readBody).first char first)
    constructor
    · rintro rfl
      contradiction
    · rw [← Bool.not_eq_true]
      intro start
      rw [startNotDigit start] at digit
      contradiction
  · obtain rfl : '-' = char := Option.some.inj first
    decide
  · obtain rfl : '+' = char := Option.some.inj first
    decide

/-- An expression that begins neither like the counter nor like a name is a number. -/
theorem plainOfHead {form : Operand.Form} (denotes : Denotes counter symbols text form value)
    (head : ∀ char ∈ text.head?, char ≠ '*' ∧ isIdentifierStart char = false) :
    Decimal.isPlain text = true := by
  have named {name : Text} (rest : Text) (identifier : isIdentifier name = true)
      (shape : text = name ++ rest) : False := by
    obtain ⟨first, others, rfl, start⟩ := identifierCons identifier
    have := (head first (by rw [shape]; rfl)).2
    rw [start] at this
    contradiction
  cases denotes with
  | counter => exact absurd rfl (head '*' rfl).1
  | number negative digits plain short => exact Decimal.plainIff.2 ⟨negative, digits, plain, rfl⟩
  | symbol name identifier => exact (named [] identifier (List.append_nil text).symm).elim
  | difference left before after right isFirst isSecond blankBefore blankAfter =>
    exact (named _ isFirst (List.append_assoc _ _ _)).elim

/-- A numeral is an expression if it is plain, and then its value is the same. -/
theorem evaluateNumeral {number : Int} (read : Decimal.read? text = some number)
    (place : Option Place) (sourceLine : Option Text) :
    evaluate text counter symbols place sourceLine = .ok value ↔
      value = number ∧ (∀ char ∈ text, Text.isDecimalDigit char = true →
        Decimal.isAsciiDigit char = true) ∧ '_' ∉ text ∧ '+' ∉ text := by
  rw [← Decimal.plainStripIff read]
  constructor
  · intro evaluated
    obtain ⟨form, denotes⟩ := (evaluateEqOk place sourceLine).1 evaluated
    have plain := plainOfHead denotes (headOfNumeral read)
    rw [evaluateOfPlain read plain] at evaluated
    exact ⟨(Except.ok.inj evaluated).symm, plain⟩
  · rintro ⟨rfl, plain⟩
    exact evaluateOfPlain read plain place sourceLine

/-- Expressions and operands agree: a text has a value if it is in the grammar, and then it is an
operand of the form that the grammar says. No marked form has a value. A number has its own value
if it is written with the digits `0` to `9` only, and without underscores and plus signs; plus
signs stand only in the operands of instructions of two bytes. -/
theorem formsAgree (text operator : Text) (instruction : Option Instruction) (counter : Int)
    (symbols : SymbolTable) (place : Option Place) (sourceLine : Option Text) :
    (∀ value, evaluate text counter symbols place sourceLine = .ok value ↔
      ∃ form, Denotes counter symbols (Text.strip text) form value) ∧
    (instruction.map (·.format) ≠ some .two → ∀ form value,
      Denotes counter symbols text form value →
        Operand.Form.ofText text operator instruction = .ok form) ∧
    (∀ form, Operand.Form.ofText text operator instruction = .ok form → form.isMarked = true →
      evaluate text counter symbols place sourceLine =
        .error (.source ⟨.unsupportedExpression text, place, sourceLine⟩)) ∧
    ∀ number, Operand.Form.ofText text operator instruction = .ok (.number number) →
      (∀ value, evaluate text counter symbols place sourceLine = .ok value ↔
        value = number ∧ (∀ char ∈ text, Text.isDecimalDigit char = true →
          Decimal.isAsciiDigit char = true) ∧ '_' ∉ text ∧ '+' ∉ text) ∧
      (instruction.map (·.format) ≠ some .two → '+' ∉ text) := by
  refine ⟨fun value => evaluateEqOk place sourceLine, ?_, ?_, ?_⟩
  · intro long form value denotes
    exact Operand.Form.ofTextOfDenotes denotes long
  · intro form formed marked
    obtain ⟨mark, isMark, inside⟩ := Operand.Form.markOfText formed marked
    rw [evaluateEq, unsupportedOfMark isMark inside]
  · intro number formed
    obtain ⟨read, begins⟩ := Operand.Form.ofTextNumber formed
    exact ⟨fun value => evaluateNumeral read place sourceLine,
      fun long => Operand.noPlusInNumber (begins long) read⟩

/-- A difference with blanks has the value of its form, while a name with a mark has no value, nor
has a number with an underscore. -/
theorem spacedDifferenceAgrees :
    Operand.Form.ofText "A - B".toList "WORD".toList none =
        .ok (.difference "A".toList "B".toList) ∧
      evaluate " A - B".toList 7 ⟨[("A".toList, 9), ("B".toList, 4)]⟩ none none = .ok 5 ∧
      evaluate "#A".toList 7 Table.empty none none =
        .error (.source ⟨.unsupportedExpression "#A".toList, none, none⟩) ∧
      Operand.Form.ofText "1_0".toList "WORD".toList none = .ok (.number 10) ∧
      ∀ value, evaluate "1_0".toList 7 Table.empty none none ≠ .ok value := by
  have denotes : Denotes 7 ⟨[("A".toList, 9), ("B".toList, 4)]⟩ "A - B".toList
      (.difference "A".toList "B".toList) 5 :=
    .difference "A".toList [' '] [' '] "B".toList (by decide) (by decide)
      (List.forall_mem_singleton.2 (by decide)) (List.forall_mem_singleton.2 (by decide))
  have underscored : Operand.Form.ofText "1_0".toList "WORD".toList none = .ok (.number 10) := rfl
  refine ⟨?_, ?_, ?_, underscored, ?_⟩
  · exact (formsAgree _ _ none 7 _ none none).2.1 nofun _ _ denotes
  · exact ((formsAgree _ [] none 7 _ none none).1 5).2 ⟨_, denotes⟩
  · exact (formsAgree _ [] none 7 _ none none).2.2.1 (.immediateSymbol "A".toList) rfl rfl
  · intro value evaluated
    have plain := ((formsAgree _ _ none 7 Table.empty none none).2.2.2 10 underscored).1 value
    exact (plain.1 evaluated).2.2.1 (by decide)

/-- The count of an instruction of two bytes may have a plus sign, which no expression has. -/
theorem plusSignHasNoValue :
    ∃ catalog ∈ (Catalog.load ["EQU 2 90 1".toList]).value?,
      ∃ instruction ∈ catalog.get? "EQU".toList,
        Operand.Form.ofText "+5".toList "EQU".toList (some instruction) = .ok (.number 5) ∧
        (∀ char ∈ "+5".toList, Text.isDecimalDigit char = true →
          Decimal.isAsciiDigit char = true) ∧ '_' ∉ "+5".toList ∧
        ∀ counter symbols place sourceLine value,
          evaluate "+5".toList counter symbols place sourceLine ≠ .ok value := by
  have short : ∃ catalog ∈ (Catalog.load ["EQU 2 90 1".toList]).value?,
      ∃ instruction ∈ catalog.get? "EQU".toList, instruction.format = .two := by
    decide +kernel
  obtain ⟨catalog, loaded, instruction, known, format⟩ := short
  have small : ("+5".toList.all fun char => char.toNat ≤ 0x7F) = true := by decide
  refine ⟨catalog, loaded, instruction, known, ?_, ?_, by decide, nofun⟩
  · have taken : (some instruction).map (·.format) = some .two := congrArg some format
    rw [Operand.Form.ofText, if_pos taken]
    rfl
  · intro char inside digit
    have within : char.toNat ≤ 0x7F := of_decide_eq_true (List.all_eq_true.1 small char inside)
    exact Text.asciiOfDigit (Text.isDigitOfDecimal digit) within

end AddressExpression

end SicXe
