/-
This file lays a program out behind other sections: apart from the numbers of its lines and of its
sections, nothing depends on what stands before it.
-/

import SicXe.Proofs.Layout.Step

namespace SicXe

/-- The statement as it is read some lines further down. -/
def Statement.shifted (lines : Nat) (statement : Statement) : Statement :=
  { statement with line := statement.line + lines }

def Entry.shifted (lines : Nat) (entry : Entry) : Entry :=
  { entry with line := entry.line + lines }

/-- The section as it is laid out behind other sections and lines. -/
def Section.shifted (sections lines : Nat) (part : Section) : Section :=
  { part with
    index := sections + part.index
    entries := part.entries.map (·.shifted lines) }

namespace Statement

variable (lines : Nat) (statement : Statement)

@[simp] theorem isCommentShifted : (statement.shifted lines).isComment = statement.isComment := rfl

@[simp] theorem operatorShifted : (statement.shifted lines).operator = statement.operator := rfl

@[simp] theorem directiveShifted :
    (statement.shifted lines).directive? = statement.directive? := rfl

@[simp] theorem extendedShifted : (statement.shifted lines).extended = statement.extended := rfl

@[simp] theorem operandsShifted : (statement.shifted lines).operands = statement.operands := rfl

@[simp] theorem operandShifted : (statement.shifted lines).operand = statement.operand := rfl

end Statement

theorem Statement.ofFieldsShifted (catalog : Catalog) (location line : Int) (source : Text)
    {fields : List Text} (solid : fields ≠ []) (lines : Nat) :
    ofFields catalog location (line + lines) source fields =
      (ofFields catalog location line source fields).map (·.shifted lines) := by
  rw [ofFieldsEq _ _ _ _ solid, ofFieldsEq _ _ _ _ solid]
  by_cases comment : labelOf fields = commentLabel
  · simp only [if_pos comment]
    rfl
  · simp only [if_neg comment]
    generalize splitMarker (fieldAt fields 1) = marked
    generalize (if takesNoOperand (catalog.get? marked.2) = true then []
      else operandTexts marked.2 (fieldAt fields 2)) = operands
    cases operands with
    | nil =>
      change (sizeFor marked.1 (catalog.get? marked.2) marked.2 [] none >>= _) =
        Except.map _ (sizeFor marked.1 (catalog.get? marked.2) marked.2 [] none >>= _)
      cases sizeFor marked.1 (catalog.get? marked.2) marked.2 [] none <;> rfl
    | cons first rest =>
      simp only
      cases Operand.ofText first marked.2 (catalog.get? marked.2) with
      | error problem => rfl
      | ok operand =>
        change (sizeFor marked.1 (catalog.get? marked.2) marked.2 (first :: rest)
            (some operand) >>= _) =
          Except.map _ (sizeFor marked.1 (catalog.get? marked.2) marked.2 (first :: rest)
            (some operand) >>= _)
        cases sizeFor marked.1 (catalog.get? marked.2) marked.2 (first :: rest)
          (some operand) <;> rfl

namespace Section

variable {catalog : Catalog} {file : Text} {sections lines : Nat}

theorem symbolsWithShifted (part : Section) (statement : Statement) :
    (part.shifted sections lines).symbolsWith? file (statement.shifted lines) =
      part.symbolsWith? file statement := by
  have value : ((part.shifted sections lines).labelValue file (statement.shifted lines)).toOption =
      (part.labelValue file statement).toOption := by
    unfold labelValue
    rw [Statement.directiveShifted]
    by_cases equ : statement.directive? = some .equ
    · rw [if_pos equ, if_pos equ]
      exact AddressExpression.evaluateToOption _ _ _ _ _ _ _
    · rw [if_neg equ, if_neg equ]
      rfl
  unfold symbolsWith?
  rw [value]
  rfl

theorem grownShifted (part : Section) (statement : Statement) (symbols : SymbolTable) :
    (part.shifted sections lines).grown (statement.shifted lines) symbols =
      (part.grown statement symbols).shifted sections lines := by
  have entries : (part.grown statement symbols).entries.map (·.shifted lines) =
      ((part.shifted sections lines).grown (statement.shifted lines) symbols).entries := by
    change (part.entries ++ [_]).map _ = _
    rw [List.map_append]
    rfl
  unfold shifted
  rw [entries]
  rfl

theorem addStatementShifted (part : Section) (statement : Statement) :
    ((part.shifted sections lines).addStatement file (statement.shifted lines)).value? =
      (part.addStatement file statement).value?.map (·.shifted sections lines) := by
  rw [addStatementValue, addStatementValue, symbolsWithShifted, Statement.isCommentShifted]
  by_cases comment : statement.isComment = true
  · rw [if_pos comment, if_pos comment, Option.map_some, Option.some.injEq]
    simp [append, shifted, Statement.shifted, Entry.shifted]
  · rw [if_neg comment, if_neg comment, Option.map_map]
    congr 1
    funext symbols
    exact grownShifted part statement symbols

theorem addLineShifted (part : Section) (number : Nat) (raw : Text) :
    ((part.shifted sections lines).addLine catalog file (number + lines) raw).value? =
      (part.addLine catalog file number raw).value?.map (·.shifted sections lines) := by
  simp only [addLine, Logged.valueBind, Logged.valueLift, Statement.readToOption]
  change (Except.toOption (Statement.ofFields catalog part.counter ((number + lines : Nat) : Int)
    _ _)).bind _ = _
  rw [Int.natCast_add, Statement.ofFieldsShifted _ _ _ _ (Statement.fieldsOfNeNil raw)]
  cases Statement.ofFields catalog part.counter number (Text.dropLineEnd raw)
      (Statement.fieldsOf raw) with
  | error problem => rfl
  | ok statement => exact addStatementShifted part statement

theorem entriesKept {part grown : Section} {number : Nat} {raw : Text}
    (grows : (part.addLine catalog file number raw).value? = some grown) :
    ∀ entry ∈ part.entries, entry ∈ grown.entries := by
  intro entry inside
  obtain ⟨newest, _, entries⟩ := addLineEntries grows
  rw [entries]
  exact List.mem_append_left _ inside

end Section

namespace Layout

variable {catalog : Catalog} {file : Text} {base : List Section} {lines : Nat} {layout : Layout}

/-- The layout behind other sections and lines. -/
def behind (base : List Section) (lines : Nat) (layout : Layout) : Layout :=
  ⟨base ++ layout.finished.map (·.shifted base.length lines),
    layout.active.map (·.shifted base.length lines)⟩

theorem sectionsBehind (base : List Section) (lines : Nat) (layout : Layout) :
    (layout.behind base lines).sections =
      base ++ layout.sections.map (·.shifted base.length lines) := by
  cases active : layout.active <;> simp [behind, sections, active]

/-- No comments stand ready for the next section. -/
def Settled (layout : Layout) : Prop :=
  layout.detachComments = ([], layout)

theorem settledOfFinished (some : layout.finished ≠ []) : layout.Settled := by
  unfold Settled detachComments
  split
  · contradiction
  · rfl

theorem enterBehind (settled : layout.Settled) (some : base ≠ []) (number : Nat) (raw : Text) :
    ((layout.behind base lines).enter file (number + lines) raw).value? =
      (layout.enter file number raw).value?.map fun entered =>
        (base ++ entered.1.map (·.shifted base.length lines),
          entered.2.shifted base.length lines) := by
  have behindSettled : (layout.behind base lines).Settled :=
    settledOfFinished (by simp [behind, some])
  cases opens : opening? raw with
  | some opening =>
    have address : (openingAddress opening ⟨file, (number + lines : Nat)⟩ raw).toOption =
        (openingAddress opening ⟨file, number⟩ raw).toOption := by
      unfold openingAddress
      split
      · cases readNumber opening.operand <;> rfl
      · rfl
    rw [enterOpening opens, enterOpening opens, address, settled, behindSettled, Option.map_map]
    congr 1
    funext start
    simp [sectionsBehind, Section.shifted, Section.opened]
  | none =>
    rw [enterActive opens, enterActive opens]
    cases active : layout.active with
    | some part => simp [behind, active]
    | none =>
      have none : (layout.behind base lines).active = none := by simp [behind, active]
      simp [none, sectionsBehind, Section.shifted, Section.opened]

theorem addLineBehind (settled : layout.Settled) (some : base ≠ []) (number : Nat) (raw : Text) :
    (addLine catalog file (layout.behind base lines) (number + lines) raw).value? =
      (addLine catalog file layout number raw).value?.map (·.behind base lines) := by
  rw [addLineValue, addLineValue]
  split
  · rfl
  · rw [enterBehind settled some]
    cases layout.enter file number raw |>.value? with
    | none => rfl
    | some entered =>
      obtain ⟨finished, part⟩ := entered
      simp only [Option.map_some, Option.bind_some, Section.addLineShifted, Option.map_map]
      rfl

/-- The layout has a statement, so that its comments stay where they are. -/
def Begun (layout : Layout) : Prop :=
  layout.finished ≠ [] ∨ ∃ part ∈ layout.active, ∃ entry ∈ part.entries, entry.isComment = false

theorem Begun.settled (begun : layout.Begun) : layout.Settled := by
  rcases begun with some | ⟨part, active, entry, inside, plain⟩
  · exact settledOfFinished some
  · unfold Settled detachComments
    split
    · obtain rfl := Option.some.inj active
      rw [if_neg]
      intro comments
      rw [List.all_eq_true.1 comments entry inside] at plain
      contradiction
    · rfl

theorem Begun.sections (begun : layout.Begun) : layout.sections ≠ [] := by
  rcases begun with some | ⟨part, active, _⟩
  · simp [Layout.sections, some]
  · simp [Layout.sections, Option.mem_def.1 active]

/-- A line that is neither blank nor a comment begins the layout. -/
theorem begunOfStatement {next : Layout} {number : Nat} {raw : Text}
    (written : Text.strip raw ≠ [])
    (plain : Statement.labelOf (Statement.fieldsOf raw) ≠ Statement.commentLabel)
    (added : (addLine catalog file layout number raw).value? = some next) : next.Begun := by
  rcases addLineCases added with ⟨blank, _⟩ | ⟨_, finished, part, grown, _, grows, rfl⟩
  · exact absurd blank written
  · obtain ⟨statement, found, joins⟩ := Section.addLineCases grows
    have isPlain : statement.isComment = false := by
      rcases Statement.ofFieldsCases found with ⟨comment, _⟩ | ⟨_, _, _, _, label, _⟩
      · exact absurd comment plain
      · rw [Statement.isComment, label]
        exact decide_eq_false plain
    rcases Section.addStatementCases joins with ⟨comment, _⟩ | ⟨_, symbols, _, rfl⟩
    · rw [isPlain] at comment
      contradiction
    · exact .inr ⟨_, rfl, { toStatement := statement, pool := part.poolAt statement },
        by simp [Section.grown], isPlain⟩

theorem Begun.addLine {next : Layout} {number : Nat} {raw : Text} (begun : layout.Begun)
    (added : (addLine catalog file layout number raw).value? = some next) : next.Begun := by
  rcases addLineCases added with ⟨_, rfl⟩ | ⟨_, finished, part, grown, entered, grows, rfl⟩
  · exact begun
  · rcases enterCases entered with ⟨opening, start, _, rfl, rfl⟩ | ⟨_, active, rfl⟩ |
      ⟨_, _, rfl, rfl⟩
    · rw [begun.settled]
      exact .inl begun.sections
    · rcases begun with some | ⟨other, isActive, entry, inside, plain⟩
      · exact .inl some
      · rw [active] at isActive
        obtain rfl := Option.some.inj isActive
        exact .inr ⟨grown, rfl, entry, Section.entriesKept grows entry inside, plain⟩
    · exact .inl begun.sections

theorem addLinesBehind (begun : layout.Begun) (some : base ≠ []) (number : Nat)
    (rest : List Text) :
    (addLines catalog file (layout.behind base lines) (number + lines) rest).value? =
      (addLines catalog file layout number rest).value?.map (·.behind base lines) := by
  induction rest generalizing layout number with
  | nil => rfl
  | cons raw rest inductionHypothesis =>
    rw [addLines, addLines, Logged.valueBind, Logged.valueBind, addLineBehind begun.settled some]
    cases added : (addLine catalog file layout number raw).value? with
    | none => rfl
    | some next =>
      simp only [Option.map_some, Option.bind_some]
      rw [Nat.add_right_comm]
      exact inductionHypothesis (begun.addLine added) (number + 1)

/-- The line is neither blank nor a comment. -/
def holdsStatement (raw : Text) : Bool :=
  Text.strip raw ≠ [] ∧ Statement.labelOf (Statement.fieldsOf raw) ≠ Statement.commentLabel

/-- The first line that is not blank opens a section. -/
def opensSection (program : List Text) : Bool :=
  (program.find? (Text.strip · ≠ [])).any fun raw => (opening? raw).isSome

theorem begunOfLines {final : Layout} {number : Nat} {program : List Text}
    (written : program.any holdsStatement = true)
    (added : (addLines catalog file layout number program).value? = some final) :
    final.Begun := by
  induction program generalizing layout number with
  | nil => simp at written
  | cons raw rest inductionHypothesis =>
    rw [addLines, Logged.valueBind] at added
    obtain ⟨next, first, later⟩ := Option.bind_eq_some_iff.1 added
    cases here : holdsStatement raw with
    | true =>
      obtain ⟨notBlank, plain⟩ := of_decide_eq_true here
      exact addLinesInduction (fun _ _ _ _ begun adds => begun.addLine adds)
        (begunOfStatement notBlank plain first) later
    | false =>
      rw [List.any_cons, here, Bool.false_or] at written
      exact inductionHypothesis written later

theorem plainOfOpening {raw : Text} (opens : (opening? raw).isSome = true) :
    Statement.labelOf (Statement.fieldsOf raw) ≠ Statement.commentLabel := by
  intro comment
  rw [opening?, if_pos comment] at opens
  contradiction

/-- A line that opens a section sees of a begun layout only how many sections it has. -/
theorem addLineOpening {before : Layout} (begun : before.Begun) {number : Nat} {raw : Text}
    (written : Text.strip raw ≠ []) (opens : (opening? raw).isSome = true) :
    (addLine catalog file before (number + lines) raw).value? =
      (addLine catalog file {} number raw).value?.map (·.behind before.sections lines) := by
  obtain ⟨opening, found⟩ := Option.isSome_iff_exists.1 opens
  have empty : Settled {} := rfl
  have same : (before.enter file (number + lines) raw).value? =
      ((behind before.sections lines {}).enter file (number + lines) raw).value? := by
    have settled : (behind before.sections lines {}).Settled :=
      settledOfFinished (by simpa [behind] using begun.sections)
    have listed : (behind before.sections lines {}).sections = before.sections := by
      rw [sectionsBehind]
      exact List.append_nil _
    rw [enterOpening found, enterOpening found, begun.settled, settled, listed]
  rw [← addLineBehind empty begun.sections, addLineValue, addLineValue, same, if_neg written,
    if_neg written]

theorem addLinesOpening {before : Layout} (begun : before.Begun) {number : Nat}
    {program : List Text} (opens : opensSection program = true) :
    (addLines catalog file before (number + lines) program).value? =
      (addLines catalog file {} number program).value?.map (·.behind before.sections lines) := by
  induction program generalizing number with
  | nil => simp [opensSection] at opens
  | cons raw rest inductionHypothesis =>
    rw [addLines, addLines, Logged.valueBind, Logged.valueBind]
    by_cases blank : Text.strip raw = []
    -- A blank line before the opening one leaves both layouts as they are.
    · have tail : opensSection rest = true := by simpa [opensSection, blank] using opens
      rw [addLineValue, addLineValue, if_pos blank, if_pos blank, Option.bind_some,
        Option.bind_some, Nat.add_right_comm]
      exact inductionHypothesis tail
    · have here : (opening? raw).isSome = true := by simpa [opensSection, blank] using opens
      rw [addLineOpening begun blank here]
      cases added : (addLine catalog file {} number raw).value? with
      | none => rfl
      | some next =>
        simp only [Option.map_some, Option.bind_some]
        rw [Nat.add_right_comm]
        exact addLinesBehind (begunOfStatement blank (plainOfOpening here) added) begun.sections _ _

/-- A program that opens a section is laid out behind another as it is laid out alone. -/
theorem ofLinesAppend {first second : List Text} (written : first.any holdsStatement = true)
    (opens : opensSection second = true) :
    (ofLines catalog file (first ++ second)).value? =
      (ofLines catalog file first).value?.bind fun before =>
        (ofLines catalog file second).value?.map (·.behind before.sections first.length) := by
  rw [ofLines, addLinesAppend, Logged.valueBind, ← ofLines]
  cases laidOut : (ofLines catalog file first).value? with
  | none => rfl
  | some before => exact addLinesOpening (begunOfLines written laidOut) opens

end Layout

end SicXe
