/-
This file lays a program out: it gives every line its section and its location.
-/

import SicXe.Section.Growth

namespace SicXe

/-- The sections of a program, of which the active one takes the next statement. -/
structure Layout where
  finished : List Section := []
  active : Option Section := none
  deriving DecidableEq, Repr

namespace Layout

variable {ε : Type}

def sections (layout : Layout) : List Section :=
  layout.finished ++ layout.active.toList

/-- The active section is finished and a new one becomes active. -/
def newSection (layout : Layout) (name : Text) (start : Int) (entries : List Entry) :
    Logged ε (List Section × Section) := do
  let index := layout.sections.length
  Logged.report (.sectionOpened index name start)
  return (layout.sections, { Section.opened index name start with entries })

/-- Comments at the beginning of a program belong to the first section that is opened. -/
def detachComments (layout : Layout) : List Entry × Layout :=
  match layout with
  | ⟨[], some part⟩ =>
    if part.entries.all (·.isComment) then (part.entries, {}) else ([], layout)
  | _ => ([], layout)

/-- A line that opens a section, with the fields that matter for it. -/
structure Opening where
  directive : Directive
  name : Text
  operand : Text
  deriving DecidableEq, Repr

/-- The operator of an opening line carries no marker. -/
def openingIn (raw : Text) : Except Lapse (Option Opening) :=
  let fields := Statement.fieldsOf raw
  (Statement.labelIn fields).map fun name =>
    if name = Statement.commentLabel then none
    else match Directive.ofName? (Statement.fieldAt fields 1) with
      | some directive =>
        if directive.opensSection then some ⟨directive, name, Statement.fieldAt fields 2⟩
        else none
      | none => none

/-- `START` may name the address of its section. -/
def openingAddress (opening : Opening) (place : Place) (raw : Text) : Except AssemblyError Int :=
  if opening.directive = .start ∧ opening.operand ≠ [] then
    (readNumber opening.operand).mapError (LineError.told place raw)
  else .ok 0

/-- The section that takes a line, behind the sections before it. -/
def enter (layout : Layout) (file : Text) (number : Nat) (raw : Text) :
    Logged AssemblyError (List Section × Section) := do
  match ← openingIn raw with
  | some opening =>
    let start ← openingAddress opening ⟨file, number⟩ raw
    let (comments, rest) := layout.detachComments
    rest.newSection opening.name start comments
  | none =>
    match layout.active with
    | some part => pure (layout.finished, part)
    | none => layout.newSection [] 0 []

/-- A blank line is no statement. -/
def addLine (catalog : Catalog) (file : Text) (layout : Layout) (number : Nat) (raw : Text) :
    Logged AssemblyError Layout :=
  if Text.strip raw = [] then pure layout
  else do
    let (finished, part) ← layout.enter file number raw
    let part ← part.addLine catalog file number raw
    return ⟨finished, some part⟩

def addLines (catalog : Catalog) (file : Text) (layout : Layout) :
    Nat → List Text → Logged AssemblyError Layout
  | _, [] => pure layout
  | number, raw :: rest => do
    let layout ← addLine catalog file layout number raw
    addLines catalog file layout (number + 1) rest

def ofLines (catalog : Catalog) (file : Text) (lines : List Text) :
    Logged AssemblyError Layout :=
  addLines catalog file {} 1 lines

theorem addLinesAppend (catalog : Catalog) (file : Text) (layout : Layout) (number : Nat)
    (first second : List Text) :
    addLines catalog file layout number (first ++ second) =
      addLines catalog file layout number first >>= fun reached =>
        addLines catalog file reached (number + first.length) second := by
  induction first generalizing layout number with
  | nil => simp [addLines]
  | cons raw rest inductionHypothesis =>
    simp only [List.cons_append, addLines, bind_assoc, inductionHypothesis, List.length_cons]
    congr 1
    funext reached
    congr 1
    funext further
    rw [Nat.add_assoc, Nat.add_comm 1]

end Layout

end SicXe
