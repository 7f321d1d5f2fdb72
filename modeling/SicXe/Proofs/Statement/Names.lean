/-
This file compares the operands of a statement with the names that its line lists.
-/

import SicXe.AddressExpression
import SicXe.Proofs.Statement.Reading
import SicXe.Proofs.Text.Pieces

namespace SicXe

theorem quoteOfConstant {text : Text} (found : (Constant.ofText? text).isSome = true) :
    '\'' ∈ text := by
  unfold Constant.ofText? at found
  split at found
  · simp
  · contradiction

theorem quoteOfLiteral {text : Text} (found : (Constant.ofLiteral? text).isSome = true) :
    '\'' ∈ text :=
  (List.dropWhile_sublist _).subset (quoteOfConstant found)

theorem partOfIdentifier {name : Text} {char : Char} (identifier : isIdentifier name = true)
    (inside : char ∈ name) : isIdentifierPart char = true := by
  cases name with
  | nil => simp at inside
  | cons first rest =>
    simp only [isIdentifier, Bool.and_eq_true, List.all_eq_true] at identifier
    rcases List.mem_cons.1 inside with rfl | later
    · simp [isIdentifierPart, identifier.1]
    · exact identifier.2 char later

namespace Statement

/-- The names that a field lists: its pieces between commas without the blanks around them. -/
def namesIn (field : Text) : List Text :=
  if Text.strip field = [] then [] else (List.splitOn ',' field).map Text.strip

/-- The names that the third field of the statement's line lists, however many there are. -/
def listed (statement : Statement) : List Text :=
  namesIn ((List.splitOn separator statement.source).getD 2 [])

theorem memNamesIn {field : Text} {char : Char} (inside : char ∈ field)
    (written : Text.isBlank char = false) (joined : char ≠ ',') :
    ∃ name ∈ namesIn field, char ∈ name := by
  have nonempty : Text.strip field ≠ [] := List.ne_nil_of_mem (Text.memStrip inside written)
  rcases Text.memPiece ',' inside with same | ⟨piece, member, held⟩
  · exact absurd same joined
  · rw [namesIn, if_neg nonempty]
    exact ⟨_, List.mem_map_of_mem member, Text.memStrip held written⟩

/-- A field of identifiers has no quote, and so no constant. -/
theorem noLiteralOfNames {field : Text}
    (identifiers : ∀ name ∈ namesIn field, isIdentifier name = true) :
    Constant.ofLiteral? (Text.strip field) = none := by
  rw [← Option.not_isSome_iff_eq_none]
  intro found
  have inside : '\'' ∈ field := (Text.stripSublist field).subset (quoteOfLiteral found)
  obtain ⟨name, member, held⟩ := memNamesIn inside (by decide) (by decide)
  have part := partOfIdentifier (identifiers name member) held
  contradiction

/-- A field of identifiers is cut into its names if there are at most three of them. -/
theorem operandTextsEqNames {operator field : Text} (free : operator ≠ Directive.name .byte)
    (identifiers : ∀ name ∈ namesIn field, isIdentifier name = true) :
    operandTexts operator (Text.strip field) = namesIn field ↔ (namesIn field).length ≤ 3 := by
  have plain : ¬ (operator = Directive.name .byte ∨
      (Constant.ofLiteral? (Text.strip field)).isSome = true) := by
    simp [free, noLiteralOfNames identifiers]
  have same := @Text.mapStripSplitOn ',' (by decide) field
  by_cases blank : Text.strip field = []
  · simp [operandTexts, namesIn, blank]
  · rw [operandTexts, if_neg blank, if_neg plain, namesIn, if_neg blank, ← same, List.length_map]
    constructor
    · intro equal
      have lengths := congrArg List.length equal
      rw [List.length_map, List.length_map] at lengths
      rw [← lengths]
      exact Text.splitAtMostLength 2 _
    · intro short
      rw [Text.splitAtMostOfShort short]

/-- The operands of a statement whose line lists identifiers are these names if there are at most
three. -/
theorem operandsEqListed {catalog : Catalog} {location line : Int} {raw : Text}
    {statement : Statement}
    (found : ofFields catalog location line (Text.dropLineEnd raw) (fieldsOf raw) = .ok statement)
    (plain : statement.isComment = false)
    (takes : takesNoOperand (catalog.get? statement.operator) = false)
    (free : statement.operator ≠ Directive.name .byte)
    (identifiers : ∀ name ∈ statement.listed, isIdentifier name = true) :
    statement.operands = statement.listed ↔ statement.listed.length ≤ 3 := by
  rw [ofFieldsOperands found plain takes, fieldAtEq]
  unfold listed at identifiers ⊢
  rw [ofFieldsSource found] at identifiers ⊢
  exact operandTextsEqNames free identifiers

end Statement

end SicXe
