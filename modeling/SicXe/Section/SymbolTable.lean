/-
This file holds the tables of symbols and their values.
The first definition of a symbol counts.
-/

import SicXe.Logged
import SicXe.Table

namespace SicXe

abbrev SymbolTable := Table Int

/-- A name may be written with the mark of a literal in front. -/
def withoutMark : Text → Text
  | '=' :: name => name
  | name => name

namespace SymbolTable

variable {ε : Type}

/-- The value of a name, or minus one. -/
def lookup (table : SymbolTable) (name : Text) : Int :=
  (table.get? name).getD (-1)

/-- A name that is in the table keeps its value. -/
def insert (table : SymbolTable) (name : Text) (value : Int) : SymbolTable :=
  if table.contains (withoutMark name) then table else table.append (withoutMark name) value

/-- A second definition is reported and ignored. -/
def define (table : SymbolTable) (name : Text) (value : Int) : Logged ε SymbolTable := do
  match table.get? (withoutMark name) with
  | some kept => Logged.report (.symbolKept (withoutMark name) kept)
  | none => pure ()
  return table.insert name value

/-- A name that is in the table gets a new value. -/
def amend (table : SymbolTable) (name : Text) (value : Int) : SymbolTable :=
  table.replace (withoutMark name) value

/-- A name is declared without a value of its own. -/
def declare (table : SymbolTable) (name : Text) : Logged ε SymbolTable :=
  table.define name 0

/-- The entries on one line, for people, behind the name of the table's kind. -/
def describe (kind : String) (table : SymbolTable) : String :=
  let entries := table.entries.map fun (name, value) =>
    String.ofList name ++ "=$" ++ String.ofList (Numeral.Hex.ofInt value)
  kind ++ "(" ++ String.intercalate ", " entries ++ ")"

theorem namesInsert (table : SymbolTable) (name : Text) (value : Int) :
    (table.insert name value).names =
      if table.contains (withoutMark name) then table.names
      else table.names ++ [withoutMark name] := by
  unfold insert
  split
  · rfl
  · rw [Table.namesAppend]

theorem namesAmend (table : SymbolTable) (name : Text) (value : Int) :
    (table.amend name value).names = table.names :=
  Table.namesReplace table (withoutMark name) value

end SymbolTable

end SicXe
