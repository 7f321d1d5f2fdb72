/-
This file holds tables of named values in the order in which the names came.
-/

import SicXe.Text.Basic

namespace SicXe

structure Table (α : Type) where
  entries : List (Text × α) := []
  deriving DecidableEq, Repr

namespace Table

variable {α : Type}

def empty : Table α := {}

def get? (table : Table α) (name : Text) : Option α :=
  table.entries.lookup name

def names (table : Table α) : List Text :=
  table.entries.map Prod.fst

def contains (table : Table α) (name : Text) : Bool :=
  table.names.contains name

def size (table : Table α) : Nat :=
  table.entries.length

def isEmpty (table : Table α) : Bool :=
  table.entries.isEmpty

/-- A new name goes to the end. -/
def append (table : Table α) (name : Text) (value : α) : Table α :=
  ⟨table.entries ++ [(name, value)]⟩

/-- The value of a name changes and its position stays. -/
def replace (table : Table α) (name : Text) (value : α) : Table α :=
  ⟨table.entries.map fun entry => if entry.1 = name then (name, value) else entry⟩

/-- The last value of a name counts, at the position of the first. -/
def set (table : Table α) (name : Text) (value : α) : Table α :=
  if table.contains name then table.replace name value else table.append name value

theorem namesAppend (table : Table α) (name : Text) (value : α) :
    (table.append name value).names = table.names ++ [name] := by
  simp [append, names]

theorem namesReplace (table : Table α) (name : Text) (value : α) :
    (table.replace name value).names = table.names := by
  simp only [replace, names, List.map_map]
  apply List.map_congr_left
  intro entry _
  by_cases same : entry.1 = name <;> simp [same]

theorem containsEqIsSome (table : Table α) (name : Text) :
    table.contains name = (table.get? name).isSome := by
  obtain ⟨entries⟩ := table
  simp only [contains, names, get?]
  induction entries with
  | nil => rfl
  | cons entry rest inductionHypothesis =>
    obtain ⟨key, value⟩ := entry
    by_cases same : name = key
    · simp [same]
    · have different : (name == key) = false := by simpa using same
      simp only [List.map_cons, List.contains_cons, different, Bool.false_or, List.lookup_cons]
      exact inductionHypothesis

theorem getAppend (table : Table α) (name other : Text) (value : α) :
    (table.append name value).get? other =
      (table.get? other).or (if other = name then some value else none) := by
  simp only [append, get?, List.lookup_append, List.lookup_cons, List.lookup_nil]
  by_cases same : other = name
  · simp [same]
  · have different : (other == name) = false := by simpa using same
    simp only [different, if_neg same]

theorem getReplace (table : Table α) (name other : Text) (value : α) :
    (table.replace name value).get? other =
      if other = name then (table.get? name).map fun _ => value else table.get? other := by
  obtain ⟨entries⟩ := table
  simp only [replace, get?]
  induction entries with
  | nil => simp
  | cons entry rest inductionHypothesis =>
    obtain ⟨key, held⟩ := entry
    by_cases same : key = name
    · subst same
      by_cases asked : other = key
      · simp [asked]
      · have different : (other == key) = false := by simpa using asked
        simp only [List.map_cons, if_true, List.lookup_cons, different, inductionHypothesis,
          if_neg asked]
    · have notName : (name == key) = false := by simpa using fun equal => same equal.symm
      by_cases asked : other = key
      · subst asked
        simp [same]
      · have different : (other == key) = false := by simpa using asked
        simp only [List.map_cons, if_neg same, List.lookup_cons, different, notName,
          inductionHypothesis]

end Table

end SicXe
