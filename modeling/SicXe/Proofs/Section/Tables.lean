/-
This file holds the laws of the symbol and literal tables: what an update does to the names, and
to the value of every name.
-/

import SicXe.Proofs.Section.Step
import SicXe.Proofs.Table

namespace SicXe

/-- The name does not begin with the mark of a literal. -/
def Unmarked (name : Text) : Prop :=
  name.head? ≠ some '='

theorem withoutMarkOfUnmarked {name : Text} (unmarked : Unmarked name) :
    withoutMark name = name := by
  unfold withoutMark
  split
  · simp [Unmarked] at unmarked
  · rfl

namespace SymbolTable

theorem memNamesIff {table : SymbolTable} {name : Text} :
    name ∈ table.names ↔ (table.get? name).isSome := by
  rw [← Table.containsEqIsSome, Table.contains, List.contains_iff_mem]

theorem getInsert (table : SymbolTable) (name other : Text) (value : Int) :
    (table.insert name value).get? other =
      (table.get? other).or (if other = withoutMark name then some value else none) := by
  unfold insert
  split
  · next held =>
    rw [Table.containsEqIsSome] at held
    by_cases same : other = withoutMark name
    · obtain ⟨kept, found⟩ := Option.isSome_iff_exists.1 held
      rw [same, found]
      rfl
    · simp [same]
  · exact Table.getAppend table (withoutMark name) other value

/-- A name keeps its value when another one, or itself again, is inserted. -/
theorem lookupInsertOfMem {table : SymbolTable} {other : Text} (held : other ∈ table.names)
    (name : Text) (value : Int) : (table.insert name value).lookup other = table.lookup other := by
  obtain ⟨kept, found⟩ := Option.isSome_iff_exists.1 (memNamesIff.1 held)
  simp only [lookup, getInsert, found, Option.some_or]

theorem lookupInsertOfNotMem {table : SymbolTable} {name : Text}
    (fresh : withoutMark name ∉ table.names) (value : Int) :
    (table.insert name value).lookup (withoutMark name) = value := by
  have absent : table.get? (withoutMark name) = none := by
    simpa [memNamesIff] using fresh
  simp [lookup, getInsert, absent]

theorem memNamesInsert (table : SymbolTable) (name other : Text) (value : Int) :
    other ∈ (table.insert name value).names ↔ other ∈ table.names ∨ other = withoutMark name := by
  rw [memNamesIff, memNamesIff, getInsert]
  by_cases same : other = withoutMark name <;> simp [same]

theorem nodupInsert {table : SymbolTable} (distinct : table.names.Nodup) (name : Text)
    (value : Int) : (table.insert name value).names.Nodup := by
  rw [namesInsert]
  split
  · exact distinct
  · next fresh =>
    have absent : withoutMark name ∉ table.names := by
      rwa [Table.contains, List.contains_iff_mem] at fresh
    rw [List.nodup_append]
    refine ⟨distinct, by simp, ?_⟩
    intro held inside other same equal
    rw [List.mem_singleton.1 same] at equal
    exact absent (equal ▸ inside)

/-- The names stay in the order in which they came first. -/
theorem namesInsertEraseDups {table : SymbolTable} {earlier : List Text}
    (listed : table.names = earlier.eraseDups) (name : Text) (value : Int) :
    (table.insert name value).names = (earlier ++ [withoutMark name]).eraseDups := by
  rw [namesInsert, Text.eraseDupsSnoc, ← Table.containsOfListed listed, ← listed]

theorem lookupAmend (table : SymbolTable) (name other : Text) (value : Int) :
    (table.amend name value).lookup other =
      if other = withoutMark name ∧ other ∈ table.names then value else table.lookup other := by
  simp only [lookup, amend, Table.getReplace, memNamesIff]
  by_cases same : other = withoutMark name
  · subst same
    cases table.get? (withoutMark name) <;> simp
  · simp [same]

end SymbolTable

namespace LiteralTable

theorem memNamesMention (table : LiteralTable) (name other : Text) :
    other ∈ (table.mention name).names ↔ other ∈ table.names ∨ other = withoutMark name :=
  SymbolTable.memNamesInsert table.addresses name other 0

theorem namesPlaceFrom (table : LiteralTable) (address : Int) (pool : List Text) :
    (table.placeFrom address pool).names = table.names := by
  induction pool generalizing table address with
  | nil => rfl
  | cons name rest inductionHypothesis =>
    rw [placeFrom, inductionHypothesis]
    exact SymbolTable.namesAmend _ _ _

theorem placedPlaceFrom (table : LiteralTable) (address : Int) {pool : List Text}
    (unmarked : ∀ name ∈ pool, Unmarked name) :
    (table.placeFrom address pool).placed = table.placed ++ pool := by
  induction pool generalizing table address with
  | nil => simp [placeFrom]
  | cons name rest inductionHypothesis =>
    rw [placeFrom, inductionHypothesis _ _ fun other inside =>
      unmarked other (List.mem_cons_of_mem _ inside)]
    simp [place, withoutMarkOfUnmarked (unmarked name List.mem_cons_self)]

theorem lookupPlace (table : LiteralTable) {name : Text} (unmarked : Unmarked name)
    (other : Text) (address : Int) :
    (table.place name address).lookup other =
      if other = name ∧ other ∈ table.names then address else table.lookup other := by
  have kept := withoutMarkOfUnmarked unmarked
  rw [lookup, place, kept, SymbolTable.lookupAmend, kept]
  rfl

/-- A literal outside of the pool keeps its address. -/
theorem lookupPlaceFromOfNotMem (table : LiteralTable) (address : Int) {pool : List Text}
    (unmarked : ∀ name ∈ pool, Unmarked name) {other : Text} (outside : other ∉ pool) :
    (table.placeFrom address pool).lookup other = table.lookup other := by
  induction pool generalizing table address with
  | nil => rfl
  | cons name rest inductionHypothesis =>
    rw [placeFrom, inductionHypothesis _ _
      (fun later inside => unmarked later (List.mem_cons_of_mem _ inside))
      (fun inside => outside (List.mem_cons_of_mem _ inside)),
      lookupPlace table (unmarked name List.mem_cons_self)]
    have different : other ≠ name := fun same => outside (same ▸ List.mem_cons_self)
    rw [if_neg fun both => different both.1]

/-- A literal of the pool gets the address behind the literals before it. -/
theorem lookupPlaceFromOfMem (table : LiteralTable) (address : Int) {before after : List Text}
    {name : Text} (unmarked : ∀ other ∈ before ++ name :: after, Unmarked other)
    (distinct : (before ++ name :: after).Nodup) (held : name ∈ table.names) :
    (table.placeFrom address (before ++ name :: after)).lookup name =
      address + Literal.extent before := by
  induction before generalizing table address with
  | nil =>
    have later : name ∉ after := (List.nodup_cons.1 distinct).1
    rw [List.nil_append, placeFrom, lookupPlaceFromOfNotMem _ _
      (fun other inside => unmarked other (List.mem_cons_of_mem _ inside)) later,
      lookupPlace table (unmarked name List.mem_cons_self), if_pos ⟨rfl, held⟩]
    exact (Int.add_zero address).symm
  | cons first rest inductionHypothesis =>
    have stillHeld : name ∈ (table.place first address).names := by
      rw [names, place, SymbolTable.namesAmend]
      exact held
    rw [List.cons_append, placeFrom, inductionHypothesis _ _
      (fun other inside => unmarked other (List.mem_cons_of_mem _ inside))
      (List.nodup_cons.1 distinct).2 stillHeld, Literal.extentCons]
    omega

end LiteralTable

end SicXe
