/-
This file holds the laws of tables that every kind of table shares: names stay in the order in which
they came first, and an entry is what its name finds.
-/

import Mathlib.Data.List.Induction
import SicXe.Table

namespace SicXe

/-- One more name is listed last unless it is listed already. -/
theorem Text.eraseDupsSnoc (names : List Text) (name : Text) :
    (names ++ [name]).eraseDups =
      if names.contains name then names.eraseDups else names.eraseDups ++ [name] := by
  rw [List.eraseDups_append]
  cases again : names.contains name with
  | true =>
    have known : [name].removeAll names = [] := by simpa [List.removeAll] using again
    rw [known]
    exact List.append_nil _
  | false =>
    have fresh : [name].removeAll names = [name] := by simpa [List.removeAll] using again
    rw [fresh]
    rfl

theorem Text.nodupEraseDups (names : List Text) : names.eraseDups.Nodup := by
  induction names using List.reverseRecOn with
  | nil => exact List.nodup_nil
  | append_singleton names name inductionHypothesis =>
    rw [eraseDupsSnoc]
    split
    · exact inductionHypothesis
    · next fresh =>
      rw [List.contains_iff_mem, ← List.mem_eraseDups] at fresh
      rw [List.nodup_append]
      refine ⟨inductionHypothesis, by simp, ?_⟩
      rintro held inside other same rfl
      exact fresh (List.mem_singleton.1 same ▸ inside)

namespace Table

variable {α : Type} {table : Table α} {earlier : List Text}

theorem containsOfListed (listed : table.names = earlier.eraseDups) (name : Text) :
    table.contains name = earlier.contains name := by
  rw [Bool.eq_iff_iff, contains, List.contains_iff_mem, List.contains_iff_mem, listed,
    List.mem_eraseDups]

theorem getSet (table : Table α) (name other : Text) (value : α) :
    (table.set name value).get? other = if other = name then some value else table.get? other := by
  unfold set
  split
  · next held =>
    obtain ⟨kept, found⟩ := Option.isSome_iff_exists.1 (table.containsEqIsSome name ▸ held)
    rw [getReplace, found]
    rfl
  · next fresh =>
    rw [containsEqIsSome, Option.not_isSome_iff_eq_none] at fresh
    rw [getAppend]
    split
    · next same => rw [same, fresh]; rfl
    · rw [Option.or_none]

/-- A name that is set keeps its place, or gets the last one. -/
theorem namesSet (listed : table.names = earlier.eraseDups) (name : Text) (value : α) :
    (table.set name value).names = (earlier ++ [name]).eraseDups := by
  rw [Text.eraseDupsSnoc, ← containsOfListed listed, ← listed, set]
  split
  · exact namesReplace table name value
  · exact namesAppend table name value

/-- In a table of distinct names the entries are what the names find. -/
theorem memEntriesIff (distinct : table.names.Nodup) {name : Text} {value : α} :
    (name, value) ∈ table.entries ↔ table.get? name = some value := by
  obtain ⟨entries⟩ := table
  simp only [names, get?] at distinct ⊢
  induction entries with
  | nil => simp
  | cons entry rest inductionHypothesis =>
    obtain ⟨key, held⟩ := entry
    obtain ⟨fresh, later⟩ := List.nodup_cons.1 distinct
    rw [List.mem_cons, inductionHypothesis later, List.lookup_cons]
    by_cases same : name = key
    · subst same
      have absent : rest.lookup name ≠ some value := by
        intro found
        rw [← inductionHypothesis later] at found
        exact fresh (List.mem_map.2 ⟨(name, value), found, rfl⟩)
      simp [absent, eq_comm]
    · have different : (name == key) = false := by simpa using same
      simp [different, same]

end Table

end SicXe
