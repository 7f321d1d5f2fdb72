/-
This file says what a file system promises: reading changes nothing, and a write changes one file or
none. File systems in memory keep the promise.
-/

import SicXe.Files.Store
import SicXe.Proofs.Files.Path

namespace SicXe

namespace Files

variable {σ : Type} [Files (StateM σ)]

/-- Looking at a path of a file system. -/
def look (store : σ) (path : Text) : FileStatus × σ :=
  (status path : StateM σ FileStatus).run store

/-- Reading a file of a file system. -/
def load (store : σ) (path : Text) : Except FileError Text.Bytes × σ :=
  (read path : StateM σ (Except FileError Text.Bytes)).run store

/-- Writing a file of a file system. -/
def save (store : σ) (path : Text) (bytes : Text.Bytes) : Except FileError Unit × σ :=
  (write path bytes : StateM σ (Except FileError Unit)).run store

end Files

/-- Paths lead to places, and a file at a place has bytes. The standard catalog has a proper path.
A failing write leaves all files as they were. Another write makes or changes the file of its path
alone, and paths lead where they led before. -/
class LawfulFiles (σ : Type) [Files (StateM σ)] where
  Place : Type
  place? : σ → Text → Option Place
  content? : σ → Place → Option Text.Bytes
  standard : Path.IsProper (Files.standardCatalog (StateM σ))
  look : ∀ (store : σ) (path : Text), (Files.look store path).2 = store
  load : ∀ (store : σ) (path : Text), (Files.load store path).2 = store
  loaded : ∀ (store : σ) (path : Text) (bytes : Text.Bytes),
    (Files.load store path).1 = .ok bytes →
      ∃ place, place? store path = some place ∧ content? store place = some bytes
  failed : ∀ (store after : σ) (path : Text) (bytes : Text.Bytes) (error : FileError),
    Files.save store path bytes = (.error error, after) →
      ∀ place, content? after place = content? store place
  saved : ∀ (store after : σ) (path : Text) (bytes : Text.Bytes),
    Files.save store path bytes = (.ok (), after) →
      ∃ place, place? store path = some place ∧ content? after place = some bytes ∧
        (∀ other, other ≠ place → content? after other = content? store other) ∧
        ∀ other, place? after other = place? store other

namespace FileStore

/-- The place of a file that is there or can be created. -/
def Target.place? : Except FileError Target → Option (List Text)
  | .ok (.file place) | .ok (.free place) => some place
  | _ => none

theorem lookupReplace (files : List (List Text × Text.Bytes)) (place other : List Text)
    (bytes : Text.Bytes) :
    (files.map fun file => if file.1 = place then (place, bytes) else file).lookup other =
      if other = place then (files.lookup place).map fun _ => bytes else files.lookup other := by
  induction files with
  | nil => split <;> rfl
  | cons file rest inductionHypothesis =>
    obtain ⟨key, value⟩ := file
    rw [List.map_cons]
    by_cases same : other = key
    · subst same
      by_cases here : other = place
      · simp [here]
      · simp [here]
    · have unequal : (other == key) = false := beq_eq_false_iff_ne.2 same
      by_cases here : key = place
      · subst here
        rw [if_pos rfl, List.lookup_cons, unequal, inductionHypothesis, if_neg same, if_neg same,
          List.lookup_cons, unequal]
      · have apart : (place == key) = false := beq_eq_false_iff_ne.2 (Ne.symm here)
        rw [if_neg here]
        simp only [List.lookup_cons, unequal, apart, inductionHypothesis]

theorem contentPut (store : FileStore) (place other : List Text) (bytes : Text.Bytes) :
    (store.put place bytes).content? other =
      if other = place then some bytes else store.content? other := by
  unfold put content?
  split
  · next present =>
    obtain ⟨value, found⟩ := Option.isSome_iff_exists.1 present
    dsimp only
    rw [lookupReplace, found]
    rfl
  · next absent =>
    have missing : store.files.lookup place = none := Option.not_isSome_iff_eq_none.1 absent
    dsimp only
    rw [List.lookup_append, List.lookup_cons, List.lookup_nil]
    by_cases same : other = place
    · subst same
      simp [missing]
    · have unequal : (other == place) = false := beq_eq_false_iff_ne.2 same
      simp [same, unequal]

/-- Paths lead where they led before; behind a new file there was no place anyway. -/
theorem placeFollowPut (store : FileStore) (place : List Text) (bytes : Text.Bytes)
    (here parts : List Text) :
    Target.place? ((store.put place bytes).follow here parts) =
      Target.place? (store.follow here parts) := by
  have directories (path : List Text) :
      (store.put place bytes).isDirectory path = store.isDirectory path := rfl
  induction parts generalizing here with
  | nil => rfl
  | cons part rest inductionHypothesis =>
    rw [follow, follow]
    split
    · exact inductionHypothesis here
    · split
      · exact inductionHypothesis (above here)
      · split
        · rfl
        · simp only [directories]
          split
          · exact inductionHypothesis (here ++ [part])
          · -- Only the way that meets the written file can differ, and it ends in no other place.
            rw [contentPut]
            by_cases same : here ++ [part] = place
            · rw [if_pos same]
              cases store.content? (here ++ [part]) <;> cases rest <;> rfl
            · rw [if_neg same]

theorem placeFindPut (store : FileStore) (place : List Text) (bytes : Text.Bytes) (path : Text) :
    Target.place? ((store.put place bytes).find path) = Target.place? (store.find path) := by
  unfold find
  split
  · rfl
  · split
    · rfl
    · exact placeFollowPut ..
    · exact placeFollowPut ..

theorem saveEq (store : FileStore) (path : Text) (bytes : Text.Bytes) :
    Files.save store path bytes = match store.write path bytes with
      | .ok changed => (.ok (), changed)
      | .error error => (.error error, store) := rfl

theorem writeEqPut {store changed : FileStore} {path : Text} {bytes : Text.Bytes}
    (written : store.write path bytes = .ok changed) :
    ∃ place, Target.place? (store.find path) = some place ∧ changed = store.put place bytes := by
  unfold write at written
  split at written
  · contradiction
  · contradiction
  · next place target => exact ⟨place, by rw [target]; rfl, (Except.ok.inj written).symm⟩
  · next place target => exact ⟨place, by rw [target]; rfl, (Except.ok.inj written).symm⟩

theorem readEqContent {store : FileStore} {path : Text} {bytes : Text.Bytes}
    (found : store.read path = .ok bytes) :
    ∃ place, Target.place? (store.find path) = some place ∧ store.content? place = some bytes := by
  unfold read at found
  split at found
  · contradiction
  · contradiction
  · contradiction
  · next place target =>
    refine ⟨place, by rw [target]; rfl, ?_⟩
    split at found
    · next held => rw [held, Except.ok.inj found]
    · contradiction

instance : LawfulFiles FileStore where
  Place := List Text
  place? store path := Target.place? (store.find path)
  content? := content?
  standard := ⟨by decide, by decide⟩
  look _ _ := rfl
  load _ _ := rfl
  loaded _ _ _ found := readEqContent found
  failed store after path bytes error made := by
    intro place
    rw [saveEq] at made
    split at made
    · simp at made
    · rw [(Prod.mk.inj made).2]
  saved store after path bytes made := by
    rw [saveEq] at made
    split at made
    · next changed written =>
      obtain rfl := (Prod.mk.inj made).2
      obtain ⟨place, target, rfl⟩ := writeEqPut written
      refine ⟨place, target, ?_, ?_, fun other => placeFindPut store place bytes other⟩
      · rw [contentPut, if_pos rfl]
      · intro other different
        rw [contentPut, if_neg different]
    · simp at made

end FileStore

end SicXe
