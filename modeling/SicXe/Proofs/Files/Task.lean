/-
This file follows tasks through a file system: what they yield, whatever they report, and the file
system that they leave behind.
-/

import SicXe.Proofs.Files.Lawful
import SicXe.Proofs.Files.Path
import SicXe.Task

namespace SicXe

variable {σ α β : Type}

theorem stateRunBind (first : StateM σ α) (next : α → StateM σ β) (store : σ) :
    (first >>= next).run store = (next (first.run store).1).run (first.run store).2 := rfl

namespace Task

theorem runBind {m : Type → Type} [Monad m] (first : Task m α) (next : α → Task m β) :
    (first >>= next).run = do
      let outcome ← first.run
      match outcome.result with
      | .error error => return ⟨outcome.events, .error error⟩
      | .ok value =>
        let later ← (next value).run
        return ⟨outcome.events ++ later.events, later.result⟩ := rfl

/-- The result of a task in a file system, whatever it reports, and the file system behind it. -/
def applied (task : Task (StateM σ) α) (store : σ) : Except Failure α × σ :=
  let done := task.run.run store
  (done.1.result, done.2)

theorem appliedBind (first : Task (StateM σ) α) (next : α → Task (StateM σ) β) (store : σ) :
    (first >>= next).applied store = match first.applied store with
      | (.ok value, changed) => (next value).applied changed
      | (.error failure, changed) => (.error failure, changed) := by
  unfold applied
  rw [runBind, stateRunBind]
  generalize first.run.run store = done
  obtain ⟨⟨events, result⟩, changed⟩ := done
  cases result <;> rfl

theorem appliedReportIf (wanted : Bool) (event : Event) (store : σ) :
    (reportIf wanted event : Task (StateM σ) Unit).applied store = (.ok (), store) := by
  cases wanted <;> rfl

/-- What a task reports does not matter to the rest of it. -/
theorem appliedReportThen (wanted : Bool) (event : Event) (next : Unit → Task (StateM σ) α)
    (store : σ) : (reportIf wanted event >>= next).applied store = (next ()).applied store := by
  rw [appliedBind, appliedReportIf]

theorem runReadText {m : Type → Type} [Monad m] [Files m] {path : Text}
    (formed : Path.isWellFormed path = true) :
    (readText path : Task m Text).run = do
      match ← Files.read path with
      | .error error => return Logged.fail (.unreadable path error)
      | .ok bytes =>
        match Text.decodeUtf8 bytes with
        | .error fault => return Logged.fail (.undecodable fault)
        | .ok text => return pure (Text.unifyLineEnds text) :=
  if_pos formed

theorem runWriteText {m : Type → Type} [Monad m] [Files m] {path : Text}
    (formed : Path.isWellFormed path = true) (text : Text) :
    (writeText path text : Task m Unit).run = do
      match ← Files.write path (Text.encodeUtf8 text) with
      | .error error => return Logged.fail (.unwritable path error)
      | .ok _ => return pure () :=
  if_pos formed

end Task

namespace Files

variable [Files (StateM σ)]

/-- The text that a file holds, with its line ends made alike. -/
def textAt (store : σ) (path : Text) : Except Failure Text :=
  match (load store path).1 with
  | .error error => .error (.unreadable path error)
  | .ok bytes =>
    match Text.decodeUtf8 bytes with
    | .error fault => .error (.undecodable fault)
    | .ok text => .ok (Text.unifyLineEnds text)

theorem textAtEqOk {store : σ} {path text : Text} (found : textAt store path = .ok text) :
    ∃ bytes decoded, (load store path).1 = .ok bytes ∧ Text.decodeUtf8 bytes = .ok decoded ∧
      text = Text.unifyLineEnds decoded := by
  unfold textAt at found
  split at found
  · contradiction
  · next bytes read =>
    split at found
    · contradiction
    · next decoded isText => exact ⟨bytes, decoded, read, isText, (Except.ok.inj found).symm⟩

theorem appliedReadText [LawfulFiles σ] (store : σ) {path : Text} (proper : Path.IsProper path) :
    (Task.readText path : Task (StateM σ) Text).applied store = (textAt store path, store) := by
  rcases loaded : load store path with ⟨result, after⟩
  obtain rfl : after = store := by rw [← LawfulFiles.load store path, loaded]
  have ran : (read path : StateM σ (Except FileError Text.Bytes)).run after = (result, after) :=
    loaded
  unfold Task.applied textAt
  rw [Task.runReadText proper.formed, stateRunBind, ran, loaded]
  cases result with
  | error error => rfl
  | ok bytes =>
    dsimp only
    cases Text.decodeUtf8 bytes <;> rfl

theorem appliedWriteText (store : σ) {path : Text} (proper : Path.IsProper path) (text : Text) :
    (Task.writeText path text : Task (StateM σ) Unit).applied store =
      match save store path (Text.encodeUtf8 text) with
      | (.ok _, changed) => (.ok (), changed)
      | (.error error, changed) => (.error (.unwritable path error), changed) := by
  unfold Task.applied save
  rw [Task.runWriteText proper.formed, stateRunBind]
  generalize (write path _ : StateM σ (Except FileError Unit)).run store = done
  obtain ⟨result, changed⟩ := done
  cases result <;> rfl

end Files

end SicXe
