/-
This file holds tasks: computations that use files, report events and may fail.
-/

import SicXe.Failure
import SicXe.Files.Path
import SicXe.Text.Lines

namespace SicXe

def Task (m : Type → Type) (α : Type) : Type :=
  m (Logged Failure α)

namespace Task

variable {m : Type → Type} [Monad m] {α β : Type}

protected def pure (value : α) : Task m α :=
  (pure (pure value) : m (Logged Failure α))

/-- A failure ends the task and keeps the events reported before it. -/
protected def bind (first : Task m α) (next : α → Task m β) : Task m β :=
  show m (Logged Failure β) from do
    let outcome ← (first : m (Logged Failure α))
    match outcome.result with
    | .error error => return ⟨outcome.events, .error error⟩
    | .ok value =>
      let later ← (next value : m (Logged Failure β))
      return ⟨outcome.events ++ later.events, later.result⟩

instance : Monad (Task m) where
  pure := Task.pure
  bind := Task.bind

/-- The outcome of a task, with its events. -/
def run (task : Task m α) : m (Logged Failure α) := task

def ofLogged (outcome : Logged Failure α) : Task m α :=
  (pure outcome : m (Logged Failure α))

instance : MonadLift (Logged Failure) (Task m) := ⟨ofLogged⟩

def report (event : Event) : Task m Unit :=
  ofLogged (Logged.report event)

def reportIf (wanted : Bool) (event : Event) : Task m Unit :=
  ofLogged (Logged.reportIf wanted event)

variable [Files m]

/-- A text file holds UTF-8, and its line ends are made alike. -/
def readText (path : Text) : Task m Text :=
  show m (Logged Failure Text) from
    if Path.isWellFormed path then do
      match ← Files.read path with
      | .error error => return Logged.fail (.unreadable path error)
      | .ok bytes =>
        match Text.decodeUtf8 bytes with
        | .error fault => return Logged.fail (.undecodable fault)
        | .ok text => return pure (Text.unifyLineEnds text)
    else return Logged.fail .malformedPath

def writeText (path text : Text) : Task m Unit :=
  show m (Logged Failure Unit) from
    if Path.isWellFormed path then do
      match ← Files.write path (Text.encodeUtf8 text) with
      | .error error => return Logged.fail (.unwritable path error)
      | .ok _ => return pure ()
    else return Logged.fail .malformedPath

end Task

end SicXe
