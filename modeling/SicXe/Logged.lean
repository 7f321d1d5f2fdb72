/-
This file holds computations that report events and may fail; a failure keeps the events
reported before it.
-/

import SicXe.Event

namespace SicXe

structure Logged (ε α : Type) where
  events : List Event
  result : Except ε α

namespace Logged

variable {ε α β : Type}

protected def pure (value : α) : Logged ε α :=
  ⟨[], .ok value⟩

protected def bind (first : Logged ε α) (next : α → Logged ε β) : Logged ε β :=
  match first.result with
  | .ok value =>
    let second := next value
    ⟨first.events ++ second.events, second.result⟩
  | .error error => ⟨first.events, .error error⟩

instance : Monad (Logged ε) where
  pure := Logged.pure
  bind := Logged.bind

def fail (error : ε) : Logged ε α :=
  ⟨[], .error error⟩

def report (event : Event) : Logged ε Unit :=
  ⟨[event], .ok ()⟩

/-- The event is reported only if it is asked for. -/
def reportIf (wanted : Bool) (event : Event) : Logged ε Unit :=
  if wanted then report event else pure ()

def ofExcept (result : Except ε α) : Logged ε α :=
  ⟨[], result⟩

instance : MonadLift (Except ε) (Logged ε) := ⟨ofExcept⟩

def mapError {δ : Type} (convert : ε → δ) (computation : Logged ε α) : Logged δ α :=
  ⟨computation.events, computation.result.mapError convert⟩

theorem resultPure (value : α) : (pure value : Logged ε α).result = .ok value := rfl

theorem eventsPure (value : α) : (pure value : Logged ε α).events = [] := rfl

theorem resultBind (first : Logged ε α) (next : α → Logged ε β) :
    (first >>= next).result = first.result >>= fun value => (next value).result := by
  change (Logged.bind first next).result = _
  unfold Logged.bind
  cases first.result <;> rfl

theorem eventsBind (first : Logged ε α) (next : α → Logged ε β) :
    (first >>= next).events =
      first.events ++ match first.result with
        | .ok value => (next value).events
        | .error _ => [] := by
  change (Logged.bind first next).events = _
  unfold Logged.bind
  cases first.result <;> simp

instance : LawfulMonad (Logged ε) := LawfulMonad.mk' (Logged ε)
  (by
    intro α computation
    change Logged.bind computation Logged.pure = computation
    obtain ⟨events, result⟩ := computation
    cases result <;> simp [Logged.bind, Logged.pure])
  (by
    intro α β value next
    change Logged.bind (Logged.pure value) next = next value
    simp [Logged.bind, Logged.pure])
  (by
    intro α β γ first second third
    change Logged.bind (Logged.bind first second) third =
      Logged.bind first fun value => Logged.bind (second value) third
    obtain ⟨events, result⟩ := first
    cases result with
    | error error => rfl
    | ok value =>
      simp only [Logged.bind]
      cases (second value).result <;> simp)

end Logged

end SicXe
