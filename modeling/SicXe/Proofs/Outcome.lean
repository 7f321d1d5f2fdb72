/-
This file says which value a computation yields, whatever it reports on its way.
-/

import SicXe.Logged

namespace SicXe

variable {ε α β : Type}

theorem bindEqOk {first : Except ε α} {next : α → Except ε β} {value : β} :
    (first >>= next) = .ok value ↔ ∃ found, first = .ok found ∧ next found = .ok value := by
  cases first <;> simp [bind, Except.bind]

/-- An error that is told in another way is still an error. -/
theorem okOfMapError {ε' : Type} {result : Except ε α} {told : ε → ε'} {value : α}
    (mapped : result.mapError told = .ok value) : result = .ok value := by
  cases result with
  | error error => contradiction
  | ok found => rw [Except.ok.inj mapped]

namespace Logged

/-- The value of a computation that does not fail. -/
def value? (computation : Logged ε α) : Option α :=
  computation.result.toOption

theorem valueEqSome {computation : Logged ε α} {value : α} :
    computation.value? = some value ↔ computation.result = .ok value := by
  unfold value?
  cases computation.result <;> simp [Except.toOption]

@[simp] theorem valuePure (value : α) : (pure value : Logged ε α).value? = some value := rfl

@[simp] theorem valueBind (first : Logged ε α) (next : α → Logged ε β) :
    (first >>= next).value? = first.value?.bind fun value => (next value).value? := by
  unfold value?
  rw [resultBind]
  cases first.result <;> rfl

@[simp] theorem valueMap (first : Logged ε α) (convert : α → β) :
    (convert <$> first).value? = first.value?.map convert := by
  rw [map_eq_pure_bind, valueBind]
  cases first.value? <;> rfl

@[simp] theorem valueFail (error : ε) : (fail error : Logged ε α).value? = none := rfl

@[simp] theorem valueReport (event : Event) : (report event : Logged ε Unit).value? = some () := rfl

@[simp] theorem valueReportIf (wanted : Bool) (event : Event) :
    (reportIf wanted event : Logged ε Unit).value? = some () := by
  cases wanted <;> rfl

@[simp] theorem valueOfExcept (result : Except ε α) : (ofExcept result).value? = result.toOption :=
  rfl

@[simp] theorem valueLift (result : Except ε α) :
    (liftM result : Logged ε α).value? = result.toOption := rfl

@[simp] theorem valueLapse (result : Except Lapse α) :
    (liftM result : Logged AssemblyError α).value? = result.toOption := by
  cases result <;> rfl

/-- Steps that never fail make a run that never fails. -/
theorem valueFoldlM {step : α → β → Logged ε α} {next : α → β → α}
    (each : ∀ state item, (step state item).value? = some (next state item)) (state : α)
    (items : List β) : (items.foldlM step state).value? = some (items.foldl next state) := by
  induction items generalizing state with
  | nil => rfl
  | cons item rest inductionHypothesis =>
    rw [List.foldlM_cons, valueBind, each, List.foldl_cons]
    exact inductionHypothesis (next state item)

end Logged

end SicXe
