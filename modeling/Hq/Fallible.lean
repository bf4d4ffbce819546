/-
Pure computations that may fail.  A computation that succeeds is taken apart
into the parts that succeeded.
-/
import Mathlib

namespace Hq

variable {R α β : Type}

theorem bind_eq_ok {first : Except R α} {next : α → Except R β} {value : β} :
    (first >>= next) = .ok value ↔
      ∃ result, first = .ok result ∧ next result = .ok value := by
  cases first <;> simp [bind, Except.bind]

theorem unit_bind_eq_ok {first : Except R Unit} {next : Unit → Except R β}
    {value : β} :
    (first >>= next) = .ok value ↔ first = .ok () ∧ next () = .ok value := by
  cases first <;> simp [bind, Except.bind]

/-- Two continuations that agree on the result of a check agree after it. -/
theorem bind_congr_ok {first : Except R α} {left right : α → Except R β}
    (h : ∀ value, first = .ok value → left value = right value) :
    (first >>= left) = (first >>= right) := by
  cases first with
  | error reason => rfl
  | ok value => exact h value rfl

/-- Succeed when a test holds and fail with a reason otherwise. -/
def require {R : Type} (condition : Bool) (reason : R) : Except R Unit :=
  if condition then .ok () else .error reason

@[simp] theorem require_eq_ok {condition : Bool} {reason : R} {value : Unit} :
    require condition reason = .ok value ↔ condition = true := by
  cases condition <;> simp [require]

@[simp] theorem require_bind_eq_ok {β : Type} {condition : Bool} {reason : R}
    {next : Unit → Except R β} {value : β} :
    (require condition reason >>= next) = .ok value ↔
      condition = true ∧ next () = .ok value := by
  cases condition <;> simp [require, bind, Except.bind]

end Hq
