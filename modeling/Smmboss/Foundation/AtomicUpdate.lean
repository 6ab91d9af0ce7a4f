import Mathlib.Data.List.Basic

namespace Smmboss.AtomicUpdate

/-! # Compare-and-exchange loops

`atomic_update` loads a cell and then tries to exchange what it loaded for what
its callback makes of it, until an exchange succeeds.  An exchange may fail
although the cell still holds the expected value.
-/

/-- The outcome of one round.  `none` from the callback is a failed assertion. -/
inductive Outcome (α : Type u) where
  | stored (desired : α)
  | retry (expected : α)
  | failed
deriving DecidableEq

variable {α : Type u} [DecidableEq α]

def attempt (callback : α → Option α) (cell expected : α) (spurious : Bool) : Outcome α :=
  match callback expected with
  | none => .failed
  | some desired => if cell = expected ∧ spurious = false then .stored desired else .retry cell

/-- What a round stores is what the callback makes of the cell at that moment:
an old expected value does not get through. -/
theorem attempt_stored {callback : α → Option α} {cell expected desired : α} {spurious : Bool}
    (stored : attempt callback cell expected spurious = .stored desired) :
    callback cell = some desired ∧ expected = cell := by
  rw [attempt] at stored
  cases made : callback expected with
  | none =>
      rw [made] at stored
      contradiction
  | some value =>
      rw [made] at stored
      by_cases same : cell = expected ∧ spurious = false
      · simp only [same, and_self, if_pos, Outcome.stored.injEq] at stored
        exact ⟨by rw [same.1, made, stored], same.1.symm⟩
      · simp [same] at stored

theorem attempt_failed {callback : α → Option α} {cell expected : α} {spurious : Bool}
    (failed : attempt callback cell expected spurious = .failed) : callback expected = none := by
  rw [attempt] at failed
  cases made : callback expected with
  | none => rfl
  | some value =>
      rw [made] at failed
      by_cases same : cell = expected ∧ spurious = false <;> simp [same] at failed

/-- A round that fails goes on with the value the cell holds now. -/
theorem attempt_retry {callback : α → Option α} {cell expected next : α} {spurious : Bool}
    (retried : attempt callback cell expected spurious = .retry next) : next = cell := by
  rw [attempt] at retried
  cases made : callback expected with
  | none =>
      rw [made] at retried
      contradiction
  | some value =>
      rw [made] at retried
      by_cases same : cell = expected ∧ spurious = false
      · simp [same] at retried
      · simp only [same, if_false, Outcome.retry.injEq] at retried
        exact retried.symm

end Smmboss.AtomicUpdate
