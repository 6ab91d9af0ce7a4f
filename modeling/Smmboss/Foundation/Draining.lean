import Mathlib.Data.List.Basic

namespace Smmboss.Draining

/-! # Draining a buffer that fills in pieces

A reader takes whole units off the front of a buffer until none is left.
-/

variable {State α Out : Type}

/-- One unit: the new state, what is left of the buffer, and the output. -/
abbrev Take (State α Out : Type) := State → List α → Option (State × List α × List Out)

/-- What is left is shorter. -/
def Sound (take : Take State α Out) : Prop :=
  ∀ ⦃state buf next rest out⦄, take state buf = some (next, rest, out) → rest.length < buf.length

def drainLoop (take : Take State α Out) : Nat → State → List α → State × List α × List Out
  | 0, state, buf => (state, buf, [])
  | fuel + 1, state, buf =>
      match take state buf with
      | none => (state, buf, [])
      | some (next, rest, out) =>
          let (last, left, later) := drainLoop take fuel next rest
          (last, left, out ++ later)

def drain (take : Take State α Out) (state : State) (buf : List α) : State × List α × List Out :=
  drainLoop take buf.length state buf

variable {take : Take State α Out} {state next : State} {buf rest : List α} {out : List Out}

/-- As many turns as there is buffer are enough. -/
theorem drainLoop_fuel (sound : Sound take) {fuel : Nat} (enough : buf.length ≤ fuel) :
    drainLoop take fuel state buf = drain take state buf := by
  induction fuel using Nat.strongRecOn generalizing state buf with
  | ind fuel ih =>
      cases fuel with
      | zero => rw [drain, Nat.le_zero.mp enough]
      | succ fuel =>
          cases taken : take state buf with
          | none =>
              rw [drain, drainLoop, taken]
              cases buf.length with
              | zero => rfl
              | succ length => rw [drainLoop, taken]
          | some result =>
              obtain ⟨next, rest, out⟩ := result
              have shorter := sound taken
              rw [drain, drainLoop, taken]
              cases size : buf.length with
              | zero => omega
              | succ length =>
                  rw [drainLoop, taken]
                  simp only
                  rw [ih fuel (Nat.lt_succ_self _) (by omega), ih length (by omega) (by omega)]

theorem drain_none (nothing : take state buf = none) : drain take state buf = (state, buf, []) := by
  unfold drain
  cases buf.length with
  | zero => rfl
  | succ length => rw [drainLoop, nothing]

theorem drain_some (sound : Sound take) (taken : take state buf = some (next, rest, out)) :
    drain take state buf =
      ((drain take next rest).1, (drain take next rest).2.1, out ++ (drain take next rest).2.2) := by
  have shorter := sound taken
  cases size : buf.length with
  | zero => omega
  | succ length =>
      have enough : rest.length ≤ length := by omega
      rw [← drainLoop_fuel sound enough, drain, size, drainLoop, taken]

end Smmboss.Draining
