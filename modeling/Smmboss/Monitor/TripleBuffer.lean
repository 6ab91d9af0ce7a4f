import Mathlib.Algebra.Order.Ring.Nat

namespace Smmboss.Monitor

/-! # The triple buffer's two indices -/

/-- The instance behind every numeral of a two-bit slot index. -/
scoped instance slotNeZero : NeZero 4 := ⟨by decide⟩

/-- `atomic_triple_buffer::atomic_state`, without its padding. -/
structure AtomicState where
  inuseBufIdx : Fin 4
  nextBufIdx : Fin 4
deriving Repr, DecidableEq

/-- The slot `prep_write` returns; `none` is a failed assertion. -/
def prepWrite (state : AtomicState) : Option (Fin 4) :=
  if state.inuseBufIdx < 3 ∧ state.nextBufIdx < 3 then
    if state.inuseBufIdx = state.nextBufIdx then some (2 - state.inuseBufIdx)
    else some (0 + 1 + 2 - state.inuseBufIdx - state.nextBufIdx)
  else none

/-- The callback of `post_write`. -/
def postWrite (newBufIdx : Fin 4) (state : AtomicState) : Option AtomicState :=
  if newBufIdx ≠ state.inuseBufIdx ∧ newBufIdx ≠ state.nextBufIdx then
    some { state with nextBufIdx := newBufIdx }
  else none

/-- The callback of `prep_read`. -/
def prepRead (state : AtomicState) : Option AtomicState :=
  some { state with inuseBufIdx := state.nextBufIdx }

structure AtomicState.Valid (state : AtomicState) : Prop where
  inuse : state.inuseBufIdx < 3
  next : state.nextBufIdx < 3

theorem initial_valid : AtomicState.Valid ⟨0, 0⟩ := ⟨by decide, by decide⟩

theorem doubled_valid : AtomicState.Valid ⟨1, 1⟩ := ⟨by decide, by decide⟩

def initialState : { state : AtomicState // state.Valid } := ⟨⟨0, 0⟩, initial_valid⟩

/-- Slot 1 is both in use and next. -/
def doubledState : { state : AtomicState // state.Valid } := ⟨⟨1, 1⟩, doubled_valid⟩

/-- The free slot is free, except where slot 1 is both in use and next. -/
theorem prepWrite_free {state : AtomicState} (valid : state.Valid)
    (apart : ¬ (state.inuseBufIdx = 1 ∧ state.nextBufIdx = 1)) :
    ∃ slot, prepWrite state = some slot ∧ slot < 3 ∧ slot ≠ state.inuseBufIdx ∧
      slot ≠ state.nextBufIdx := by
  obtain ⟨inuse, next⟩ := state
  obtain ⟨inuseLt, nextLt⟩ := valid
  revert inuse next
  decide

theorem prepWrite_lt {state : AtomicState} {slot : Fin 4} (valid : state.Valid)
    (prepared : prepWrite state = some slot) : slot < 3 := by
  obtain ⟨inuse, next⟩ := state
  obtain ⟨inuseLt, nextLt⟩ := valid
  revert inuse next slot
  decide

theorem postWrite_valid {before after : AtomicState} {slot : Fin 4} (valid : before.Valid)
    (small : slot < 3) (posted : postWrite slot before = some after) : after.Valid := by
  unfold postWrite at posted
  split at posted
  · cases posted
    exact ⟨valid.inuse, small⟩
  · cases posted

theorem prepRead_valid {before after : AtomicState} (valid : before.Valid)
    (taken : prepRead before = some after) : after.Valid := by
  cases taken
  exact ⟨valid.next, valid.next⟩

/-- With slot 1 in both places the slot in use is handed out. -/
theorem prepWrite_doubled : prepWrite ⟨1, 1⟩ = some 1 := rfl

end Smmboss.Monitor
