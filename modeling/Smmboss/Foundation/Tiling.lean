import Mathlib.Data.List.Basic

namespace Smmboss.Tiling

/-! # Blocks laid end to end

Blocks that follow one another between two ends, and the block that has an address.
-/

/-- What has a place among the addresses. -/
class Block (α : Type) where
  start : α → Nat
  size : α → Nat

variable {α : Type} [Block α]

def stop (block : α) : Nat := Block.start block + Block.size block

/-- The block has the address. -/
def Has (block : α) (address : Nat) : Prop := Block.start block ≤ address ∧ address < stop block

instance (block : α) (address : Nat) : Decidable (Has block address) := inferInstanceAs (Decidable (_ ∧ _))

def Tiles : Nat → Nat → List α → Prop
  | low, high, [] => low = high
  | low, high, block :: blocks => Block.start block = low ∧ 0 < Block.size block ∧ Tiles (stop block) high blocks

instance : (low high : Nat) → (blocks : List α) → Decidable (Tiles low high blocks)
  | low, high, [] => inferInstanceAs (Decidable (low = high))
  | _, high, block :: blocks =>
      have := instDecidableTiles (stop block) high blocks
      inferInstanceAs (Decidable (_ ∧ _ ∧ _))

/-- The block an address is in. -/
def holder (blocks : List α) (address : Nat) : Option α := blocks.find? fun block => decide (Has block address)

variable {low middle high address : Nat} {block : α} {blocks before after : List α}

theorem Tiles.le (tiles : Tiles low high blocks) : low ≤ high := by
  induction blocks generalizing low with
  | nil => exact Nat.le_of_eq tiles
  | cons block blocks ih =>
      obtain ⟨first, _, rest⟩ := tiles
      have later := ih rest
      rw [stop] at later
      omega

theorem tiles_append : Tiles low high (before ++ after) ↔
    ∃ middle, Tiles low middle before ∧ Tiles middle high after := by
  induction before generalizing low with
  | nil => simp [Tiles]
  | cons block before ih => simp only [List.cons_append, Tiles, ih, exists_and_left, and_assoc]

/-- Blocks are where they are laid. -/
theorem Tiles.mem (tiles : Tiles low high blocks) (member : block ∈ blocks) :
    low ≤ Block.start block ∧ 0 < Block.size block ∧ stop block ≤ high := by
  induction blocks generalizing low with
  | nil => simp at member
  | cons first blocks ih =>
      obtain ⟨start, positive, rest⟩ := tiles
      rcases List.mem_cons.mp member with rfl | later
      · exact ⟨Nat.le_of_eq start.symm, positive, rest.le⟩
      · obtain ⟨above, some_, below⟩ := ih rest later
        rw [stop] at above
        exact ⟨by omega, some_, below⟩

theorem Tiles.not_has (tiles : Tiles low high blocks) (outside : address < low ∨ high ≤ address)
    (member : block ∈ blocks) : ¬ Has block address := by
  obtain ⟨above, _, below⟩ := tiles.mem member
  rintro ⟨from_, to_⟩
  omega

theorem Tiles.holder_eq (tiles : Tiles low high (before ++ block :: after)) (has : Has block address) :
    holder (before ++ block :: after) address = some block := by
  obtain ⟨middle, front, start, _⟩ := tiles_append.mp tiles
  have missed : before.find? (fun block => decide (Has block address)) = none := by
    rw [List.find?_eq_none]
    intro other member
    have elsewhere : ¬ Has other address := front.not_has (.inr (start ▸ has.1)) member
    simpa using elsewhere
  rw [holder, List.find?_append, missed, Option.none_or]
  exact List.find?_cons_of_pos (decide_eq_true has)

end Smmboss.Tiling
