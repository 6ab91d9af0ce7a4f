import Mathlib.Algebra.Order.Ring.Nat
import Smmboss.Foundation.Tiling

namespace Smmboss.Space

open Tiling

/-! # The memory map of the process

`svcQueryMemory` tells the range an address is in.  The ranges cover all 64-bit
addresses, so that asking for the end of each leads around to the first.
-/

structure MemoryInfo where
  addr : Nat
  size : Nat
  type : Nat
  perm : Nat
deriving DecidableEq

namespace MemoryInfo

/-- `meminfo.addr + meminfo.size` -/
def next (info : MemoryInfo) : Nat := (info.addr + info.size) % 2 ^ 64

end MemoryInfo

instance : Block MemoryInfo where
  start := MemoryInfo.addr
  size := MemoryInfo.size

structure AddressSpace where
  first : MemoryInfo
  others : List MemoryInfo
  /-- `size` has 64 bits as well, so that one range is not enough. -/
  more : others ≠ []
  tiles : Tiles 0 (2 ^ 64) (first :: others)

namespace AddressSpace

variable (space : AddressSpace)

def ranges : List MemoryInfo := space.first :: space.others

def svcQueryMemory (address : Nat) : MemoryInfo := (holder space.ranges address).getD space.first

variable {space} {before after : List MemoryInfo} {info : MemoryInfo} {address : Nat}

theorem svcQueryMemory_eq (split : space.ranges = before ++ info :: after) (has : Has info address) :
    space.svcQueryMemory address = info := by
  have tiles := space.tiles
  rw [show space.first :: space.others = _ from split] at tiles
  rw [svcQueryMemory, split, tiles.holder_eq has, Option.getD_some]

theorem first_addr (space : AddressSpace) : space.first.addr = 0 := space.tiles.1

/-- Asking at zero gives the first range, and so does asking behind the last. -/
theorem svcQueryMemory_zero : space.svcQueryMemory 0 = space.first := by
  have start := space.tiles
  have has : Has space.first 0 := ⟨Nat.le_of_eq start.1, by
    have positive := start.2.1
    rw [stop]
    omega⟩
  exact svcQueryMemory_eq (show space.ranges = [] ++ space.first :: space.others from rfl) has

theorem tiles_after (split : space.ranges = before ++ info :: after) :
    info.addr < 2 ^ 64 ∧ Tiles (info.addr + info.size) (2 ^ 64) after := by
  have tiles := space.tiles
  rw [show space.first :: space.others = _ from split] at tiles
  obtain ⟨middle, _, start, positive, rest⟩ := tiles_append.mp tiles
  have bound := rest.le
  simp only [stop, Block.size, Block.start] at *
  exact ⟨by omega, rest⟩

/-- Asking for the end of a range gives the next one. -/
theorem svcQueryMemory_next {following : MemoryInfo} (split : space.ranges = before ++ info :: following :: after) :
    space.svcQueryMemory info.next = following := by
  obtain ⟨_, start, positive, rest⟩ := tiles_after split
  have bound := rest.le
  have place : info.next = following.addr := by
    simp only [stop, Block.size, Block.start] at *
    rw [MemoryInfo.next, Nat.mod_eq_of_lt (by omega), start]
  have split' : space.ranges = (before ++ [info]) ++ following :: after := by rw [split, List.append_assoc]; rfl
  refine svcQueryMemory_eq split' ⟨Nat.le_of_eq place.symm, ?_⟩
  simp only [stop, Block.size, Block.start] at *
  omega

theorem next_last (split : space.ranges = before ++ [info]) : info.next = 0 := by
  obtain ⟨_, rest⟩ := tiles_after split
  have done : info.addr + info.size = 2 ^ 64 := rest
  rw [MemoryInfo.next, done, Nat.mod_self]

theorem addr_pos (split : space.ranges = before ++ info :: after) (some_ : before ≠ []) : 0 < info.addr := by
  have tiles := space.tiles
  rw [show space.first :: space.others = _ from split] at tiles
  cases before with
  | nil => exact absurd rfl some_
  | cons other before =>
      obtain ⟨_, positive, rest⟩ := tiles
      obtain ⟨above, _⟩ := rest.mem (show info ∈ before ++ info :: after by simp)
      simp only [stop, Block.size, Block.start] at *
      omega

end AddressSpace

end Smmboss.Space
