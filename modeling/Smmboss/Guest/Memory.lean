import Mathlib.Data.List.Basic

namespace Smmboss.Guest

/-! # The guest's memory -/

abbrev GuestMemory := Nat → UInt8

def GuestMemory.read (memory : GuestMemory) (addr count : Nat) : List UInt8 :=
  (List.range count).map fun offset => memory (addr + offset)

def GuestMemory.write (memory : GuestMemory) (addr : Nat) (bytes : List UInt8) : GuestMemory :=
  fun other => if addr ≤ other then (bytes[other - addr]?).getD (memory other) else memory other

namespace GuestMemory

variable (memory : GuestMemory) (addr first second : Nat)

@[simp] theorem length_read : (memory.read addr first).length = first := by
  simp [read]

theorem read_add : memory.read addr (first + second) =
    memory.read addr first ++ memory.read (addr + first) second := by
  simp only [read, List.range_add, List.map_append, List.map_map]
  congr 1
  apply List.map_congr_left
  intro offset _
  simp only [Function.comp_apply, Nat.add_assoc]

@[simp] theorem read_zero : memory.read addr 0 = [] := rfl

theorem take_read (count size : Nat) :
    (memory.read addr size).take count = memory.read addr (min count size) := by
  rcases Nat.le_total count size with within | beyond
  · obtain ⟨rest, rfl⟩ := Nat.exists_eq_add_of_le within
    rw [memory.read_add, List.take_left' (memory.length_read addr count), Nat.min_eq_left within]
  · rw [Nat.min_eq_right beyond, List.take_of_length_le (by simpa using beyond)]

theorem drop_read (count size : Nat) :
    (memory.read addr size).drop count = memory.read (addr + count) (size - count) := by
  rcases Nat.le_total count size with within | beyond
  · obtain ⟨rest, rfl⟩ := Nat.exists_eq_add_of_le within
    rw [memory.read_add, List.drop_left' (memory.length_read addr count), Nat.add_sub_cancel_left]
  · rw [List.drop_of_length_le (by simpa using beyond), Nat.sub_eq_zero_of_le beyond, read_zero]

theorem read_inj {left right : Nat} (same : memory.read addr left = memory.read addr right) :
    left = right := by
  simpa using congrArg List.length same

theorem write_append (bytes more : List UInt8) :
    (memory.write addr bytes).write (addr + bytes.length) more = memory.write addr (bytes ++ more) := by
  funext other
  unfold write
  by_cases below : addr ≤ other
  · by_cases beyond : addr + bytes.length ≤ other
    · have offset : other - (addr + bytes.length) = other - addr - bytes.length := by omega
      have outside : bytes[other - addr]? = none := List.getElem?_eq_none (by omega)
      rw [if_pos beyond, if_pos below, if_pos below, List.getElem?_append_right (by omega), offset,
        outside, Option.getD_none]
    · rw [if_neg beyond, if_pos below, if_pos below, List.getElem?_append_left (by omega)]
  · rw [if_neg below, if_neg (by omega), if_neg below]

section

variable {addr start count : Nat} {data : List UInt8}

theorem read_congr {first second : GuestMemory}
    (same : ∀ offset < count, first (addr + offset) = second (addr + offset)) :
    first.read addr count = second.read addr count := by
  apply List.map_congr_left
  intro offset member
  exact same offset (List.mem_range.mp member)

theorem read_apply {first second : GuestMemory} (same : first.read addr count = second.read addr count)
    {offset : Nat} (inside : offset < count) : first (addr + offset) = second (addr + offset) :=
  List.map_inj_left.mp same offset (List.mem_range.mpr inside)

theorem write_before (before : start < addr) : memory.write addr data start = memory start :=
  if_neg (Nat.not_le_of_lt before)

theorem write_after (after : addr + data.length ≤ start) :
    memory.write addr data start = memory start := by
  rw [write, if_pos (by omega), List.getElem?_eq_none (by omega), Option.getD_none]

theorem write_inside {offset : Nat} (inside : offset < data.length) :
    memory.write addr data (addr + offset) = data[offset] := by
  rw [write, if_pos (Nat.le_add_right _ _), Nat.add_sub_cancel_left,
    List.getElem?_eq_getElem inside, Option.getD_some]

end

end GuestMemory

end Smmboss.Guest
