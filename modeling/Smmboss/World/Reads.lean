import Mathlib.Algebra.Order.Ring.Nat
import Mathlib.Tactic.SplitIfs
import Smmboss.Foundation.LittleEndian

namespace Smmboss.World

/-! # What the scripts read of a guest

A byte of the guest's memory is there or cannot be read.  `try_read` gives the
readable bytes in front of the first that is not.
-/

abbrev Memory := Nat → Option UInt8

def tryRead (memory : Memory) (addr : Nat) : Nat → List UInt8
  | 0 => []
  | size + 1 => (memory addr).elim [] fun byte => byte :: tryRead memory (addr + 1) size

/-- `Guest.read`; `none` is its exception. -/
def read (memory : Memory) (addr size : Nat) : Option (List UInt8) :=
  if (tryRead memory addr size).length ≠ size then none else some (tryRead memory addr size)

/-- `as_addr` of an integer. -/
def asAddr (value : Int) : Nat := (value % 2 ^ 64).toNat

/-- `GuestPrimPtr.get` of an unsigned little-endian integer. -/
def readUint (memory : Memory) (addr size : Nat) : Option Nat :=
  (read memory addr size).map LittleEndian.decode

theorem asAddr_lt (value : Int) : asAddr value < 2 ^ 64 := by
  unfold asAddr
  omega

@[simp] theorem asAddr_natCast {value : Nat} (bound : value < 2 ^ 64) : asAddr value = value := by
  unfold asAddr
  omega

section

variable {memory : Memory} {addr size : Nat} {data : List UInt8}

@[simp] theorem read_zero (memory : Memory) (addr : Nat) : read memory addr 0 = some [] := rfl

theorem read_succ (memory : Memory) (addr size : Nat) : read memory addr (size + 1) =
    (memory addr).bind fun byte => (read memory (addr + 1) size).map (byte :: ·) := by
  unfold read
  rw [tryRead]
  cases memory addr with
  | none => rfl
  | some byte =>
      rw [Option.elim_some, Option.bind_some, List.length_cons]
      split_ifs with short rest rest
      · rfl
      · omega
      · omega
      · rfl

theorem read_add (memory : Memory) (addr first rest : Nat) : read memory addr (first + rest) =
    (read memory addr first).bind fun front =>
      (read memory (addr + first) rest).map (front ++ ·) := by
  induction first generalizing addr with
  | zero => simp
  | succ first ih =>
      have place : addr + 1 + first = addr + (first + 1) := by omega
      rw [Nat.add_right_comm, read_succ, read_succ, ih, place]
      cases memory addr with
      | none => rfl
      | some byte =>
          cases read memory (addr + 1) first with
          | none => rfl
          | some front =>
              cases read memory (addr + (first + 1)) rest with
              | none => rfl
              | some back => rfl

theorem read_length (found : read memory addr size = some data) : data.length = size := by
  unfold read at found
  split_ifs at found with complete
  cases found
  exact not_not.mp complete

theorem read_getElem? (found : read memory addr size = some data) {place : Nat}
    (inside : place < size) : data[place]? = memory (addr + place) := by
  induction size generalizing addr data place with
  | zero => omega
  | succ size ih =>
      rw [read_succ] at found
      obtain ⟨byte, first, found⟩ := Option.bind_eq_some_iff.mp found
      obtain ⟨rest, others, rfl⟩ := Option.map_eq_some_iff.mp found
      cases place with
      | zero => exact first.symm
      | succ place =>
          have tail : rest[place]? = memory (addr + 1 + place) := ih others (by omega)
          rw [List.getElem?_cons_succ, tail, Nat.add_assoc, Nat.add_comm 1 place]

theorem read_take (found : read memory addr size = some data) {front : Nat} (within : front ≤ size) :
    read memory addr front = some (data.take front) := by
  obtain ⟨rest, rfl⟩ := Nat.exists_eq_add_of_le within
  rw [read_add] at found
  obtain ⟨first, start, found⟩ := Option.bind_eq_some_iff.mp found
  obtain ⟨others, -, rfl⟩ := Option.map_eq_some_iff.mp found
  rw [start, List.take_left' (read_length start)]

theorem read_drop (found : read memory addr size = some data) {front : Nat} (within : front ≤ size) :
    read memory (addr + front) (size - front) = some (data.drop front) := by
  obtain ⟨rest, rfl⟩ := Nat.exists_eq_add_of_le within
  rw [read_add] at found
  obtain ⟨first, start, found⟩ := Option.bind_eq_some_iff.mp found
  obtain ⟨others, tail, rfl⟩ := Option.map_eq_some_iff.mp found
  rw [Nat.add_sub_cancel_left, tail, List.drop_left' (read_length start)]

/-- A read succeeds exactly where every byte can be read. -/
theorem read_isSome_iff :
    (read memory addr size).isSome ↔ ∀ place < size, (memory (addr + place)).isSome := by
  induction size generalizing addr with
  | zero => simp
  | succ size ih =>
      have rest := @ih (addr + 1)
      rw [read_succ]
      constructor
      · intro found place inside
        obtain ⟨data, found⟩ := Option.isSome_iff_exists.mp found
        obtain ⟨byte, first, found⟩ := Option.bind_eq_some_iff.mp found
        obtain ⟨tail, others, rfl⟩ := Option.map_eq_some_iff.mp found
        cases place with
        | zero => rw [Nat.add_zero, first]; rfl
        | succ place =>
            have later := rest.mp (by rw [others]; rfl) place (by omega)
            rwa [Nat.add_right_comm, Nat.add_assoc] at later
      · intro every
        obtain ⟨byte, first⟩ := Option.isSome_iff_exists.mp (every 0 (by omega))
        have others : (read memory (addr + 1) size).isSome := by
          apply rest.mpr
          intro place inside
          have later := every (place + 1) (by omega)
          rwa [Nat.add_right_comm, Nat.add_assoc]
        obtain ⟨tail, others⟩ := Option.isSome_iff_exists.mp others
        rw [Nat.add_zero] at first
        rw [first, others]
        rfl

end

end Smmboss.World
