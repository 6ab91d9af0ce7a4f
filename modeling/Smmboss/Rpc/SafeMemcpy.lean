import Smmboss.Foundation.Prefix
import Smmboss.Guest.Lookup
import Smmboss.Guest.Memory
import Smmboss.Rpc.Connection

namespace Smmboss.Rpc

open IoBuf (Stored)
open Smmboss.Guest (GuestMemory MemoryMap MemRegions add64)
open Smmboss.Prefix (LongestPrefix)

/-! # `safe_memcpy`

The loop copies between the guest's memory, the send buffer and a request, which
lie apart from each other.  A checked pointer is one into the guest's memory.
-/

structure World where
  memory : GuestMemory
  regions : MemRegions
  send : IoBuf

inductive Pointer where
  | guest (addr : Nat)
  | send (offset : Nat)
  | request (bytes : List UInt8)

def Pointer.advance : Pointer → Nat → Pointer
  | .guest addr, count => .guest (add64 addr count)
  | .send offset, count => .send (offset + count)
  | .request bytes, count => .request (bytes.drop count)

namespace World

def load (world : World) (count : Nat) : Pointer → Option (List UInt8)
  | .guest addr => some (world.memory.read addr count)
  | .send offset => world.send.load offset count
  | .request bytes => if count ≤ bytes.length then some (bytes.take count) else none

def store (world : World) (bytes : List UInt8) : Pointer → Option World
  | .guest addr => some { world with memory := world.memory.write addr bytes }
  | .send offset => (world.send.store offset bytes).map fun send => { world with send }
  | .request _ => none

def memcpy (world : World) (dst src : Pointer) (count : Nat) : Option World :=
  (world.load count src).bind fun bytes => world.store bytes dst

def accessibleBytesAt (map : MemoryMap) (world : World) (wantWrite : Bool) :
    Pointer → Option (Nat × World)
  | .guest addr =>
      (map.accessibleBytesAt world.regions addr wantWrite).map fun answer =>
        (answer.1, { world with regions := answer.2 })
  | .send _ | .request _ => none

/-- `cur_size` of one round; the check of the source starts from `size` again. -/
def curSize (map : MemoryMap) (world : World) (dst : Pointer) (checkDst : Bool) (src : Pointer)
    (checkSrc : Bool) (size : Nat) : Option (Nat × World) :=
  (if checkDst then
      (world.accessibleBytesAt map true dst).map fun answer => (min size answer.1, answer.2)
    else some (size, world)).bind fun current =>
  if checkSrc then
    (current.2.accessibleBytesAt map false src).map fun answer => (min size answer.1, answer.2)
  else some current

end World

/-- The loop of `safe_memcpy`; it ends with the size that is left. -/
def copyLoop (map : MemoryMap) (world : World) (dst : Pointer) (checkDst : Bool) (src : Pointer)
    (checkSrc : Bool) (size : Nat) : Option (Nat × World) :=
  if size = 0 then some (size, world)
  else
    match world.curSize map dst checkDst src checkSrc size with
    | none => none
    | some (current, world) =>
        if current = 0 then some (size, world)
        else
          match world.memcpy dst src current with
          | none => none
          | some world =>
              copyLoop map world (dst.advance current) checkDst (src.advance current) checkSrc
                (size - current)
termination_by size

def safeMemcpy (map : MemoryMap) (world : World) (dst : Pointer) (checkDst : Bool) (src : Pointer)
    (checkSrc : Bool) (size : Nat) : Option (Nat × World) :=
  (copyLoop map world dst checkDst src checkSrc size).map fun left => (size - left.1, left.2)

/-! ## Reading into the send buffer -/

section Read

variable {map : MemoryMap} {world : World} {addr offset size : Nat}

theorem copyLoop_zero {dst src : Pointer} {checkDst checkSrc : Bool} :
    copyLoop map world dst checkDst src checkSrc 0 = some (0, world) := by
  rw [copyLoop]
  simp

theorem curSize_read {bytes : Nat} {regions : MemRegions}
    (called : map.accessibleBytesAt world.regions addr false = some (bytes, regions)) :
    world.curSize map (.send offset) false (.guest addr) true size =
      some (min size bytes, { world with regions }) := by
  simp [World.curSize, World.accessibleBytesAt, called]

theorem curSize_write {bytes : Nat} {regions : MemRegions} {data : List UInt8}
    (called : map.accessibleBytesAt world.regions addr true = some (bytes, regions)) :
    world.curSize map (.guest addr) true (.request data) false size =
      some (min size bytes, { world with regions }) := by
  simp [World.curSize, World.accessibleBytesAt, called]

/-- Copying from the guest reads the longest readable prefix. -/
theorem copyLoop_read (reached : map.Reached world.regions) (bound : addr < 2 ^ 64)
    (room : offset + size ≤ world.send.size) :
    ∃ count after, copyLoop map world (.send offset) false (.guest addr) true size =
        some (size - count, after) ∧
      LongestPrefix (fun place => map.Allows (addr + place) false) size count ∧
      after.memory = world.memory ∧ map.Reached after.regions ∧
      after.send.size = world.send.size ∧
      Stored world.send after.send offset (world.memory.read addr count) := by
  induction size using Nat.strongRecOn generalizing world addr offset with
  | ind size ih =>
      rcases Nat.eq_zero_or_pos size with rfl | positive
      · exact ⟨0, world, copyLoop_zero, ⟨Nat.le_refl 0, by simp, by simp⟩, rfl, reached, rfl,
          Stored.none _ _⟩
      obtain ⟨bytes, regions, called, reachedNext, below, chunk, denied⟩ :=
        MemoryMap.accessibleBytesAt_chunk reached bound false
      rw [copyLoop, if_neg (by omega), curSize_read called]
      simp only
      split_ifs with stopped
      · refine ⟨0, _, rfl, .empty ?_, rfl, reachedNext, rfl, Stored.none _ _⟩
        exact denied (by omega)
      · have bytesLength : (world.memory.read addr (min size bytes)).length = min size bytes := by
          simp
        obtain ⟨send, done, stored, same⟩ := @IoBuf.store_exists world.send offset
          (world.memory.read addr (min size bytes)) (by rw [bytesLength]; omega)
        have copied : ({ world with regions } : World).memcpy (.send offset) (.guest addr)
            (min size bytes) = some { world with regions, send } := by
          simp [World.memcpy, World.load, World.store, done]
        have next : add64 addr (min size bytes) = addr + min size bytes := by
          unfold add64
          omega
        obtain ⟨count, after, rest, longest, memory, reachedEnd, sizeAfter, storedRest⟩ :=
          @ih (size - min size bytes) (by omega) { world with regions, send }
            (addr + min size bytes) (offset + min size bytes)
            reachedNext (by omega) (by simp only [same]; omega)
        rw [copied]
        simp only [Pointer.advance, next, rest]
        refine ⟨min size bytes + count, after, ?_, .append ?_ (by omega) ?_, memory, reachedEnd,
          sizeAfter.trans same, ?_⟩
        · have within := longest.within
          congr 2
          omega
        · intro place inside
          exact chunk place (by omega)
        · simpa only [Nat.add_assoc] using longest
        · rw [GuestMemory.read_add]
          apply stored.append (by omega)
          rwa [bytesLength]

theorem safeMemcpy_read (reached : map.Reached world.regions) (bound : addr < 2 ^ 64)
    (room : offset + size ≤ world.send.size) :
    ∃ count after, safeMemcpy map world (.send offset) false (.guest addr) true size =
        some (count, after) ∧
      LongestPrefix (fun place => map.Allows (addr + place) false) size count ∧
      after.memory = world.memory ∧ map.Reached after.regions ∧
      after.send.size = world.send.size ∧
      Stored world.send after.send offset (world.memory.read addr count) := by
  obtain ⟨count, after, copied, longest, rest⟩ := copyLoop_read reached bound room
  refine ⟨count, after, ?_, longest, rest⟩
  have within := longest.within
  rw [safeMemcpy, copied, Option.map_some, Nat.sub_sub_self within]

end Read

/-! ## Writing a request's data -/

/-- Copying to the guest writes the longest writable prefix of the data. -/
theorem copyLoop_write {map : MemoryMap} {world : World} {addr : Nat} {data : List UInt8}
    (reached : map.Reached world.regions) (bound : addr < 2 ^ 64) :
    ∃ count after, copyLoop map world (.guest addr) true (.request data) false data.length =
        some (data.length - count, after) ∧
      LongestPrefix (fun place => map.Allows (addr + place) true) data.length count ∧
      after.memory = world.memory.write addr (data.take count) ∧
      map.Reached after.regions ∧ after.send = world.send := by
  induction length : data.length using Nat.strongRecOn generalizing world addr data with
  | ind size ih =>
      rcases Nat.eq_zero_or_pos size with rfl | positive
      · refine ⟨0, world, ?_, ⟨by omega, by simp, by simp⟩, ?_, reached, rfl⟩
        · exact copyLoop_zero
        · funext other
          simp [GuestMemory.write]
      obtain ⟨bytes, regions, called, reachedNext, below, chunk, denied⟩ :=
        MemoryMap.accessibleBytesAt_chunk reached bound true
      rw [copyLoop, if_neg (by omega), curSize_write called]
      simp only
      split_ifs with stopped
      · refine ⟨0, _, rfl, .empty (denied (by omega)), ?_, reachedNext, rfl⟩
        funext other
        simp [GuestMemory.write]
      · have copied : ({ world with regions } : World).memcpy (.guest addr) (.request data)
            (min size bytes) = some { world with
              regions, memory := world.memory.write addr (data.take (min size bytes)) } := by
          have enough : min size bytes ≤ data.length := by omega
          simp only [World.memcpy, World.load, if_pos enough, Option.bind_some, World.store]
        have next : add64 addr (min size bytes) = addr + min size bytes := by
          unfold add64
          omega
        have left : (data.drop (min size bytes)).length = size - min size bytes := by
          rw [List.length_drop, length]
        obtain ⟨count, after, rest, longest, memory, reachedEnd, send⟩ :=
          @ih (size - min size bytes) (by omega)
            { world with regions, memory := world.memory.write addr (data.take (min size bytes)) }
            (addr + min size bytes) (data.drop (min size bytes)) reachedNext (by omega) left
        rw [copied]
        simp only [Pointer.advance, next, rest]
        refine ⟨min size bytes + count, after, ?_, .append ?_ (by omega) ?_, ?_, reachedEnd, send⟩
        · have within := longest.within
          congr 2
          omega
        · intro place inside
          exact chunk place (by omega)
        · simpa only [Nat.add_assoc] using longest
        · have chunkLength : (data.take (min size bytes)).length = min size bytes := by
            rw [List.length_take, length]
            omega
          have joined := world.memory.write_append addr (data.take (min size bytes))
            ((data.drop (min size bytes)).take count)
          rw [chunkLength, ← List.take_add] at joined
          exact memory.trans joined

theorem safeMemcpy_write {map : MemoryMap} {world : World} {addr : Nat} {data : List UInt8}
    (reached : map.Reached world.regions) (bound : addr < 2 ^ 64) :
    ∃ count after, safeMemcpy map world (.guest addr) true (.request data) false data.length =
        some (count, after) ∧
      LongestPrefix (fun place => map.Allows (addr + place) true) data.length count ∧
      after.memory = world.memory.write addr (data.take count) ∧
      map.Reached after.regions ∧ after.send = world.send := by
  obtain ⟨count, after, copied, longest, rest⟩ := copyLoop_write reached bound
  refine ⟨count, after, ?_, longest, rest⟩
  have within := longest.within
  rw [safeMemcpy, copied, Option.map_some, Nat.sub_sub_self within]

end Smmboss.Rpc
