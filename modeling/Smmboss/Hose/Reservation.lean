import Smmboss.Foundation.Ring
import Smmboss.Hose.Frame

namespace Smmboss.Hose

/-! # Reserving space in the ring buffer

`reserve_space_and_write_header` after its two loads: the size tests, the
wrap and the `write_info` it returns.
-/

def bufSize : Nat := 2 * 1024 * 1024

def overrunPacketSize : Nat := 10

/-- The body that `write_overrun` writes: its 8-byte tag. -/
def overrunPacket : Packet := [[111, 118, 101, 114, 114, 117, 110, 0]]

structure WriteInfo where
  writeOffset : Nat
  wrapOffset : Nat
  justWroteOverrun : Bool
deriving Repr, DecidableEq

def WriteInfo.cursor (info : WriteInfo) : Ring.Cursor := ⟨info.writeOffset, info.wrapOffset⟩

@[simp] theorem WriteInfo.cursor_write (info : WriteInfo) :
    info.cursor.write = info.writeOffset := rfl

@[simp] theorem WriteInfo.cursor_wrap (info : WriteInfo) :
    info.cursor.wrap = info.wrapOffset := rfl

def neededSize (fullSize : Nat) (forOverrun : Bool) : Nat :=
  saturatingAdd fullSize (if forOverrun then 0 else overrunPacketSize)

def sizeSub (left right : Nat) : Nat := (left + 2 ^ 64 - right) % 2 ^ 64

/-- The size tests: the `write_info` at whose offset the header goes, or `none`
where `ok` stays false. -/
def place (readOffset : Nat) (info : WriteInfo) (needed : Nat) : Option WriteInfo :=
  if info.writeOffset < readOffset then
    if needed < readOffset - info.writeOffset then some info else none
  else if needed ≤ sizeSub bufSize info.writeOffset then some info
  else if needed < readOffset then
    some { info with wrapOffset := info.writeOffset, writeOffset := 0 }
  else none

def WriteInfo.advance (info : WriteInfo) (fullSize : Nat) (forOverrun : Bool) : WriteInfo :=
  let writeOffset := (info.writeOffset + fullSize) % 2 ^ 32
  { writeOffset
    wrapOffset := max info.wrapOffset writeOffset % 2 ^ 31
    justWroteOverrun := forOverrun }

structure Reservation where
  header : Nat
  next : WriteInfo
deriving Repr, DecidableEq

def reserveSpaceAndWriteHeader (readOffset : Nat) (info : WriteInfo) (bodySize : Nat)
    (forOverrun : Bool) : Option Reservation :=
  let fullSize := addWsHeaderSize bodySize
  (place readOffset info (neededSize fullSize forOverrun)).map fun placed =>
    { header := placed.writeOffset, next := placed.advance fullSize forOverrun }

/-- The byte stores of one packet in order, each with its offset in `buf_`: the
header at the reserved offset, the body so that it ends at the new one. -/
def Reservation.stores (reservation : Reservation) (packet : Packet) : List (UInt8 × Nat) :=
  let size := sizeCalculator packet
  (fillWsHeader size).zipIdx reservation.header ++
    (actualWriter packet).zipIdx (reservation.next.writeOffset - size)

theorem addWsHeaderSize_overrunPacket :
    addWsHeaderSize (sizeCalculator overrunPacket) = overrunPacketSize := rfl

theorem neededSize_eq {fullSize : Nat} {forOverrun : Bool}
    (below : neededSize fullSize forOverrun < sizeMax) :
    neededSize fullSize forOverrun =
      fullSize + if forOverrun then 0 else overrunPacketSize := by
  unfold neededSize at *
  rw [saturatingAdd_eq_min] at *
  omega

theorem fullSize_le_neededSize {fullSize : Nat} (forOverrun : Bool)
    (bound : fullSize ≤ sizeMax) : fullSize ≤ neededSize fullSize forOverrun := by
  unfold neededSize
  rw [saturatingAdd_eq_min]
  omega

theorem addWsHeaderSize_le (size : Nat) : addWsHeaderSize size ≤ sizeMax := by
  unfold addWsHeaderSize sizeMax
  split_ifs <;> omega

theorem sizeSub_eq {left right : Nat} (ordered : right ≤ left) (bound : left < 2 ^ 64) :
    sizeSub left right = left - right := by
  unfold sizeSub
  omega

/-- What a successful size test has found, in the three places it looks. -/
theorem place_cases {readOffset needed : Nat} {info placed : WriteInfo}
    (bounded : Ring.Bounded bufSize readOffset info.cursor)
    (found : place readOffset info needed = some placed) :
    (readOffset ≤ info.writeOffset ∧ placed = info ∧ info.writeOffset + needed ≤ bufSize) ∨
      (info.writeOffset < readOffset ∧ placed = info ∧
        info.writeOffset + needed < readOffset) ∨
      (readOffset ≤ info.writeOffset ∧ needed < readOffset ∧
        placed = { info with wrapOffset := info.writeOffset, writeOffset := 0 }) := by
  have writeLe := bounded.write_le
  have wrapLe := bounded.wrap_le
  simp only [WriteInfo.cursor_write, WriteInfo.cursor_wrap] at writeLe wrapLe
  have room : sizeSub bufSize info.writeOffset = bufSize - info.writeOffset :=
    sizeSub_eq (by omega) (by decide)
  unfold place at found
  rw [room] at found
  split at found
  · split at found <;> cases found
    exact Or.inr (Or.inl ⟨by omega, rfl, by omega⟩)
  · split at found
    · cases found
      exact Or.inl ⟨by omega, rfl, by omega⟩
    · split at found <;> cases found
      exact Or.inr (Or.inr ⟨by omega, by omega, rfl⟩)

theorem place_le_bufSize {readOffset needed : Nat} {info placed : WriteInfo}
    (bounded : Ring.Bounded bufSize readOffset info.cursor)
    (found : place readOffset info needed = some placed) : needed ≤ bufSize := by
  have readLe := bounded.read_le
  have wrapLe := bounded.wrap_le
  rcases place_cases bounded found with ⟨_, _, _⟩ | ⟨_, _, _⟩ | ⟨_, _, _⟩ <;> omega

/-- A size test that succeeds has found room, in the sense of the ring, for the
frame and for the reserve that is asked for along with it. -/
theorem place_room {readOffset fullSize reserve : Nat} {info placed : WriteInfo}
    (forOverrun : Bool)
    (bounded : Ring.Bounded bufSize readOffset info.cursor)
    (found : place readOffset info (fullSize + reserve) = some placed) :
    Ring.Room bufSize readOffset info.cursor placed.writeOffset fullSize
      (placed.advance fullSize forOverrun).cursor := by
  have small : bufSize < 2 ^ 31 := by decide
  have readLe := bounded.read_le
  have writeLe := bounded.write_le
  have wrapLe := bounded.wrap_le
  simp only [WriteInfo.cursor_write, WriteInfo.cursor_wrap] at readLe writeLe wrapLe
  have exact (placed : WriteInfo) (fits : placed.writeOffset + fullSize ≤ bufSize)
      (wrap : placed.wrapOffset ≤ bufSize) :
      (placed.advance fullSize forOverrun).cursor =
        ⟨placed.writeOffset + fullSize, max placed.wrapOffset (placed.writeOffset + fullSize)⟩ := by
    have low : placed.writeOffset + fullSize < 2 ^ 32 := by omega
    have high : max placed.wrapOffset (placed.writeOffset + fullSize) < 2 ^ 31 := by omega
    simp only [WriteInfo.cursor, WriteInfo.advance, Nat.mod_eq_of_lt low, Nat.mod_eq_of_lt high]
  rcases place_cases bounded found with ⟨linear, rfl, fits⟩ | ⟨lapped, rfl, fits⟩ | ⟨linear, fits, rfl⟩
  · rw [exact placed (by omega) wrapLe]
    exact .behind linear rfl (by simp only [WriteInfo.cursor_write]; omega)
  · rw [exact placed (by omega) wrapLe]
    exact .between lapped rfl (by simp only [WriteInfo.cursor_write]; omega)
  · rw [exact _ (by simp only; omega) (by simp only; omega)]
    simp only [Nat.zero_add]
    exact .restart linear rfl (by omega)

/-- What a successful reservation gives to the rest of `write_packet`. -/
theorem reserve_room {readOffset : Nat} {info : WriteInfo} {packet : Packet}
    {forOverrun : Bool} {reservation : Reservation}
    (bounded : Ring.Bounded bufSize readOffset info.cursor)
    (reserved : reserveSpaceAndWriteHeader readOffset info (sizeCalculator packet) forOverrun =
      some reservation) :
    Ring.Room bufSize readOffset info.cursor reservation.header (frame packet).length
        reservation.next.cursor ∧
      reservation.stores packet = (frame packet).zipIdx reservation.header ∧
      reservation.next.justWroteOverrun = forOverrun := by
  simp only [reserveSpaceAndWriteHeader, Option.map_eq_some_iff] at reserved
  obtain ⟨placed, found, rfl⟩ := reserved
  have needed := place_le_bufSize bounded found
  have small : bufSize < sizeMax := by decide
  have exactNeeded := neededSize_eq (Nat.lt_of_le_of_lt needed small)
  have fullLe := fullSize_le_neededSize forOverrun (addWsHeaderSize_le (sizeCalculator packet))
  have length := frame_length packet (by omega)
  rw [exactNeeded] at found
  have room := place_room forOverrun bounded found
  rw [length]
  refine ⟨room, ?_, rfl⟩
  have sizes := addWsHeaderSize_eq (addWsHeaderSize_lt (sizeCalculator packet) (by omega))
  have ends : placed.writeOffset + addWsHeaderSize (sizeCalculator packet) < 2 ^ 32 := by
    have wide : bufSize < 2 ^ 32 := by decide
    have readLe := bounded.read_le
    have wrapLe := bounded.wrap_le
    simp only [WriteInfo.cursor_wrap] at readLe wrapLe
    rcases place_cases bounded found with ⟨_, rfl, _⟩ | ⟨_, rfl, _⟩ | ⟨_, _, rfl⟩
    · omega
    · omega
    · simp only
      omega
  have body : (placed.writeOffset + addWsHeaderSize (sizeCalculator packet)) % 2 ^ 32 -
      sizeCalculator packet = placed.writeOffset + (fillWsHeader (sizeCalculator packet)).length := by
    rw [Nat.mod_eq_of_lt ends]
    omega
  simp only [Reservation.stores, WriteInfo.advance, body, frame, List.zipIdx_append]

end Smmboss.Hose
