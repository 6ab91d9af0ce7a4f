import Mathlib.Algebra.Order.Ring.Nat
import Mathlib.Data.List.Basic
import Mathlib.Data.List.Flatten
import Mathlib.Tactic.SplitIfs

namespace Smmboss.Hose

/-! # Packets and their WebSocket frames -/

def sizeMax : Nat := 2 ^ 64 - 1

/-- `__builtin_add_overflow` on `size_t`, saturating as its callers do. -/
def saturatingAdd (left right : Nat) : Nat :=
  if left + right > sizeMax then sizeMax else left + right

/-- The byte ranges that a `write_callback` passes to `write_raw`, in order. -/
abbrev Packet := List (List UInt8)

/-- What `size_calculator` has in `size_` after the callback has run over it. -/
def sizeCalculator (packet : Packet) : Nat :=
  packet.foldl (fun size range => saturatingAdd size range.length) 0

def actualWriter (packet : Packet) : List UInt8 := packet.flatten

def addWsHeaderSize (size : Nat) : Nat :=
  if size < 126 then size + 2
  else if size < 65536 then size + 4
  else if size ≤ sizeMax - 10 then size + 10
  else sizeMax

def binaryFrame : UInt8 := 2 ||| 128

/-- The bytes from `p` up to the pointer `fill_ws_header` returns.  The 64-bit
form is the byte-swapped size stored by a little-endian machine. -/
def fillWsHeader (size : Nat) : List UInt8 :=
  if size < 126 then [binaryFrame, UInt8.ofNat size]
  else if size < 65536 then
    [binaryFrame, 126, UInt8.ofNat (size / 2 ^ 8), UInt8.ofNat size]
  else
    [binaryFrame, 127, UInt8.ofNat (size / 2 ^ 56), UInt8.ofNat (size / 2 ^ 48),
      UInt8.ofNat (size / 2 ^ 40), UInt8.ofNat (size / 2 ^ 32), UInt8.ofNat (size / 2 ^ 24),
      UInt8.ofNat (size / 2 ^ 16), UInt8.ofNat (size / 2 ^ 8), UInt8.ofNat size]

def frame (packet : Packet) : List UInt8 :=
  fillWsHeader (sizeCalculator packet) ++ actualWriter packet

def frames (packets : List Packet) : List UInt8 := packets.flatMap frame

@[simp] theorem frames_nil : frames [] = [] := rfl

@[simp] theorem frames_append (first second : List Packet) :
    frames (first ++ second) = frames first ++ frames second := by
  simp [frames]

@[simp] theorem frames_singleton (packet : Packet) : frames [packet] = frame packet := by
  simp [frames]

theorem saturatingAdd_eq_min (left right : Nat) :
    saturatingAdd left right = min (left + right) sizeMax := by
  unfold saturatingAdd
  split <;> omega

private theorem foldl_saturatingAdd (packet : Packet) (size : Nat) (bound : size ≤ sizeMax) :
    packet.foldl (fun size range => saturatingAdd size range.length) size =
      min (size + packet.flatten.length) sizeMax := by
  induction packet generalizing size with
  | nil => simp [bound]
  | cons range rest ih =>
      have next := saturatingAdd_eq_min size range.length
      rw [List.foldl_cons, ih _ (by omega), List.flatten_cons, List.length_append, next]
      omega

/-- The sizing pass counts the bytes of the writing pass, up to saturation. -/
theorem sizeCalculator_eq (packet : Packet) :
    sizeCalculator packet = min (actualWriter packet).length sizeMax := by
  simpa [sizeCalculator, actualWriter] using foldl_saturatingAdd packet 0 (Nat.zero_le _)

/-- `assert(aw.cur_ptr_ == ptr + size)`: the writing pass ends where the sizing
pass said, unless the size saturated. -/
theorem actualWriter_length {packet : Packet} (below : sizeCalculator packet < sizeMax) :
    (actualWriter packet).length = sizeCalculator packet := by
  have size := sizeCalculator_eq packet
  omega

theorem frame_length_pos (packet : Packet) : 0 < (frame packet).length := by
  rw [frame, List.length_append, fillWsHeader]
  split_ifs <;> simp only [List.length_cons] <;> omega

theorem addWsHeaderSize_eq {size : Nat} (bound : size ≤ sizeMax - 10) :
    addWsHeaderSize size = (fillWsHeader size).length + size := by
  unfold addWsHeaderSize fillWsHeader
  split
  · simp [Nat.add_comm]
  · split
    · simp [Nat.add_comm]
    · simp [Nat.add_comm]

theorem addWsHeaderSize_lt (size : Nat) (below : addWsHeaderSize size < sizeMax) :
    size ≤ sizeMax - 10 := by
  unfold addWsHeaderSize at below
  unfold sizeMax at *
  split_ifs at below <;> omega

/-- A packet that can be reserved at all has a frame of exactly the size the
reservation was made for. -/
theorem frame_length (packet : Packet)
    (below : addWsHeaderSize (sizeCalculator packet) < sizeMax) :
    (frame packet).length = addWsHeaderSize (sizeCalculator packet) := by
  have bound := addWsHeaderSize_lt _ below
  have body : (actualWriter packet).length = sizeCalculator packet :=
    actualWriter_length (by unfold sizeMax at *; omega)
  rw [frame, List.length_append, body, addWsHeaderSize_eq bound]

end Smmboss.Hose
