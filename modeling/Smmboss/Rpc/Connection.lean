import Smmboss.Foundation.LittleEndian
import Smmboss.Hose.Frame

namespace Smmboss.Rpc

open Smmboss.Hose (sizeMax addWsHeaderSize fillWsHeader)

/-! # The send buffer of a WebSocket connection

What the server uses of mongoose: `mg_iobuf`, and `mg_ws_send` on a connection
that is not a client's.  Allocation succeeds.
-/

def opText : UInt8 := 1
def opBinary : UInt8 := 2

/-- `MG_IO_SIZE`. -/
def mgIoSize : Nat := 2048

/-- `size` is the length of `buf`. -/
structure IoBuf where
  buf : List UInt8
  len : Nat
  within : len ≤ buf.length

namespace IoBuf

def size (io : IoBuf) : Nat := io.buf.length

/-- The bytes waiting to be sent. -/
def pending (io : IoBuf) : List UInt8 := io.buf.take io.len

@[simp] theorem length_pending (io : IoBuf) : io.pending.length = io.len := by
  rw [pending, List.length_take, Nat.min_eq_left io.within]

def roundup (size align : Nat) : Nat :=
  if align = 0 then size else (size + align - 1) / align * align

theorem le_roundup (size : Nat) : size ≤ roundup size mgIoSize := by
  unfold roundup mgIoSize
  split_ifs <;> omega

/-- `mg_iobuf_resize` to no less than what is pending. -/
def resize (io : IoBuf) (newSize : Nat) : IoBuf :=
  if roundup newSize mgIoSize = io.size then io
  else
    { buf := io.pending ++ List.replicate (roundup newSize mgIoSize - io.len) 0
      len := io.len
      within := by simp }

@[simp] theorem resize_len (io : IoBuf) (newSize : Nat) :
    (io.resize newSize).len = io.len := by
  unfold resize
  split_ifs <;> rfl

theorem resize_size (io : IoBuf) (newSize : Nat) (room : io.len ≤ newSize) :
    (io.resize newSize).size = roundup newSize mgIoSize := by
  unfold resize
  split_ifs with same
  · exact same.symm
  · have rounded := le_roundup newSize
    simp only [size, List.length_append, length_pending, List.length_replicate]
    omega

@[simp] theorem resize_pending (io : IoBuf) (newSize : Nat) :
    (io.resize newSize).pending = io.pending := by
  unfold resize
  split_ifs
  · rfl
  · exact List.take_left' io.length_pending

/-- A store at an offset of the buffer; `none` where it would pass its end. -/
def store (io : IoBuf) (offset : Nat) (bytes : List UInt8) : Option IoBuf :=
  if room : offset + bytes.length ≤ io.size then
    some {
      buf := io.buf.take offset ++ bytes ++ io.buf.drop (offset + bytes.length)
      len := io.len
      within := by
        have within := io.within
        simp only [size] at room
        simp only [List.length_append, List.length_take, List.length_drop]
        omega }
  else none

def load (io : IoBuf) (offset size : Nat) : Option (List UInt8) :=
  if offset + size ≤ io.size then some ((io.buf.drop offset).take size) else none

/-- `len += count`. -/
def extend (io : IoBuf) (count : Nat) : Option IoBuf :=
  if room : io.len + count ≤ io.buf.length then some { io with len := io.len + count, within := room }
  else none

/-- `mg_iobuf_add` at the end of what is pending. -/
def add (io : IoBuf) (bytes : List UInt8) : Option IoBuf :=
  let resized := io.resize (io.len + bytes.length)
  (resized.store resized.len bytes).bind fun stored => stored.extend bytes.length

/-- `mg_iobuf_del` at the front. -/
def del (io : IoBuf) (count : Nat) : IoBuf :=
  let count := min count io.len
  { buf := io.pending.drop count ++ List.replicate count 0 ++ io.buf.drop io.len
    len := io.len - count
    within := by
      simp only [List.length_append, List.length_drop, length_pending]
      omega }

end IoBuf

/-- `mkhdr` for a server. -/
def mkhdr (len : Nat) (op : UInt8) : List UInt8 :=
  if len < 126 then [op ||| 128, UInt8.ofNat len]
  else if len < 65536 then [op ||| 128, 126, UInt8.ofNat (len / 2 ^ 8), UInt8.ofNat len]
  else
    [op ||| 128, 127, UInt8.ofNat (len / 2 ^ 56), UInt8.ofNat (len / 2 ^ 48),
      UInt8.ofNat (len / 2 ^ 40), UInt8.ofNat (len / 2 ^ 32), UInt8.ofNat (len / 2 ^ 24),
      UInt8.ofNat (len / 2 ^ 16), UInt8.ofNat (len / 2 ^ 8), UInt8.ofNat len]

def mgWsSend (io : IoBuf) (payload : List UInt8) (op : UInt8) : Option IoBuf :=
  (io.add (mkhdr payload.length op)).bind fun io => io.add payload

/-- One unfragmented, unmasked WebSocket frame. -/
def wsFrame (op : UInt8) (payload : List UInt8) : List UInt8 := mkhdr payload.length op ++ payload

theorem fillWsHeader_eq (len : Nat) : fillWsHeader len = mkhdr len opBinary := rfl

/-! ## Reading a frame -/

def bigEndian (bytes : List UInt8) : Nat := LittleEndian.decode bytes.reverse

/-- The payload of a complete frame: as long as its header says, with nothing
left over. -/
def framePayload (len : Nat) (payload : List UInt8) : Option (List UInt8) :=
  if payload.length = len then some payload else none

/-- What a WebSocket client takes one frame for: its opcode and its payload. -/
def readFrame : List UInt8 → Option (UInt8 × List UInt8)
  | first :: second :: rest =>
      if first < 128 ∨ 128 ≤ second then none
      else
        let payload :=
          if second < 126 then framePayload second.toNat rest
          else if second = 126 then framePayload (bigEndian (rest.take 2)) (rest.drop 2)
          else framePayload (bigEndian (rest.take 8)) (rest.drop 8)
        payload.map fun payload => (first - 128, payload)
  | _ => none

namespace IoBuf

variable {io : IoBuf} {offset : Nat} {bytes : List UInt8}

/-- The buffer after `bytes` were stored at the offset. -/
structure Stored (before after : IoBuf) (offset : Nat) (bytes : List UInt8) : Prop where
  len : after.len = before.len
  buf : after.buf = before.buf.take offset ++ bytes ++ before.buf.drop (offset + bytes.length)

theorem store_exists (room : offset + bytes.length ≤ io.size) :
    ∃ after, io.store offset bytes = some after ∧ Stored io after offset bytes ∧
      after.size = io.size := by
  rw [store, dif_pos room]
  refine ⟨_, rfl, ⟨rfl, rfl⟩, ?_⟩
  simp only [size] at room ⊢
  simp only [List.length_append, List.length_take, List.length_drop]
  omega

namespace Stored

variable {before middle after : IoBuf} {first rest : List UInt8}

theorem none (io : IoBuf) (offset : Nat) : Stored io io offset [] where
  len := rfl
  buf := by simp

theorem front (fits : offset ≤ before.size) :
    (before.buf.take offset ++ first).length = offset + first.length := by
  rw [List.length_append, List.length_take, Nat.min_eq_left (show offset ≤ before.buf.length from fits)]

theorem through (stored : Stored before after offset first) (fits : offset ≤ before.size) :
    after.buf.take (offset + first.length) = before.buf.take offset ++ first := by
  rw [stored.buf, List.take_left' (front fits)]

theorem below (stored : Stored before after offset first) (fits : offset ≤ before.size)
    {place : Nat} (inside : place ≤ offset) : after.buf.take place = before.buf.take place := by
  have size : before.buf.length = before.size := rfl
  rw [stored.buf, List.append_assoc, List.take_append_of_le_length, List.take_take,
    Nat.min_eq_left inside]
  rw [List.length_take]
  omega

theorem above (stored : Stored before after offset first) (fits : offset ≤ before.size)
    {place : Nat} (outside : offset + first.length ≤ place) :
    after.buf.drop place = before.buf.drop place := by
  obtain ⟨more, rfl⟩ := Nat.exists_eq_add_of_le outside
  rw [stored.buf, ← List.drop_drop, List.drop_left' (front fits), List.drop_drop]

theorem slice (stored : Stored before after offset first) (fits : offset ≤ before.size) :
    (after.buf.drop offset).take first.length = first := by
  have size : before.buf.length = before.size := rfl
  have length : (before.buf.take offset).length = offset := by
    rw [List.length_take]
    omega
  rw [stored.buf, List.append_assoc, List.drop_left' length, List.take_left' rfl]

theorem append (left : Stored before middle offset first) (fits : offset ≤ before.size)
    (right : Stored middle after (offset + first.length) rest) :
    Stored before after offset (first ++ rest) where
  len := right.len.trans left.len
  buf := by
    rw [right.buf, left.through fits, left.above fits (by omega), List.length_append,
      List.append_assoc (before.buf.take offset), Nat.add_assoc]

end Stored

theorem extend_exists {count : Nat} (room : io.len + count ≤ io.size) :
    ∃ after, io.extend count = some after ∧ after.pending = io.buf.take (io.len + count) ∧
      after.size = io.size :=
  ⟨{ io with len := io.len + count, within := room }, dif_pos room, rfl, rfl⟩

/-- Storing behind what is pending and counting it in appends it. -/
theorem store_extend (room : io.len + bytes.length ≤ io.size) :
    ∃ stored after, io.store io.len bytes = some stored ∧
      stored.extend bytes.length = some after ∧ after.pending = io.pending ++ bytes ∧
      after.size = io.size := by
  obtain ⟨stored, done, kept, same⟩ := store_exists room
  have len := kept.len
  obtain ⟨after, extended, pending, size⟩ := @extend_exists stored bytes.length (by omega)
  refine ⟨stored, after, done, extended, ?_, size.trans same⟩
  rw [pending, len, kept.through io.within]
  rfl

theorem add_exists (io : IoBuf) (bytes : List UInt8) :
    ∃ after, io.add bytes = some after ∧ after.pending = io.pending ++ bytes ∧
      after.size = roundup (io.len + bytes.length) mgIoSize := by
  have rounded := le_roundup (io.len + bytes.length)
  obtain ⟨stored, after, done, extended, pending, size⟩ :=
    @store_extend (io.resize (io.len + bytes.length)) bytes (by
      rw [resize_len, resize_size _ _ (Nat.le_add_right _ _)]
      exact rounded)
  refine ⟨after, ?_, by rw [pending, resize_pending], by
    rw [size, resize_size _ _ (Nat.le_add_right _ _)]⟩
  rw [add, done]
  exact extended

end IoBuf

theorem mgWsSend_exists (io : IoBuf) (payload : List UInt8) (op : UInt8) :
    ∃ after, mgWsSend io payload op = some after ∧
      after.pending = io.pending ++ wsFrame op payload := by
  obtain ⟨middle, header, pending, -⟩ := io.add_exists (mkhdr payload.length op)
  obtain ⟨after, body, rest, -⟩ := middle.add_exists payload
  refine ⟨after, ?_, ?_⟩
  · rw [mgWsSend, header]
    exact body
  · rw [rest, pending, wsFrame, List.append_assoc]

/-! ## Frames are complete -/

theorem bigEndian_two {len : Nat} (short : len < 65536) :
    bigEndian [UInt8.ofNat (len / 2 ^ 8), UInt8.ofNat len] = len := by
  change LittleEndian.decode [UInt8.ofNat len, UInt8.ofNat (len / 2 ^ 8)] = len
  have bytes : [UInt8.ofNat len, UInt8.ofNat (len / 2 ^ 8)] = LittleEndian.encode 2 len := by
    simp [LittleEndian.encode, List.range_succ]
  rw [bytes]
  exact LittleEndian.decode_encode_of_lt short

theorem bigEndian_eight {len : Nat} (short : len < 2 ^ 64) :
    bigEndian [UInt8.ofNat (len / 2 ^ 56), UInt8.ofNat (len / 2 ^ 48),
      UInt8.ofNat (len / 2 ^ 40), UInt8.ofNat (len / 2 ^ 32), UInt8.ofNat (len / 2 ^ 24),
      UInt8.ofNat (len / 2 ^ 16), UInt8.ofNat (len / 2 ^ 8), UInt8.ofNat len] = len := by
  have bytes : [UInt8.ofNat (len / 2 ^ 56), UInt8.ofNat (len / 2 ^ 48),
      UInt8.ofNat (len / 2 ^ 40), UInt8.ofNat (len / 2 ^ 32), UInt8.ofNat (len / 2 ^ 24),
      UInt8.ofNat (len / 2 ^ 16), UInt8.ofNat (len / 2 ^ 8), UInt8.ofNat len].reverse =
      LittleEndian.encode 8 len := by
    simp [LittleEndian.encode, List.range_succ]
  rw [bigEndian, bytes]
  exact LittleEndian.decode_encode_of_lt short

/-- A client reads a frame as one message with the payload it was made of. -/
theorem readFrame_wsFrame {op : UInt8} {payload : List UInt8} (known : op = opText ∨ op = opBinary)
    (fits : payload.length < 2 ^ 64) : readFrame (wsFrame op payload) = some (op, payload) := by
  have final : ¬ (op ||| 128 < 128) ∧ (op ||| 128) - 128 = op := by
    rcases known with rfl | rfl <;> decide
  unfold wsFrame mkhdr
  split_ifs with tiny short
  · have low : (UInt8.ofNat payload.length).toNat = payload.length := by
      rw [UInt8.toNat_ofNat']
      omega
    have second : ¬ (128 : UInt8) ≤ UInt8.ofNat payload.length := by
      rw [UInt8.le_iff_toNat_le, low]
      change ¬ 128 ≤ payload.length
      omega
    have small : UInt8.ofNat payload.length < 126 := by
      rw [UInt8.lt_iff_toNat_lt, low]
      exact tiny
    simp only [List.cons_append, List.nil_append, readFrame, final.1, second, or_self, if_false,
      small, if_true, low, framePayload, final.2, Option.map_some]
  · simp only [List.cons_append, List.nil_append, readFrame, final.1, final.2]
    simp [bigEndian_two short, framePayload, -Nat.reducePow]
  · simp only [List.cons_append, List.nil_append, readFrame, final.1, final.2]
    simp [bigEndian_eight fits, framePayload, -Nat.reducePow]

/-- The frames of the hose are read in the same way. -/
theorem readFrame_frame {packet : Hose.Packet}
    (counted : Hose.sizeCalculator packet = (Hose.actualWriter packet).length) :
    readFrame (Hose.frame packet) = some (opBinary, Hose.actualWriter packet) := by
  have size := Hose.sizeCalculator_eq packet
  rw [Hose.frame, counted, fillWsHeader_eq]
  apply readFrame_wsFrame (.inr rfl)
  unfold Hose.sizeMax at size
  omega

end Smmboss.Rpc
