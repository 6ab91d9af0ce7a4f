import Smmboss.Hose.Stream
import Smmboss.Rpc.Connection

namespace Smmboss.Rpc

open Smmboss.Hose (sizeMax bufSize addWsHeaderSize fillWsHeader reserveSpaceAndWriteHeader Packet)

/-! # Taking a byte stream apart into frames

The framing rules of the WebSocket protocol, for the side that receives
unmasked frames, and what they make of the hose's stream.
-/

inductive LengthForm where
  | sevenBit
  | sixteenBit
  | sixtyFourBit
deriving Repr, DecidableEq

def shortestForm (len : Nat) : LengthForm :=
  if len < 126 then .sevenBit else if len < 65536 then .sixteenBit else .sixtyFourBit

structure DecodedFrame where
  final : Bool
  opcode : UInt8
  form : LengthForm
  payload : List UInt8
deriving Repr, DecidableEq

/-- The payload length announced by the second byte and what follows it. -/
def takeLength (second : UInt8) (rest : List UInt8) :
    Option (LengthForm × Nat × List UInt8) :=
  if second < 126 then some (.sevenBit, second.toNat, rest)
  else if second = 126 ∧ 2 ≤ rest.length then
    some (.sixteenBit, bigEndian (rest.take 2), rest.drop 2)
  else if second = 127 ∧ 8 ≤ rest.length ∧ bigEndian (rest.take 8) < 2 ^ 63 then
    some (.sixtyFourBit, bigEndian (rest.take 8), rest.drop 8)
  else none

/-- The first frame of the bytes and what is behind it.  A set reserved bit or
a mask is refused. -/
def takeFrame : List UInt8 → Option (DecodedFrame × List UInt8)
  | first :: second :: rest =>
      if first / 16 % 8 ≠ 0 then none
      else
        (takeLength second rest).bind fun (form, len, body) =>
          if len ≤ body.length then
            some ({ final := 128 ≤ first, opcode := first % 16, form, payload := body.take len },
              body.drop len)
          else none
  | _ => none

def takeFrames : Nat → List UInt8 → Option (List DecodedFrame)
  | _, [] => some []
  | 0, _ :: _ => none
  | count + 1, bytes =>
      (takeFrame bytes).bind fun (frame, rest) => (takeFrames count rest).map (frame :: ·)

/-- No frame is empty, so there are at most as many as bytes. -/
def decodeFrames (bytes : List UInt8) : Option (List DecodedFrame) :=
  takeFrames bytes.length bytes

def finalBinary (payload : List UInt8) : DecodedFrame where
  final := true
  opcode := opBinary
  form := shortestForm payload.length
  payload

section

variable {payload rest : List UInt8}

theorem takeLength_sixteenBit {extra : List UInt8} (width : extra.length = 2) :
    takeLength 126 (extra ++ rest) = some (.sixteenBit, bigEndian extra, rest) := by
  have enough : 2 ≤ (extra ++ rest).length := by
    rw [List.length_append]
    omega
  rw [takeLength, if_neg (by decide), if_pos ⟨rfl, enough⟩, List.take_left' width,
    List.drop_left' width]

theorem takeLength_sixtyFourBit {extra : List UInt8} (width : extra.length = 8)
    (below : bigEndian extra < 2 ^ 63) :
    takeLength 127 (extra ++ rest) = some (.sixtyFourBit, bigEndian extra, rest) := by
  have enough : 8 ≤ (extra ++ rest).length := by
    rw [List.length_append]
    omega
  have taken : (extra ++ rest).take 8 = extra := List.take_left' width
  rw [takeLength, if_neg (by decide), if_neg (fun medium => absurd medium.1 (by decide)), taken,
    if_pos ⟨rfl, enough, below⟩, List.drop_left' width]

theorem takeFrame_of_length {second : UInt8} {extra : List UInt8} {form : LengthForm}
    (taken : takeLength second (extra ++ (payload ++ rest)) =
      some (form, payload.length, payload ++ rest)) :
    takeFrame (Hose.binaryFrame :: second :: (extra ++ (payload ++ rest))) =
      some ({ final := true, opcode := opBinary, form, payload }, rest) := by
  have reserved : ¬ Hose.binaryFrame / 16 % 8 ≠ 0 := by decide
  have fits : payload.length ≤ (payload ++ rest).length := by simp
  rw [takeFrame, if_neg reserved, taken, Option.bind_some]
  simp only [if_pos fits, List.take_left, List.drop_left]
  rfl

/-- One frame is taken off the front whole, whatever follows it. -/
theorem takeFrame_append (bounded : payload.length < 2 ^ 63) :
    takeFrame (fillWsHeader payload.length ++ payload ++ rest) =
      some (finalBinary payload, rest) := by
  unfold fillWsHeader finalBinary shortestForm
  split_ifs with tiny short
  · have low : (UInt8.ofNat payload.length).toNat = payload.length := by
      rw [UInt8.toNat_ofNat']
      omega
    have small : UInt8.ofNat payload.length < 126 := by
      rw [UInt8.lt_iff_toNat_lt, low]
      exact tiny
    have taken : takeLength (UInt8.ofNat payload.length) (payload ++ rest) =
        some (.sevenBit, payload.length, payload ++ rest) := by
      rw [takeLength, if_pos small, low]
    rw [List.append_assoc]
    exact @takeFrame_of_length payload rest _ [] _ taken
  · rw [List.append_assoc]
    apply @takeFrame_of_length payload rest 126 [_, _]
    rw [takeLength_sixteenBit rfl, bigEndian_two short]
  · have announced := @bigEndian_eight payload.length (by omega)
    rw [List.append_assoc]
    apply @takeFrame_of_length payload rest 127 [_, _, _, _, _, _, _, _]
    rw [takeLength_sixtyFourBit rfl (lt_of_eq_of_lt announced bounded), announced]

end

theorem takeFrames_frames {packets : List Packet}
    (bounded : ∀ packet ∈ packets, (Hose.actualWriter packet).length < 2 ^ 63) (count : Nat)
    (enough : (Hose.frames packets).length ≤ count) :
    takeFrames count (Hose.frames packets) =
      some (packets.map fun packet => finalBinary (Hose.actualWriter packet)) := by
  induction packets generalizing count with
  | nil => cases count <;> rfl
  | cons packet packets ih =>
      have body := bounded packet List.mem_cons_self
      have rest := fun other member => bounded other (List.mem_cons_of_mem packet member)
      have counted := Hose.sizeCalculator_eq packet
      have exact : Hose.sizeCalculator packet = (Hose.actualWriter packet).length := by
        unfold sizeMax at counted
        omega
      have split : Hose.frames (packet :: packets) = Hose.frame packet ++ Hose.frames packets := rfl
      have positive := Hose.frame_length_pos packet
      have taken := @takeFrame_append (Hose.actualWriter packet) (Hose.frames packets) body
      rw [← exact] at taken
      change takeFrame (Hose.frame packet ++ Hose.frames packets) = _ at taken
      rw [split, List.length_append] at enough
      obtain ⟨fuel, rfl⟩ : ∃ fuel, count = fuel + 1 := ⟨count - 1, by omega⟩
      rw [split]
      obtain ⟨first, others, shape⟩ : ∃ first others,
          Hose.frame packet ++ Hose.frames packets = first :: others :=
        List.exists_cons_of_length_pos (by rw [List.length_append]; omega)
      rw [shape] at taken ⊢
      rw [takeFrames, taken]
      · exact congrArg (Option.map _) (ih rest fuel (by omega))
      · exact List.cons_ne_nil first others

/-- A packet whose size saturates finds no room in any reachable ring. -/
theorem reserve_saturated {labels : List Hose.Label} {state : Hose.State}
    (ran : Machine.run Hose.step Hose.initial labels = some state) {readOffset size : Nat}
    (loaded : readOffset < 2 ^ 32) (saturated : addWsHeaderSize size = sizeMax) (forOverrun : Bool) :
    reserveSpaceAndWriteHeader readOffset state.writeInfo size forOverrun = none := by
  have bounded := (Hose.run_invariant ran).bounded
  have inside : state.writeInfo.writeOffset ≤ bufSize :=
    Nat.le_trans bounded.write_le bounded.wrap_le
  have room := Hose.sizeSub_eq inside (by decide)
  have needed : Hose.neededSize sizeMax forOverrun = sizeMax := by
    cases forOverrun <;> decide
  have large : bufSize + 2 ^ 32 < sizeMax := by decide
  rw [reserveSpaceAndWriteHeader, saturated, needed, Option.map_eq_none_iff, Hose.place, room]
  by_cases lapped : state.writeInfo.writeOffset < readOffset
  · rw [if_pos lapped, if_neg (by omega)]
  · rw [if_neg lapped, if_neg (by omega), if_neg (by omega)]

/-- The two size computations of the frame header agree, and the stream of
frames says where each begins and what it holds. -/
theorem hose_frames_decode {packets : List Packet}
    (bounded : ∀ packet ∈ packets, (Hose.actualWriter packet).length < 2 ^ 63) :
    (∀ size ≤ sizeMax - 10, addWsHeaderSize size = size + (fillWsHeader size).length) ∧
      (∀ size ≤ sizeMax, sizeMax - 10 < size → addWsHeaderSize size = sizeMax ∧
        ∀ labels state, Machine.run Hose.step Hose.initial labels = some state →
          ∀ readOffset < 2 ^ 32, ∀ forOverrun,
            reserveSpaceAndWriteHeader readOffset state.writeInfo size forOverrun = none) ∧
      decodeFrames (Hose.frames packets) =
        some (packets.map fun packet => finalBinary (Hose.actualWriter packet)) := by
  have sizes : ∀ size ≤ sizeMax - 10, addWsHeaderSize size = size + (fillWsHeader size).length := by
    intro size small
    rw [Hose.addWsHeaderSize_eq small, Nat.add_comm]
  have saturates : ∀ size, sizeMax - 10 < size → addWsHeaderSize size = sizeMax := by
    intro size large
    have far : 65536 < sizeMax - 10 := by decide
    rw [addWsHeaderSize, if_neg (by omega), if_neg (by omega), if_neg (by omega)]
  refine ⟨sizes, ?_, takeFrames_frames bounded _ (Nat.le_refl _)⟩
  intro size _ large
  refine ⟨saturates size large, ?_⟩
  intro labels state ran readOffset loaded forOverrun
  exact reserve_saturated ran loaded (saturates size large) forOverrun

theorem hose_frames_decode_overrun :
    decodeFrames (Hose.frames [[[1]], Hose.overrunPacket]) =
      some [finalBinary [1], finalBinary [111, 118, 101, 114, 114, 117, 110, 0]] :=
  (@hose_frames_decode [[[1]], Hose.overrunPacket] (by decide)).2.2

end Smmboss.Rpc
