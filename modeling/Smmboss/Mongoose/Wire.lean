import Smmboss.Mongoose.Frames

namespace Smmboss.Mongoose

open Draining
open Smmboss.Rpc (bigEndian)

/-! # What a client sends is what the server gets

Frames of any kind, masked or not, with their length in any form, cut into reads
anywhere.
-/

/-! ### Frames on the wire -/

inductive LengthForm where
  | short | medium | long
  deriving DecidableEq, Repr

def LengthForm.code (len : Nat) : LengthForm → UInt8
  | .short => UInt8.ofNat len
  | .medium => 126
  | .long => 127

def LengthForm.bytes (len : Nat) : LengthForm → List UInt8
  | .short => []
  | .medium => [UInt8.ofNat (len / 2 ^ 8), UInt8.ofNat len]
  | .long =>
      [UInt8.ofNat (len / 2 ^ 56), UInt8.ofNat (len / 2 ^ 48), UInt8.ofNat (len / 2 ^ 40), UInt8.ofNat (len / 2 ^ 32),
        UInt8.ofNat (len / 2 ^ 24), UInt8.ofNat (len / 2 ^ 16), UInt8.ofNat (len / 2 ^ 8), UInt8.ofNat len]

/-- A longer form than needed is accepted; no payload is over a gigabyte. -/
def LengthForm.Fits (len : Nat) : LengthForm → Prop
  | .short => len < 126
  | .medium => len < 2 ^ 16
  | .long => len ≤ 2 ^ 30

instance (len : Nat) : (form : LengthForm) → Decidable (form.Fits len)
  | .short => inferInstanceAs (Decidable (len < 126))
  | .medium => inferInstanceAs (Decidable (len < 2 ^ 16))
  | .long => inferInstanceAs (Decidable (len ≤ 2 ^ 30))

structure Frame where
  flags : UInt8
  key : List UInt8
  payload : List UInt8
  form : LengthForm
  keyed : key = [] ∨ key.length = 4
  fits : form.Fits payload.length

theorem unkeyed : ([] : List UInt8) = [] ∨ ([] : List UInt8).length = 4 := .inl rfl

namespace Frame

def header (frame : Frame) : List UInt8 :=
  frame.flags :: (frame.form.code frame.payload.length + if frame.key = [] then 0 else 128) ::
    (frame.form.bytes frame.payload.length ++ frame.key)

def bytes (frame : Frame) : List UInt8 := frame.header ++ unmask frame.key frame.payload

end Frame

def wire (frames : List Frame) : List UInt8 := frames.flatMap Frame.bytes

variable {frame : Frame} {frames : List Frame} {kept buf : List UInt8}

theorem low_bits : ∀ byte : BitVec 8, (byte &&& 0x7f#8).toNat = byte.toNat % 128 ∧
    (byte &&& 128#8 ≠ 0 ↔ 128 ≤ byte.toNat) := by
  decide

theorem lengthBits (byte : UInt8) : (byte &&& 0x7f).toNat = byte.toNat % 128 := (low_bits byte.toBitVec).1

theorem maskBit_iff (byte : UInt8) : byte &&& 128 ≠ 0 ↔ 128 ≤ byte.toNat := by
  have bits := (low_bits byte.toBitVec).2
  rw [← UInt8.toNat_toBitVec, ← bits, ne_eq, ne_eq, ← UInt8.toBitVec_inj]
  rfl

theorem code_lt {len : Nat} {form : LengthForm} (fits : form.Fits len) : (form.code len).toNat < 128 := by
  cases form with
  | short =>
      have small : len < 126 := fits
      rw [LengthForm.code, UInt8.toNat_ofNat']
      omega
  | medium => exact (by decide : (126 : UInt8).toNat < 128)
  | long => exact (by decide : (127 : UInt8).toNat < 128)

theorem unmask_unmask (key data : List UInt8) : unmask key (unmask key data) = data := by
  apply List.ext_getElem
  · simp
  · intro i _ _
    simp only [unmask, List.getElem_mapIdx]
    rw [UInt8.xor_assoc, UInt8.xor_self, UInt8.xor_zero]

theorem unmask_nil (data : List UInt8) : unmask [] data = data := by
  apply List.ext_getElem
  · simp
  · intro i _ _
    simp [unmask]

theorem LengthForm.Fits.le {len : Nat} {form : LengthForm} (fits : form.Fits len) : len ≤ 2 ^ 30 := by
  cases form with
  | short =>
      have small : len < 126 := fits
      omega
  | medium =>
      have small : len < 2 ^ 16 := fits
      omega
  | long => exact fits

namespace Frame

theorem header_length (frame : Frame) :
    frame.header.length = 2 + (frame.form.bytes frame.payload.length).length + frame.key.length := by
  simp [header]
  omega

theorem bytes_append_length (frame : Frame) (rest : List UInt8) :
    (frame.bytes ++ rest).length = frame.header.length + (frame.payload.length + rest.length) := by
  rw [bytes, List.length_append, List.length_append, unmask_length, Nat.add_assoc]

/-- The byte of the length code and of the mask bit. -/
def second (frame : Frame) : UInt8 := frame.form.code frame.payload.length + if frame.key = [] then 0 else 128

theorem second_toNat (frame : Frame) : frame.second.toNat =
    (frame.form.code frame.payload.length).toNat + if frame.key = [] then 0 else 128 := by
  have small := code_lt frame.fits
  rw [second]
  split
  · simp
  · rw [UInt8.toNat_add]
    simp only [UInt8.reduceToNat]
    omega

theorem second_code (frame : Frame) :
    (frame.second &&& 0x7f).toNat = (frame.form.code frame.payload.length).toNat := by
  have small := code_lt frame.fits
  rw [lengthBits, second_toNat]
  split <;> omega

theorem second_mask (frame : Frame) : (if frame.second &&& 128 ≠ 0 then 4 else 0) = frame.key.length := by
  have small := code_lt frame.fits
  have byte := second_toNat frame
  rcases frame.keyed with unmasked | masked
  · rw [if_pos unmasked] at byte
    rw [if_neg (fun high => ?_), unmasked]
    · rfl
    · rw [maskBit_iff] at high
      omega
  · have nonempty : frame.key ≠ [] := fun empty => by simp [empty] at masked
    rw [if_neg nonempty] at byte
    rw [if_pos ((maskBit_iff _).mpr (by omega)), masked]

theorem key_length_le (frame : Frame) : frame.key.length ≤ 4 := by
  rcases frame.keyed with unmasked | masked
  · simp [unmasked]
  · omega

end Frame

theorem wsHeader_frame (frame : Frame) (rest : List UInt8) :
    wsHeader (frame.bytes ++ rest) =
      (⟨frame.flags, frame.header.length, frame.payload.length⟩, frame.key.length) := by
  have second : (frame.bytes ++ rest).getD 1 0 = frame.second := rfl
  have first : (frame.bytes ++ rest).getD 0 0 = frame.flags := rfl
  have length := frame.header_length
  have size := frame.bytes_append_length rest
  have keyLength := frame.key_length_le
  unfold wsHeader
  rw [if_pos (by omega)]
  simp only [second, frame.second_code, frame.second_mask, first]
  have fits := frame.fits
  cases form : frame.form with
  | short =>
      rw [form] at length fits
      have small : frame.payload.length < 126 := fits
      have value : (LengthForm.code frame.payload.length .short).toNat = frame.payload.length := by
        rw [LengthForm.code, UInt8.toNat_ofNat']
        omega
      simp only [LengthForm.bytes, List.length_nil, Nat.add_zero] at length
      rw [value, if_pos ⟨small, by omega⟩, length]
  | medium =>
      rw [form] at length fits
      have small : frame.payload.length < 2 ^ 16 := fits
      have third : (frame.bytes ++ rest).getD 2 0 = UInt8.ofNat (frame.payload.length / 2 ^ 8) := by
        simp [Frame.bytes, Frame.header, form, LengthForm.bytes]
      have fourth : (frame.bytes ++ rest).getD 3 0 = UInt8.ofNat frame.payload.length := by
        simp [Frame.bytes, Frame.header, form, LengthForm.bytes]
      simp only [LengthForm.bytes, List.length_cons, List.length_nil] at length
      have value : (LengthForm.code frame.payload.length .medium).toNat = 126 := rfl
      rw [value, if_neg (fun both => by omega), if_pos ⟨rfl, by omega⟩, third, fourth, UInt8.toNat_ofNat',
        UInt8.toNat_ofNat', length]
      congr 2
      omega
  | long =>
      rw [form] at length fits
      have small : frame.payload.length ≤ 2 ^ 30 := fits
      have high : be32 (frame.bytes ++ rest) 2 = bigEndian [UInt8.ofNat (frame.payload.length / 2 ^ 56),
          UInt8.ofNat (frame.payload.length / 2 ^ 48), UInt8.ofNat (frame.payload.length / 2 ^ 40),
          UInt8.ofNat (frame.payload.length / 2 ^ 32)] := by
        simp [be32, Frame.bytes, Frame.header, form, LengthForm.bytes]
      have low : be32 (frame.bytes ++ rest) 6 = bigEndian [UInt8.ofNat (frame.payload.length / 2 ^ 24),
          UInt8.ofNat (frame.payload.length / 2 ^ 16), UInt8.ofNat (frame.payload.length / 2 ^ 8),
          UInt8.ofNat frame.payload.length] := by
        simp [be32, Frame.bytes, Frame.header, form, LengthForm.bytes]
      simp only [LengthForm.bytes, List.length_cons, List.length_nil] at length
      have value : (LengthForm.code frame.payload.length .long).toNat = 127 := rfl
      rw [value, if_neg (fun both => by omega), if_neg (fun both => by omega), if_pos (by omega), high, low, length]
      simp only [bigEndian, LittleEndian.decode, List.reverse_cons, List.reverse_nil, List.nil_append,
        List.cons_append, List.foldr_cons, List.foldr_nil, UInt8.toNat_ofNat']
      congr 2
      omega

/-- A frame at the front of the buffer is read back. -/
theorem frameAt_frame (frame : Frame) (rest : List UInt8) :
    frameAt (frame.bytes ++ rest) = some (frame.flags, frame.payload, rest) := by
  have within := frame.fits.le
  have size := frame.bytes_append_length rest
  have length := frame.header_length
  have back : (frame.bytes ++ rest).drop (frame.header.length + frame.payload.length) = rest := by
    have whole : frame.header.length + frame.payload.length = frame.bytes.length := by
      rw [Frame.bytes, List.length_append, unmask_length]
    rw [whole, List.drop_left]
  have front : (frame.bytes ++ rest).take frame.header.length = frame.header := by
    rw [Frame.bytes, List.append_assoc, List.take_left]
  have middle : ((frame.bytes ++ rest).drop frame.header.length).take frame.payload.length =
      unmask frame.key frame.payload := by
    rw [Frame.bytes, List.append_assoc, List.drop_left, List.take_left' (unmask_length _ _)]
  unfold frameAt wsProcess
  rw [wsHeader_frame]
  have positive : 0 < frame.header.length + frame.payload.length := by omega
  have small : ¬ 1024 * 1024 * 1024 < frame.payload.length := by omega
  have whole : ¬ (frame.bytes ++ rest).length < frame.header.length + frame.payload.length := by omega
  simp only [if_neg small, if_neg whole, positive, if_true, back, front, middle]
  by_cases masked : 0 < frame.key.length
  · have key : frame.header.drop (frame.header.length - frame.key.length) = frame.key := by
      have split : frame.header = (frame.flags :: (frame.form.code frame.payload.length +
          if frame.key = [] then 0 else 128) :: frame.form.bytes frame.payload.length) ++ frame.key := rfl
      have front : frame.header.length - frame.key.length = (frame.flags :: (frame.form.code frame.payload.length +
          if frame.key = [] then 0 else 128) :: frame.form.bytes frame.payload.length).length := by
        rw [length, List.length_cons, List.length_cons]
        omega
      rw [front]
      conv_lhs => rw [split]
      rw [List.drop_left]
    rw [if_pos masked, key, unmask_unmask, List.append_assoc, List.drop_left, List.take_left]
  · have empty : frame.key = [] := List.length_eq_zero_iff.mp (Nat.eq_zero_of_not_pos masked)
    rw [if_neg masked, middle, empty, unmask_nil]

/-! ### Runs of frames -/

def deliverAll (kept : List UInt8) : List Frame → List UInt8 × List WsEvent
  | [] => (kept, [])
  | frame :: frames =>
      ((deliverAll (deliver kept frame.flags frame.payload).1 frames).1,
        (deliver kept frame.flags frame.payload).2 ++
          (deliverAll (deliver kept frame.flags frame.payload).1 frames).2)

theorem deliverAll_append (kept : List UInt8) (first second : List Frame) :
    deliverAll kept (first ++ second) =
      ((deliverAll (deliverAll kept first).1 second).1,
        (deliverAll kept first).2 ++ (deliverAll (deliverAll kept first).1 second).2) := by
  induction first generalizing kept with
  | nil => rfl
  | cons frame frames ih => simp [deliverAll, ih, List.append_assoc]

theorem takeFrame_frame (kept : List UInt8) (frame : Frame) (rest : List UInt8) :
    takeFrame kept (frame.bytes ++ rest) = some ((deliver kept frame.flags frame.payload).1, rest,
      (deliver kept frame.flags frame.payload).2) := by
  rw [takeFrame, frameAt_frame, Option.map_some]

theorem drain_wire (kept : List UInt8) (frames : List Frame) {rest : List UInt8} (waiting : frameAt rest = none) :
    drain takeFrame kept (wire frames ++ rest) = ((deliverAll kept frames).1, rest, (deliverAll kept frames).2) := by
  induction frames generalizing kept with
  | nil => exact drain_none (by rw [takeFrame, wire, List.flatMap_nil, List.nil_append, waiting]; rfl)
  | cons frame frames ih =>
      have taken := takeFrame_frame kept frame (wire frames ++ rest)
      rw [wire, List.flatMap_cons, List.append_assoc, ← wire, drain_some takeFrame_sound taken, ih]
      rfl

/-- Part of a frame is no frame. -/
theorem frameAt_part {part missing : List UInt8} (split : part ++ missing = frame.bytes) (missed : missing ≠ []) :
    frameAt part = none := by
  cases found : frameAt part with
  | none => rfl
  | some result =>
      obtain ⟨flags, data, rest⟩ := result
      have whole := frameAt_append missing found
      have exact_ := frameAt_frame frame []
      rw [List.append_nil, ← split, whole, Option.some.injEq, Prod.mk.injEq, Prod.mk.injEq, List.append_eq_nil_iff] at exact_
      exact absurd exact_.2.2.2 missed

/-- What has come of the frames: some of them, and part of the next. -/
theorem wire_split {frames : List Frame} {come more : List UInt8} (split : come ++ more = wire frames) :
    ∃ done left part, frames = done ++ left ∧ come = wire done ++ part ∧ part ++ more = wire left ∧
      frameAt part = none := by
  induction frames generalizing come with
  | nil =>
      obtain ⟨rfl, rfl⟩ := List.append_eq_nil_iff.mp split
      exact ⟨[], [], [], rfl, rfl, rfl, rfl⟩
  | cons frame frames ih =>
      rw [wire, List.flatMap_cons, ← wire] at split
      rcases List.append_eq_append_iff.mp split with ⟨missing, whole, rest⟩ | ⟨after, whole, rest⟩
      · cases missing with
        | nil =>
            rw [List.append_nil] at whole
            rw [List.nil_append] at rest
            obtain ⟨done, left, part, parts, came, comes, waiting⟩ := ih (show [] ++ more = wire frames from rest)
            refine ⟨frame :: done, left, part, by rw [parts]; rfl, ?_, comes, waiting⟩
            rw [wire, List.flatMap_cons, ← wire, List.append_assoc, ← came, ← whole, List.append_nil]
        | cons byte missing =>
            refine ⟨[], frame :: frames, come, rfl, rfl, ?_, frameAt_part whole.symm (List.cons_ne_nil _ _)⟩
            rw [split, wire, wire, List.flatMap_cons]
      · obtain ⟨done, left, part, parts, came, comes, waiting⟩ := ih rest.symm
        refine ⟨frame :: done, left, part, by rw [parts]; rfl, ?_, comes, waiting⟩
        rw [wire, List.flatMap_cons, ← wire, List.append_assoc, ← came, whole]

/-- No frame comes when the buffer has no room for it. -/
def Room (kept : List UInt8) : List Frame → Prop
  | [] => True
  | frame :: frames =>
      kept.length + frame.bytes.length ≤ mgMaxRecvSize ∧ Room (deliver kept frame.flags frame.payload).1 frames

theorem room_append {first second : List Frame} (room : Room kept (first ++ second)) :
    Room (deliverAll kept first).1 second := by
  induction first generalizing kept with
  | nil => exact room
  | cons frame first ih => exact ih room.2

section Polls

variable {S : Type} {handler : Handler S} {state middle last : S} {events more : List WsEvent} {part : List UInt8}
  {reads : List Read}

/-- From one state to another by the events, with writes of the socket between them. -/
inductive Handles (handler : Handler S) : S → List WsEvent → S → Prop where
  | done (state : S) : Handles handler state [] state
  | event {state next last : S} {event : WsEvent} {events : List WsEvent}
      (handled : handler.onEvent state event = some next) (rest : Handles handler next events last) :
      Handles handler state (event :: events) last
  | write {state last : S} {events : List WsEvent} (count : Nat)
      (rest : Handles handler (handler.onWrite state count) events last) : Handles handler state events last

/-- One of the events is an abort. -/
def Aborts (handler : Handler S) (state : S) (events : List WsEvent) : Prop :=
  ∃ before event after middle, events = before ++ event :: after ∧ Handles handler state before middle ∧
    handler.onEvent middle event = none

theorem Handles.append (first : Handles handler state events middle) (second : Handles handler middle more last) :
    Handles handler state (events ++ more) last := by
  induction first with
  | done state => exact second
  | event handled rest ih => exact .event handled (ih second)
  | write count rest ih => exact .write count (ih second)

theorem Aborts.append (first : Handles handler state events middle) (second : Aborts handler middle more) :
    Aborts handler state (events ++ more) := by
  obtain ⟨before, event, after, stopped, rfl, handled, aborts⟩ := second
  exact ⟨events ++ before, event, after, stopped, (List.append_assoc ..).symm, first.append handled, aborts⟩

theorem Aborts.append_right (aborts : Aborts handler state events) (more : List WsEvent) :
    Aborts handler state (events ++ more) := by
  obtain ⟨before, event, after, stopped, rfl, handled, aborts⟩ := aborts
  exact ⟨before, event, after ++ more, stopped, by simp, handled, aborts⟩

theorem handles_of_onEvents (handled : handler.onEvents state events = some last) : Handles handler state events last := by
  induction events generalizing state with
  | nil =>
      obtain rfl : state = last := Option.some.inj handled
      exact .done state
  | cons event events ih =>
      rw [Handler.onEvents, List.foldlM_cons] at handled
      obtain ⟨next, first, rest⟩ := Option.bind_eq_some_iff.mp handled
      exact .event first (ih rest)

theorem aborts_of_onEvents (handled : handler.onEvents state events = none) : Aborts handler state events := by
  induction events generalizing state with
  | nil => contradiction
  | cons event events ih =>
      rw [Handler.onEvents, List.foldlM_cons] at handled
      cases first : handler.onEvent state event with
      | none => exact ⟨[], event, events, state, rfl, .done state, first⟩
      | some next =>
          rw [first] at handled
          exact .append (.event first (.done next)) (ih handled)

/-- Nothing ends the connection while frames are missing. -/
def Lasts (handler : Handler S) (kept : List UInt8) (state : S) (frames : List Frame) : Prop :=
  ∀ done left, frames = done ++ left → left ≠ [] →
    (deliverAll kept done).2.any WsEvent.closes = false ∧
      ∀ middle, Handles handler state (deliverAll kept done).2 middle → handler.isDraining middle = false

theorem Lasts.append {done left : List Frame} (lasts : Lasts handler kept state (done ++ left))
    (handled : Handles handler state (deliverAll kept done).2 middle) :
    Lasts handler (deliverAll kept done).1 middle left := by
  rintro more left rfl some_
  obtain ⟨open_, stays⟩ := lasts (done ++ more) left (List.append_assoc ..).symm some_
  rw [deliverAll_append] at open_ stays
  rw [List.any_append, Bool.or_eq_false_iff] at open_
  exact ⟨open_.2, fun later rest => stays later (handled.append rest)⟩

/-- There is room for what a read brings. -/
theorem room_left {frames : List Frame} {bytes more : List UInt8} (waiting : frameAt part = none)
    (cut : part ++ (bytes ++ more) = wire frames) (some_ : bytes ≠ []) (room : Room kept frames) :
    ¬ mgMaxRecvSize ≤ (kept ++ part).length := by
  cases frames with
  | nil => exact absurd (List.append_eq_nil_iff.mp (List.append_eq_nil_iff.mp cut).2).1 some_
  | cons frame frames =>
      have shorter : part.length < frame.bytes.length := by
        by_contra longer
        rw [wire, List.flatMap_cons, ← wire] at cut
        obtain ⟨missing, whole, _⟩ | ⟨after, whole, _⟩ := List.append_eq_append_iff.mp cut
        · have lengths := congrArg List.length whole
          rw [List.length_append] at lengths
          have same : missing = [] := List.length_eq_zero_iff.mp (by omega)
          rw [same, List.append_nil] at whole
          have found := frameAt_frame frame []
          rw [List.append_nil, whole, waiting] at found
          contradiction
        · have found := frameAt_frame frame after
          rw [← whole, waiting] at found
          contradiction
      have fits := room.1
      rw [List.length_append]
      omega

/-- A read handles the frames that are whole with it. -/
theorem readConn_frames {done : List Frame} {bytes rest : List UInt8} (space : ¬ mgMaxRecvSize ≤ (kept ++ part).length)
    (came : part ++ bytes = wire done ++ rest) (waiting : frameAt rest = none) :
    readConn ⟨kept ++ part, kept.length⟩ bytes =
      (⟨(deliverAll kept done).1 ++ rest, (deliverAll kept done).1.length⟩, (deliverAll kept done).2) := by
  rw [readConn, if_neg space, List.append_assoc, mgWsCb_eq, came, drain_wire kept done waiting]

/-- What becomes of a connection that has got the frames. -/
def Ends (handler : Handler S) (kept : List UInt8) (state : S) (frames : List Frame) : Option (Option Receiver × S) → Prop
  | none => Aborts handler state (deliverAll kept frames).2
  | some (conn, last) =>
      Handles handler state (deliverAll kept frames).2 last ∧
        (conn = some ⟨(deliverAll kept frames).1, (deliverAll kept frames).1.length⟩ ∨
          conn = none ∧ ((deliverAll kept frames).2.any WsEvent.closes = true ∨ handler.isDraining last = true))

theorem Ends.append {done left : List Frame} {outcome : Option (Option Receiver × S)}
    (handled : Handles handler state (deliverAll kept done).2 middle)
    (ends : Ends handler (deliverAll kept done).1 middle left outcome) :
    Ends handler kept state (done ++ left) outcome := by
  cases outcome with
  | none =>
      rw [Ends, deliverAll_append]
      exact .append handled ends
  | some outcome =>
      obtain ⟨conn, last⟩ := outcome
      obtain ⟨rest, how⟩ := ends
      rw [Ends, deliverAll_append]
      refine ⟨handled.append rest, how.imp id fun ⟨gone, why⟩ => ⟨gone, why.imp (fun closes => ?_) id⟩⟩
      rw [List.any_append, closes, Bool.or_true]

/-- However the bytes of frames are cut into reads, the handler is told of the
same events, if nothing ends the connection before the last frame. -/
theorem readAll_from {frames : List Frame} (waiting : frameAt part = none)
    (cut : part ++ reads.flatMap Read.bytes = wire frames) (some_ : ∀ read ∈ reads, read.bytes ≠ [])
    (room : Room kept frames) (lasts : Lasts handler kept state frames) :
    Ends handler kept state frames (readAll handler (some ⟨kept ++ part, kept.length⟩) state reads) := by
  induction reads generalizing kept part frames state with
  | nil =>
      obtain ⟨rfl, rfl⟩ : frames = [] ∧ part = [] := by
        rw [List.flatMap_nil, List.append_nil] at cut
        cases frames with
        | nil => exact ⟨rfl, cut⟩
        | cons frame frames =>
            have found := frameAt_frame frame (wire frames)
            rw [wire, List.flatMap_cons, ← wire] at cut
            rw [← cut, waiting] at found
            contradiction
      rw [List.append_nil]
      exact ⟨.done state, .inl rfl⟩
  | cons read reads ih =>
      rw [List.flatMap_cons] at cut
      have space := room_left waiting cut (some_ read (List.mem_cons_self ..)) room
      rw [← List.append_assoc] at cut
      obtain ⟨done, left, rest, rfl, came, comes, waiting'⟩ := wire_split cut
      have others : ∀ read ∈ reads, read.bytes ≠ [] := fun read member => some_ read (List.mem_cons_of_mem _ member)
      rw [readAll, mgMgrPoll, readConn_frames space came waiting']
      dsimp only
      cases handled : handler.onEvents state (deliverAll kept done).2 with
      | none =>
          rw [Option.map_none, Option.bind_none, Ends, deliverAll_append]
          exact (aborts_of_onEvents handled).append_right _
      | some middle =>
          rw [Option.map_some, Option.bind_some]
          have wrote : Handles handler state (deliverAll kept done).2 (handler.onWrite middle read.written) := by
            have rest := (handles_of_onEvents handled).append (.write read.written (.done _))
            rwa [List.append_nil] at rest
          split
          · rename_i closed
            -- the last frame has come
            obtain rfl : left = [] := by
              by_contra missing
              obtain ⟨open_, stays⟩ := lasts done left rfl missing
              rw [open_, stays _ wrote] at closed
              simp at closed
            rw [readAll, List.append_nil]
            exact ⟨wrote, .inr ⟨rfl, closed.imp id And.left⟩⟩
          · exact .append wrote (ih waiting' comes others (room_append room) (lasts.append wrote))

end Polls

end Smmboss.Mongoose
