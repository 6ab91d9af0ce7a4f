import Smmboss.Hose.Overrun

namespace Smmboss.Hose

open Smmboss.Ring (Bounded)

/-! # Waiting for room

With backpressure enabled a packet that finds no room is retried until it does.
-/

/-- A drained ring at rest at `write` has the room asked for a frame of
`length` bytes: behind the offset, or in front of it after a wrap. -/
def RestOk (write length : Nat) : Prop :=
  write + length + overrunPacketSize ≤ bufSize ∨ length + overrunPacketSize < write

instance (write length : Nat) : Decidable (RestOk write length) := by
  unfold RestOk
  infer_instance

/-- At a frame of less than half the buffer every rest position will do. -/
theorem restOk_of_half {write length : Nat} (small : 2 * (length + overrunPacketSize) ≤ bufSize) :
    RestOk write length := by
  simp only [RestOk]
  omega

/-- The game thread is in the retry loop of `reserve_space_and_write_header`. -/
def Waiting (packet : Packet) (state : State) : Prop :=
  match state.writer with
  | .retry held false | .loaded held false _ | .refused held | .backpressured held =>
      held = packet
  | _ => False

theorem addWsHeaderSize_le_add (size : Nat) : addWsHeaderSize size ≤ size + 10 := by
  rw [addWsHeaderSize]
  split_ifs <;> omega

/-- A frame that fits into the buffer has not saturated any size. -/
theorem neededSize_of_fits {packet : Packet}
    (fits : (frame packet).length + overrunPacketSize ≤ bufSize) :
    neededSize (addWsHeaderSize (sizeCalculator packet)) false =
        (frame packet).length + overrunPacketSize ∧
      addWsHeaderSize (sizeCalculator packet) = (frame packet).length := by
  have body : (actualWriter packet).length ≤ (frame packet).length := by
    rw [frame, List.length_append]
    omega
  have size := sizeCalculator_eq packet
  have header := addWsHeaderSize_le_add (sizeCalculator packet)
  have below : bufSize + 20 < sizeMax := by decide
  have length := frame_length packet (by omega)
  refine ⟨?_, length.symm⟩
  have bound : neededSize (addWsHeaderSize (sizeCalculator packet)) false < sizeMax := by
    rw [neededSize, saturatingAdd_eq_min, ← length]
    simp only [Bool.false_eq_true, if_false]
    omega
  rw [neededSize_eq bound, length]
  rfl

/-- Where a drained ring would not do, no position of the reader does. -/
theorem reserve_refused {readOffset : Nat} {info : WriteInfo} {packet : Packet}
    (bounded : Bounded bufSize readOffset info.cursor)
    (fits : (frame packet).length + overrunPacketSize ≤ bufSize)
    (stuck : ¬ RestOk info.writeOffset (frame packet).length) :
    reserveSpaceAndWriteHeader readOffset info (sizeCalculator packet) false = none := by
  obtain ⟨readLe, writeLe, wrapLe, -⟩ := bounded
  simp only [WriteInfo.cursor_write, WriteInfo.cursor_wrap] at readLe writeLe wrapLe
  have room : sizeSub bufSize info.writeOffset = bufSize - info.writeOffset :=
    sizeSub_eq (by omega) (by decide)
  simp only [RestOk, not_or] at stuck
  rw [reserveSpaceAndWriteHeader, (neededSize_of_fits fits).1, Option.map_eq_none_iff, place, room]
  by_cases lapped : info.writeOffset < readOffset
  · rw [if_pos lapped, if_neg (by omega)]
  · rw [if_neg lapped, if_neg (by omega), if_neg (by omega)]

theorem reserve_drained {info : WriteInfo} {packet : Packet} (bound : info.writeOffset ≤ bufSize)
    (fits : (frame packet).length + overrunPacketSize ≤ bufSize)
    (rest : RestOk info.writeOffset (frame packet).length) :
    ∃ reservation, reserveSpaceAndWriteHeader info.writeOffset info (sizeCalculator packet) false =
      some reservation := by
  have room : sizeSub bufSize info.writeOffset = bufSize - info.writeOffset :=
    sizeSub_eq bound (by decide)
  simp only [RestOk] at rest
  rw [reserveSpaceAndWriteHeader, (neededSize_of_fits fits).1, place, room,
    if_neg (Nat.lt_irrefl _)]
  by_cases behind : (frame packet).length + overrunPacketSize ≤ bufSize - info.writeOffset
  · rw [if_pos behind]
    exact ⟨_, rfl⟩
  · rw [if_neg behind, if_pos (by omega)]
    exact ⟨_, rfl⟩

/-- The game thread waits for a packet that the rest position has no room for. -/
structure Stuck (packet : Packet) (state : State) : Prop where
  invariant : Invariant state
  waiting : Waiting packet state
  enabled : state.enableBackpressure = true
  noRest : ¬ RestOk state.writeInfo.writeOffset (frame packet).length

/-- Nothing the hose thread does, and no further evaluation of the size tests,
ends the wait. -/
theorem stuck_step {packet : Packet} {before after : State} {label : Label}
    (fits : (frame packet).length + overrunPacketSize ≤ bufSize) (stuck : Stuck packet before)
    (kept : label ≠ .setEnableBackpressure false)
    (stepped : step before label = some after) : Stuck packet after := by
  have invariant := step_invariant stuck.invariant stepped
  have waiting := stuck.waiting
  have enabled := stuck.enabled
  have noRest := stuck.noRest
  simp only [Waiting] at waiting
  cases transition_of_step stepped with
  | writePacket at_idle => simp only [at_idle] at waiting
  | @loadReadOffset held forOverrun at_retry =>
      cases forOverrun with
      | true => simp only [at_retry] at waiting
      | false =>
          simp only [at_retry] at waiting
          exact ⟨invariant, waiting, enabled, noRest⟩
  | @reserved held forOverrun readOffset reservation at_loaded reserved =>
      cases forOverrun with
      | true => simp only [at_loaded] at waiting
      | false =>
          have known := stuck.invariant.writer
          simp only [WriterOk, at_loaded] at known
          simp only [at_loaded] at waiting
          subst waiting
          have refused := reserve_refused known.1 fits noRest
          simp [refused] at reserved
  | @refused held forOverrun readOffset at_loaded refused =>
      cases forOverrun with
      | true => simp only [at_loaded] at waiting
      | false =>
          simp only [at_loaded] at waiting
          exact ⟨invariant, waiting, enabled, noRest⟩
  | backpressured at_refused _ =>
      simp only [at_refused] at waiting
      exact ⟨invariant, waiting, enabled, noRest⟩
  | dropped at_refused disabled | overrun at_refused disabled =>
      simp [disabled] at enabled
  | wake at_backpressured =>
      simp only [at_backpressured] at waiting
      exact ⟨invariant, waiting, enabled, noRest⟩
  | storeByte at_storing | publish at_storing | reject at_storing =>
      simp only [at_storing] at waiting
  | @setEnableBackpressure enable =>
      cases enable with
      | true => exact ⟨invariant, waiting, rfl, noRest⟩
      | false => exact absurd rfl kept
  | loadWriteInfo | pickUp | iterate | dropBuffer | acceptByte | sendReturns | sendFails |
      storeReadOffset | overran | pushFd =>
      exact ⟨invariant, waiting, enabled, noRest⟩

theorem stuck_run {packet : Packet} {before after : State} {labels : List Label}
    (fits : (frame packet).length + overrunPacketSize ≤ bufSize) (stuck : Stuck packet before)
    (kept : ∀ label ∈ labels, label ≠ .setEnableBackpressure false)
    (ran : Machine.run step before labels = some after) : Stuck packet after := by
  refine Machine.run_preserves_along ?_ stuck
    (Machine.Along.of_forall (fun _ label member => kept label member) before) ran
  intro before label after stuck kept stepped
  exact stuck_step fits stuck kept stepped

section Discard

variable (state : State) (at_idle : state.reader = .idle) (nobody : state.curFd = none)
  (none_pushed : state.newFd = none) (ordered : state.writeInfo.writeOffset ≤ state.writeInfo.wrapOffset)
  (inside : state.writeInfo.wrapOffset ≤ bufSize)

include at_idle nobody none_pushed ordered inside

/-- With nobody to send to, an iteration that comes to the end drains the ring. -/
theorem run_iterate (iterated : ∀ current : State, current.curFd = none →
      doIter current state.writeInfo state.readOffset = .sent state.writeInfo.writeOffset) :
    Machine.run step state [.loadWriteInfo, .exchangeFd, .storeReadOffset] =
      some { state with readOffset := state.writeInfo.writeOffset, reader := .idle } := by
  have end_inside : state.writeInfo.writeOffset ≤ bufSize := Nat.le_trans ordered inside
  simp [Machine.run, step, at_idle, none_pushed, nobody, iterated, end_inside]

/-- One iteration drains a ring that has not wrapped. -/
theorem run_discard (some_pending : state.readOffset < state.writeInfo.writeOffset) :
    Machine.run step state [.loadWriteInfo, .exchangeFd, .storeReadOffset] =
      some { state with readOffset := state.writeInfo.writeOffset, reader := .idle } := by
  refine run_iterate state at_idle nobody none_pushed ordered inside fun current nobody => ?_
  have asserted : state.readOffset ≤ state.writeInfo.wrapOffset ∧
      state.writeInfo.writeOffset ≤ state.writeInfo.wrapOffset ∧
      state.writeInfo.wrapOffset ≤ bufSize := ⟨by omega, ordered, inside⟩
  have low : state.writeInfo.writeOffset < 2 ^ 32 :=
    Nat.lt_of_le_of_lt (Nat.le_trans ordered inside) (by decide)
  have all : state.readOffset + (state.writeInfo.writeOffset - state.readOffset) =
      state.writeInfo.writeOffset := by omega
  rw [doIter, if_neg (not_not.mpr asserted), if_neg (by omega), if_neg (by omega)]
  simp only [some_pending, if_pos, nobody, all, Nat.mod_eq_of_lt low]

/-- One iteration drains a ring that has wrapped where the reader is. -/
theorem run_discard_wrapped (at_wrap : state.readOffset = state.writeInfo.wrapOffset)
    (some_pending : 0 < state.writeInfo.writeOffset)
    (behind : state.writeInfo.writeOffset < state.writeInfo.wrapOffset) :
    Machine.run step state [.loadWriteInfo, .exchangeFd, .storeReadOffset] =
      some { state with readOffset := state.writeInfo.writeOffset, reader := .idle } := by
  refine run_iterate state at_idle nobody none_pushed ordered inside fun current nobody => ?_
  have asserted : state.readOffset ≤ state.writeInfo.wrapOffset ∧
      state.writeInfo.writeOffset ≤ state.writeInfo.wrapOffset ∧
      state.writeInfo.wrapOffset ≤ bufSize := ⟨by omega, ordered, inside⟩
  have low : state.writeInfo.writeOffset < 2 ^ 32 :=
    Nat.lt_of_le_of_lt (Nat.le_trans ordered inside) (by decide)
  rw [doIter, if_neg (not_not.mpr asserted), if_neg (by omega), if_pos at_wrap]
  simp only [some_pending, if_pos, nobody, Nat.sub_zero, Nat.zero_add, Nat.mod_eq_of_lt low]

end Discard

/-- A packet of a given size, however large. -/
theorem packet_of_size {size : Nat} (bound : size ≤ sizeMax) : ∃ packet, sizeCalculator packet = size :=
  ⟨_, sizeCalculator_replicate size bound 0⟩

/-- Once the ring is drained, the next evaluation of the size tests accepts a
packet exactly where the rest position has room for it.  Where it has none, no
run on which backpressure stays enabled leaves the retry loop. -/
theorem backpressure_exits_iff {labels : List Label} {state : State} {packet : Packet}
    (ran : Machine.run step initial labels = some state)
    (fits : (frame packet).length + overrunPacketSize ≤ bufSize) :
    (state.readOffset = state.writeInfo.writeOffset →
        ((∃ reservation, reserveSpaceAndWriteHeader state.readOffset state.writeInfo
            (sizeCalculator packet) false = some reservation) ↔
          RestOk state.writeInfo.writeOffset (frame packet).length)) ∧
      (Waiting packet state → state.enableBackpressure = true →
        ¬ RestOk state.writeInfo.writeOffset (frame packet).length →
        ∀ later after, (∀ label ∈ later, label ≠ .setEnableBackpressure false) →
          Machine.run step state later = some after → Waiting packet after) := by
  have invariant := run_invariant ran
  have bounded : Bounded bufSize state.readOffset state.writeInfo.cursor := invariant.bounded
  constructor
  · intro drained
    constructor
    · intro ⟨reservation, reserved⟩
      by_contra noRest
      have refused := reserve_refused bounded fits noRest
      simp [refused] at reserved
    · intro rest
      rw [drained]
      exact reserve_drained (Nat.le_trans bounded.write_le bounded.wrap_le) fits rest
  · intro waiting enabled noRest later after kept rest
    exact (stuck_run fits ⟨invariant, waiting, enabled, noRest⟩ kept rest).waiting

/-- After a frame of 1.5 MiB and then, in front of it, one of 1 MiB, both drained, a
small packet is accepted and one of 1048580 bytes is not. -/
theorem backpressure_exits_wrapped :
    ∃ labels state, Machine.run step initial labels = some state ∧
      state.readOffset = 1048576 ∧ state.writeInfo = ⟨1048576, 1572864, false⟩ ∧
      (∃ reservation, reserveSpaceAndWriteHeader state.readOffset state.writeInfo (sizeCalculator [[1]]) false =
        some reservation) ∧
      ∃ packet, (frame packet).length = 1048580 ∧
        ¬ ∃ reservation, reserveSpaceAndWriteHeader state.readOffset state.writeInfo (sizeCalculator packet) false =
          some reservation := by
  obtain ⟨first, firstSize⟩ : ∃ packet, sizeCalculator packet = 1572854 := packet_of_size (by decide)
  obtain ⟨second, secondSize⟩ : ∃ packet, sizeCalculator packet = 1048566 := packet_of_size (by decide)
  obtain ⟨large, largeSize⟩ : ∃ packet, sizeCalculator packet = 1048570 := packet_of_size (by decide)
  have reserved : reserveSpaceAndWriteHeader 0 initial.writeInfo (sizeCalculator first) false =
      some ⟨0, ⟨1572864, bufSize, false⟩⟩ := by
    rw [firstSize]
    rfl
  obtain ⟨publishing, buf, published⟩ := run_publish initial rfl reserved
  have drained := run_discard { initial with
    buf
    writeInfo := ⟨1572864, bufSize, false⟩
    log := [.published false first] } rfl rfl rfl (show 1572864 ≤ bufSize by decide) (Nat.le_refl _)
      (show 0 < 1572864 by decide)
  have wraps : reserveSpaceAndWriteHeader 1572864 ⟨1572864, bufSize, false⟩ (sizeCalculator second) false =
      some ⟨0, ⟨1048576, 1572864, false⟩⟩ := by
    rw [secondSize]
    rfl
  obtain ⟨wrapping, buf', wrapped⟩ := run_publish { initial with
    buf
    readOffset := 1572864
    writeInfo := ⟨1572864, bufSize, false⟩
    log := [.published false first] } rfl wraps
  have emptied := run_discard_wrapped { initial with
    buf := buf'
    readOffset := 1572864
    writeInfo := ⟨1048576, 1572864, false⟩
    log := [.published false first, .published false second] } rfl rfl rfl (show 1048576 ≤ 1572864 by decide)
      (show 1572864 ≤ bufSize by decide) rfl (show 0 < 1048576 by decide) (show 1048576 < 1572864 by decide)
  have ran := Machine.run_trans (Machine.run_trans published drained) (Machine.run_trans wrapped emptied)
  have length : (frame large).length = 1048580 := by
    rw [frame_length large (by rw [largeSize]; decide), largeSize]
    decide
  have accepts : RestOk 1048576 (frame [[1]]).length := by decide
  have refuses : ¬ RestOk 1048576 1048580 := by decide
  refine ⟨_, _, ran, rfl, rfl, ?_, large, length, ?_⟩
  · exact ((@backpressure_exits_iff _ _ [[1]] ran (by decide)).1 rfl).mpr accepts
  · rw [(@backpressure_exits_iff _ _ large ran (by rw [length]; decide)).1 rfl, length]
    exact refuses

/-- After a frame of 1 MiB has been drained, one of 1048580 bytes, which is
less than the buffer holds, is refused at every evaluation. -/
theorem backpressure_hangs :
    ∃ labels state packet, Machine.run step initial labels = some state ∧
      Waiting packet state ∧ state.enableBackpressure = true ∧
      state.readOffset = state.writeInfo.writeOffset ∧
      (frame packet).length + overrunPacketSize ≤ bufSize ∧
      reserveSpaceAndWriteHeader state.readOffset state.writeInfo (sizeCalculator packet) false =
        none := by
  obtain ⟨first, firstSize⟩ : ∃ packet, sizeCalculator packet = 1048566 := packet_of_size (by decide)
  obtain ⟨second, secondSize⟩ : ∃ packet, sizeCalculator packet = 1048570 := packet_of_size (by decide)
  have refused : reserveSpaceAndWriteHeader 1048576 ⟨1048576, bufSize, false⟩ 1048570 false =
      none := rfl
  have enabled : Machine.run step initial [.setEnableBackpressure true] =
      some { initial with enableBackpressure := true } := rfl
  have reserved : reserveSpaceAndWriteHeader 0 initial.writeInfo (sizeCalculator first) false =
      some ⟨0, ⟨1048576, bufSize, false⟩⟩ := by
    rw [firstSize]
    rfl
  obtain ⟨publishing, buf, published⟩ :=
    run_publish { initial with enableBackpressure := true } rfl reserved
  have drained := run_discard { initial with
    buf
    enableBackpressure := true
    writeInfo := ⟨1048576, bufSize, false⟩
    log := [.published false first] } rfl rfl rfl (show 1048576 ≤ bufSize by decide) (Nat.le_refl _)
      (show 0 < 1048576 by decide)
  have ran := Machine.run_trans (Machine.run_trans enabled published) drained
  have called := Machine.run_snoc_iff.mpr ⟨_, ran, Eq.refl (step _ (.writePacket second))⟩
  refine ⟨_, _, second, called, rfl, rfl, rfl, ?_, ?_⟩
  · rw [frame_length second (by rw [secondSize]; decide), secondSize]
    decide
  · rw [secondSize]
    exact refused

end Smmboss.Hose
