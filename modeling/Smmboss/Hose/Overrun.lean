import Smmboss.Foundation.Segments
import Smmboss.Hose.Stream

namespace Smmboss.Hose

open Smmboss.Ring (Bounded Forward Room Spare)

/-! # Overrun reports -/

def Event.normal : Event → Bool
  | .published false _ => true
  | _ => false

def Event.overrun : Event → Bool
  | .published true _ => true
  | _ => false

/-- One report for all the packets dropped in a segment, none without. -/
def Reported (segment : List Event) : Prop :=
  segment.countP Event.overrun = if .dropped ∈ segment then 1 else 0

/-- What was published and dropped since the last normal packet. -/
def State.segment (state : State) : List Event := Segments.since Event.normal state.log

/-- No report is outstanding, and the bit in `write_info_` says whether the
last published packet is one. -/
structure Settled (state : State) : Prop where
  reported : Reported state.segment
  flag : state.writeInfo.justWroteOverrun = true ↔ .dropped ∈ state.segment

/-- A packet has just been dropped, and `write_overrun` is under way. -/
structure Owed (state : State) : Prop where
  flag : state.writeInfo.justWroteOverrun = false
  dropped : .dropped ∈ state.segment
  unreported : state.segment.countP Event.overrun = 0

/-- What holds at each point of `write_packet` and of the nested call. -/
def CallOk (state : State) : Prop :=
  match state.writer with
  | .retry packet forOverrun =>
      if forOverrun then packet = overrunPacket ∧ Owed state else Settled state
  | .loaded packet forOverrun readOffset =>
      if forOverrun then
        packet = overrunPacket ∧ Owed state ∧
          Spare bufSize readOffset state.cursor overrunPacketSize
      else Settled state
  | .storing packet forOverrun next _ =>
      next.justWroteOverrun = forOverrun ∧
        if forOverrun then packet = overrunPacket ∧ Owed state
        else Settled state ∧ ∃ start wider,
          Room bufSize state.readOffset state.cursor start (frame packet).length next.cursor ∧
            Room bufSize state.readOffset state.cursor start
              ((frame packet).length + overrunPacketSize) wider
  | .aborted => False
  | .idle | .refused _ | .backpressured _ => Settled state

/-- Every normal packet leaves room for a report behind it. -/
structure OverrunInvariant (state : State) : Prop where
  spare : state.writeInfo.justWroteOverrun = false →
    Spare bufSize state.readOffset state.cursor overrunPacketSize
  call : CallOk state
  reports : ∀ packet, .published true packet ∈ state.log → packet = overrunPacket
  between : Segments.Between Event.normal Reported state.log

theorem initial_overrunInvariant : OverrunInvariant initial where
  spare := fun _ => by
    simp [Spare, State.cursor, initial, bufSize, overrunPacketSize]
  call := ⟨rfl, by simp [initial, State.segment]⟩
  reports := by simp [initial]
  between := Segments.Between.nil _ _

/-- Ten spare bytes are all that an overrun packet needs. -/
theorem overrun_reserved {readOffset : Nat} {info : WriteInfo}
    (bounded : Bounded bufSize readOffset info.cursor)
    (spare : Spare bufSize readOffset info.cursor overrunPacketSize) :
    ∃ reservation, reserveSpaceAndWriteHeader readOffset info (sizeCalculator overrunPacket) true =
      some reservation := by
  have needed : neededSize overrunPacketSize true = overrunPacketSize := rfl
  have wrapLe := Nat.le_trans bounded.write_le bounded.wrap_le
  simp only [WriteInfo.cursor_write] at wrapLe
  have room : sizeSub bufSize info.writeOffset = bufSize - info.writeOffset :=
    sizeSub_eq wrapLe (by decide)
  simp only [reserveSpaceAndWriteHeader, addWsHeaderSize_overrunPacket, needed, place, room]
  simp only [Spare, WriteInfo.cursor_write] at spare
  by_cases linear : readOffset ≤ info.writeOffset
  · simp only [linear, if_pos] at spare
    rw [if_neg (by omega), if_pos (by omega)]
    exact ⟨_, rfl⟩
  · simp only [linear, if_false] at spare
    rw [if_pos (by omega), if_pos (by omega)]
    exact ⟨_, rfl⟩

/-- The reserve of a normal packet lies behind its frame. -/
theorem reserve_wide {readOffset : Nat} {info : WriteInfo} {packet : Packet}
    {reservation : Reservation}
    (bounded : Bounded bufSize readOffset info.cursor)
    (reserved : reserveSpaceAndWriteHeader readOffset info (sizeCalculator packet) false =
      some reservation) :
    ∃ wider, Room bufSize readOffset info.cursor reservation.header
      ((frame packet).length + overrunPacketSize) wider := by
  simp only [reserveSpaceAndWriteHeader, Option.map_eq_some_iff] at reserved
  obtain ⟨placed, found, rfl⟩ := reserved
  have needed := place_le_bufSize bounded found
  have below : bufSize < sizeMax := by decide
  have exactNeeded := neededSize_eq (Nat.lt_of_le_of_lt needed below)
  have fullLe := fullSize_le_neededSize false (addWsHeaderSize_le (sizeCalculator packet))
  rw [exactNeeded] at found
  rw [frame_length packet (by omega)]
  have whole : place readOffset info
      (addWsHeaderSize (sizeCalculator packet) + overrunPacketSize + 0) = some placed := found
  exact ⟨_, place_room false bounded whole⟩

theorem Settled.append_dropped {before after : State} (settled : Settled before)
    (flag : before.writeInfo.justWroteOverrun = true)
    (writeInfo : after.writeInfo = before.writeInfo)
    (log : after.log = before.log ++ [.dropped]) : Settled after := by
  have dropped : .dropped ∈ before.segment := settled.flag.mp flag
  have reported := settled.reported
  have segment : after.segment = before.segment ++ [.dropped] := by
    rw [State.segment, log, Segments.since_snoc]
    rfl
  constructor
  · simp only [Reported, dropped, if_pos] at reported
    simp [Reported, segment, reported, Event.overrun]
  · simp [writeInfo, flag, segment]

theorem Settled.owed {before after : State} (settled : Settled before)
    (flag : before.writeInfo.justWroteOverrun = false)
    (writeInfo : after.writeInfo = before.writeInfo)
    (log : after.log = before.log ++ [.dropped]) : Owed after := by
  have absent : .dropped ∉ before.segment := by
    intro dropped
    have flagged := settled.flag.mpr dropped
    simp [flag] at flagged
  have reported := settled.reported
  simp only [Reported, absent, if_false] at reported
  have segment : after.segment = before.segment ++ [.dropped] := by
    rw [State.segment, log, Segments.since_snoc]
    rfl
  refine ⟨writeInfo ▸ flag, by simp [segment], ?_⟩
  rw [segment, List.countP_append, reported]
  rfl

theorem Owed.settled {before after : State} (owed : Owed before)
    (flag : after.writeInfo.justWroteOverrun = true)
    (log : after.log = before.log ++ [.published true packet]) : Settled after := by
  have segment : after.segment = before.segment ++ [.published true packet] := by
    rw [State.segment, log, Segments.since_snoc]
    rfl
  have dropped : .dropped ∈ after.segment := by simp [segment, owed.dropped]
  refine ⟨?_, by simp only [flag, dropped]⟩
  simp only [Reported, dropped, if_pos]
  rw [segment, List.countP_append, owed.unreported]
  rfl

theorem Settled.restart {after : State} {log : List Event}
    (flag : after.writeInfo.justWroteOverrun = false)
    (same : after.log = log ++ [.published false packet]) : Settled after := by
  have segment : after.segment = [] := by
    rw [State.segment, same, Segments.since_snoc]
    rfl
  constructor
  · simp [Reported, segment]
  · simp [flag, segment]

theorem Settled.same {before after : State} (settled : Settled before)
    (writeInfo : after.writeInfo = before.writeInfo) (log : after.log = before.log) :
    Settled after := by
  constructor
  · simpa only [State.segment, log] using settled.reported
  · simpa only [State.segment, log, writeInfo] using settled.flag

theorem Owed.same {before after : State} (owed : Owed before)
    (writeInfo : after.writeInfo = before.writeInfo) (log : after.log = before.log) :
    Owed after := by
  constructor
  · simpa only [writeInfo] using owed.flag
  · simpa only [State.segment, log] using owed.dropped
  · simpa only [State.segment, log] using owed.unreported

/-- What the game thread relies on survives any move of the reader. -/
theorem CallOk.moved {before after : State} (call : CallOk before)
    (bounded : Bounded bufSize before.readOffset before.cursor)
    (writer : after.writer = before.writer) (writeInfo : after.writeInfo = before.writeInfo)
    (log : after.log = before.log)
    (forward : Forward before.cursor before.readOffset after.readOffset) : CallOk after := by
  have cursor : after.cursor = before.cursor := by rw [State.cursor, writeInfo, State.cursor]
  simp only [CallOk, writer, cursor] at call ⊢
  cases at_call : before.writer with
  | storing packet forOverrun next stores =>
      simp only [at_call] at call
      refine ⟨call.1, ?_⟩
      cases forOverrun with
      | true => exact ⟨call.2.1, call.2.2.same writeInfo log⟩
      | false =>
          obtain ⟨-, settled, start, wider, room, wide⟩ := call
          exact ⟨settled.same writeInfo log, start, wider, room.forward bounded forward,
            wide.forward bounded forward⟩
  | retry packet forOverrun =>
      simp only [at_call] at call
      cases forOverrun with
      | true => exact ⟨call.1, call.2.same writeInfo log⟩
      | false => exact Settled.same call writeInfo log
  | loaded packet forOverrun copied =>
      simp only [at_call] at call
      cases forOverrun with
      | true => exact ⟨call.1, call.2.1.same writeInfo log, call.2.2⟩
      | false => exact Settled.same call writeInfo log
  | aborted => simp only [at_call] at call
  | idle | refused | backpressured =>
      simp only [at_call] at call
      exact call.same writeInfo log

theorem OverrunInvariant.moved {before after : State} (reports : OverrunInvariant before)
    (invariant : Invariant before)
    (writer : after.writer = before.writer) (writeInfo : after.writeInfo = before.writeInfo)
    (log : after.log = before.log)
    (forward : Forward before.cursor before.readOffset after.readOffset) :
    OverrunInvariant after where
  spare flag := by
    rw [State.cursor, writeInfo]
    exact (reports.spare (writeInfo ▸ flag)).forward invariant.bounded forward
  call := reports.call.moved invariant.bounded writer writeInfo log forward
  reports := by
    rw [log]
    exact reports.reports
  between := by
    rw [log]
    exact reports.between

/-- A drop, or an overrun packet, belongs to the segment that is open. -/
theorem OverrunInvariant.extended {before after : State} {event : Event}
    (reports : OverrunInvariant before)
    (readOffset : after.readOffset = before.readOffset)
    (writeInfo : after.writeInfo = before.writeInfo ∨ after.writeInfo.justWroteOverrun = true)
    (log : after.log = before.log ++ [event]) (inside : event.normal = false)
    (report : ∀ packet, event = .published true packet → packet = overrunPacket)
    (call : CallOk after) : OverrunInvariant after where
  spare flag := by
    rcases writeInfo with same | raised
    · rw [State.cursor, same, readOffset]
      exact reports.spare (same ▸ flag)
    · simp [raised] at flag
  call := call
  reports packet member := by
    rw [log, List.mem_append, List.mem_singleton] at member
    rcases member with older | newest
    · exact reports.reports packet older
    · exact report packet newest.symm
  between := by
    rw [log]
    exact reports.between.snoc Event.normal fun marked => by simp [inside] at marked

theorem step_overrunInvariant {before after : State} {label : Label}
    (invariant : Invariant before) (reports : OverrunInvariant before)
    (stepped : step before label = some after) : OverrunInvariant after := by
  have call := reports.call
  simp only [CallOk] at call
  cases transition_of_step stepped with
  | writePacket at_idle =>
      simp only [at_idle] at call
      exact { reports with call := call.same rfl rfl }
  | @loadReadOffset packet forOverrun at_retry =>
      simp only [at_retry] at call
      refine { reports with call := ?_ }
      cases forOverrun with
      | true => exact ⟨call.1, call.2.same rfl rfl, reports.spare call.2.flag⟩
      | false => exact Settled.same call rfl rfl
  | @reserved packet forOverrun readOffset reservation at_loaded reserved =>
      have known := invariant.writer
      simp only [WriterOk, at_loaded] at known
      obtain ⟨bounded, forward⟩ := known
      obtain ⟨room, -, flag⟩ := reserve_room bounded reserved
      simp only [at_loaded] at call
      refine { reports with call := ⟨flag, ?_⟩ }
      cases forOverrun with
      | true => exact ⟨call.1, call.2.1.same rfl rfl⟩
      | false =>
          obtain ⟨wider, wide⟩ := reserve_wide bounded reserved
          exact ⟨Settled.same call rfl rfl, reservation.header, wider, room.forward bounded forward,
            wide.forward bounded forward⟩
  | @refused packet forOverrun readOffset at_loaded refused =>
      have known := invariant.writer
      simp only [WriterOk, at_loaded] at known
      simp only [at_loaded] at call
      refine { reports with call := ?_ }
      cases forOverrun with
      | true =>
          obtain ⟨rfl, _, spare⟩ := call
          obtain ⟨reservation, reserved⟩ := overrun_reserved known.1 spare
          simp [refused] at reserved
      | false => exact Settled.same call rfl rfl
  | backpressured at_refused enabled =>
      simp only [at_refused] at call
      exact { reports with call := call.same rfl rfl }
  | dropped at_refused disabled after_overrun =>
      simp only [at_refused] at call
      refine reports.extended rfl (.inl rfl) rfl rfl (by simp) ?_
      exact call.append_dropped after_overrun rfl rfl
  | overrun at_refused disabled after_normal =>
      simp only [at_refused] at call
      refine reports.extended rfl (.inl rfl) rfl rfl (by simp) ?_
      exact ⟨rfl, call.owed after_normal rfl rfl⟩
  | wake at_backpressured =>
      simp only [at_backpressured] at call
      exact { reports with call := call.same rfl rfl }
  | @storeByte packet forOverrun next byte address stores at_storing =>
      simp only [at_storing] at call
      refine { reports with call := ⟨call.1, ?_⟩ }
      cases forOverrun with
      | true => exact ⟨call.2.1, call.2.2.same rfl rfl⟩
      | false => exact ⟨call.2.1.same rfl rfl, call.2.2⟩
  | @publish packet forOverrun next at_storing =>
      simp only [at_storing] at call
      obtain ⟨flag, call⟩ := call
      cases forOverrun with
      | true =>
          obtain ⟨rfl, owed⟩ := call
          refine reports.extended rfl (.inr flag) rfl rfl ?_ (owed.settled flag rfl)
          intro packet same
          cases same
          rfl
      | false =>
          obtain ⟨settled, start, wider, room, wide⟩ := call
          constructor
          · intro _
            exact room.spare wide
          · exact Settled.restart flag rfl
          · intro other member
            simp only [List.mem_append, List.mem_singleton, Event.published.injEq,
              Bool.true_eq_false, false_and, or_false] at member
            exact reports.reports other member
          · exact reports.between.snoc Event.normal fun _ => settled.reported
  | reject at_storing =>
      simp only [at_storing] at call
      exact { reports with call := call.2.1.same rfl rfl }
  | dropBuffer at_pickedUp =>
      refine reports.moved invariant rfl rfl rfl ?_
      simpa only [State.position, at_pickedUp] using invariant.position_forward
  | storeReadOffset at_sent inside =>
      refine reports.moved invariant rfl rfl rfl ?_
      simpa only [State.position, at_sent] using invariant.position_forward
  | loadWriteInfo | pickUp | iterate | acceptByte | sendReturns | sendFails | overran | pushFd |
      setEnableBackpressure =>
      exact reports.moved invariant rfl rfl rfl (Forward.refl invariant.bounded.read_le)

theorem run_overrunInvariant {labels : List Label} {state : State}
    (ran : Machine.run step initial labels = some state) : OverrunInvariant state := by
  have preserved : ∀ {before label after}, Invariant before ∧ OverrunInvariant before →
      step before label = some after → Invariant after ∧ OverrunInvariant after := by
    intro before label after ⟨invariant, reports⟩ stepped
    exact ⟨step_invariant invariant stepped, step_overrunInvariant invariant reports stepped⟩
  exact (Machine.run_preserves preserved ⟨initial_invariant, initial_overrunInvariant⟩ ran).2

theorem overrun_mem_iff (segment : List Event) :
    0 < segment.countP Event.overrun ↔ ∃ packet, .published true packet ∈ segment := by
  rw [List.countP_pos_iff]
  constructor
  · intro ⟨event, member, marked⟩
    cases event with
    | published forOverrun packet =>
        cases forOverrun with
        | true => exact ⟨packet, member⟩
        | false => simp [Event.overrun] at marked
    | dropped => simp [Event.overrun] at marked
  · intro ⟨packet, member⟩
    exact ⟨_, member, rfl⟩

theorem Settled.flag_iff {state : State} (settled : Settled state) :
    state.writeInfo.justWroteOverrun = true ↔ ∃ packet, .published true packet ∈ state.segment := by
  have reported := settled.reported
  rw [settled.flag, ← overrun_mem_iff, reported]
  split <;> simp [*]

theorem Owed.flag_iff {state : State} (owed : Owed state) :
    state.writeInfo.justWroteOverrun = true ↔ ∃ packet, .published true packet ∈ state.segment := by
  rw [← overrun_mem_iff, owed.unreported, owed.flag]
  simp

/-- The bit in `write_info_` says whether the last published packet is an
overrun packet. -/
theorem CallOk.flag_iff {state : State} (call : CallOk state) :
    state.writeInfo.justWroteOverrun = true ↔ ∃ packet, .published true packet ∈ state.segment := by
  simp only [CallOk] at call
  cases at_call : state.writer with
  | retry packet forOverrun =>
      simp only [at_call] at call
      cases forOverrun with
      | true => exact call.2.flag_iff
      | false => exact Settled.flag_iff call
  | loaded packet forOverrun readOffset =>
      simp only [at_call] at call
      cases forOverrun with
      | true => exact call.2.1.flag_iff
      | false => exact Settled.flag_iff call
  | storing packet forOverrun next stores =>
      simp only [at_call] at call
      cases forOverrun with
      | true => exact call.2.2.flag_iff
      | false => exact call.2.1.flag_iff
  | aborted => simp only [at_call] at call
  | idle | refused | backpressured =>
      simp only [at_call] at call
      exact call.flag_iff

theorem sizeCalculator_replicate (count : Nat) (bound : count ≤ sizeMax) (byte : UInt8) :
    sizeCalculator [List.replicate count byte] = count := by
  rw [sizeCalculator_eq]
  simp [actualWriter, bound]

/-! ## Calls that go through -/

theorem run_storeBytes (state : State) {packet : Packet} {forOverrun : Bool} {next : WriteInfo}
    {stores : List (UInt8 × Nat)}
    (at_storing : state.writer = .storing packet forOverrun next stores) :
    ∃ buf, Machine.run step state (List.replicate stores.length .storeByte) =
      some { state with buf, writer := .storing packet forOverrun next [] } := by
  induction stores generalizing state with
  | nil =>
      refine ⟨state.buf, ?_⟩
      rw [← at_storing]
      rfl
  | cons store stores ih =>
      obtain ⟨byte, address⟩ := store
      have stored : step state .storeByte = some { state with
          buf := Function.update state.buf address byte
          writer := .storing packet forOverrun next stores } := by
        simp only [step, at_storing]
      obtain ⟨buf, rest⟩ := ih { state with
          buf := Function.update state.buf address byte
          writer := .storing packet forOverrun next stores } rfl
      refine ⟨buf, ?_⟩
      rw [List.length_cons, List.replicate_succ, Machine.run_cons_iff]
      exact ⟨_, stored, rest⟩

/-- A packet that can be reserved can be published. -/
theorem run_publish (state : State) {packet : Packet} {reservation : Reservation}
    (at_idle : state.writer = .idle)
    (reserved : reserveSpaceAndWriteHeader state.readOffset state.writeInfo
      (sizeCalculator packet) false = some reservation) :
    ∃ labels buf, Machine.run step state labels = some { state with
      buf
      writer := .idle
      writeInfo := reservation.next
      log := state.log ++ [.published false packet] } := by
  have started : Machine.run step state [.writePacket packet, .loadReadOffset, .reserve] =
      some { state with
        writer := .storing packet false reservation.next (reservation.stores packet) } := by
    simp [Machine.run, step, at_idle, reserved]
  obtain ⟨buf, stored⟩ := run_storeBytes { state with
    writer := .storing packet false reservation.next (reservation.stores packet) } rfl
  have finished : step { state with
      buf, writer := .storing packet false reservation.next [] } (.finish true) =
        some { state with
          buf
          writer := .idle
          writeInfo := reservation.next
          log := state.log ++ [.published false packet] } := rfl
  exact ⟨_, buf, Machine.run_trans (Machine.run_trans started stored) (Machine.run_one finished)⟩

/-- The overrun packet of a nested call is published. -/
theorem run_report (state : State) {reservation : Reservation}
    (at_retry : state.writer = .retry overrunPacket true)
    (reserved : reserveSpaceAndWriteHeader state.readOffset state.writeInfo
      (sizeCalculator overrunPacket) true = some reservation) :
    ∃ labels buf, Machine.run step state labels = some { state with
      buf
      writer := .idle
      writeInfo := reservation.next
      log := state.log ++ [.published true overrunPacket] } := by
  have started : Machine.run step state [.loadReadOffset, .reserve] = some { state with
      writer := .storing overrunPacket true reservation.next (reservation.stores overrunPacket) } := by
    simp [Machine.run, step, at_retry, reserved]
  obtain ⟨buf, stored⟩ := run_storeBytes { state with
    writer := .storing overrunPacket true reservation.next (reservation.stores overrunPacket) } rfl
  have finished : step { state with
      buf, writer := .storing overrunPacket true reservation.next [] } (.finish true) =
        some { state with
          buf
          writer := .idle
          writeInfo := reservation.next
          log := state.log ++ [.published true overrunPacket] } := rfl
  exact ⟨_, buf, Machine.run_trans (Machine.run_trans started stored) (Machine.run_one finished)⟩

/-- In every run the nested reservation of `write_overrun` finds room, so its
assertion holds, and between two consecutive normal packets there is one
overrun packet if packets were dropped there, and none otherwise. -/
theorem overrun_reported {labels : List Label} {state : State}
    (ran : Machine.run step initial labels = some state) :
    (∀ packet readOffset, state.writer = .loaded packet true readOffset →
        ∃ reservation, reserveSpaceAndWriteHeader readOffset state.writeInfo
          (sizeCalculator packet) true = some reservation) ∧
      state.writer ≠ .aborted ∧
      (state.writeInfo.justWroteOverrun = true ↔
        ∃ packet, .published true packet ∈ state.segment) ∧
      (∀ packet, .published true packet ∈ state.log → packet = overrunPacket) ∧
      Segments.Between Event.normal Reported state.log := by
  have reports := run_overrunInvariant ran
  have call := reports.call
  simp only [CallOk] at call
  refine ⟨?_, ?_, reports.call.flag_iff, reports.reports, reports.between⟩
  · intro packet readOffset at_loaded
    simp only [at_loaded] at call
    obtain ⟨rfl, owed, spare⟩ := call
    have known := (run_invariant ran).writer
    simp only [WriterOk, at_loaded] at known
    exact overrun_reserved known.1 spare
  · intro aborted
    simp only [aborted] at call

/-- Between two small packets, one as long as the buffer is dropped. -/
theorem overrun_reported_between :
    ∃ labels state, Machine.run step initial labels = some state ∧
      state.log = [.published false [[1]], .dropped, .published true overrunPacket, .published false [[2]]] ∧
      Segments.Between Event.normal Reported state.log := by
  obtain ⟨packet, size⟩ : ∃ packet, sizeCalculator packet = bufSize :=
    ⟨_, sizeCalculator_replicate bufSize (by decide) 0⟩
  have refused : reserveSpaceAndWriteHeader 0 ⟨3, bufSize, false⟩ bufSize false = none := rfl
  have placed : reserveSpaceAndWriteHeader 0 initial.writeInfo (sizeCalculator [[1]]) false =
      some ⟨0, ⟨3, bufSize, false⟩⟩ := rfl
  have reported : reserveSpaceAndWriteHeader 0 ⟨3, bufSize, false⟩ (sizeCalculator overrunPacket) true =
      some ⟨3, ⟨13, bufSize, true⟩⟩ := rfl
  have later : reserveSpaceAndWriteHeader 0 ⟨13, bufSize, true⟩ (sizeCalculator [[2]]) false =
      some ⟨13, ⟨16, bufSize, false⟩⟩ := rfl
  obtain ⟨first, buf, published⟩ := run_publish initial rfl placed
  have dropped : Machine.run step { initial with
      buf
      writeInfo := ⟨3, bufSize, false⟩
      log := [.published false [[1]]] } [.writePacket packet, .loadReadOffset, .reserve, .backpressure] =
        some { initial with
          buf
          writeInfo := ⟨3, bufSize, false⟩
          writer := .retry overrunPacket true
          log := [.published false [[1]], .dropped] } := by
    simp [Machine.run, step, initial, size, refused]
  obtain ⟨nested, buf', overran⟩ := run_report { initial with
    buf
    writeInfo := ⟨3, bufSize, false⟩
    writer := .retry overrunPacket true
    log := [.published false [[1]], .dropped] } rfl reported
  obtain ⟨last, buf'', again⟩ := run_publish { initial with
    buf := buf'
    writeInfo := ⟨13, bufSize, true⟩
    log := [.published false [[1]], .dropped, .published true overrunPacket] } rfl later
  have ran := Machine.run_trans (Machine.run_trans published dropped) (Machine.run_trans overran again)
  exact ⟨_, _, ran, rfl, (overrun_reported ran).2.2.2.2⟩

end Smmboss.Hose
