import Smmboss.Hose.System

namespace Smmboss.Hose

open Smmboss.Ring (Bounded Forward Room Behind Pending pending slice chunkStart chunkLength)

/-! # Integrity of the byte stream -/

def State.cursor (state : State) : Ring.Cursor := state.writeInfo.cursor

/-- The offset up to which the newest connection has been served.  After a
pick-up it is the offset the reader is about to jump to. -/
def State.position (state : State) : Nat :=
  match state.reader with
  | .pickedUp info => info.writeOffset
  | .sending readOffset _ accepted => readOffset + accepted
  | .sent readOffset => readOffset
  | _ => state.readOffset

/-- What the game thread knows from its copy of `read_offset_`, and what it has
stored of the packet so far. -/
def WriterOk (state : State) : Prop :=
  match state.writer with
  | .loaded _ _ readOffset =>
      Bounded bufSize readOffset state.cursor ∧ Forward state.cursor readOffset state.readOffset
  | .storing packet _ next stores =>
      ∃ start stored, stored ≤ (frame packet).length ∧
        Room bufSize state.readOffset state.cursor start (frame packet).length next.cursor ∧
        stores = ((frame packet).drop stored).zipIdx (start + stored) ∧
        slice state.buf start (start + stored) = (frame packet).take stored
  | _ => True

/-- A packet boundary: from here on the ring holds whole packets. -/
def AtBoundary (state : State) (offset : Nat) : Prop :=
  ∃ first ≤ state.published.length,
    pending state.buf offset state.cursor = frames (state.published.drop first)

/-- What the hose thread knows from its copy of `write_info_`. -/
def ReaderOk (state : State) : Prop :=
  match state.reader with
  | .idle => True
  | .loaded info readOffset =>
      readOffset = state.readOffset ∧
        Behind bufSize state.readOffset info.cursor state.cursor ∧
        AtBoundary state info.writeOffset
  | .pickedUp info => Behind bufSize state.readOffset info.cursor state.cursor
  | .sending readOffset toSend accepted =>
      state.curFd ≠ none ∧ accepted ≤ toSend ∧
        ∃ old, Behind bufSize state.readOffset old state.cursor ∧
          state.readOffset ≠ old.write ∧ readOffset = chunkStart state.readOffset old ∧
          toSend ≤ chunkLength readOffset old
  | .sent readOffset => Forward state.cursor state.readOffset readOffset
  | .aborted => False

/-- The bytes sent on an open connection and the bytes it has still to get are
whole packets. -/
def StreamOk (state : State) : Prop :=
  state.curFd ≠ none → ∃ sent earlier, state.connections = sent :: earlier ∧
    ∃ first ≤ state.published.length,
      sent ++ pending state.buf state.position state.cursor =
        frames (state.published.drop first)

/-- Nothing but a run of whole packets has been sent on a connection. -/
def WholePackets (published : List Packet) (sent : List UInt8) : Prop :=
  ∃ first ≤ published.length, sent <+: frames (published.drop first)

structure Invariant (state : State) : Prop where
  bounded : Bounded bufSize state.readOffset state.cursor
  writer : WriterOk state
  reader : ReaderOk state
  stream : StreamOk state
  sent : ∀ sent ∈ state.connections, WholePackets state.published sent

theorem initial_invariant : Invariant initial where
  bounded := ⟨Nat.zero_le _, Nat.zero_le _, Nat.le_refl _, fun _ => rfl⟩
  writer := trivial
  reader := trivial
  stream := fun connected => absurd rfl connected
  sent := by simp [initial]

theorem Invariant.position_forward {state : State} (invariant : Invariant state) :
    Forward state.cursor state.readOffset state.position := by
  have stays : Forward state.cursor state.readOffset state.readOffset :=
    Forward.refl invariant.bounded.read_le
  have known := invariant.reader
  simp only [ReaderOk] at known
  cases reader : state.reader with
  | idle | loaded | aborted => simpa only [State.position, reader] using stays
  | pickedUp info =>
      simp only [reader] at known
      simp only [State.position, reader]
      exact known.forward (Forward.drain _ _)
  | sending readOffset toSend accepted =>
      simp only [reader] at known
      obtain ⟨_, within, old, behind, some_pending, rfl, limit⟩ := known
      simp only [State.position, reader]
      exact behind.forward
        (Ring.chunk_forward behind.bounded some_pending (Nat.le_add_right _ _) (by omega))
  | sent readOffset =>
      simp only [reader] at known
      simpa only [State.position, reader] using known

theorem published_append_published (log : List Event) (forOverrun : Bool) (packet : Packet) :
    (log ++ [Event.published forOverrun packet]).filterMap Event.packet? =
      log.filterMap Event.packet? ++ [packet] := by
  simp [Event.packet?]

theorem WholePackets.append {published : List Packet} {sent : List UInt8}
    (whole : WholePackets published sent) (packet : Packet) :
    WholePackets (published ++ [packet]) sent := by
  obtain ⟨first, bound, begins⟩ := whole
  refine ⟨first, by simp only [List.length_append]; omega, ?_⟩
  rw [List.drop_append_of_le_length bound, frames_append]
  exact begins.trans (List.prefix_append _ _)

/-- Logging what publishes nothing changes nothing that is known of the stream. -/
theorem Invariant.withEvent {state : State} {writer : Writer} {event : Event}
    (invariant : Invariant state) (unpublished : event.packet? = none)
    (known : WriterOk { state with writer }) :
    Invariant { state with writer, log := state.log ++ [event] } := by
  have published : { state with writer, log := state.log ++ [event] }.published =
      state.published := by
    simp [State.published, unpublished]
  refine ⟨invariant.bounded, known, ?_, ?_, ?_⟩
  · have reader := invariant.reader
    simp only [ReaderOk, AtBoundary, published] at reader ⊢
    exact reader
  · have stream := invariant.stream
    simp only [StreamOk, published] at stream ⊢
    exact stream
  · rw [published]
    exact invariant.sent

/-- Storing a byte of the packet leaves everything that is pending alone. -/
theorem storeByte_invariant {state : State} {packet : Packet} {forOverrun : Bool}
    {next : WriteInfo} {byte : UInt8} {address : Nat} {stores : List (UInt8 × Nat)}
    (invariant : Invariant state)
    (at_storing : state.writer = .storing packet forOverrun next ((byte, address) :: stores)) :
    Invariant { state with
      buf := Function.update state.buf address byte
      writer := .storing packet forOverrun next stores } := by
  have known := invariant.writer
  simp only [WriterOk, at_storing] at known
  obtain ⟨start, stored, bound, room, remaining, sliced⟩ := known
  have more : stored < (frame packet).length := by
    rcases Nat.lt_or_ge stored (frame packet).length with more | all
    · exact more
    · simp [List.drop_eq_nil_of_le all] at remaining
  rw [List.drop_eq_getElem_cons more, List.zipIdx_cons, List.cons.injEq, Prod.mk.injEq] at remaining
  obtain ⟨⟨rfl, rfl⟩, remaining⟩ := remaining
  have outside := (room.outside invariant.bounded (Nat.le_add_right start stored) (by omega)).2
  have kept (offset : Nat) (forward : Forward state.cursor state.readOffset offset) :
      pending (Function.update state.buf (start + stored) (frame packet)[stored]) offset
        state.cursor = pending state.buf offset state.cursor := by
    apply Ring.pending_congr
    intro address held
    apply Function.update_of_ne
    rintro rfl
    exact outside (forward.pending invariant.bounded held)
  refine ⟨invariant.bounded, ?_, ?_, ?_, invariant.sent⟩
  · refine ⟨start, stored + 1, more, room, remaining, ?_⟩
    rw [← Nat.add_assoc, ← Ring.slice_append _ (Nat.le_add_right start stored) (Nat.le_succ _),
      List.take_succ_eq_append_getElem more]
    congr 1
    · rw [← sliced]
      apply Ring.slice_congr
      intro address _ upper
      exact Function.update_of_ne (by omega) _ _
    · simp [Ring.slice_cons]
  · have known := invariant.reader
    simp only [ReaderOk] at known ⊢
    cases reader : state.reader with
    | loaded info readOffset =>
        simp only [reader] at known
        obtain ⟨same, behind, first, bound, boundary⟩ := known
        refine ⟨same, behind, first, bound, ?_⟩
        exact (kept _ (behind.forward (Forward.drain _ _))).trans boundary
    | idle => trivial
    | aborted => simp only [reader] at known
    | pickedUp | sending | sent =>
        simp only [reader] at known
        exact known
  · intro connected
    obtain ⟨sent, earlier, same, first, bound, whole⟩ := invariant.stream connected
    refine ⟨sent, earlier, same, first, bound, ?_⟩
    have position := kept _ invariant.position_forward
    exact (congrArg (sent ++ ·) position).trans whole

/-- Publishing appends the packet's frame to everything that is pending. -/
theorem publish_invariant {state : State} {packet : Packet} {forOverrun : Bool}
    {next : WriteInfo} (invariant : Invariant state)
    (at_storing : state.writer = .storing packet forOverrun next []) :
    Invariant { state with
      writer := .idle
      writeInfo := next
      log := state.log ++ [.published forOverrun packet] } := by
  have known := invariant.writer
  simp only [WriterOk, at_storing] at known
  obtain ⟨start, stored, bound, room, remaining, sliced⟩ := known
  have all : stored = (frame packet).length := by
    have lengths := congrArg List.length remaining
    simp only [List.length_nil, List.length_zipIdx, List.length_drop] at lengths
    omega
  subst stored
  rw [List.take_length] at sliced
  have appended (offset : Nat) (forward : Forward state.cursor state.readOffset offset) :
      pending state.buf offset next.cursor =
        pending state.buf offset state.cursor ++ frame packet := by
    rw [← sliced]
    exact (room.forward invariant.bounded forward).pending_append state.buf
      (forward.bounded invariant.bounded)
  have extended {first : Nat} (bound : first ≤ state.published.length) :
      frames ((state.published ++ [packet]).drop first) =
        frames (state.published.drop first) ++ frame packet := by
    rw [List.drop_append_of_le_length bound, frames_append, frames_singleton]
  have longer {first : Nat} (bound : first ≤ state.published.length) :
      first ≤ (state.published ++ [packet]).length := by
    simp only [List.length_append]
    omega
  have published : (state.log ++ [Event.published forOverrun packet]).filterMap Event.packet? =
      state.published ++ [packet] := published_append_published state.log forOverrun packet
  refine ⟨room.bounded invariant.bounded (frame_length_pos packet), trivial, ?_, ?_, ?_⟩
  · have known := invariant.reader
    simp only [ReaderOk] at known ⊢
    cases reader : state.reader with
    | idle => trivial
    | loaded info readOffset =>
        simp only [reader] at known
        obtain ⟨same, behind, first, bound, boundary⟩ := known
        refine ⟨same, behind.publish room invariant.bounded, first, ?_, ?_⟩
        · rw [State.published, published]
          exact longer bound
        · rw [State.published, published]
          apply (appended _ (behind.forward (Forward.drain _ _))).trans
          exact (congrArg (· ++ frame packet) boundary).trans (extended bound).symm
    | pickedUp info =>
        simp only [reader] at known
        exact known.publish room invariant.bounded
    | sending readOffset toSend accepted =>
        simp only [reader] at known
        obtain ⟨connected, within, old, behind, rest⟩ := known
        exact ⟨connected, within, old, behind.publish room invariant.bounded, rest⟩
    | sent readOffset =>
        simp only [reader] at known
        have current : Behind bufSize state.readOffset state.cursor next.cursor :=
          (Behind.refl invariant.bounded).publish room invariant.bounded
        exact current.forward known
    | aborted => simp only [reader] at known
  · intro connected
    obtain ⟨sent, earlier, same, first, bound, whole⟩ := invariant.stream connected
    refine ⟨sent, earlier, same, first, ?_, ?_⟩
    · rw [State.published, published]
      exact longer bound
    · rw [State.published, published]
      apply (congrArg (sent ++ ·) (appended _ invariant.position_forward)).trans
      rw [← List.append_assoc, whole]
      exact (extended bound).symm
  · intro sent member
    rw [State.published, published]
    exact (invariant.sent sent member).append packet

/-- What the writer knows survives any move of the reader. -/
theorem WriterOk.moved {state : State} {readOffset : Nat} (known : WriterOk state)
    (bounded : Bounded bufSize state.readOffset state.cursor)
    (forward : Forward state.cursor state.readOffset readOffset) (reader : Reader) :
    WriterOk { state with readOffset, reader } := by
  simp only [WriterOk] at known ⊢
  cases writer : state.writer with
  | loaded packet forOverrun copied =>
      simp only [writer] at known
      exact ⟨known.1, known.2.trans forward⟩
  | storing packet forOverrun next stores =>
      simp only [writer] at known
      obtain ⟨start, stored, bound, room, rest⟩ := known
      exact ⟨start, stored, bound, room.forward bounded forward, rest⟩
  | idle | retry | refused | backpressured | aborted => trivial

/-- The reader publishes the offset it has arrived at. -/
theorem moved_invariant {state : State} (invariant : Invariant state) :
    Invariant { state with readOffset := state.position, reader := .idle } := by
  have forward := invariant.position_forward
  exact ⟨forward.bounded invariant.bounded, invariant.writer.moved invariant.bounded forward .idle,
    trivial, invariant.stream, invariant.sent⟩

theorem Invariant.position_le {state : State} (invariant : Invariant state) :
    state.position ≤ bufSize := by
  have bounded := invariant.position_forward.bounded invariant.bounded
  exact Nat.le_trans bounded.read_le bounded.wrap_le

/-- The accepted byte is the oldest one pending. -/
theorem acceptByte_invariant {state : State} {readOffset toSend accepted : Nat}
    (invariant : Invariant state) (at_sending : state.reader = .sending readOffset toSend accepted)
    (more : accepted < toSend) :
    Invariant { state with
      connections := transmit (state.buf (readOffset + accepted)) state.connections
      reader := .sending readOffset toSend (accepted + 1) } := by
  have known := invariant.reader
  simp only [ReaderOk, at_sending] at known
  obtain ⟨connected, within, old, behind, some_pending, start, limit⟩ := known
  have lower : chunkStart state.readOffset old ≤ readOffset + accepted := by omega
  have upper : readOffset + accepted <
      chunkStart state.readOffset old + chunkLength (chunkStart state.readOffset old) old := by
    rw [← start]
    omega
  have forward : Forward old state.readOffset (readOffset + accepted) :=
    Ring.chunk_forward behind.bounded some_pending lower (Nat.le_of_lt upper)
  have forwardNext : Forward old state.readOffset (readOffset + (accepted + 1)) :=
    Ring.chunk_forward behind.bounded some_pending (by omega) upper
  have oldest : pending state.buf (readOffset + accepted) state.cursor =
      state.buf (readOffset + accepted) ::
        pending state.buf (readOffset + (accepted + 1)) state.cursor := by
    rw [(behind.advance forward).pending_append, (behind.advance forwardNext).pending_append]
    rw [Ring.chunk_pending_cons state.buf behind.bounded some_pending lower upper, List.cons_append,
      Nat.add_assoc]
  obtain ⟨sent, earlier, same, first, bound, whole⟩ := invariant.stream connected
  simp only [State.position, at_sending] at whole
  rw [oldest, List.append_cons] at whole
  refine ⟨invariant.bounded, invariant.writer, ?_, ?_, ?_⟩
  · exact ⟨connected, more, old, behind, some_pending, start, limit⟩
  · intro _
    refine ⟨sent ++ [state.buf (readOffset + accepted)], earlier, ?_, first, bound, whole⟩
    simp only [same, transmit]
  · intro bytes member
    simp only [same, transmit, List.mem_cons] at member
    rcases member with rfl | older
    · exact ⟨first, bound, whole ▸ List.prefix_append _ _⟩
    · exact invariant.sent bytes (by rw [same]; exact List.mem_cons_of_mem _ older)

/-- An iteration of the reader passes its assertion and takes a chunk of what
was pending when it loaded `write_info_`. -/
theorem doIter_sent {state : State} {info : WriteInfo} {readOffset : Nat}
    (asserted : readOffset ≤ info.wrapOffset ∧ info.writeOffset ≤ info.wrapOffset ∧
      info.wrapOffset ≤ bufSize) (pending : readOffset ≠ info.writeOffset)
    (closed : state.curFd = none) :
    doIter state info readOffset = .sent ((chunkStart readOffset info.cursor +
      chunkLength (chunkStart readOffset info.cursor) info.cursor) % 2 ^ 32) := by
  rw [doIter, if_neg (not_not.mpr asserted), if_neg pending, closed]
  rfl

theorem doIter_sending {state : State} {info : WriteInfo} {readOffset fd : Nat}
    (asserted : readOffset ≤ info.wrapOffset ∧ info.writeOffset ≤ info.wrapOffset ∧
      info.wrapOffset ≤ bufSize) (pending : readOffset ≠ info.writeOffset)
    (connected : state.curFd = some fd) :
    doIter state info readOffset = .sending (chunkStart readOffset info.cursor)
      (min (chunkLength (chunkStart readOffset info.cursor) info.cursor) sendLimit) 0 := by
  rw [doIter, if_neg (not_not.mpr asserted), if_neg pending, connected]
  rfl

theorem iterate_invariant {state : State} {info : WriteInfo} {readOffset : Nat}
    (invariant : Invariant state) (at_loaded : state.reader = .loaded info readOffset) :
    Invariant { state with reader := doIter state info readOffset } := by
  have known := invariant.reader
  simp only [ReaderOk, at_loaded] at known
  obtain ⟨rfl, behind, _⟩ := known
  have bounded := behind.bounded
  have asserted : state.readOffset ≤ info.wrapOffset ∧ info.writeOffset ≤ info.wrapOffset ∧
      info.wrapOffset ≤ bufSize := ⟨bounded.read_le, bounded.write_le, bounded.wrap_le⟩
  have position : state.position = state.readOffset := by simp only [State.position, at_loaded]
  have stream := invariant.stream
  simp only [StreamOk, position] at stream
  by_cases drained : state.readOffset = info.writeOffset
  · rw [doIter, if_neg (not_not.mpr asserted), if_pos drained]
    exact ⟨invariant.bounded, invariant.writer, trivial, stream, invariant.sent⟩
  · cases connected : state.curFd with
    | none =>
        rw [doIter_sent asserted drained connected]
        have forward := Ring.chunk_forward bounded drained (Nat.le_add_right _ _) (Nat.le_refl _)
        have arrived := forward.bounded bounded
        have low : chunkStart state.readOffset info.cursor +
            chunkLength (chunkStart state.readOffset info.cursor) info.cursor < 2 ^ 32 :=
          Nat.lt_of_le_of_lt (Nat.le_trans arrived.read_le arrived.wrap_le) (by decide)
        refine ⟨invariant.bounded, invariant.writer, ?_, fun open_ => absurd rfl open_,
          invariant.sent⟩
        simp only [ReaderOk, Nat.mod_eq_of_lt low]
        exact behind.forward forward
    | some fd =>
        rw [doIter_sending asserted drained connected]
        have some_fd : state.curFd ≠ none := by simp [connected]
        refine ⟨invariant.bounded, invariant.writer, ?_, ?_, invariant.sent⟩
        · exact ⟨by simp, Nat.zero_le _, info.cursor, behind, drained, rfl, Nat.min_le_left _ _⟩
        · intro _
          obtain ⟨sent, earlier, same, first, bound, whole⟩ := stream some_fd
          refine ⟨sent, earlier, same, first, bound, ?_⟩
          have start := Ring.chunk_start_forward bounded drained
          have same_pending : pending state.buf (chunkStart state.readOffset info.cursor)
              state.cursor = pending state.buf state.readOffset state.cursor := by
            rw [(behind.advance start).pending_append, behind.pending_append,
              Ring.chunk_start_pending state.buf bounded drained]
          exact (congrArg (sent ++ ·) same_pending).trans whole

theorem step_invariant {before after : State} {label : Label} (invariant : Invariant before)
    (stepped : step before label = some after) : Invariant after := by
  cases transition_of_step stepped with
  | writePacket at_idle =>
      exact { invariant with writer := trivial }
  | loadReadOffset at_retry =>
      exact { invariant with
        writer := ⟨invariant.bounded, Forward.refl invariant.bounded.read_le⟩ }
  | @reserved packet forOverrun readOffset reservation at_loaded reserved =>
      have known := invariant.writer
      simp only [WriterOk, at_loaded] at known
      obtain ⟨room, stores, -⟩ := reserve_room known.1 reserved
      refine { invariant with writer := ?_ }
      refine ⟨reservation.header, 0, Nat.zero_le _, room.forward known.1 known.2, ?_, ?_⟩
      · simpa using stores
      · simp
  | @refused packet forOverrun readOffset at_loaded refused =>
      refine { invariant with writer := ?_ }
      cases forOverrun <;> trivial
  | backpressured at_refused enabled =>
      exact { invariant with writer := trivial }
  | dropped at_refused disabled after_overrun =>
      exact invariant.withEvent rfl trivial
  | overrun at_refused disabled after_normal =>
      exact invariant.withEvent rfl trivial
  | wake at_backpressured =>
      exact { invariant with writer := trivial }
  | storeByte at_storing => exact storeByte_invariant invariant at_storing
  | publish at_storing => exact publish_invariant invariant at_storing
  | reject at_storing =>
      exact { invariant with writer := trivial }
  | loadWriteInfo at_idle =>
      have position : before.position = before.readOffset := by
        simp only [State.position, at_idle]
      have stream := invariant.stream
      simp only [StreamOk, position] at stream
      refine ⟨invariant.bounded, invariant.writer, ?_, stream, invariant.sent⟩
      refine ⟨rfl, Behind.refl invariant.bounded, before.published.length, Nat.le_refl _, ?_⟩
      change pending before.buf before.cursor.write before.cursor =
        frames (before.published.drop before.published.length)
      rw [Ring.pending_drained, List.drop_length, frames_nil]
  | @pickUp info readOffset fd at_loaded pushed =>
      have known := invariant.reader
      simp only [ReaderOk, at_loaded] at known
      obtain ⟨rfl, behind, first, bound, boundary⟩ := known
      refine ⟨invariant.bounded, invariant.writer, behind, ?_, ?_⟩
      · intro _
        exact ⟨[], before.connections, rfl, first, bound, boundary⟩
      · intro sent member
        rcases List.mem_cons.mp member with rfl | older
        · exact ⟨0, Nat.zero_le _, List.nil_prefix⟩
        · exact invariant.sent sent older
  | iterate at_loaded none_pushed => exact iterate_invariant invariant at_loaded
  | @dropBuffer info at_pickedUp =>
      have arrived := moved_invariant invariant
      simpa only [State.position, at_pickedUp] using arrived
  | acceptByte at_sending more => exact acceptByte_invariant invariant at_sending more
  | @sendReturns readOffset toSend accepted at_sending =>
      have forward := invariant.position_forward
      have inside := invariant.position_le
      have stream := invariant.stream
      simp only [State.position, at_sending, StreamOk] at forward inside stream
      have low : readOffset + accepted < 2 ^ 32 := Nat.lt_of_le_of_lt inside (by decide)
      rw [Nat.mod_eq_of_lt low]
      exact ⟨invariant.bounded, invariant.writer, forward, stream, invariant.sent⟩
  | sendFails at_sending =>
      exact ⟨invariant.bounded, invariant.writer, trivial, fun open_ => absurd rfl open_,
        invariant.sent⟩
  | storeReadOffset at_sent inside =>
      have arrived := moved_invariant invariant
      simpa only [State.position, at_sent] using arrived
  | overran at_sent outside =>
      have inside := invariant.position_le
      simp only [State.position, at_sent] at inside
      exact absurd inside outside
  | pushFd | setEnableBackpressure => exact { invariant with }

theorem run_invariant {labels : List Label} {state : State}
    (ran : Machine.run step initial labels = some state) : Invariant state :=
  Machine.run_preserves step_invariant initial_invariant ran

/-- The bytes the game thread has still to store for the packet it is writing. -/
def State.stores (state : State) : List (UInt8 × Nat) :=
  match state.writer with
  | .storing _ _ _ stores => stores
  | _ => []

theorem Invariant.stores_outside {state : State} (invariant : Invariant state)
    (member : (byte, address) ∈ state.stores) :
    address < bufSize ∧ ¬ Pending state.readOffset state.cursor address := by
  have known := invariant.writer
  simp only [WriterOk] at known
  cases writer : state.writer with
  | storing packet forOverrun next stores =>
      simp only [writer] at known
      obtain ⟨start, stored, bound, room, rfl, _⟩ := known
      simp only [State.stores, writer] at member
      have lower := List.le_snd_of_mem_zipIdx member
      have upper := List.snd_lt_add_of_mem_zipIdx member
      rw [List.length_drop] at upper
      exact room.outside invariant.bounded (by omega) (by omega)
  | idle | retry | loaded | refused | backpressured | aborted =>
      simp [State.stores, writer] at member

theorem Invariant.reader_not_aborted {state : State} (invariant : Invariant state) :
    state.reader ≠ .aborted := by
  intro aborted
  have known := invariant.reader
  simp only [ReaderOk, aborted] at known

/-- In every run each connection gets a prefix of a run of whole packets, an
open one loses nothing of what is still in the ring, the game thread stores
inside `buf_` and outside what is still to be sent, and `do_iter` passes its
assertions. -/
theorem stream_integrity {labels : List Label} {state : State}
    (ran : Machine.run step initial labels = some state) :
    (∀ sent ∈ state.connections, WholePackets state.published sent) ∧
      (state.curFd ≠ none → ∃ sent earlier, state.connections = sent :: earlier ∧
        ∃ first ≤ state.published.length,
          sent ++ pending state.buf state.position state.cursor =
            frames (state.published.drop first)) ∧
      (∀ byte address, (byte, address) ∈ state.stores →
        address < bufSize ∧ ¬ Pending state.readOffset state.cursor address) ∧
      state.reader ≠ .aborted := by
  have invariant := run_invariant ran
  exact ⟨invariant.sent, invariant.stream, fun _ _ member => invariant.stores_outside member,
    invariant.reader_not_aborted⟩

/-- A connection is picked up, a packet of one byte is published, and two of
its three bytes go out. -/
def shortRun : List Label :=
  [.pushFd 7, .loadWriteInfo, .exchangeFd, .dropBuffer,
    .writePacket [[1]], .loadReadOffset, .reserve, .storeByte, .storeByte, .storeByte,
    .finish true, .loadWriteInfo, .exchangeFd, .acceptByte, .acceptByte]

theorem stream_integrity_shortRun :
    ∃ state, Machine.run step initial shortRun = some state ∧
      state.connections = [[130, 1]] ∧ WholePackets state.published [130, 1] := by
  obtain ⟨state, ran, sent⟩ : ∃ state, Machine.run step initial shortRun = some state ∧
      state.connections = [[130, 1]] := ⟨_, rfl, rfl⟩
  exact ⟨state, ran, sent, (stream_integrity ran).1 _ (by simp [sent])⟩

end Smmboss.Hose
