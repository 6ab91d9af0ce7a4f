import Smmboss.Rpc.Handler

namespace Smmboss.Rpc

open IoBuf (Stored)
open Smmboss.Guest (GuestMemory MemoryMap MemRegions)
open Smmboss.Hose (sizeMax addWsHeaderSize fillWsHeader addWsHeaderSize_lt addWsHeaderSize_eq)
open Smmboss.Monitor (prepWrite postWrite prepWrite_free prepWrite_doubled checkSize checkFilled
  configOf)
open Smmboss.Prefix (LongestPrefix)

/-! # One reply to every request -/

inductive Reply where
  | binary (payload : List UInt8)
  | text (error : List UInt8)

def Reply.frame : Reply → List UInt8
  | .binary payload => wsFrame opBinary payload
  | .text error => wsFrame opText error

/-- The request reads `len` bytes at `addr`. -/
structure ReadRequest (message : List UInt8) (addr len : Nat) : Prop where
  length : message.length = endOfRead
  type : message.head?.bind ReqType.ofByte = some .read
  addr : word64 message 1 = addr
  len : word64 message 9 = len

/-- A text reply leaves a draining connection and the guest as it was; a binary
reply to a read holds the longest prefix that `accessible_bytes_at` allows. -/
def Replied (map : MemoryMap) (before : Server) (message : List UInt8) (after : Server) :
    Reply → Prop
  | .text _ =>
      after.isDraining = true ∧ after.memory = before.memory ∧ after.rpcFlags = before.rpcFlags
  | .binary payload =>
      after.isDraining = before.isDraining ∧
        ∀ addr len, ReadRequest message addr len →
          ∃ count, LongestPrefix (fun place => map.Allows (addr + place) false) len count ∧
            payload = before.memory.read addr count

/-- Exactly one complete frame is appended to what was pending. -/
def RepliesOnce (map : MemoryMap) (before : Server) (message : List UInt8) (after : Server) : Prop :=
  ∃ reply : Reply, after.send.pending = before.send.pending ++ reply.frame ∧
    Replied map before message after reply

namespace Server

variable {server : Server} {payload : List UInt8} {op : UInt8}

theorem reply_exists (server : Server) (payload : List UInt8) (op : UInt8) :
    ∃ send, server.reply payload op = some { server with send } ∧
      send.pending = server.send.pending ++ wsFrame op payload := by
  obtain ⟨send, sent, pending⟩ := mgWsSend_exists server.send payload op
  exact ⟨send, by rw [reply, sent, Option.map_some], pending⟩

theorem fail_exists (server : Server) (err : String) :
    ∃ send, server.fail err = some { server with send, isDraining := true } ∧
      send.pending = server.send.pending ++ wsFrame opText (ascii err) := by
  obtain ⟨send, sent, pending⟩ := server.reply_exists (ascii err) opText
  exact ⟨send, by rw [fail, sent, Option.map_some], pending⟩

end Server

variable {map : MemoryMap} {server : Server} {message : List UInt8}

/-- Every exit through `err` is one text reply. -/
theorem replies_fail {changed : Server} (err : String)
    (send : changed.send.pending = server.send.pending) (memory : changed.memory = server.memory)
    (flags : changed.rpcFlags = server.rpcFlags) :
    ∃ after, changed.fail err = some after ∧ RepliesOnce map server message after := by
  obtain ⟨sent, done, pending⟩ := changed.fail_exists err
  refine ⟨_, done, .text (ascii err), ?_, rfl, memory, flags⟩
  rw [← send]
  exact pending

/-! ## The read path -/

section Read

theorem length_fillWsHeader_le {small large : Nat} (order : small ≤ large) :
    (fillWsHeader small).length ≤ (fillWsHeader large).length := by
  unfold fillWsHeader
  split_ifs <;> simp only [List.length_cons, List.length_nil] <;> omega

/-- With the body in place behind the expected header, the frame ends up right
behind what was pending, whichever header the actual length needs. -/
theorem finishRead_exists {before send : IoBuf} {expectedBody : Nat} {payload : List UInt8}
    (stored : Stored before send expectedBody payload) (same : send.size = before.size)
    (header : before.len + (fillWsHeader payload.length).length ≤ expectedBody)
    (room : expectedBody + payload.length ≤ before.size) :
    ∃ after, finishRead send expectedBody payload.length = some after ∧
      after.pending = before.pending ++ wsFrame opBinary payload ∧ after.size = before.size := by
  have len := stored.len
  obtain ⟨headed, putHeader, kept, headedSize⟩ :=
    @IoBuf.store_exists send send.len (fillWsHeader payload.length) (by omega)
  have headedLen : headed.len = before.len := kept.len.trans len
  have headedFront : headed.buf.take (before.len + (fillWsHeader payload.length).length) =
      before.pending ++ fillWsHeader payload.length := by
    have through := kept.through send.within
    rwa [len, stored.below (by omega) (by omega)] at through
  have headedBody : (headed.buf.drop expectedBody).take payload.length = payload := by
    rw [kept.above send.within (by omega)]
    exact stored.slice (by omega)
  rw [finishRead, putHeader]
  simp only [Option.bind_some, len]
  by_cases inPlace : before.len + (fillWsHeader payload.length).length = expectedBody
  · obtain ⟨after, extended, pending, size⟩ := @IoBuf.extend_exists headed
      (before.len + (fillWsHeader payload.length).length + payload.length - before.len) (by omega)
    have total : headed.len + (before.len + (fillWsHeader payload.length).length + payload.length -
        before.len) = before.len + (fillWsHeader payload.length).length + payload.length := by omega
    refine ⟨after, by rw [if_pos inPlace]; exact extended, ?_, by omega⟩
    rw [pending, total, List.take_add, headedFront, inPlace, headedBody, List.append_assoc]
    rfl
  · have loaded : headed.load expectedBody payload.length = some payload := by
      rw [IoBuf.load, if_pos (by omega), headedBody]
    obtain ⟨moved, move, movedKept, movedSize⟩ := @IoBuf.store_exists headed
      (before.len + (fillWsHeader payload.length).length) payload (by omega)
    have movedLen := movedKept.len
    obtain ⟨after, extended, pending, size⟩ := @IoBuf.extend_exists moved
      (before.len + (fillWsHeader payload.length).length + payload.length - before.len) (by omega)
    have total : moved.len + (before.len + (fillWsHeader payload.length).length + payload.length -
        before.len) = before.len + (fillWsHeader payload.length).length + payload.length := by omega
    refine ⟨after, ?_, ?_, by omega⟩
    · rw [if_neg inPlace, if_pos (by omega), loaded, Option.bind_some, move]
      exact extended
    · rw [pending, total, movedKept.through (by omega), headedFront, List.append_assoc]
      rfl

theorem growForRead_pending (send : IoBuf) : (growForRead send).pending = send.pending := by
  unfold growForRead
  simp only
  split_ifs
  · exact send.resize_pending 65536
  · rfl

theorem growForRead_len (send : IoBuf) : (growForRead send).len = send.len := by
  unfold growForRead
  simp only
  split_ifs
  · exact send.resize_len 65536
  · rfl

theorem growForRead_size (send : IoBuf) : (growForRead send).size = max send.size 65536 := by
  have within : send.len ≤ send.size := send.within
  unfold growForRead
  simp only
  split_ifs with small
  · rw [send.resize_size 65536 (by omega), Nat.max_eq_right (by omega)]
    rfl
  · rw [Nat.max_eq_left (by omega)]

theorem word64_lt (message : List UInt8) (offset : Nat) : word64 message offset < 2 ^ 64 := by
  have bound := LittleEndian.decode_lt ((message.drop offset).take 8)
  have short : ((message.drop offset).take 8).length ≤ 8 := List.length_take_le _ _
  have power : 256 ^ ((message.drop offset).take 8).length ≤ 256 ^ 8 :=
    Nat.pow_le_pow_right (by decide) short
  exact Nat.lt_of_lt_of_le bound power

theorem handleRead_overstuffed (length : message.length = endOfRead)
    (large : max server.send.size 65536 - server.send.len <
      addWsHeaderSize (word64 message 9)) :
    handleRead map server message =
      { server with send := growForRead server.send }.fail "i'm overstuffed" := by
  unfold handleRead
  rw [if_neg (by simpa using length)]
  simp only [growForRead_size, growForRead_len]
  rw [if_pos large]

theorem handleRead_reads (length : message.length = endOfRead)
    (reached : map.Reached server.regions)
    (room : addWsHeaderSize (word64 message 9) ≤ max server.send.size 65536 - server.send.len)
    (fits : server.send.size < sizeMax) :
    ∃ count regions send,
      handleRead map server message = some { server with regions, send } ∧
      LongestPrefix (fun place => map.Allows (word64 message 1 + place) false)
        (word64 message 9) count ∧
      send.pending = server.send.pending ++
        wsFrame opBinary (server.memory.read (word64 message 1) count) := by
  have large : 65536 < sizeMax := by decide
  have len := growForRead_len server.send
  have size := growForRead_size server.send
  have small := addWsHeaderSize_lt _ (by omega : addWsHeaderSize (word64 message 9) < sizeMax)
  have full := addWsHeaderSize_eq small
  obtain ⟨count, world, copied, longest, memory, -, sizeAfter, stored⟩ :=
    @safeMemcpy_read map { server.toWorld with send := growForRead server.send } (word64 message 1)
      (server.send.len + (addWsHeaderSize (word64 message 9) - word64 message 9))
      (word64 message 9) reached (word64_lt message 1) (by
        have within : server.send.len ≤ server.send.size := server.send.within
        simp only
        omega)
  have within := longest.within
  have shorter := length_fillWsHeader_le within
  have bufWithin : server.send.len ≤ server.send.size := server.send.within
  have readLength := GuestMemory.length_read server.memory (word64 message 1) count
  obtain ⟨send, finished, pending, -⟩ := finishRead_exists stored sizeAfter
    (by rw [readLength]; simp only; omega) (by rw [readLength]; simp only; omega)
  rw [readLength] at finished
  refine ⟨count, world.regions, send, ?_, longest, ?_⟩
  · unfold handleRead
    rw [if_neg (by simpa using length)]
    simp only [size, len]
    rw [if_neg (by omega), copied, Option.bind_some, finished, Option.map_some, ← memory]
  · rw [pending, growForRead_pending]

theorem handleRead_replies (reached : map.Reached server.regions)
    (fits : server.send.size < sizeMax) :
    ∃ after, handleRead map server message = some after ∧
      RepliesOnce map server message after := by
  by_cases length : message.length = endOfRead
  · by_cases room : addWsHeaderSize (word64 message 9) ≤ max server.send.size 65536 - server.send.len
    · obtain ⟨count, regions, send, handled, longest, pending⟩ :=
        handleRead_reads length reached room fits
      refine ⟨_, handled, .binary _, pending, rfl, ?_⟩
      rintro addr len ⟨-, -, rfl, rfl⟩
      exact ⟨count, longest, rfl⟩
    · rw [handleRead_overstuffed length (by omega)]
      exact replies_fail _ (growForRead_pending server.send) rfl rfl
  · rw [handleRead, if_pos length]
    exact replies_fail _ rfl rfl rfl

end Read

/-! ## The other requests -/

/-- A binary reply is right for any request that is not a read. -/
theorem replies_binary {changed : Server} (payload : List UInt8)
    (other : message.head?.bind ReqType.ofByte ≠ some .read)
    (send : changed.send.pending = server.send.pending)
    (draining : changed.isDraining = server.isDraining) :
    ∃ after, changed.reply payload opBinary = some after ∧
      RepliesOnce map server message after := by
  obtain ⟨sent, done, pending⟩ := changed.reply_exists payload opBinary
  refine ⟨_, done, .binary payload, ?_, draining, ?_⟩
  · rw [← send]
    exact pending
  · intro addr len request
    exact absurd request.type other

theorem handleWrite_replies (type : message.head?.bind ReqType.ofByte = some .write)
    (reached : map.Reached server.regions) :
    ∃ after, handleWrite map server message = some after ∧
      RepliesOnce map server message after := by
  unfold handleWrite
  split_ifs with short
  · exact replies_fail _ rfl rfl rfl
  · obtain ⟨count, world, copied, -, -, -, send⟩ :=
      @safeMemcpy_write map server.toWorld (word64 message 1) (message.drop endOfWrite)
        reached (word64_lt message 1)
    simp only [copied, Option.bind_some]
    exact replies_binary _ (by simp [type]) (congrArg IoBuf.pending send) rfl

theorem handleGetStats_replies (type : message.head?.bind ReqType.ofByte = some .getStats) :
    ∃ after, handleGetStats server message = some after ∧
      RepliesOnce map server message after := by
  unfold handleGetStats
  split_ifs with wrong
  · exact replies_fail _ rfl rfl rfl
  · exact replies_binary _ (by simp [type]) rfl rfl

theorem handleSetFlags_replies (type : message.head?.bind ReqType.ofByte = some .setFlags) :
    ∃ after, handleSetFlags server message = some after ∧
      RepliesOnce map server message after := by
  unfold handleSetFlags
  split_ifs with wrong
  · exact replies_fail _ rfl rfl rfl
  · exact replies_binary _ (by simp [type]) rfl rfl

/-- The request posts an acceptable configuration while slot 1 is both in use
and next, so that `prep_write` hands out the slot in use. -/
structure PostsDoubled (map : MemoryMap) (server : Server) (message : List UInt8) : Prop where
  type : message.head?.bind ReqType.ofByte = some .setMonitorConfig
  sized : checkSize (message.drop endOfType) = none
  accepted : checkFilled (message.drop endOfType) (configOf (message.drop endOfType))
    (server.accessible map) = none
  inuse : server.tripleBuffer.1.inuseBufIdx = 1
  next : server.tripleBuffer.1.nextBufIdx = 1

theorem handleSetMonitorConfig_aborts (doubled : PostsDoubled map server message) :
    handleSetMonitorConfig map server message = none := by
  have atomic : server.tripleBuffer.1 = ⟨1, 1⟩ := by
    have inuse := doubled.inuse
    have next := doubled.next
    generalize server.tripleBuffer.1 = state at inuse next ⊢
    cases state
    cases inuse
    cases next
    rfl
  have slot : prepWrite server.tripleBuffer.1 = some 1 := by
    rw [atomic]
    exact prepWrite_doubled
  have refused : postWrite 1 server.tripleBuffer.1 = none := by
    rw [atomic]
    rfl
  unfold handleSetMonitorConfig setConfig configure
  simp only [doubled.sized]
  split
  · rfl
  · rename_i handed prepared
    obtain rfl : handed = 1 := Option.some.inj (prepared.symm.trans slot)
    simp only [doubled.accepted]
    split
    · rfl
    · rename_i posted
      rw [refused] at posted
      cases posted

theorem handleSetMonitorConfig_replies
    (type : message.head?.bind ReqType.ofByte = some .setMonitorConfig)
    (free : ¬ PostsDoubled map server message) :
    ∃ after, handleSetMonitorConfig map server message = some after ∧
      RepliesOnce map server message after := by
  have valid := server.tripleBuffer.2
  unfold handleSetMonitorConfig setConfig configure
  cases sized : checkSize (message.drop endOfType) with
  | some err => exact replies_fail err rfl rfl rfl
  | none =>
      simp only
      split
      · rename_i unprepared
        rw [prepWrite, if_pos ⟨valid.inuse, valid.next⟩] at unprepared
        split at unprepared <;> cases unprepared
      · rename_i slot prepared
        cases accepted : checkFilled (message.drop endOfType) (configOf (message.drop endOfType))
            (server.accessible map) with
        | some err => exact replies_fail err rfl rfl rfl
        | none =>
            obtain ⟨handed, same, -, notInuse, notNext⟩ := prepWrite_free valid fun doubled =>
              free ⟨type, sized, accepted, doubled.1, doubled.2⟩
            obtain rfl : handed = slot := Option.some.inj (same.symm.trans prepared)
            simp only
            split
            · rename_i refused
              rw [postWrite, if_pos ⟨notInuse, notNext⟩] at refused
              cases refused
            · exact replies_binary [] (by simp [type]) rfl rfl

/-! ## Every request -/

theorem handleRpcPacket_of_type {type : ReqType}
    (known : message.head?.bind ReqType.ofByte = some type) :
    handleRpcPacket map server message = handleRequest map server message type := by
  unfold handleRpcPacket
  cases first : message.head? with
  | none => simp [first] at known
  | some byte =>
      rw [first, Option.bind_some] at known
      simp only [known]

/-- The handler appends one complete frame, of the right kind and content, for
every message, except that it aborts on a `PostsDoubled` one. -/
theorem handleRpcPacket_replies_iff (map : MemoryMap) (server : Server) (message : List UInt8)
    (reached : map.Reached server.regions) (fits : server.send.size < sizeMax) :
    (∃ after, handleRpcPacket map server message = some after ∧
        RepliesOnce map server message after) ↔
      ¬ PostsDoubled map server message := by
  constructor
  · intro ⟨after, handled, _⟩ doubled
    rw [handleRpcPacket_of_type doubled.type] at handled
    rw [handleRequest, handleSetMonitorConfig_aborts doubled] at handled
    cases handled
  · intro free
    cases known : message.head?.bind ReqType.ofByte with
    | none =>
        unfold handleRpcPacket
        cases first : message.head? with
        | none => exact replies_fail _ rfl rfl rfl
        | some byte =>
            rw [first, Option.bind_some] at known
            simp only [known]
            exact replies_fail _ rfl rfl rfl
    | some type =>
        rw [handleRpcPacket_of_type known]
        cases type with
        | read => exact handleRead_replies reached fits
        | write => exact handleWrite_replies known reached
        | getStats => exact handleGetStats_replies known
        | setFlags => exact handleSetFlags_replies known
        | setMonitorConfig => exact handleSetMonitorConfig_replies known free

/-- An idle connection of a server whose slot 1 is both in use and next. -/
def doubledServer : Server where
  memory := fun _ => 0
  regions := {}
  send := { buf := [], len := 0, within := Nat.le_refl 0 }
  tripleBuffer := Monitor.doubledState

/-- A request that clears the monitor configuration. -/
def clearMonitor : List UInt8 := 5 :: List.replicate 16 0

theorem clearMonitor_doubled : PostsDoubled .twoRuns doubledServer clearMonitor where
  type := rfl
  sized := by decide
  accepted := by
    have lengths : ∀ entry ∈ List.range Monitor.maxEntries,
        (configOf (clearMonitor.drop endOfType)).entryLen entry = 0 := by decide
    rw [checkFilled, if_neg (by decide), Monitor.validateConfig, if_neg (by decide), if_neg]
    intro ⟨entry, member, short⟩
    rw [lengths entry member] at short
    exact Nat.not_lt_zero _ short
  inuse := rfl
  next := rfl

/-- The same connection of a server that has just started. -/
def freshServer : Server := { doubledServer with tripleBuffer := Monitor.initialState }

/-- It is answered by the fresh server, and the other one answers other requests. -/
theorem handleRpcPacket_replies_iff_clearMonitor :
    (∃ after, handleRpcPacket .twoRuns freshServer clearMonitor = some after ∧
      RepliesOnce .twoRuns freshServer clearMonitor after) ∧
    (∃ after, handleRpcPacket .twoRuns doubledServer [3] = some after ∧
      RepliesOnce .twoRuns doubledServer [3] after) ∧
    ¬ ∃ after, handleRpcPacket .twoRuns doubledServer clearMonitor = some after ∧
      RepliesOnce .twoRuns doubledServer clearMonitor after := by
  have fresh := handleRpcPacket_replies_iff .twoRuns freshServer clearMonitor (.inl rfl) (by decide)
  have stats := handleRpcPacket_replies_iff .twoRuns doubledServer [3] (.inl rfl) (by decide)
  have doubled := handleRpcPacket_replies_iff .twoRuns doubledServer clearMonitor (.inl rfl) (by decide)
  exact ⟨fresh.mpr fun posts => absurd posts.inuse (by decide),
    stats.mpr fun posts => absurd posts.type (by decide),
    fun replies => doubled.mp replies clearMonitor_doubled⟩

/-- The assertion of `post_write` fails, and the request gets no reply. -/
theorem clearMonitor_unanswered : handleRpcPacket .twoRuns doubledServer clearMonitor = none ∧
    ¬ ∃ after, handleRpcPacket .twoRuns doubledServer clearMonitor = some after ∧
      RepliesOnce .twoRuns doubledServer clearMonitor after := by
  have aborts : handleRpcPacket .twoRuns doubledServer clearMonitor = none := by
    rw [handleRpcPacket_of_type clearMonitor_doubled.type, handleRequest]
    exact handleSetMonitorConfig_aborts clearMonitor_doubled
  refine ⟨aborts, ?_⟩
  intro ⟨after, handled, _⟩
  rw [aborts] at handled
  cases handled

end Smmboss.Rpc
