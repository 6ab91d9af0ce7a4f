import Smmboss.Rpc.Replies

namespace Smmboss.Rpc

open Smmboss.Guest (GuestMemory MemoryMap)
open Smmboss.Hose (sizeMax addWsHeaderSize)

/-! # Reads of the Python client

`try_read` sends its request again as long as the answer is the text the client
takes for too many parallel requests.
-/

inductive Response where
  | str (text : List UInt8)
  | bytes (resp : List UInt8)

/-- `struct.pack('<BQQ', 1, addr, size)`, which raises on what is not a 64-bit word. -/
def packRead (addr size : Nat) : Option (List UInt8) :=
  if addr < 2 ^ 64 ∧ size < 2 ^ 64 then
    some (1 :: LittleEndian.encode 8 addr ++ LittleEndian.encode 8 size)
  else none

/-- One request and the frame that answers it. -/
def sendAndRecv (map : MemoryMap) (server : Server) (data : List UInt8) : Option Response :=
  (handleRpcPacket map server data).bind fun after =>
    (readFrame after.send.pending).bind fun frame =>
      if frame.1 = opText then some (.str frame.2)
      else if frame.1 = opBinary then some (.bytes frame.2)
      else none

inductive TryRead where
  | retrying
  | returned (resp : List UInt8)
  | raised
deriving DecidableEq

/-- The loop of `try_read` for a number of attempts; each reaches its own server state. -/
def tryReadFrom (map : MemoryMap) (servers : Nat → Server) (addr size attempt : Nat) :
    Nat → TryRead
  | 0 => .retrying
  | attempts + 1 =>
      match (packRead addr size).bind (sendAndRecv map (servers attempt)) with
      | none => .raised
      | some (.str text) =>
          if text = ascii "i'm overstuffed" then
            tryReadFrom map servers addr size (attempt + 1) attempts
          else .raised
      | some (.bytes resp) => if resp.length ≤ size then .returned resp else .raised

def tryRead (map : MemoryMap) (servers : Nat → Server) (addr size attempts : Nat) : TryRead :=
  tryReadFrom map servers addr size 0 attempts

/-- Nothing is waiting in the send buffer. -/
structure Idle (map : MemoryMap) (server : Server) : Prop where
  empty : server.send.len = 0
  reached : map.Reached server.regions
  fits : server.send.size < sizeMax

section Attempt

variable {map : MemoryMap} {server : Server} {addr size : Nat} {data : List UInt8}

theorem packRead_request (packed : packRead addr size = some data) :
    ReadRequest data addr size := by
  unfold packRead at packed
  split_ifs at packed with words
  cases packed
  refine ⟨by simp [endOfRead], rfl, ?_, ?_⟩
  · have field : ((LittleEndian.encode 8 addr ++ LittleEndian.encode 8 size).take 8) =
        LittleEndian.encode 8 addr := List.take_left' (LittleEndian.encode_length 8 addr)
    change LittleEndian.decode ((LittleEndian.encode 8 addr ++ LittleEndian.encode 8 size).take 8) = _
    rw [field, LittleEndian.decode_encode_of_lt words.1]
  · have field : ((LittleEndian.encode 8 addr ++ LittleEndian.encode 8 size).drop 8) =
        LittleEndian.encode 8 size := List.drop_left' (LittleEndian.encode_length 8 addr)
    change LittleEndian.decode
      (((LittleEndian.encode 8 addr ++ LittleEndian.encode 8 size).drop 8).take 8) = _
    rw [field, List.take_of_length_le (by simp), LittleEndian.decode_encode_of_lt words.2]

theorem Idle.pending (idle : Idle map server) : server.send.pending = [] := by
  rw [IoBuf.pending, idle.empty, List.take_zero]

theorem sendAndRecv_overstuffed (idle : Idle map server) (request : ReadRequest data addr size)
    (large : max server.send.size 65536 < addWsHeaderSize size) :
    sendAndRecv map server data = some (.str (ascii "i'm overstuffed")) := by
  obtain ⟨send, failed, pending⟩ :=
    ({ server with send := growForRead server.send } : Server).fail_exists "i'm overstuffed"
  have handled : handleRpcPacket map server data =
      some { server with send, isDraining := true } := by
    rw [handleRpcPacket_of_type request.type, handleRequest,
      handleRead_overstuffed request.length (by rw [idle.empty, request.len]; omega), failed]
  have frame : send.pending = wsFrame opText (ascii "i'm overstuffed") := by
    rw [pending, growForRead_pending, idle.pending, List.nil_append]
  rw [sendAndRecv, handled, Option.bind_some]
  simp only
  rw [frame, readFrame_wsFrame (.inl rfl) (by decide)]
  rfl

theorem sendAndRecv_reads (idle : Idle map server) (request : ReadRequest data addr size)
    (room : addWsHeaderSize size ≤ max server.send.size 65536) :
    ∃ resp, sendAndRecv map server data = some (.bytes resp) ∧ resp.length ≤ size := by
  obtain ⟨count, regions, send, read, longest, pending⟩ := handleRead_reads request.length
    idle.reached (by rw [idle.empty, request.len]; exact room) idle.fits
  have handled : handleRpcPacket map server data = some { server with regions, send } := by
    rw [handleRpcPacket_of_type request.type, handleRequest, read]
  have within := longest.within
  have wordSize := word64_lt data 9
  rw [request.len] at within wordSize
  have length := GuestMemory.length_read server.memory (word64 data 1) count
  refine ⟨server.memory.read (word64 data 1) count, ?_, by omega⟩
  rw [sendAndRecv, handled, Option.bind_some]
  simp only
  rw [pending, idle.pending, List.nil_append, readFrame_wsFrame (.inr rfl) (by omega)]
  rfl

end Attempt

section Loop

variable {map : MemoryMap} {servers : Nat → Server} {addr size attempt : Nat}

/-- While no attempt finds a buffer large enough, the loop goes on. -/
theorem tryReadFrom_retrying {data : List UInt8} (packed : packRead addr size = some data)
    (idle : ∀ attempt, Idle map (servers attempt)) {attempts : Nat}
    (large : ∀ later, attempt ≤ later → later < attempt + attempts →
      max (servers later).send.size 65536 < addWsHeaderSize size) :
    tryReadFrom map servers addr size attempt attempts = .retrying := by
  induction attempts generalizing attempt with
  | zero => rfl
  | succ attempts ih =>
      have answer := sendAndRecv_overstuffed (idle attempt) (packRead_request packed)
        (large attempt (Nat.le_refl _) (by omega))
      rw [tryReadFrom, packed, Option.bind_some, answer]
      simp only [if_true]
      apply ih
      intro later lower upper
      exact large later (by omega) (by omega)

theorem tryReadFrom_returns {data : List UInt8} (packed : packRead addr size = some data)
    (idle : ∀ attempt, Idle map (servers attempt)) {waiting : Nat}
    (large : ∀ later, attempt ≤ later → later < attempt + waiting →
      max (servers later).send.size 65536 < addWsHeaderSize size)
    (room : addWsHeaderSize size ≤ max (servers (attempt + waiting)).send.size 65536) :
    ∃ resp, tryReadFrom map servers addr size attempt (waiting + 1) = .returned resp ∧
      resp.length ≤ size := by
  induction waiting generalizing attempt with
  | zero =>
      obtain ⟨resp, answer, short⟩ :=
        sendAndRecv_reads (idle attempt) (packRead_request packed) room
      refine ⟨resp, ?_, short⟩
      rw [tryReadFrom, packed, Option.bind_some, answer]
      exact if_pos short
  | succ waiting ih =>
      have answer := sendAndRecv_overstuffed (idle attempt) (packRead_request packed)
        (large attempt (Nat.le_refl _) (by omega))
      have next : attempt + 1 + waiting = attempt + (waiting + 1) := by omega
      obtain ⟨resp, returned, short⟩ := @ih (attempt + 1)
        (fun later lower upper => large later (by omega) (by omega)) (by rw [next]; exact room)
      refine ⟨resp, ?_, short⟩
      rw [tryReadFrom, packed, Option.bind_some, answer]
      simpa only [if_true] using returned

/-- `try_read` returns exactly when the frame of the size it asks for fits the
buffer that some attempt finds, which the server grows to 65536 bytes at least. -/
theorem tryRead_returns_iff (idle : ∀ attempt, Idle map (servers attempt)) (addr size : Nat) :
    (∃ attempts resp, tryRead map servers addr size attempts = .returned resp ∧
        resp.length ≤ size) ↔
      addr < 2 ^ 64 ∧ ∃ attempt, addWsHeaderSize size ≤ max (servers attempt).send.size 65536 := by
  constructor
  · intro ⟨attempts, resp, returned, _⟩
    cases packed : packRead addr size with
    | none =>
        cases attempts with
        | zero => cases returned
        | succ attempts =>
            rw [tryRead, tryReadFrom, packed] at returned
            cases returned
    | some data =>
        have words : addr < 2 ^ 64 ∧ size < 2 ^ 64 := by
          by_contra large
          rw [packRead, if_neg large] at packed
          cases packed
        refine ⟨words.1, ?_⟩
        by_contra never
        push Not at never
        rw [tryRead, tryReadFrom_retrying packed idle fun later _ _ => never later] at returned
        cases returned
  · intro ⟨word, enough⟩
    have small : size < 2 ^ 64 := by
      obtain ⟨attempt, room⟩ := enough
      have fits := (idle attempt).fits
      have limit : 65536 < sizeMax := by decide
      have bound := Hose.addWsHeaderSize_lt size (by omega)
      unfold sizeMax at bound
      omega
    have packed : packRead addr size = some _ := if_pos ⟨word, small⟩
    have first := Nat.find_spec enough
    have earlier : ∀ later, 0 ≤ later → later < 0 + Nat.find enough →
        max (servers later).send.size 65536 < addWsHeaderSize size := by
      intro later _ before
      exact Nat.lt_of_not_le (Nat.find_min enough (by omega))
    obtain ⟨resp, returned, short⟩ := tryReadFrom_returns packed idle earlier
      (by rw [Nat.zero_add]; exact first)
    exact ⟨Nat.find enough + 1, resp, returned, short⟩

end Loop

/-- For a buffer that never grew beyond 65536 bytes that is a size of at most 65532. -/
theorem addWsHeaderSize_le_limit_iff {size : Nat} : addWsHeaderSize size ≤ 65536 ↔ size ≤ 65532 := by
  unfold addWsHeaderSize sizeMax
  split_ifs <;> omega

theorem freshServer_idle : Idle .twoRuns freshServer := ⟨rfl, .inl rfl, by decide⟩

/-- Its buffer after a reply that has made it grow. -/
def grownServer : Server :=
  { freshServer with send := { buf := List.replicate 70000 0, len := 0, within := Nat.zero_le _ } }

theorem grownServer_size : grownServer.send.size = 70000 := List.length_replicate

/-- A read that no fresh connection answers is answered once one has grown. -/
theorem tryRead_returns_iff_grown :
    (∃ attempts resp, tryRead .twoRuns (fun attempt => if attempt < 3 then freshServer else grownServer)
        0x1000 65533 attempts = .returned resp ∧ resp.length ≤ 65533) ∧
    ¬ ∃ attempts resp, tryRead .twoRuns (fun _ => freshServer) 0x1000 65533 attempts = .returned resp ∧
        resp.length ≤ 65533 := by
  have idle (attempt : Nat) :
      Idle .twoRuns (if attempt < 3 then freshServer else grownServer) := by
    split
    · exact freshServer_idle
    · exact ⟨rfl, .inl rfl, by rw [grownServer_size]; decide⟩
  have grows := tryRead_returns_iff idle 0x1000 65533
  have stays := tryRead_returns_iff (fun _ => freshServer_idle) 0x1000 65533
  constructor
  · refine grows.mpr ⟨by decide, 3, ?_⟩
    rw [if_neg (by decide), grownServer_size]
    decide
  · intro returns
    obtain ⟨_, _, room⟩ := stays.mp returns
    exact absurd room (by decide)

/-- With four bytes of header the frame passes the limit by one byte, and every
attempt is told that the connection is overstuffed. -/
theorem tryRead_never_returns :
    (∀ attempts, tryRead .twoRuns (fun _ => freshServer) 0x1000 65533 attempts = .retrying) ∧
    ¬ ∃ attempts resp, tryRead .twoRuns (fun _ => freshServer) 0x1000 65533 attempts = .returned resp ∧
      resp.length ≤ 65533 := by
  have retrying : ∀ attempts,
      tryRead .twoRuns (fun _ => freshServer) 0x1000 65533 attempts = .retrying := by
    intro attempts
    refine tryReadFrom_retrying (if_pos ⟨by decide, by decide⟩) (fun _ => freshServer_idle) ?_
    intro _ _ _
    decide
  refine ⟨retrying, ?_⟩
  intro ⟨attempts, resp, returned, _⟩
  rw [retrying attempts] at returned
  cases returned

end Smmboss.Rpc
