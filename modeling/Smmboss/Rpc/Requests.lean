import Smmboss.Monitor.Parsing
import Smmboss.Rpc.Hello

namespace Smmboss.Rpc

open LittleEndian (encode decode)
open Smmboss.Client (Reader)
open Smmboss.Guest (MemoryMap)
open Smmboss.Hose (addWsHeaderSize)
open Smmboss.Monitor (Config prepWrite postWrite prepWrite_lt postWrite_valid checkSize checkFilled
  configOf validateConfig maxEntries entriesOffset entrySize)

/-! # The clients' requests

What the clients send, and the operations of the server on their operands.
-/

inductive Request where
  | read (addr len : UInt64)
  | write (addr : UInt64) (data : List UInt8)
  | getStats
  | setFlags (clear set : UInt64)
  | setMonitorConfig (uniqid : UInt64) (entries : List (UInt64 × UInt64))

/-! ## The operations -/

/-- A read of `readLen` bytes at `addr`. -/
def performRead (map : MemoryMap) (server : Server) (addr readLen : Nat) : Option Server :=
  let send := growForRead server.send
  let server := { server with send }
  let fullLen := addWsHeaderSize readLen
  if fullLen > send.size - send.len then server.fail "i'm overstuffed"
  else
    let expectedBody := send.len + (fullLen - readLen)
    (safeMemcpy map server.toWorld (.send expectedBody) false (.guest addr) true readLen).bind
      fun copied =>
        (finishRead copied.2.send expectedBody copied.1).map fun send =>
          { server with toWorld := { copied.2 with send } }

def performWrite (map : MemoryMap) (server : Server) (addr : Nat) (data : List UInt8) :
    Option Server :=
  (safeMemcpy map server.toWorld (.guest addr) true (.request data) false data.length).bind
    fun copied => { server with toWorld := copied.2 }.reply (encode 8 copied.1) opBinary

def performGetStats (server : Server) : Option Server :=
  { server with totalOverrunBytes := 0, totalWrittenBytes := 0, backpressuredNsec := 0 }.reply
    (encode 8 server.totalOverrunBytes.toNat ++ encode 8 server.totalWrittenBytes.toNat ++
      encode 8 server.backpressuredNsec.toNat) opBinary

def performSetFlags (server : Server) (clear set : UInt64) : Option Server :=
  let newFlags := (server.rpcFlags &&& ~~~clear) ||| set
  { server with
      rpcFlags := newFlags
      enableBackpressure := newFlags &&& rpcFlagBackpressure ≠ 0 }.reply
    (encode 8 newFlags.toNat) opBinary

/-- `Q` of a `struct` format. -/
def packQ (value : UInt64) : List UInt8 := encode 8 value.toNat

def packEntry (entry : UInt64 × UInt64) : List UInt8 := packQ entry.1 ++ packQ entry.2

/-- The fields of a `monitor_config` in memory. -/
def packConfig (uniqid : UInt64) (entries : List (UInt64 × UInt64)) : List UInt8 :=
  packQ uniqid ++ encode 8 entries.length ++ entries.flatMap packEntry

/-- The checks on a configuration with these entries. -/
def checkEntries (map : MemoryMap) (server : Server) (uniqid : UInt64)
    (entries : List (UInt64 × UInt64)) : Option String :=
  if uniqid = 0 ∧ entries ≠ [] then some "uniqid must be nonzero"
  else if ∃ entry ∈ entries, server.accessible map 0 entry.1.toNat < entry.2.toNat then
    some "invalid address"
  else none

def performSetMonitorConfig (map : MemoryMap) (server : Server) (uniqid : UInt64)
    (entries : List (UInt64 × UInt64)) : Option Server :=
  if entries.length > maxEntries then server.fail "too many entries"
  else
    (configure map server (configOf (packConfig uniqid entries))
      (checkEntries map server uniqid entries)).bind fun configured =>
        match configured.1 with
        | some err => configured.2.fail err
        | none => configured.2.reply [] opBinary

def perform (map : MemoryMap) (server : Server) : Request → Option Server
  | .read addr len => performRead map server addr.toNat len.toNat
  | .write addr data => performWrite map server addr.toNat data
  | .getStats => performGetStats server
  | .setFlags clear set => performSetFlags server clear set
  | .setMonitorConfig uniqid entries => performSetMonitorConfig map server uniqid entries

/-! ## The Python client -/

namespace RpcGuest

/-- `B` of a `struct` format. -/
def packB (value : Nat) : List UInt8 := [UInt8.ofNat value]

def tryRead (addr size : UInt64) : List UInt8 := packB 1 ++ packQ addr ++ packQ size

def tryWrite (addr : UInt64) (data : List UInt8) : List UInt8 := packB 2 ++ packQ addr ++ data

/-- Without `addr_lens` the configuration is cleared. -/
def setMonitorConfig (addrLens : Option (List (UInt64 × UInt64))) (uniqid : UInt64) : List UInt8 :=
  match addrLens with
  | none => packB 5 ++ packQ 0 ++ packQ 0
  | some entries =>
      entries.foldl (fun data entry => data ++ packEntry entry)
        (packB 5 ++ packQ uniqid ++ encode 8 entries.length)

end RpcGuest

/-! ## The web client -/

namespace DataView

end DataView

namespace RpcConn

open DataView

end RpcConn

/-! ## Reading the operands back -/

section Operands

variable {map : MemoryMap} {server : Server}

@[simp] theorem packQ_length (value : UInt64) : (packQ value).length = 8 :=
  LittleEndian.encode_length 8 _

@[simp] theorem packEntry_length (entry : UInt64 × UInt64) : (packEntry entry).length = 16 := by
  simp [packEntry]

theorem word64_packQ (front : List UInt8) (value : UInt64) (rest : List UInt8) :
    word64 (front ++ (packQ value ++ rest)) front.length = value.toNat := by
  rw [word64, List.drop_left, List.take_left' (packQ_length value), packQ,
    LittleEndian.decode_encode_of_lt value.toNat_lt]

/-- The two words behind a request type. -/
theorem words_of_type (type : UInt8) (first second : UInt64) :
    word64 (type :: (packQ first ++ packQ second)) 1 = first.toNat ∧
      word64 (type :: (packQ first ++ packQ second)) 9 = second.toNat := by
  refine ⟨word64_packQ [type] first (packQ second), ?_⟩
  have later := word64_packQ (type :: packQ first) second []
  simpa using later

theorem handle_getStats : handleRpcPacket map server [3] = perform map server .getStats := by
  rw [@handleRpcPacket_of_type _ _ _ .getStats rfl, handleRequest, handleGetStats, if_neg (by decide)]
  rfl

theorem handle_setFlags (clear set : UInt64) :
    handleRpcPacket map server (4 :: (packQ clear ++ packQ set)) =
      perform map server (.setFlags clear set) := by
  have words := words_of_type 4 clear set
  have length : ¬ (4 :: (packQ clear ++ packQ set)).length ≠ endOfSetFlags := by
    simp [endOfSetFlags]
  rw [@handleRpcPacket_of_type _ _ _ .setFlags rfl, handleRequest, handleSetFlags, if_neg length,
    words.1, words.2, UInt64.ofNat_toNat, UInt64.ofNat_toNat]
  rfl

end Operands

/-! ## The fields of a configuration -/

section Configuration

variable {map : MemoryMap} {server : Server} {uniqid : UInt64} {entries : List (UInt64 × UInt64)}

theorem packEntries_length : (entries.flatMap packEntry).length = entrySize * entries.length := by
  induction entries with
  | nil => rfl
  | cons entry entries ih =>
      rw [List.flatMap_cons, List.length_append, ih, packEntry_length, List.length_cons, entrySize,
        Nat.mul_succ, Nat.add_comm]

theorem packConfig_length :
    (packConfig uniqid entries).length = entriesOffset + entrySize * entries.length := by
  simp only [packConfig, List.length_append, packEntries_length, packQ_length,
    LittleEndian.encode_length, entriesOffset]

theorem packConfig_uniqid : word64 (packConfig uniqid entries) 0 = uniqid.toNat := by
  rw [packConfig, List.append_assoc]
  exact word64_packQ [] uniqid _

theorem packConfig_count (few : entries.length < 2 ^ 64) :
    word64 (packConfig uniqid entries) 8 = entries.length := by
  have word := word64_packQ (packQ uniqid) (UInt64.ofNat entries.length) (entries.flatMap packEntry)
  have same : (UInt64.ofNat entries.length).toNat = entries.length := by
    rw [UInt64.toNat_ofNat']
    omega
  have packed : packQ (UInt64.ofNat entries.length) = encode 8 entries.length := by
    rw [packQ, same]
  rw [packQ_length, same, packed] at word
  rw [packConfig, List.append_assoc, word]

/-- The trailing array holds the entries in order. -/
theorem packConfig_entry {place : Nat} (inside : place < entries.length) :
    word64 (packConfig uniqid entries) (entriesOffset + entrySize * place) =
        entries[place].1.toNat ∧
      word64 (packConfig uniqid entries) (entriesOffset + entrySize * place + 8) =
        entries[place].2.toNat := by
  have split : packConfig uniqid entries =
      (packConfig uniqid entries).take (entriesOffset + entrySize * place) ++
        (packQ entries[place].1 ++ (packQ entries[place].2 ++
          (entries.drop (place + 1)).flatMap packEntry)) := by
    have cut : entries.flatMap packEntry = (entries.take place).flatMap packEntry ++
        (packQ entries[place].1 ++ (packQ entries[place].2 ++
          (entries.drop (place + 1)).flatMap packEntry)) := by
      have whole := List.take_append_drop place entries
      rw [List.drop_eq_getElem_cons inside] at whole
      nth_rewrite 1 [← whole]
      rw [List.flatMap_append, List.flatMap_cons, packEntry, List.append_assoc]
    have front : (packQ uniqid ++ encode 8 entries.length ++
        (entries.take place).flatMap packEntry).length = entriesOffset + entrySize * place := by
      simp only [List.length_append, packEntries_length, packQ_length, LittleEndian.encode_length,
        List.length_take, Nat.min_eq_left (Nat.le_of_lt inside), entriesOffset]
    rw [packConfig, cut, ← List.append_assoc, List.take_left' front]
  have front : ((packConfig uniqid entries).take (entriesOffset + entrySize * place)).length =
      entriesOffset + entrySize * place := by
    have order := Nat.mul_le_mul_left entrySize (Nat.le_of_lt inside)
    rw [List.length_take, packConfig_length]
    omega
  generalize (packConfig uniqid entries).take (entriesOffset + entrySize * place) = before
    at split front
  have address := word64_packQ before entries[place].1
    (packQ entries[place].2 ++ (entries.drop (place + 1)).flatMap packEntry)
  have length := word64_packQ (before ++ packQ entries[place].1) entries[place].2
    ((entries.drop (place + 1)).flatMap packEntry)
  rw [List.length_append, packQ_length, front, List.append_assoc] at length
  rw [front] at address
  rw [split]
  exact ⟨address, length⟩

theorem entriesOf_packConfig : Monitor.entriesOf (packConfig uniqid entries) =
    entries.map fun entry => (entry.1.toNat, entry.2.toNat) := by
  have count : ((packConfig uniqid entries).length - entriesOffset) / entrySize =
      entries.length := by
    rw [packConfig_length, Nat.add_sub_cancel_left, Nat.mul_div_cancel_left _ (by decide)]
  apply List.ext_getElem
  · rw [Monitor.entriesOf_length, count, List.length_map]
  · intro place _ inside
    rw [List.length_map] at inside
    have words := @packConfig_entry uniqid entries place inside
    simp only [Monitor.entriesOf, List.getElem_map, List.getElem_range, words.1, words.2]

end Configuration

/-! ## The bytes of each client -/

namespace RpcConn

open DataView

end RpcConn

/-! ## What is refused -/

end Smmboss.Rpc
