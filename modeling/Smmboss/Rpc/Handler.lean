import Smmboss.Monitor.Config
import Smmboss.Monitor.TripleBuffer
import Smmboss.Rpc.SafeMemcpy

namespace Smmboss.Rpc

open Smmboss.Guest (MemoryMap)
open Smmboss.Hose (sizeMax addWsHeaderSize fillWsHeader)
open Smmboss.Monitor (AtomicState Config prepWrite postWrite prepWrite_lt postWrite_valid checkSize
  checkFilled configOf)

/-! # `handle_rpc_packet`

A failed assertion, and a store past the end of the send buffer, are `none`.
-/

/-- What the handler reads and changes, the connection included. -/
structure Server extends World where
  isDraining : Bool := false
  rpcFlags : UInt64 := 0
  enableBackpressure : Bool := false
  totalOverrunBytes : UInt64 := 0
  totalWrittenBytes : UInt64 := 0
  backpressuredNsec : UInt64 := 0
  configs : Fin 4 → Config := fun _ _ => 0
  tripleBuffer : { state : AtomicState // state.Valid }

inductive ReqType where
  | read
  | write
  | getStats
  | setFlags
  | setMonitorConfig
deriving DecidableEq

def ReqType.ofByte (byte : UInt8) : Option ReqType :=
  if byte = 1 then some .read
  else if byte = 2 then some .write
  else if byte = 3 then some .getStats
  else if byte = 4 then some .setFlags
  else if byte = 5 then some .setMonitorConfig
  else none

/-- `offsetof_end(rpc_req, …)`. -/
def endOfType : Nat := 1
def endOfRead : Nat := 17
def endOfWrite : Nat := 9
def endOfGetStats : Nat := 1
def endOfSetFlags : Nat := 17

def rpcFlagBackpressure : UInt64 := 1

/-- A `uint64_t` field of the packed request. -/
def word64 (message : List UInt8) (offset : Nat) : Nat :=
  LittleEndian.decode ((message.drop offset).take 8)

def ascii (text : String) : List UInt8 := text.toList.map fun char => UInt8.ofNat char.toNat

namespace Server

def reply (server : Server) (payload : List UInt8) (op : UInt8) : Option Server :=
  (mgWsSend server.send payload op).map fun send => { server with send }

/-- The code behind the label `err`. -/
def fail (server : Server) (err : String) : Option Server :=
  (server.reply (ascii err) opText).map fun server => { server with isDraining := true }

end Server

/-- From `fill_ws_header` on: the header goes in front of the body, and the body
is moved down to a header shorter than expected. -/
def finishRead (send : IoBuf) (expectedBody actual : Nat) : Option IoBuf :=
  let header := send.len
  let actualBody := header + (fillWsHeader actual).length
  (send.store header (fillWsHeader actual)).bind fun send =>
    (if actualBody = expectedBody then some send
      else if actualBody < expectedBody then
        (send.load expectedBody actual).bind fun body => send.store actualBody body
      else none).bind fun send =>
    send.extend (actualBody + actual - header)

/-- The buffer grown to the fixed limit of a read. -/
def growForRead (send : IoBuf) : IoBuf :=
  let limit := 65536
  if send.size < limit then send.resize limit else send

def handleRead (map : MemoryMap) (server : Server) (message : List UInt8) : Option Server :=
  if message.length ≠ endOfRead then server.fail "wrong len for read"
  else
    let addr := word64 message 1
    let readLen := word64 message 9
    let send := growForRead server.send
    let server := { server with send }
    let fullLen := addWsHeaderSize readLen
    if fullLen > send.size - send.len then server.fail "i'm overstuffed"
    else
      let expectedBody := send.len + (fullLen - readLen)
      (safeMemcpy map server.toWorld (.send expectedBody) false (.guest addr) true readLen).bind
        fun copied =>
          (finishRead copied.2.send expectedBody copied.1).map fun send =>
            { server with toWorld := { copied.2 with send } }

def handleWrite (map : MemoryMap) (server : Server) (message : List UInt8) : Option Server :=
  if message.length < endOfWrite then server.fail "too short for write"
  else
    let data := message.drop endOfWrite
    (safeMemcpy map server.toWorld (.guest (word64 message 1)) true (.request data) false
        data.length).bind fun copied =>
      { server with toWorld := copied.2 }.reply (LittleEndian.encode 8 copied.1) opBinary

def handleGetStats (server : Server) (message : List UInt8) : Option Server :=
  if message.length ≠ endOfGetStats then server.fail "wrong len for get_stats"
  else
    let resp := LittleEndian.encode 8 server.totalOverrunBytes.toNat ++
      LittleEndian.encode 8 server.totalWrittenBytes.toNat ++
      LittleEndian.encode 8 server.backpressuredNsec.toNat
    { server with totalOverrunBytes := 0, totalWrittenBytes := 0, backpressuredNsec := 0 }.reply
      resp opBinary

def handleSetFlags (server : Server) (message : List UInt8) : Option Server :=
  if message.length ≠ endOfSetFlags then server.fail "wrong len for set_flags"
  else
    let clear := UInt64.ofNat (word64 message 1)
    let set := UInt64.ofNat (word64 message 9)
    let newFlags := (server.rpcFlags &&& ~~~clear) ||| set
    { server with
        rpcFlags := newFlags
        enableBackpressure := newFlags &&& rpcFlagBackpressure ≠ 0 }.reply
      (LittleEndian.encode 8 newFlags.toNat) opBinary

/-- What `validate_config` gets from `accessible_bytes_at` for each entry. -/
def Server.accessible (map : MemoryMap) (server : Server) (_entry addr : Nat) : Nat :=
  ((map.accessibleBytesAt server.regions addr false).map Prod.fst).getD 0

/-- `set_config` from `prep_write` on, with the outcome of its checks.  The first
query of `validate_config` loads the regions that are not cached yet. -/
def configure (map : MemoryMap) (server : Server) (config : Config) (checked : Option String) :
    Option (Option String × Server) :=
  match prepared : prepWrite server.tripleBuffer.1 with
  | none => none
  | some slot =>
      let filled := { server with configs := Function.update server.configs slot config }
      match checked with
      | some err => some (some err, filled)
      | none =>
          let regions := (map.query server.regions (config.entryAddr 0, false)).getD server.regions
          match posted : postWrite slot server.tripleBuffer.1 with
          | none => none
          | some atomic =>
              some (none, { filled with
                regions
                tripleBuffer := ⟨atomic, postWrite_valid server.tripleBuffer.2
                  (prepWrite_lt server.tripleBuffer.2 prepared) posted⟩ })

/-- `set_config`: the error text it returns, if any. -/
def setConfig (map : MemoryMap) (server : Server) (data : List UInt8) :
    Option (Option String × Server) :=
  match checkSize data with
  | some err => some (some err, server)
  | none => configure map server (configOf data) (checkFilled data (configOf data) (server.accessible map))

def handleSetMonitorConfig (map : MemoryMap) (server : Server) (message : List UInt8) :
    Option Server :=
  (setConfig map server (message.drop endOfType)).bind fun configured =>
    match configured.1 with
    | some err => configured.2.fail err
    | none => configured.2.reply [] opBinary

/-- The `switch` over the request type. -/
def handleRequest (map : MemoryMap) (server : Server) (message : List UInt8) :
    ReqType → Option Server
  | .read => handleRead map server message
  | .write => handleWrite map server message
  | .getStats => handleGetStats server message
  | .setFlags => handleSetFlags server message
  | .setMonitorConfig => handleSetMonitorConfig map server message

def handleRpcPacket (map : MemoryMap) (server : Server) (message : List UInt8) : Option Server :=
  match message.head? with
  | none => server.fail "too short for type"
  | some byte =>
      match ReqType.ofByte byte with
      | some type => handleRequest map server message type
      | none => server.fail "unknown req type"

end Smmboss.Rpc
