import Smmboss.Rpc.Connection

namespace Smmboss.Mongoose

open Smmboss.Rpc (bigEndian wsFrame)

/-! # Receiving WebSocket frames

`ws_process` and the loop of `mg_ws_cb`, on the receive buffer of a connection
that is upgraded.  The front of the buffer, up to `ofs`, holds the parts of a
fragmented message that have come, its flags first.
-/

structure WsMsg where
  flags : UInt8 := 0
  headerLen : Nat := 0
  dataLen : Nat := 0
  deriving DecidableEq, Repr

/-- `be32(buf + ofs)`. -/
def be32 (buf : List UInt8) (ofs : Nat) : Nat := bigEndian ((buf.drop ofs).take 4)

/-- `p[i] ^= m[i & 3]` over the payload. -/
def unmask (key data : List UInt8) : List UInt8 := data.mapIdx fun i byte => byte ^^^ key.getD (i % 4) 0

/-- What the first bytes say, and the length of the mask. -/
def wsHeader (buf : List UInt8) : WsMsg × Nat :=
  if 2 ≤ buf.length then
    let n := (buf.getD 1 0 &&& 0x7f).toNat
    let maskLen := if buf.getD 1 0 &&& 128 ≠ 0 then 4 else 0
    let flags := buf.getD 0 0
    if n < 126 ∧ maskLen ≤ buf.length then (⟨flags, 2 + maskLen, n⟩, maskLen)
    else if n = 126 ∧ 4 + maskLen ≤ buf.length then
      (⟨flags, 4 + maskLen, (buf.getD 2 0).toNat * 256 + (buf.getD 3 0).toNat⟩, maskLen)
    else if 10 + maskLen ≤ buf.length then
      (⟨flags, 10 + maskLen, be32 buf 2 * 2 ^ 32 + be32 buf 6⟩, maskLen)
    else (⟨flags, 0, 0⟩, maskLen)
  else ({}, 0)

/-- The header of the frame, the buffer with its payload unmasked, and its length;
zero where there is no whole frame yet. -/
def wsProcess (buf : List UInt8) : WsMsg × List UInt8 × Nat :=
  let (msg, maskLen) := wsHeader buf
  if 1024 * 1024 * 1024 < msg.dataLen then (msg, buf, 0)
  else if buf.length < msg.headerLen + msg.dataLen then (msg, buf, 0)
  else
    let unmasked :=
      if 0 < maskLen then
        let header := buf.take msg.headerLen
        header ++ unmask (header.drop (msg.headerLen - maskLen)) ((buf.drop msg.headerLen).take msg.dataLen) ++
          buf.drop (msg.headerLen + msg.dataLen)
      else buf
    (msg, unmasked, msg.headerLen + msg.dataLen)

/-- What happens to the outside: a call of the event handler, a frame that is
queued, and the ways to end.  `wild` is a message whose length is -1, `full` the
error of a full buffer. -/
inductive WsEvent where
  | ctl (flags : UInt8) (data : List UInt8)
  | msg (flags : UInt8) (data : List UInt8)
  | wild
  | send (op : UInt8) (data : List UInt8)
  | draining
  | error (op : UInt8)
  | full
  deriving DecidableEq, Repr

/-- `mg_error`, which sets `is_closing`. -/
def WsEvent.closes : WsEvent → Bool
  | .error _ => true
  | .full => true
  | _ => false

@[simp] theorem WsEvent.closes_ctl (flags : UInt8) (data : List UInt8) : (WsEvent.ctl flags data).closes = false := rfl

@[simp] theorem WsEvent.closes_msg (flags : UInt8) (data : List UInt8) : (WsEvent.msg flags data).closes = false := rfl

@[simp] theorem WsEvent.closes_send (op : UInt8) (data : List UInt8) : (WsEvent.send op data).closes = false := rfl

@[simp] theorem WsEvent.closes_draining : WsEvent.draining.closes = false := rfl

def isFinal (flags : UInt8) : Bool := flags &&& 128 ≠ 0

def opOf (flags : UInt8) : UInt8 := flags &&& 15

/-- The `switch` over the opcode. -/
def frameEvents (flags : UInt8) (data : List UInt8) : List WsEvent :=
  if opOf flags = 0 then [.ctl flags data]
  else if opOf flags = 9 then [.send 10 data, .ctl flags data]
  else if opOf flags = 10 then [.ctl flags data]
  else if opOf flags = 1 ∨ opOf flags = 2 then if isFinal flags then [.msg flags data] else []
  else if opOf flags = 8 then [.ctl flags data, .send 8 data, .draining]
  else [.error (opOf flags)]

/-- `mg_iobuf_del`. -/
def iobufDel (buf : List UInt8) (ofs len : Nat) : List UInt8 := buf.take ofs ++ buf.drop (ofs + len)

structure Receiver where
  recv : List UInt8 := []
  ofs : Nat := 0
  deriving DecidableEq, Repr

/-- The message at the front of the buffer, up to `ofs`. -/
def assembled (recv : List UInt8) (ofs : Nat) : WsEvent :=
  if ofs = 0 then .wild else .msg (recv.getD 0 0) ((recv.drop 1).take (ofs - 1))

/-- The body of the loop, from the frame and the buffer with its payload unmasked. -/
def wsBody (recv : List UInt8) (ofs : Nat) (msg : WsMsg) : Receiver × List WsEvent :=
  let data := ((recv.drop ofs).drop msg.headerLen).take msg.dataLen
  let len := msg.headerLen + msg.dataLen
  let final := isFinal msg.flags
  let op := opOf msg.flags
  let events := frameEvents msg.flags data
  -- fragmented frames: the header is stripped, the first keeps its flags
  let (recv, ofs, len) :=
    if !final || op = 0 then
      let (ofs, len, headerLen) :=
        if op ≠ 0 then (ofs + 1, len - 1, msg.headerLen - 1) else (ofs, len, msg.headerLen)
      let recv := iobufDel recv ofs headerLen
      let len := len - headerLen
      (recv, ofs + len, len)
    else (recv, ofs, len)
  let recv := if final && op ≠ 0 then iobufDel recv ofs len else recv
  if final && op = 0 then (⟨iobufDel recv 0 ofs, 0⟩, events ++ [assembled recv ofs])
  else (⟨recv, ofs⟩, events)

/-- The loop; every turn takes at least two bytes of what is not yet read. -/
def wsLoop : Nat → Receiver → Receiver × List WsEvent
  | 0, receiver => (receiver, [])
  | fuel + 1, receiver =>
      let (msg, buf, n) := wsProcess (receiver.recv.drop receiver.ofs)
      if 0 < n then
        let (next, events) := wsBody (receiver.recv.take receiver.ofs ++ buf) receiver.ofs msg
        let (last, later) := wsLoop fuel next
        (last, events ++ later)
      else (receiver, [])

/-- `MG_EV_READ` on a WebSocket connection. -/
def mgWsCb (receiver : Receiver) : Receiver × List WsEvent := wsLoop receiver.recv.length receiver

/-- `MG_MAX_RECV_SIZE`. -/
def mgMaxRecvSize : Nat := 3 * 1024 * 1024

/-- `read_conn` with what `recv` returned. -/
def readConn (receiver : Receiver) (bytes : List UInt8) : Receiver × List WsEvent :=
  if mgMaxRecvSize ≤ receiver.recv.length then (receiver, [.full])
  else mgWsCb { receiver with recv := receiver.recv ++ bytes }

/-- Who is told of the events, can set `is_draining`, and has the send buffer, of
which the socket takes bytes with `onWrite`.  `none` is an abort. -/
structure Handler (S : Type) where
  onEvent : S → WsEvent → Option S
  isDraining : S → Bool
  sendLen : S → Nat
  onWrite : S → Nat → S

/-- Bytes that come, and how many the socket takes before the next do. -/
structure Read where
  bytes : List UInt8
  written : Nat
  deriving DecidableEq, Repr

section Polls

variable {S : Type} (handler : Handler S)

def Handler.onEvents : S → List WsEvent → Option S := List.foldlM handler.onEvent

/-- `mg_mgr_poll` for a connection that can be read, and the polls after it in which
it can only be written.  A closed connection is gone. -/
def mgMgrPoll (receiver : Receiver) (state : S) (read : Read) : Option (Option Receiver × S) :=
  let (receiver, events) := readConn receiver read.bytes
  (handler.onEvents state events).map fun state =>
    let state := handler.onWrite state read.written
    if events.any WsEvent.closes ∨ handler.isDraining state ∧ handler.sendLen state = 0 then (none, state)
    else (some receiver, state)

/-- One read after the other, until the connection is closed. -/
def readAll : Option Receiver → S → List Read → Option (Option Receiver × S)
  | none, state, _ => some (none, state)
  | some receiver, state, [] => some (some receiver, state)
  | some receiver, state, read :: more =>
      (mgMgrPoll handler receiver state read).bind fun (receiver, state) => readAll receiver state more

end Polls

/-- What a handler sees that sends nothing of its own. -/
structure Log where
  events : List WsEvent := []
  sendLen : Nat := 0
  deriving DecidableEq, Repr

def WsEvent.sendLen : WsEvent → Nat
  | .send op data => (wsFrame op data).length
  | _ => 0

def logger : Handler Log where
  onEvent log event := some ⟨log.events ++ [event], log.sendLen + event.sendLen⟩
  isDraining log := log.events.contains .draining
  sendLen := Log.sendLen
  onWrite log count := { log with sendLen := log.sendLen - count }

end Smmboss.Mongoose
