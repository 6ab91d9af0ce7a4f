import Mathlib.Data.List.Nodup
import Smmboss.Foundation.Machine
import Smmboss.Rpc.Hello
import Smmboss.Rpc.Handler

namespace Smmboss.Mongoose

open Smmboss.Rpc (ascii wsFrame opBinary ModuleSlot sendHello)

/-! # Connections up to the hand-off

`mongoose_callback_impl`, with what it calls and what calls it in mongoose.
-/

inductive ConnState where
  | default
  | rpcWebsocket
  | drainingBeforeHoseHandoff
deriving DecidableEq

structure HttpMessage where
  uri : List UInt8
  headers : List (List UInt8 × List UInt8) := []

/-- `upgraded` (the requests whose upgrade succeeded) and `sent` (what has been
written to the socket) are history. -/
structure Connection where
  state : ConnState := .default
  send : List UInt8 := []
  isDraining : Bool := false
  upgraded : List HttpMessage := []
  sent : List UInt8 := []

/-- Connections by `id`.  `pushed` is history: each connection whose descriptor
went to `push_fd`, as it was then.  A number may come back once it is closed, so
a descriptor is told by its connection. -/
structure Mgr where
  connections : Nat → Option Connection := fun _ => none
  nextId : Nat := 0
  pushed : List (Nat × Connection) := []

def toLower (char : UInt8) : UInt8 := if 65 ≤ char ∧ char ≤ 90 then char + 32 else char

/-- `mg_http_get_header`.  The list ends at an empty name. -/
def HttpMessage.getHeader (hm : HttpMessage) (name : List UInt8) : Option (List UInt8) :=
  ((hm.headers.takeWhile fun header => header.1 ≠ []).find? fun header =>
    header.1.map toLower = name.map toLower).map Prod.snd

/-- `mg_match` with a pattern that has no wildcard. -/
def mgMatch (s p : List UInt8) : Bool := s = p

def uriHose : List UInt8 := ascii "/ws/hose"
def uriRpc : List UInt8 := ascii "/ws/rpc"
def secWebSocketKey : List UInt8 := ascii "Sec-WebSocket-Key"
def secWebSocketProtocol : List UInt8 := ascii "Sec-WebSocket-Protocol"

/-- `%-10lu` and the blank after it. -/
def contentLength (len : Nat) : List UInt8 :=
  let digits := ascii (toString len)
  digits ++ List.replicate (11 - digits.length) 32

/-- `mg_http_status_code_str`, for the codes that are replied with here. -/
def statusCodeStr (code : Nat) : String :=
  if code = 404 then "Not Found" else if code = 426 then "Upgrade Required" else ""

/-- What `mg_http_reply` queues. -/
def mgHttpReply (code : Nat) (body : String) : List UInt8 :=
  ascii "HTTP/1.1 " ++ ascii (toString code) ++ ascii " " ++ ascii (statusCodeStr code) ++
    ascii "\r\nContent-Length: " ++ contentLength (ascii body).length ++ ascii "\r\n\r\n" ++
    ascii body

/-- What `ws_handshake` queues.  `accept` is the SHA-1 of the key and the magic
string, in base64. -/
def wsHandshake (accept : List UInt8 → List UInt8) (key : List UInt8)
    (protocol : Option (List UInt8)) : List UInt8 :=
  ascii ("HTTP/1.1 101 Switching Protocols\r\nUpgrade: websocket\r\n" ++
    "Connection: Upgrade\r\nSec-WebSocket-Accept: ") ++ accept key ++ ascii "\r\n" ++
    (protocol.map fun value => ascii "Sec-WebSocket-Protocol: " ++ value ++ ascii "\r\n").getD [] ++
    ascii "\r\n"

section Callback

variable (accept : List UInt8 → List UInt8) (slots : List ModuleSlot)

namespace Connection

def queue (c : Connection) (bytes : List UInt8) : Connection := { c with send := c.send ++ bytes }

/-- `MG_EV_WS_OPEN`. -/
def wsOpen (c : Connection) : Connection :=
  if c.state = .rpcWebsocket then c.queue (wsFrame opBinary (sendHello slots)) else c

/-- `mg_ws_upgrade`. -/
def mgWsUpgrade (c : Connection) (hm : HttpMessage) : Connection :=
  match hm.getHeader secWebSocketKey with
  | none =>
      { c.queue (mgHttpReply 426 "WS upgrade expected\n") with isDraining := true }
  | some key =>
      { c.queue (wsHandshake accept key (hm.getHeader secWebSocketProtocol)) with
        upgraded := c.upgraded ++ [hm] }.wsOpen slots

/-- `MG_EV_HTTP_MSG`. -/
def httpMsg (c : Connection) (hm : HttpMessage) : Connection :=
  -- The state is set before it is known whether the upgrade succeeds.
  if mgMatch hm.uri uriHose then
    { c with state := .drainingBeforeHoseHandoff }.mgWsUpgrade accept slots hm
  else if mgMatch hm.uri uriRpc then
    { c with state := .rpcWebsocket }.mgWsUpgrade accept slots hm
  else c.queue (mgHttpReply 404 "not found")

/-- `MG_EV_WS_MSG`, with what `handle_rpc_packet` queues and whether it drains. -/
def wsMsg (c : Connection) (answer : List UInt8) (drains : Bool) : Connection :=
  if c.state ≠ .rpcWebsocket then { c with isDraining := true }
  else { c.queue answer with isDraining := c.isDraining || drains }

/-- Whether `MG_EV_WRITE` hands the descriptor off. -/
def handsOff (c : Connection) : Bool :=
  c.state = .drainingBeforeHoseHandoff && c.send.isEmpty

end Connection

/-- `mongooseQueues` is what mongoose queues of itself (to a ping, to a close
frame, to a POST without a length).  `closed` is an error or a peer that leaves. -/
inductive Event where
  | accepted
  | httpMsg (id : Nat) (hm : HttpMessage)
  | wsMsg (id : Nat) (answer : List UInt8) (drains : Bool)
  | mongooseQueues (id : Nat) (bytes : List UInt8) (drains : Bool)
  | write (id n : Nat)
  | drained (id : Nat)
  | closed (id : Nat)

namespace Mgr

def put (mgr : Mgr) (id : Nat) (c : Option Connection) : Mgr :=
  { mgr with connections := Function.update mgr.connections id c }

/-- Events come in any order; the protocol handlers of mongoose let through fewer. -/
def step (mgr : Mgr) : Event → Option Mgr
  | .accepted => some { mgr.put mgr.nextId (some {}) with nextId := mgr.nextId + 1 }
  | .httpMsg id hm => (mgr.connections id).map fun c => mgr.put id (c.httpMsg accept slots hm)
  | .wsMsg id answer drains =>
      (mgr.connections id).map fun c => mgr.put id (c.wsMsg answer drains)
  | .mongooseQueues id bytes drains =>
      (mgr.connections id).map fun c =>
        mgr.put id (some { c.queue bytes with isDraining := c.isDraining || drains })
  | .write id n =>
      (mgr.connections id).bind fun c =>
        if 0 < n ∧ n ≤ c.send.length then
          let c := { c with send := c.send.drop n, sent := c.sent ++ c.send.take n }
          if c.handsOff then some { mgr.put id none with pushed := mgr.pushed ++ [(id, c)] }
          else some (mgr.put id (some c))
        else none
  | .drained id =>
      (mgr.connections id).bind fun c =>
        if c.isDraining ∧ c.send = [] then some (mgr.put id none) else none
  | .closed id => (mgr.connections id).map fun _ => mgr.put id none

end Mgr

end Callback

/-! ## What is handed off -/

section HandOff

variable (accept : List UInt8 → List UInt8) (slots : List ModuleSlot)

/-- `bytes` contain the whole 101 response to a request for /ws/hose. -/
def Connection.HoseUpgraded (c : Connection) (bytes : List UInt8) : Prop :=
  ∃ hm key, hm ∈ c.upgraded ∧ hm.uri = uriHose ∧ hm.getHeader secWebSocketKey = some key ∧
    wsHandshake accept key (hm.getHeader secWebSocketProtocol) <:+: bytes

structure Mgr.HandOffOk (mgr : Mgr) : Prop where
  upgraded : ∀ id c, (id, c) ∈ mgr.pushed → c.HoseUpgraded accept c.sent
  once : (mgr.pushed.map Prod.fst).Nodup

/-- The response to the upgrade may still wait to be sent. -/
def Connection.Ready (c : Connection) : Prop :=
  c.state = .drainingBeforeHoseHandoff → c.HoseUpgraded accept (c.sent ++ c.send)

/-- A request for /ws/hose has a Sec-WebSocket-Key. -/
def Event.Keyed : Event → Prop
  | .httpMsg _ hm => hm.uri = uriHose → (hm.getHeader secWebSocketKey).isSome
  | _ => True

end HandOff

section Connections

variable {accept : List UInt8 → List UInt8} {slots : List ModuleSlot}
variable {c : Connection} {hm : HttpMessage}

namespace Connection

theorem HoseUpgraded.grow {after : Connection} {bytes rest : List UInt8}
    (upgraded : c.HoseUpgraded accept bytes) (kept : c.upgraded ⊆ after.upgraded) :
    after.HoseUpgraded accept (bytes ++ rest) := by
  obtain ⟨hm, key, member, asked, keyed, inside⟩ := upgraded
  exact ⟨hm, key, kept member, asked, keyed, inside.trans (List.prefix_append bytes rest).isInfix⟩

theorem Ready.queue (ready : c.Ready accept) (bytes : List UInt8) (isDraining : Bool) :
    Ready accept { c.queue bytes with isDraining } := by
  intro draining
  have upgraded := ready draining
  change HoseUpgraded accept _ (c.sent ++ (c.send ++ bytes))
  rw [← List.append_assoc]
  exact upgraded.grow (List.Subset.refl _)

theorem Ready.wsOpen (ready : c.Ready accept) : (c.wsOpen slots).Ready accept := by
  rw [Connection.wsOpen]
  split
  · exact ready.queue _ c.isDraining
  · exact ready

theorem mgWsUpgrade_ready (keyed : (hm.getHeader secWebSocketKey).isSome)
    (asked : c.state = .drainingBeforeHoseHandoff → hm.uri = uriHose) :
    (c.mgWsUpgrade accept slots hm).Ready accept := by
  obtain ⟨key, found⟩ := Option.isSome_iff_exists.mp keyed
  rw [mgWsUpgrade, found]
  apply Ready.wsOpen
  intro draining
  exact ⟨hm, key, by simp, asked draining, found, c.sent ++ c.send, [],
    by simp [Connection.queue, List.append_assoc]⟩

/-- A failed upgrade leaves the state that was set before it. -/
theorem mgWsUpgrade_state (c : Connection) (hm : HttpMessage) :
    (c.mgWsUpgrade accept slots hm).state = c.state := by
  rw [mgWsUpgrade]
  split
  · rfl
  · rw [Connection.wsOpen]
    split <;> rfl

theorem Ready.httpMsg (ready : c.Ready accept)
    (keyed : hm.uri = uriHose → (hm.getHeader secWebSocketKey).isSome) :
    (c.httpMsg accept slots hm).Ready accept := by
  rw [Connection.httpMsg]
  split
  next asked =>
    have asked : hm.uri = uriHose := by simpa [mgMatch] using asked
    exact mgWsUpgrade_ready (keyed asked) fun _ => asked
  next =>
    split
    next =>
      intro draining
      rw [mgWsUpgrade_state] at draining
      cases draining
    next => exact ready.queue _ c.isDraining

theorem Ready.wsMsg (ready : c.Ready accept) (answer : List UInt8) (drains : Bool) :
    (c.wsMsg answer drains).Ready accept := by
  rw [Connection.wsMsg]
  split
  · exact ready
  · exact ready.queue answer _

/-- Writing to the socket moves bytes from `send` to `sent`. -/
theorem Ready.write (ready : c.Ready accept) (n : Nat) :
    Ready accept { c with send := c.send.drop n, sent := c.sent ++ c.send.take n } := by
  intro draining
  have upgraded := ready draining
  simpa [HoseUpgraded, List.append_assoc] using upgraded

theorem Ready.handsOff (ready : c.Ready accept) (done : c.handsOff = true) :
    c.HoseUpgraded accept c.sent := by
  simp only [Connection.handsOff, Bool.and_eq_true, decide_eq_true_eq, List.isEmpty_iff] at done
  have upgraded := ready done.1
  rwa [done.2, List.append_nil] at upgraded

end Connection

variable (accept) in
structure Mgr.Invariant (mgr : Mgr) : Prop where
  ready : ∀ id c, mgr.connections id = some c → c.Ready accept
  fresh : ∀ id, mgr.nextId ≤ id → mgr.connections id = none
  pushed : mgr.HandOffOk accept
  gone : ∀ id ∈ mgr.pushed.map Prod.fst, id < mgr.nextId ∧ mgr.connections id = none

theorem initial_invariant : Mgr.Invariant accept {} where
  ready := by simp
  fresh := by simp
  pushed := ⟨by simp, List.nodup_nil⟩
  gone := by simp

namespace Mgr

variable {mgr : Mgr} {id : Nat} {next : Option Connection}

/-- An open connection is changed or closed. -/
theorem Invariant.put (invariant : mgr.Invariant accept) (known : mgr.connections id = some c)
    (ready : ∀ c, next = some c → c.Ready accept) : (mgr.put id next).Invariant accept where
  ready := by
    intro other c
    simp only [Mgr.put, Function.update_apply]
    split
    · exact ready c
    · exact invariant.ready other c
  fresh := by
    intro other later
    simp only [Mgr.put, Function.update_apply]
    split
    next same =>
      rw [same] at later
      rw [invariant.fresh id later] at known
      cases known
    next => exact invariant.fresh other later
  pushed := ⟨invariant.pushed.upgraded, invariant.pushed.once⟩
  gone := by
    intro other member
    obtain ⟨earlier, none⟩ := invariant.gone other member
    have apart : other ≠ id := by
      intro same
      rw [← same, none] at known
      cases known
    exact ⟨earlier, by simp only [Mgr.put, Function.update_apply, if_neg apart, none]⟩

theorem Invariant.accepted (invariant : mgr.Invariant accept) :
    Invariant accept { mgr.put mgr.nextId (some {}) with nextId := mgr.nextId + 1 } where
  ready := by
    intro other c
    simp only [Mgr.put, Function.update_apply]
    split
    · intro same
      cases same
      simp [Connection.Ready]
    · exact invariant.ready other c
  fresh := by
    intro other later
    have later : mgr.nextId < other := later
    simp only [Mgr.put, Function.update_apply]
    rw [if_neg (by omega)]
    exact invariant.fresh other (by omega)
  pushed := ⟨invariant.pushed.upgraded, invariant.pushed.once⟩
  gone := by
    intro other member
    obtain ⟨earlier, none⟩ := invariant.gone other member
    simp only [Mgr.put, Function.update_apply]
    rw [if_neg (by omega)]
    exact ⟨Nat.lt_succ_of_lt earlier, none⟩

/-- The descriptor of a connection is handed off and the connection closed. -/
theorem Invariant.handOff (invariant : mgr.Invariant accept) {handed : Connection}
    (known : mgr.connections id = some c) (upgraded : handed.HoseUpgraded accept handed.sent) :
    Invariant accept { mgr.put id none with pushed := mgr.pushed ++ [(id, handed)] } := by
  have closed : (mgr.put id none).Invariant accept := invariant.put known (by simp)
  have new : id ∉ mgr.pushed.map Prod.fst := by
    intro member
    obtain ⟨-, none⟩ := invariant.gone id member
    rw [none] at known
    cases known
  exact
    { ready := closed.ready
      fresh := closed.fresh
      pushed :=
        { upgraded := by
            intro other c member
            rcases List.mem_append.mp member with old | last
            · exact closed.pushed.upgraded other c old
            · obtain ⟨rfl, rfl⟩ := Prod.mk.inj (List.mem_singleton.mp last)
              exact upgraded
          once := by
            rw [List.map_append]
            exact closed.pushed.once.append (List.nodup_singleton id)
              (List.disjoint_singleton.mpr new) }
      gone := by
        intro other member
        rw [List.map_append] at member
        rcases List.mem_append.mp member with old | last
        · exact closed.gone other old
        · have earlier : id < mgr.nextId := by
            apply Nat.lt_of_not_le
            intro later
            rw [invariant.fresh id later] at known
            cases known
          rw [List.mem_singleton.mp last]
          exact ⟨earlier, by simp [Mgr.put]⟩ }

theorem step_invariant {before after : Mgr} {event : Event} (invariant : before.Invariant accept)
    (keyed : event.Keyed) (stepped : before.step accept slots event = some after) :
    after.Invariant accept := by
  cases event with
  | accepted =>
      cases stepped
      exact invariant.accepted
  | httpMsg id hm =>
      obtain ⟨c, known, rfl⟩ := Option.map_eq_some_iff.mp stepped
      apply invariant.put known
      intro next same
      cases same
      exact (invariant.ready id c known).httpMsg keyed
  | wsMsg id answer drains =>
      obtain ⟨c, known, rfl⟩ := Option.map_eq_some_iff.mp stepped
      apply invariant.put known
      intro next same
      cases same
      exact (invariant.ready id c known).wsMsg answer drains
  | mongooseQueues id bytes drains =>
      obtain ⟨c, known, rfl⟩ := Option.map_eq_some_iff.mp stepped
      apply invariant.put known
      intro next same
      cases same
      exact (invariant.ready id c known).queue bytes _
  | write id n =>
      obtain ⟨c, known, stepped⟩ := Option.bind_eq_some_iff.mp stepped
      have ready := (invariant.ready id c known).write n
      split at stepped
      next =>
        simp only at stepped
        split at stepped
        next done =>
          cases stepped
          exact invariant.handOff known (ready.handsOff done)
        next =>
          cases stepped
          apply invariant.put known
          intro next same
          cases same
          exact ready
      next => cases stepped
  | drained id =>
      obtain ⟨c, known, stepped⟩ := Option.bind_eq_some_iff.mp stepped
      split at stepped
      next =>
        cases stepped
        exact invariant.put known (by simp)
      next => cases stepped
  | closed id =>
      obtain ⟨c, known, rfl⟩ := Option.map_eq_some_iff.mp stepped
      exact invariant.put known (by simp)

end Mgr

end Connections

/-- As long as every request for /ws/hose has a key, only upgraded connections
are handed off. -/
theorem handOff_ok (accept : List UInt8 → List UInt8) (slots : List ModuleSlot)
    {events : List Event} {mgr : Mgr} (keyed : ∀ event ∈ events, event.Keyed)
    (ran : Machine.run (Mgr.step accept slots) {} events = some mgr) : mgr.HandOffOk accept := by
  have guarded : Machine.Along (Mgr.step accept slots) (fun _ event => event.Keyed) {} events :=
    .of_forall (fun _ event member => keyed event member) _
  have invariant : mgr.Invariant accept :=
    Machine.run_preserves_along Mgr.step_invariant initial_invariant guarded ran
  exact invariant.pushed

/-- The digest is the one of RFC 6455's sample nonce. -/
def sampleKey : List UInt8 := ascii "dGhlIHNhbXBsZSBub25jZQ=="
def sampleAccept (_ : List UInt8) : List UInt8 := ascii "s3pPLMBiTxaQ9kYGzzhZRbK+xOo="

theorem handOff_ok_sample :
    ∃ mgr, Machine.run (Mgr.step sampleAccept []) {}
        [.accepted, .httpMsg 0 { uri := uriHose, headers := [(secWebSocketKey, sampleKey)] },
          .write 0 100, .write 0 29] = some mgr ∧
      mgr.HandOffOk sampleAccept ∧ mgr.pushed.map Prod.fst = [0] := by
  have ran : ((Machine.run (Mgr.step sampleAccept []) {}
      [.accepted, .httpMsg 0 { uri := uriHose, headers := [(secWebSocketKey, sampleKey)] },
        .write 0 100, .write 0 29]).map fun mgr => mgr.pushed.map Prod.fst) = some [0] := by
    decide +kernel
  obtain ⟨mgr, ran, same⟩ := Option.map_eq_some_iff.mp ran
  refine ⟨mgr, ran, handOff_ok sampleAccept [] ?_ ran, same⟩
  have keyed : (HttpMessage.getHeader
      { uri := uriHose, headers := [(secWebSocketKey, sampleKey)] } secWebSocketKey).isSome := by
    decide +kernel
  simp [Event.Keyed, keyed]

/-- A plain GET of /ws/hose: its connection is handed off when the 426 reply has
been written. -/
theorem keyless_handed_off :
    ∃ mgr, Machine.run (Mgr.step sampleAccept []) {}
        [.accepted, .httpMsg 0 { uri := uriHose },
          .write 0 (mgHttpReply 426 "WS upgrade expected\n").length] = some mgr ∧
      ¬ mgr.HandOffOk sampleAccept := by
  have ran : ((Machine.run (Mgr.step sampleAccept []) {}
      [.accepted, .httpMsg 0 { uri := uriHose },
        .write 0 (mgHttpReply 426 "WS upgrade expected\n").length]).map fun mgr =>
      mgr.pushed.map fun entry => entry.2.upgraded.length) = some [0] := by
    decide +kernel
  obtain ⟨mgr, ran, same⟩ := Option.map_eq_some_iff.mp ran
  refine ⟨mgr, ran, ?_⟩
  intro ok
  cases pushed : mgr.pushed with
  | nil =>
      rw [pushed] at same
      cases same
  | cons entry rest =>
      rw [pushed, List.map_cons] at same
      obtain ⟨hm, _, member, -⟩ := ok.upgraded entry.1 entry.2 (by simp [pushed])
      have none : entry.2.upgraded = [] := List.length_eq_zero_iff.mp (List.cons.inj same).1
      rw [none] at member
      cases member

end Smmboss.Mongoose
