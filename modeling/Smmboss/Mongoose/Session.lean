import Smmboss.Mongoose.Messages
import Smmboss.Rpc.Requests

namespace Smmboss.Mongoose

open Smmboss.Guest (MemoryMap)
open Smmboss.Rpc (Server handleRpcPacket)

/-! # An RPC session from its bytes

What `mongoose_callback_impl` does, on a connection in the RPC state, with the
events of its WebSocket.
-/

/-- Control frames and errors are not looked at. -/
def serveEvent (map : MemoryMap) (server : Server) : WsEvent → Option Server
  | .msg _ data => handleRpcPacket map server data
  | .send op data => server.reply data op
  | .draining => some { server with isDraining := true }
  | .ctl _ _ => some server
  -- the packet would be read past the buffer
  | .wild => none
  | .error _ => some server
  | .full => some server

/-- The socket takes bytes of what is pending. -/
def wrote (server : Server) (count : Nat) : Server := { server with send := server.send.del count }

def rpcHandler (map : MemoryMap) : Handler Server where
  onEvent := serveEvent map
  isDraining := Server.isDraining
  sendLen server := server.send.len
  onWrite := wrote

/-- The requests, each handled once and in order, and the socket writes between them. -/
inductive Handled (map : MemoryMap) : Server → List (UInt8 × List UInt8) → Server → Prop where
  | done (server : Server) : Handled map server [] server
  | request {server next last : Server} {message : UInt8 × List UInt8} {messages : List (UInt8 × List UInt8)}
      (handled : handleRpcPacket map server message.2 = some next) (rest : Handled map next messages last) :
      Handled map server (message :: messages) last
  | write {server last : Server} {messages : List (UInt8 × List UInt8)} (count : Nat)
      (rest : Handled map (wrote server count) messages last) : Handled map server messages last

/-- No request before the last makes the server drain. -/
def Keeps (map : MemoryMap) (server : Server) (messages : List (UInt8 × List UInt8)) : Prop :=
  ∀ before after middle, messages = before ++ after → after ≠ [] → Handled map server before middle →
    middle.isDraining = false

/-- What becomes of the requests: an abort in one of them, or all are handled and the
connection stays unless the server drains. -/
inductive Served (map : MemoryMap) (server : Server) (messages : List (UInt8 × List UInt8)) :
    Option (Option Receiver × Server) → Prop where
  | aborted {before after : List (UInt8 × List UInt8)} {message : UInt8 × List UInt8} {middle : Server}
      (split : messages = before ++ message :: after) (handled : Handled map server before middle)
      (aborts : handleRpcPacket map middle message.2 = none) : Served map server messages none
  | all {conn : Option Receiver} {last : Server} (handled : Handled map server messages last)
      (conn_ : conn = some {} ∨ conn = none ∧ last.isDraining = true) : Served map server messages (some (conn, last))

/-- A part of a message. -/
def Frame.Data (frame : Frame) : Prop := opOf frame.flags = 0 ∨ frame.Begins

/-- Nothing is answered and nothing ends. -/
def Quiet (events : List WsEvent) : Prop := ∀ event ∈ events, event.reply = none ∧ event.fault = false ∧ event ≠ .draining

variable {map : MemoryMap} {server last : Server} {frames : List Frame} {events : List WsEvent}
  {messages : List (UInt8 × List UInt8)}

theorem Gave.quiet (gave : Gave events messages frames) (data : ∀ frame ∈ frames, frame.Data) : Quiet events := by
  intro event member
  have answers : frames.filterMap Frame.answer = [] := by
    rw [List.filterMap_eq_nil_iff]
    intro frame within
    rcases data frame within with op | op | op
    all_goals
      rw [Frame.answer, op]
      rfl
  refine ⟨List.filterMap_eq_nil_iff.mp (gave.replies.trans answers) event member, gave.clean event member, ?_⟩
  rintro rfl
  obtain ⟨frame, within, op⟩ := gave.closes.mp member
  rcases data frame within with other | other | other
  all_goals
    rw [op] at other
    contradiction

theorem Quiet.closes (quiet : Quiet events) : events.any WsEvent.closes = false :=
  List.any_eq_false.mpr fun event member =>
    Bool.eq_false_iff.mp (WsEvent.closes_of_fault (quiet event member).2.1)

/-- Quiet events are requests, or not looked at. -/
theorem Quiet.handled (quiet : Quiet events) (handles : Handles (rpcHandler map) server events last) :
    Handled map server (events.filterMap WsEvent.message) last := by
  induction handles with
  | done server => exact .done server
  | @event server next last event events handled rest ih =>
      obtain ⟨⟨silent, fine, open_⟩, later⟩ := List.forall_mem_cons.mp quiet
      cases event with
      | msg flags data => exact .request handled (ih later)
      | ctl flags data =>
          cases handled
          exact ih later
      | draining => contradiction
      | _ => cases silent <;> cases fine
  | write count rest ih => exact .write count (ih quiet)

theorem Quiet.aborted (quiet : Quiet events) (aborts : Aborts (rpcHandler map) server events) :
    Served map server (events.filterMap WsEvent.message) none := by
  obtain ⟨before, event, after, middle, rfl, handles, stops⟩ := aborts
  have ran := Quiet.handled (fun event member => quiet event (List.mem_append_left _ member)) handles
  obtain ⟨silent, fine, open_⟩ := quiet event (List.mem_append_right _ (List.mem_cons_self ..))
  cases event with
  | msg flags data =>
      have split : (before ++ .msg flags data :: after).filterMap WsEvent.message =
          before.filterMap WsEvent.message ++ (flags, data) :: after.filterMap WsEvent.message := by
        simp [WsEvent.message]
      exact .aborted split ran stops
  | ctl flags data => cases stops
  | draining => contradiction
  | _ => cases silent <;> cases fine

/-- A last part gives a message. -/
theorem deliver_final {frame : Frame} (final : isFinal frame.flags = true) (data : frame.Data) (kept : List UInt8) :
    ∃ event ∈ (deliver kept frame.flags frame.payload).2, event = .wild ∨ event.message ≠ none := by
  rcases data with op | begins
  · rw [deliver, if_neg (by simp [op])]
    refine ⟨wholeMessage (kept ++ [] ++ frame.payload), by simp [final, op], ?_⟩
    cases kept ++ [] ++ frame.payload with
    | nil => exact .inl rfl
    | cons flags data => exact .inr (Option.some_ne_none _)
  · obtain ⟨_, gave⟩ := deliver_whole final begins kept
    have told : (frame.flags, frame.payload) ∈ (deliver kept frame.flags frame.payload).2.filterMap WsEvent.message := by
      rw [gave.messages]
      exact List.mem_singleton_self _
    obtain ⟨event, member, message⟩ := List.mem_filterMap.mp told
    exact ⟨event, member, .inr (by simp [message])⟩

/-- Frames that are missing bring at least one more message. -/
theorem missing_message {done left : List Frame} (carries : Carries (done ++ left) messages)
    (data : ∀ frame ∈ done ++ left, frame.Data) (missing : left ≠ []) :
    ∃ more, more ≠ [] ∧ messages = (deliverAll [] done).2.filterMap WsEvent.message ++ more := by
  obtain ⟨_, gave⟩ := carries_delivers carries
  have quiet := gave.quiet data
  have told := gave.messages
  rw [deliverAll_append, List.filterMap_append] at told
  refine ⟨_, fun none => ?_, told.symm⟩
  obtain ⟨parts, last, rfl⟩ := (List.eq_nil_or_concat' left).resolve_left missing
  have final : isFinal last.flags = true := by
    refine carries_final carries last ?_
    rw [← List.append_assoc, List.getLast?_concat]
  obtain ⟨event, member, message⟩ := deliver_final final (data last (by simp)) (deliverAll (deliverAll [] done).1 parts).1
  have within : event ∈ (deliverAll (deliverAll [] done).1 (parts ++ [last])).2 := by
    rw [deliverAll_append, deliverAll, deliverAll, List.append_nil]
    exact List.mem_append_right _ member
  rcases message with rfl | some_
  · have fine := (quiet .wild (by rw [deliverAll_append]; exact List.mem_append_right _ within)).2.1
    contradiction
  · exact some_ (List.filterMap_eq_nil_iff.mp none event within)

/-- The server does with the bytes of an orderly client what it does with its
requests: masks, length forms, fragments and reads make no difference. -/
theorem rpc_session (map : MemoryMap) (server : Server) {reads : List Read} (carries : Carries frames messages)
    (data : ∀ frame ∈ frames, frame.Data) (cut : reads.flatMap Read.bytes = wire frames)
    (some_ : ∀ read ∈ reads, read.bytes ≠ []) (room : Room [] frames) (keeps : Keeps map server messages) :
    Served map server messages (readAll (rpcHandler map) (some {}) server reads) := by
  obtain ⟨empty, gave⟩ := carries_delivers carries
  have quiet := gave.quiet data
  have lasts : Lasts (rpcHandler map) [] server frames := by
    rintro done left rfl missing
    rw [deliverAll_append] at quiet
    have before : Quiet (deliverAll [] done).2 := fun event member => quiet event (List.mem_append_left _ member)
    refine ⟨?_, fun middle handles => ?_⟩
    · exact before.closes
    · obtain ⟨more, some_, split⟩ := missing_message carries data missing
      exact keeps _ more middle split some_ (before.handled handles)
  have ends := readAll_from (show frameAt [] = none from rfl) cut some_ room lasts
  rw [List.append_nil, List.length_nil] at ends
  cases ran : readAll (rpcHandler map) (some {}) server reads with
  | none =>
      have aborts : Ends (rpcHandler map) [] server frames none := ran ▸ ends
      exact gave.messages ▸ quiet.aborted aborts
  | some outcome =>
      obtain ⟨conn, last⟩ := outcome
      have went : Ends (rpcHandler map) [] server frames (some (conn, last)) := ran ▸ ends
      obtain ⟨handles, how⟩ := went
      rw [empty] at how
      refine .all (gave.messages ▸ quiet.handled handles) (how.imp id fun ⟨gone, why⟩ => ⟨gone, why.resolve_left ?_⟩)
      rw [quiet.closes]
      exact Bool.false_ne_true

theorem reply_draining {next : Server} {payload : List UInt8} {op : UInt8} (sent : server.reply payload op = some next) :
    next.isDraining = server.isDraining := by
  obtain ⟨send, done, _⟩ := server.reply_exists payload op
  rw [done] at sent
  exact (congrArg Server.isDraining (Option.some.inj sent)).symm

/-- Requests that do not make the server drain leave it as it was, whatever the socket writes. -/
theorem Handled.draining (handled : Handled map server messages last)
    (kind : ∀ message ∈ messages, ∀ server next, handleRpcPacket map server message.2 = some next →
      next.isDraining = server.isDraining) : last.isDraining = server.isDraining := by
  induction handled with
  | done server => rfl
  | request handled rest ih =>
      obtain ⟨here, later⟩ := List.forall_mem_cons.mp kind
      exact (ih later).trans (here _ _ handled)
  | write count rest ih => exact ih kind

theorem getStats_draining {next : Server} (handled : handleRpcPacket map server [3] = some next) :
    next.isDraining = server.isDraining := by
  rw [Rpc.handle_getStats] at handled
  exact @reply_draining { server with totalOverrunBytes := 0, totalWrittenBytes := 0, backpressuredNsec := 0 }
    _ _ _ handled

theorem setFlags_draining {next : Server} (clear set : UInt64)
    (handled : handleRpcPacket map server (4 :: (Rpc.packQ clear ++ Rpc.packQ set)) = some next) :
    next.isDraining = server.isDraining := by
  rw [Rpc.handle_setFlags] at handled
  exact @reply_draining { server with
    rpcFlags := (server.rpcFlags &&& ~~~clear) ||| set
    enableBackpressure := ((server.rpcFlags &&& ~~~clear) ||| set) &&& Rpc.rpcFlagBackpressure ≠ 0 }
    _ _ _ handled

/-- The statistics, the flags in two parts, and a request of a wrong length. -/
def requestFrames : List Frame :=
  [⟨130, [11, 12, 13, 14], [3], .short, .inr rfl, by decide⟩,
    ⟨2, [], [4, 1, 0, 0, 0, 0, 0, 0, 0], .medium, unkeyed, by decide⟩,
    ⟨128, [15, 16, 17, 18], [0, 0, 0, 0, 0, 0, 0, 0], .long, .inr rfl, by decide⟩,
    ⟨130, [], [3, 3], .short, unkeyed, by decide⟩]

def requestMessages : List (UInt8 × List UInt8) :=
  [(130, [3]), (2, [4, 1, 0, 0, 0, 0, 0, 0, 0] ++ [0, 0, 0, 0, 0, 0, 0, 0]), (130, [3, 3])]

def requestReads : List Read := [⟨(wire requestFrames).take 2, 0⟩, ⟨(wire requestFrames).drop 2, 7⟩]

theorem requestMessages_keep : Keeps .twoRuns Rpc.doubledServer requestMessages := by
  intro before after middle split missing handled
  have parts : requestMessages.dropLast = before ++ after.dropLast := by
    rw [split, List.dropLast_append_of_ne_nil missing]
  refine handled.draining fun message member server next => ?_
  have others : requestMessages.dropLast = [(130, [3]), (2, 4 :: (Rpc.packQ 1 ++ Rpc.packQ 0))] := by decide
  have within : message ∈ requestMessages.dropLast := parts ▸ List.mem_append_left _ member
  rw [others, List.mem_cons, List.mem_singleton] at within
  rcases within with rfl | rfl
  · exact getStats_draining
  · exact setFlags_draining 1 0

theorem rpc_session_requests :
    Served .twoRuns Rpc.doubledServer requestMessages
      (readAll (rpcHandler .twoRuns) (some {}) Rpc.doubledServer requestReads) := by
  have carries : Carries requestFrames requestMessages :=
    .whole (by decide) (.inr (by decide)) (.parts (by decide) (.inr (by decide)) (.last (by decide) (by decide))
      (.whole (by decide) (.inr (by decide)) .nil))
  have data : ∀ frame ∈ requestFrames, frame.Data := by
    have ops : ∀ frame ∈ requestFrames, opOf frame.flags = 0 ∨ opOf frame.flags = 2 := by decide
    exact fun frame member => (ops frame member).imp id .inr
  have cut : requestReads.flatMap Read.bytes = wire requestFrames := by simp [requestReads]
  have some_ : ∀ read ∈ requestReads, read.bytes ≠ [] := by decide
  have room : Room [] requestFrames := ⟨by decide, by decide, by decide, by decide, trivial⟩
  exact rpc_session .twoRuns Rpc.doubledServer carries data cut some_ room requestMessages_keep

end Smmboss.Mongoose
