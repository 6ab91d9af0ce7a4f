import Mathlib.Data.List.Basic
import Mathlib.Data.List.Nodup
import Mathlib.Logic.Function.Basic
import Smmboss.Foundation.Machine

namespace Smmboss.Rpc

/-! # Pipelined calls over one connection

`RPCConn` of the Python client: any number of threads in `send_and_recv`, the
thread that runs `recv_thread_func`, and a server that answers in order.
-/

/-- `request` is history: the call whose request the server answered. -/
structure Message where
  request : Nat
  body : List UInt8
deriving DecidableEq

/-- `ConnectionClosedError` and `ConnectionClosedOK`. -/
inductive CloseKind where
  | error
  | ok
deriving DecidableEq

/-- How a call ends: it returns a message, or it raises one of the
connection-closed exceptions or `queue.ShutDown`. -/
inductive Outcome where
  | returned (message : Message)
  | closed (kind : CloseKind)
  | shutDown
deriving DecidableEq

/-- Where a call is in `send_and_recv`; `waiting` holds its future. -/
inductive Caller where
  | idle
  | holding
  | sent
  | waiting (future : Option Outcome)
  | finished (outcome : Outcome)
deriving DecidableEq

def Caller.outcome : Caller → Option Outcome
  | .waiting future => future
  | .finished outcome => some outcome
  | .idle | .holding | .sent => none

/-- Where the receiver thread is in `recv_thread_func`.  In `getting`, `raised`
says that `recv` has raised `ConnectionClosedError`. -/
inductive Receiver where
  | receiving
  | getting (raised : Bool)
  | setting (call : Nat)
  | shuttingDown
  | draining
  | ended
deriving DecidableEq

/-- `resp` and `theExc` are the receiver's variables, which may be unbound. -/
structure State where
  callers : Nat → Caller
  lock : Option Nat
  toServer : List Nat
  inbox : List Message
  serverOpen : Bool
  closed : Option CloseKind
  responseQueue : List Nat
  isShutdown : Bool
  receiver : Receiver
  resp : Option Message
  theExc : Bool

def initial : State where
  callers := fun _ => .idle
  lock := none
  toServer := []
  inbox := []
  serverOpen := true
  closed := none
  responseQueue := []
  isShutdown := false
  receiver := .receiving
  resp := none
  theExc := false

def State.setCaller (state : State) (call : Nat) (caller : Caller) : State :=
  { state with callers := Function.update state.callers call caller }

inductive Label where
  | acquire (call : Nat)
  | send
  | put
  | result (call : Nat)
  | answer (body : List UInt8)
  | serverClose
  | noticeClose (kind : CloseKind)
  | recvMessage
  | recvRaises
  | getNowait
  | setResult
  | shutdown
  | drain

def step (state : State) : Label → Option State
  | .acquire call =>
      match state.lock, state.callers call with
      | none, .idle => some { state.setCaller call .holding with lock := some call }
      | _, _ => none
  | .send =>
      match state.lock with
      | none => none
      | some call =>
          match state.callers call, state.closed with
          | .holding, none =>
              some { state.setCaller call .sent with toServer := state.toServer ++ [call] }
          | .holding, some kind =>
              some { state.setCaller call (.finished (.closed kind)) with lock := none }
          | _, _ => none
  | .put =>
      match state.lock with
      | none => none
      | some call =>
          match state.callers call with
          | .sent =>
              if state.isShutdown then
                some { state.setCaller call (.finished .shutDown) with lock := none }
              else
                some { state.setCaller call (.waiting none) with
                  lock := none
                  responseQueue := state.responseQueue ++ [call] }
          | _ => none
  | .result call =>
      match state.callers call with
      | .waiting (some outcome) => some (state.setCaller call (.finished outcome))
      | _ => none
  | .answer body =>
      match state.serverOpen, state.toServer with
      | true, request :: requests =>
          some { state with
            toServer := requests
            inbox := state.inbox ++ [⟨request, body⟩] }
      | _, _ => none
  | .serverClose => some { state with serverOpen := false }
  | .noticeClose kind =>
      if state.serverOpen = false ∧ state.closed = none then some { state with closed := some kind }
      else none
  | .recvMessage =>
      match state.receiver, state.inbox with
      | .receiving, message :: messages =>
          some { state with
            inbox := messages
            receiver := .getting false
            resp := some message }
      | _, _ => none
  | .recvRaises =>
      match state.receiver, state.closed with
      | .receiving, some .error => some { state with receiver := .getting true, theExc := true }
      | .receiving, some .ok => some { state with receiver := .shuttingDown }
      | _, _ => none
  | .getNowait =>
      match state.receiver, state.responseQueue with
      | .getting _, call :: calls =>
          some { state with responseQueue := calls, receiver := .setting call }
      -- `queue.Empty` is raised
      | .getting _, [] => some { state with receiver := .shuttingDown }
      | _, _ => none
  | .setResult =>
      match state.receiver, state.resp with
      | .setting call, some message =>
          some { state.setCaller call (.waiting (some (.returned message))) with
            receiver := .receiving }
      -- `resp` is unbound
      | .setting _, none => some { state with receiver := .shuttingDown }
      | _, _ => none
  | .shutdown =>
      match state.receiver with
      | .shuttingDown => some { state with isShutdown := true, receiver := .draining }
      | _ => none
  | .drain =>
      match state.receiver, state.responseQueue with
      | .draining, [] => some { state with receiver := .ended }
      | .draining, call :: calls =>
          if state.theExc then
            some { state.setCaller call (.waiting (some (.closed .error))) with
              responseQueue := calls }
          -- `the_exc` is unbound
          else some { state with responseQueue := calls, receiver := .ended }
      | _, _ => none

/-- The calls whose futures the receiver has still to complete. -/
def State.awaited (state : State) : List Nat :=
  match state.receiver with
  | .setting call => call :: state.responseQueue
  | _ => state.responseQueue

/-- The call that has sent its request and not yet queued its future. -/
def State.unqueued (state : State) : List Nat :=
  match state.lock with
  | none => []
  | some call =>
      match state.callers call with
      | .sent => [call]
      | _ => []

/-- The requests that are still to be answered, or whose answers are still to
be received, in order. -/
def State.unanswered (state : State) : List Nat :=
  state.inbox.map Message.request ++ state.toServer

/-- The two queues are in step. -/
def OrderOk (state : State) : Prop :=
  match state.receiver with
  | .receiving => state.unanswered = state.responseQueue ++ state.unqueued
  | .getting raised =>
      raised = false → ∃ message, state.resp = some message ∧
        message.request :: state.unanswered = state.responseQueue ++ state.unqueued
  | .setting call => ∃ message, state.resp = some message ∧ message.request = call ∧
      state.unanswered = state.responseQueue ++ state.unqueued
  | .shuttingDown | .draining | .ended => True

/-- A call gets the answer to its own request or learns that the connection is
closed. -/
def OutcomeOk (call : Nat) : Outcome → Prop
  | .returned message => message.request = call
  | .closed _ => True
  | .shutDown => False

structure Invariant (state : State) : Prop where
  holder : ∀ call, state.callers call = .holding ∨ state.callers call = .sent →
    state.lock = some call
  awaited : ∀ call, call ∈ state.awaited ↔ state.callers call = .waiting none
  nodup : state.awaited.Nodup
  order : OrderOk state
  outcomes : ∀ call outcome, (state.callers call).outcome = some outcome → OutcomeOk call outcome
  stopped : state.receiver = .draining ∨ state.receiver = .ended → state.isShutdown = true
  ended : state.receiver = .ended → state.responseQueue = []

theorem initial_invariant : Invariant initial where
  holder := by simp [initial]
  awaited := by simp [initial, State.awaited]
  nodup := List.nodup_nil
  order := rfl
  outcomes := by simp [initial, Caller.outcome]
  stopped := by simp [initial]
  ended := by simp [initial]

/-- The steps after which the code goes on as it should: a message finds the
future of its request queued, `ConnectionClosedError` finds no future queued,
no future is queued after the shutdown, and a future is only drained when there
is an exception to complete it with. -/
def Allowed (state : State) : Label → Prop
  | .getNowait =>
      (state.receiver = .getting false → state.responseQueue ≠ []) ∧
        (state.receiver = .getting true → state.responseQueue = [])
  | .put => state.isShutdown = false
  | .drain => state.responseQueue ≠ [] → state.theExc = true
  | _ => True

instance (state : State) (label : Label) : Decidable (Allowed state label) :=
  match label with
  | .getNowait => inferInstanceAs (Decidable (_ ∧ _))
  | .put => inferInstanceAs (Decidable (state.isShutdown = false))
  | .drain => inferInstanceAs (Decidable (state.responseQueue ≠ [] → state.theExc = true))
  | .acquire _ | .send | .result _ | .answer _ | .serverClose | .noticeClose _ | .recvMessage |
      .recvRaises | .setResult | .shutdown => inferInstanceAs (Decidable True)

section SetCaller

variable {callers : Nat → Caller} {call : Nat} {caller : Caller} {awaited : List Nat}

theorem outcomes_update
    (known : ∀ other outcome, (callers other).outcome = some outcome → OutcomeOk other outcome)
    (new : ∀ outcome, caller.outcome = some outcome → OutcomeOk call outcome) :
    ∀ other outcome, (Function.update callers call caller other).outcome = some outcome →
      OutcomeOk other outcome := by
  intro other outcome
  by_cases same : other = call
  · subst same
    rw [Function.update_self]
    exact new outcome
  · rw [Function.update_of_ne same]
    exact known other outcome

theorem awaited_update (known : ∀ other, other ∈ awaited ↔ callers other = .waiting none)
    (old : callers call ≠ .waiting none) (new : caller ≠ .waiting none) :
    ∀ other, other ∈ awaited ↔ Function.update callers call caller other = .waiting none := by
  intro other
  by_cases same : other = call
  · subst same
    rw [Function.update_self, known]
    exact iff_of_false old new
  · rw [Function.update_of_ne same, known]

theorem holder_update {lock : Option Nat}
    (known : ∀ other, other ≠ call → callers other = .holding ∨ callers other = .sent →
      lock = some other)
    (new : caller = .holding ∨ caller = .sent → lock = some call) :
    ∀ other, Function.update callers call caller other = .holding ∨
      Function.update callers call caller other = .sent → lock = some other := by
  intro other
  by_cases same : other = call
  · subst same
    rw [Function.update_self]
    exact new
  · rw [Function.update_of_ne same]
    exact known other same

end SetCaller

variable {before after state : State} {call : Nat}

/-- Only the holder of the lock is between its two steps. -/
theorem Invariant.other_free (invariant : Invariant state) (locked : state.lock = some call) :
    ∀ other, other ≠ call → ¬ (state.callers other = .holding ∨ state.callers other = .sent) := by
  intro other differ inside
  have held := invariant.holder other inside
  rw [locked] at held
  exact differ (Option.some.inj held).symm

theorem Invariant.none_inside (invariant : Invariant state) (unlocked : state.lock = none) :
    ∀ other, ¬ (state.callers other = .holding ∨ state.callers other = .sent) := by
  intro other inside
  have held := invariant.holder other inside
  simp [unlocked] at held

/-- Only a call that has sent its request counts as unqueued. -/
theorem State.unqueued_setCaller {caller : Caller} (old : state.callers call ≠ .sent)
    (new : caller ≠ .sent) : (state.setCaller call caller).unqueued = state.unqueued := by
  simp only [State.unqueued, State.setCaller]
  cases state.lock with
  | none => rfl
  | some holder =>
      by_cases same : holder = call
      · simp [same]
      · simp [same]

/-- The order of the two queues survives a step that leaves the receiver, and
what is unanswered and unqueued, as it was. -/
theorem OrderOk.of_same (order : OrderOk before) (receiver : after.receiver = before.receiver)
    (resp : after.resp = before.resp) (unanswered : after.unanswered = before.unanswered)
    (queued : after.responseQueue ++ after.unqueued = before.responseQueue ++ before.unqueued) :
    OrderOk after := by
  simpa only [OrderOk, receiver, resp, unanswered, queued] using order

/-- A request enters both queues' ends at once. -/
theorem OrderOk.append (order : OrderOk before) (receiver : after.receiver = before.receiver)
    (resp : after.resp = before.resp) (unanswered : after.unanswered = before.unanswered ++ [call])
    (queued : after.responseQueue ++ after.unqueued =
      before.responseQueue ++ before.unqueued ++ [call]) :
    OrderOk after := by
  simp only [OrderOk, receiver, resp, unanswered, queued] at order ⊢
  cases at_receiver : before.receiver with
  | receiving =>
      simp only [at_receiver] at order
      rw [order]
  | getting raised =>
      simp only [at_receiver] at order
      intro ordinary
      obtain ⟨message, bound, same⟩ := order ordinary
      exact ⟨message, bound, by rw [← same, List.cons_append]⟩
  | setting call =>
      simp only [at_receiver] at order
      obtain ⟨message, bound, own, same⟩ := order
      exact ⟨message, bound, own, by rw [same]⟩
  | shuttingDown | draining | ended => trivial

theorem acquire_invariant (invariant : Invariant state) (unlocked : state.lock = none)
    (at_idle : state.callers call = .idle) :
    Invariant { state.setCaller call .holding with lock := some call } where
  holder := by
    refine holder_update ?_ fun _ => rfl
    exact fun other _ inside => absurd inside (invariant.none_inside unlocked other)
  awaited := awaited_update invariant.awaited (by simp [at_idle]) (by simp)
  nodup := invariant.nodup
  order := by
    refine invariant.order.of_same rfl rfl rfl ?_
    simp [State.unqueued, State.setCaller, unlocked]
  outcomes := outcomes_update invariant.outcomes (by simp [Caller.outcome])
  stopped := invariant.stopped
  ended := invariant.ended

theorem send_invariant (invariant : Invariant state) (locked : state.lock = some call)
    (at_holding : state.callers call = .holding) :
    Invariant { state.setCaller call .sent with toServer := state.toServer ++ [call] } where
  holder := by
    refine holder_update ?_ fun _ => locked
    exact fun other differ inside => absurd inside (invariant.other_free locked other differ)
  awaited := awaited_update invariant.awaited (by simp [at_holding]) (by simp)
  nodup := invariant.nodup
  order := by
    have unanswered : State.unanswered { state.setCaller call .sent with
        toServer := state.toServer ++ [call] } = state.unanswered ++ [call] := by
      simp [State.unanswered, State.setCaller]
    refine invariant.order.append rfl rfl unanswered ?_
    simp [State.unqueued, State.setCaller, locked, at_holding]
  outcomes := outcomes_update invariant.outcomes (by simp [Caller.outcome])
  stopped := invariant.stopped
  ended := invariant.ended

theorem send_closed_invariant (invariant : Invariant state) (locked : state.lock = some call)
    (at_holding : state.callers call = .holding) (kind : CloseKind) :
    Invariant { state.setCaller call (.finished (.closed kind)) with lock := none } where
  holder := by
    refine holder_update ?_ (by simp)
    exact fun other differ inside => absurd inside (invariant.other_free locked other differ)
  awaited := awaited_update invariant.awaited (by simp [at_holding]) (by simp)
  nodup := invariant.nodup
  order := by
    refine invariant.order.of_same rfl rfl rfl ?_
    simp [State.unqueued, State.setCaller, locked, at_holding]
  outcomes := by
    apply outcomes_update invariant.outcomes
    intro outcome same
    cases same
    trivial
  stopped := invariant.stopped
  ended := invariant.ended

theorem put_invariant (invariant : Invariant state) (locked : state.lock = some call)
    (at_sent : state.callers call = .sent) (open_queue : state.isShutdown = false) :
    Invariant { state.setCaller call (.waiting none) with
      lock := none
      responseQueue := state.responseQueue ++ [call] } := by
  have absent : call ∉ state.awaited := by
    rw [invariant.awaited, at_sent]
    simp
  have longer : State.awaited { state.setCaller call (.waiting none) with
      lock := none
      responseQueue := state.responseQueue ++ [call] } = state.awaited ++ [call] := by
    simp only [State.awaited, State.setCaller]
    cases state.receiver <;> rfl
  constructor
  · refine holder_update ?_ (by simp)
    exact fun other differ inside => absurd inside (invariant.other_free locked other differ)
  · intro other
    rw [longer, List.mem_append, List.mem_singleton, invariant.awaited]
    change _ ↔ Function.update state.callers call (.waiting none) other = .waiting none
    by_cases same : other = call
    · simp [same]
    · rw [Function.update_of_ne same]
      simp [same]
  · rw [longer]
    refine List.nodup_append.mpr ⟨invariant.nodup, List.nodup_singleton _, ?_⟩
    intro other member last lastMember same
    rw [List.mem_singleton.mp lastMember] at same
    exact absent (same ▸ member)
  · refine invariant.order.of_same rfl rfl rfl ?_
    simp [State.unqueued, locked, at_sent]
  · exact outcomes_update invariant.outcomes (by simp [Caller.outcome])
  · exact invariant.stopped
  · intro at_end
    have shut := invariant.stopped (.inr at_end)
    simp [open_queue] at shut

theorem result_invariant {outcome : Outcome} (invariant : Invariant state)
    (at_waiting : state.callers call = .waiting (some outcome)) :
    Invariant (state.setCaller call (.finished outcome)) where
  holder := holder_update (fun other _ inside => invariant.holder other inside) (by simp)
  awaited := awaited_update invariant.awaited (by simp [at_waiting]) (by simp)
  nodup := invariant.nodup
  order := by
    have unqueued : (state.setCaller call (.finished outcome)).unqueued = state.unqueued :=
      State.unqueued_setCaller (by simp [at_waiting]) (by simp)
    exact invariant.order.of_same rfl rfl rfl (congrArg (state.responseQueue ++ ·) unqueued)
  outcomes := by
    apply outcomes_update invariant.outcomes
    intro other same
    cases same
    exact invariant.outcomes call outcome (by rw [at_waiting, Caller.outcome])
  stopped := invariant.stopped
  ended := invariant.ended

theorem answer_invariant {request : Nat} {requests : List Nat} (invariant : Invariant state)
    (asked : state.toServer = request :: requests) (body : List UInt8) :
    Invariant { state with
      toServer := requests
      inbox := state.inbox ++ [⟨request, body⟩] } where
  holder := invariant.holder
  awaited := invariant.awaited
  nodup := invariant.nodup
  order := by
    refine invariant.order.of_same rfl rfl ?_ rfl
    simp [State.unanswered, asked]
  outcomes := invariant.outcomes
  stopped := invariant.stopped
  ended := invariant.ended

theorem recvMessage_invariant {message : Message} {messages : List Message}
    (invariant : Invariant state) (at_receiving : state.receiver = .receiving)
    (received : state.inbox = message :: messages) :
    Invariant { state with
      inbox := messages
      receiver := .getting false
      resp := some message } where
  holder := invariant.holder
  awaited := by
    have awaited := invariant.awaited
    simpa only [State.awaited, at_receiving] using awaited
  nodup := by
    have nodup := invariant.nodup
    simpa only [State.awaited, at_receiving] using nodup
  order := by
    have order := invariant.order
    simp only [OrderOk, at_receiving] at order
    intro _
    refine ⟨message, rfl, ?_⟩
    refine Eq.trans ?_ order
    simp [State.unanswered, received]
  outcomes := invariant.outcomes
  stopped := by simp
  ended := by simp

/-- A step by which the receiver leaves its loop, or comes to its end with
nothing left to drain. -/
theorem leave_invariant (invariant : Invariant state) (receiver : Receiver) (shut theExc : Bool)
    (same : state.awaited = state.responseQueue)
    (outside : receiver = .getting true ∨ receiver = .shuttingDown ∨ receiver = .draining ∨
      receiver = .ended)
    (stopped : receiver = .draining ∨ receiver = .ended → shut = true)
    (ended : receiver = .ended → state.responseQueue = []) :
    Invariant { state with receiver, theExc, isShutdown := shut } := by
  have awaited : State.awaited { state with receiver, theExc, isShutdown := shut } =
      state.responseQueue := by
    rcases outside with rfl | rfl | rfl | rfl <;> rfl
  constructor
  · exact invariant.holder
  · intro other
    rw [awaited, ← same]
    exact invariant.awaited other
  · rw [awaited, ← same]
    exact invariant.nodup
  · rcases outside with rfl | rfl | rfl | rfl
    · intro contra
      contradiction
    · trivial
    · trivial
    · trivial
  · exact invariant.outcomes
  · exact stopped
  · exact ended

theorem getNowait_invariant {raised : Bool} {calls : List Nat} (invariant : Invariant state)
    (at_getting : state.receiver = .getting raised) (ordinary : raised = false)
    (queued : state.responseQueue = call :: calls) :
    Invariant { state with responseQueue := calls, receiver := .setting call } where
  holder := invariant.holder
  awaited := by
    have awaited := invariant.awaited
    simpa only [State.awaited, at_getting, queued] using awaited
  nodup := by
    have nodup := invariant.nodup
    simpa only [State.awaited, at_getting, queued] using nodup
  order := by
    have order := invariant.order
    simp only [OrderOk, at_getting] at order
    obtain ⟨message, bound, same⟩ := order ordinary
    rw [queued, List.cons_append] at same
    obtain ⟨own, rest⟩ := List.cons.inj same
    exact ⟨message, bound, own, rest⟩
  outcomes := invariant.outcomes
  stopped := by simp
  ended := by simp

/-- Completing the future of the first awaited call. -/
theorem complete_invariant {calls : List Nat} (outcome : Outcome) (receiver : Receiver)
    (invariant : Invariant state) (first : state.awaited = call :: calls)
    (rest : State.awaited { state with responseQueue := calls, receiver } = calls)
    (order : OrderOk { state.setCaller call (.waiting (some outcome)) with
      responseQueue := calls, receiver })
    (own : OutcomeOk call outcome)
    (stopped : receiver = .draining ∨ receiver = .ended → state.isShutdown = true)
    (running : receiver ≠ .ended) :
    Invariant { state.setCaller call (.waiting (some outcome)) with
      responseQueue := calls, receiver } := by
  have nodup := invariant.nodup
  rw [first] at nodup
  obtain ⟨absent, nodup⟩ := List.nodup_cons.mp nodup
  have remaining : State.awaited { state.setCaller call (.waiting (some outcome)) with
      responseQueue := calls, receiver } = calls := rest
  constructor
  · exact holder_update (fun other _ inside => invariant.holder other inside) (by simp)
  · intro other
    rw [remaining]
    change _ ↔ Function.update state.callers call (.waiting (some outcome)) other = .waiting none
    by_cases same : other = call
    · subst same
      rw [Function.update_self]
      exact iff_of_false absent (by simp)
    · rw [Function.update_of_ne same, ← invariant.awaited, first, List.mem_cons]
      simp [same]
  · rw [remaining]
    exact nodup
  · exact order
  · apply outcomes_update invariant.outcomes
    intro other same
    cases same
    exact own
  · exact stopped
  · intro at_end
    exact absurd at_end running

theorem step_invariant {label : Label} (invariant : Invariant before)
    (allowed : Allowed before label) (stepped : step before label = some after) :
    Invariant after := by
  cases label with
  | acquire call =>
      simp only [step] at stepped
      split at stepped <;> cases stepped
      exact acquire_invariant invariant ‹_› ‹_›
  | send =>
      simp only [step] at stepped
      split at stepped
      · contradiction
      · split at stepped <;> cases stepped
        · exact send_invariant invariant ‹_› ‹_›
        · exact send_closed_invariant invariant ‹_› ‹_› _
  | put =>
      simp only [step, show before.isShutdown = false from allowed, Bool.false_eq_true,
        if_false] at stepped
      split at stepped
      · contradiction
      · split at stepped <;> cases stepped
        exact put_invariant invariant ‹_› ‹_› allowed
  | result call =>
      simp only [step] at stepped
      split at stepped <;> cases stepped
      exact result_invariant invariant ‹_›
  | answer body =>
      simp only [step] at stepped
      split at stepped <;> cases stepped
      exact answer_invariant invariant ‹_› body
  | serverClose =>
      cases stepped
      exact ⟨invariant.holder, invariant.awaited, invariant.nodup, invariant.order,
        invariant.outcomes, invariant.stopped, invariant.ended⟩
  | noticeClose kind =>
      simp only [step] at stepped
      split at stepped <;> cases stepped
      exact ⟨invariant.holder, invariant.awaited, invariant.nodup, invariant.order,
        invariant.outcomes, invariant.stopped, invariant.ended⟩
  | recvMessage =>
      simp only [step] at stepped
      split at stepped <;> cases stepped
      exact recvMessage_invariant invariant ‹_› ‹_›
  | recvRaises =>
      simp only [step] at stepped
      split at stepped <;> cases stepped
      · rename_i at_receiving closed
        have same : before.awaited = before.responseQueue := by
          simp only [State.awaited, at_receiving]
        exact leave_invariant invariant (.getting true) before.isShutdown true same (.inl rfl)
          (by simp) (by simp)
      · rename_i at_receiving closed
        have same : before.awaited = before.responseQueue := by
          simp only [State.awaited, at_receiving]
        exact leave_invariant invariant .shuttingDown before.isShutdown before.theExc same
          (.inr (.inl rfl)) (by simp) (by simp)
  | getNowait =>
      simp only [step] at stepped
      split at stepped <;> cases stepped
      · rename_i raised call calls at_getting queued
        cases raised with
        | true => simp [allowed.2 at_getting] at queued
        | false => exact getNowait_invariant invariant at_getting rfl queued
      · rename_i raised at_getting empty
        have same : before.awaited = before.responseQueue := by
          simp only [State.awaited, at_getting]
        exact leave_invariant invariant .shuttingDown before.isShutdown before.theExc same
          (.inr (.inl rfl)) (by simp) (by simp)
  | setResult =>
      simp only [step] at stepped
      split at stepped <;> cases stepped
      · rename_i call message at_setting bound
        have order := invariant.order
        simp only [OrderOk, at_setting] at order
        obtain ⟨own, again, request, aligned⟩ := order
        obtain rfl := Option.some.inj (again.symm.trans bound)
        have first : before.awaited = call :: before.responseQueue := by
          simp only [State.awaited, at_setting]
        have waiting := (invariant.awaited call).mp (first ▸ List.mem_cons_self)
        have unqueued : (before.setCaller call (.waiting (some (.returned own)))).unqueued =
            before.unqueued := State.unqueued_setCaller (by simp [waiting]) (by simp)
        refine complete_invariant (.returned own) .receiving invariant first rfl ?_ request
          (by simp) (by simp)
        exact aligned.trans (congrArg (before.responseQueue ++ ·) unqueued.symm)
      · rename_i call at_setting unbound
        have order := invariant.order
        simp only [OrderOk, at_setting] at order
        obtain ⟨own, bound, _⟩ := order
        simp [unbound] at bound
  | shutdown =>
      simp only [step] at stepped
      split at stepped <;> cases stepped
      rename_i at_shuttingDown
      have same : before.awaited = before.responseQueue := by
        simp only [State.awaited, at_shuttingDown]
      exact leave_invariant invariant .draining true before.theExc same
        (.inr (.inr (.inl rfl))) (fun _ => rfl) (by simp)
  | drain =>
      simp only [step] at stepped
      split at stepped
      · rename_i at_draining empty
        cases stepped
        have same : before.awaited = before.responseQueue := by
          simp only [State.awaited, at_draining]
        exact leave_invariant invariant .ended before.isShutdown before.theExc same
          (.inr (.inr (.inr rfl))) (fun _ => invariant.stopped (.inl at_draining))
          (fun _ => empty)
      · rename_i call calls at_draining queued
        have bound : before.theExc = true := allowed (by simp [queued])
        rw [if_pos bound] at stepped
        cases stepped
        have first : before.awaited = call :: calls := by
          simp only [State.awaited, at_draining, queued]
        have drained := complete_invariant (.closed .error) .draining invariant first rfl
          trivial trivial (fun _ => invariant.stopped (.inl at_draining)) (by simp)
        simpa only [State.setCaller, at_draining] using drained
      · contradiction

/-- Every call has got the message for its own request or a connection-closed
exception, and the receiver has left no future pending behind. -/
structure PipelineOk (state : State) : Prop where
  own : ∀ call outcome, (state.callers call).outcome = some outcome →
    (∃ message, outcome = .returned message ∧ message.request = call) ∨
      ∃ kind, outcome = .closed kind
  completed : state.receiver = .ended → ∀ call, state.callers call ≠ .waiting none

theorem Invariant.pipelineOk (invariant : Invariant state) : PipelineOk state where
  own call outcome finished := by
    have known := invariant.outcomes call outcome finished
    cases outcome with
    | returned message => exact .inl ⟨message, rfl, known⟩
    | closed kind => exact .inr ⟨kind, rfl⟩
    | shutDown => exact absurd known id
  completed := by
    intro at_end call pending
    have member := (invariant.awaited call).mpr pending
    simp only [State.awaited, at_end, invariant.ended at_end] at member
    contradiction

theorem pipeline_ok {labels : List Label}
    (guarded : Machine.Along step Allowed initial labels)
    (ran : Machine.run step initial labels = some state) : PipelineOk state :=
  (Machine.run_preserves_along step_invariant initial_invariant guarded ran).pipelineOk

/-- Two calls overlap: the second one sends while the first one's answer is
under way. -/
def overlappingCalls : List Label :=
  [.acquire 0, .send, .put, .acquire 1, .send, .answer [10], .recvMessage, .getNowait, .setResult,
    .put, .answer [11], .recvMessage, .getNowait, .setResult, .result 1, .result 0]

theorem pipeline_ok_overlappingCalls :
    ∃ state, Machine.run step initial overlappingCalls = some state ∧
      state.callers 1 = .finished (.returned ⟨1, [11]⟩) ∧ PipelineOk state := by
  obtain ⟨state, ran, finished⟩ : ∃ state,
      Machine.run step initial overlappingCalls = some state ∧
        state.callers 1 = .finished (.returned ⟨1, [11]⟩) := ⟨_, rfl, rfl⟩
  exact ⟨state, ran, finished, pipeline_ok (by decide) ran⟩

/-- The first call is answered, the server closes uncleanly, and the second call
is completed with the first one's message. -/
def staleAnswer : List Label :=
  [.acquire 0, .send, .put, .answer [10], .recvMessage, .getNowait, .setResult,
    .acquire 1, .send, .put, .serverClose, .noticeClose .error, .recvRaises, .getNowait,
    .setResult, .result 1]

theorem pipeline_returns_stale :
    ∃ state, Machine.run step initial staleAnswer = some state ∧
      state.callers 1 = .finished (.returned ⟨0, [10]⟩) ∧ ¬ PipelineOk state := by
  obtain ⟨state, ran, finished⟩ : ∃ state, Machine.run step initial staleAnswer = some state ∧
      state.callers 1 = .finished (.returned ⟨0, [10]⟩) := ⟨_, rfl, rfl⟩
  refine ⟨state, ran, finished, ?_⟩
  intro ok
  rcases ok.own 1 _ (by rw [finished, Caller.outcome]) with ⟨message, same, own⟩ | ⟨kind, same⟩
  · cases same
    contradiction
  · contradiction

end Smmboss.Rpc
