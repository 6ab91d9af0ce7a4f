import Mathlib.Data.List.Basic
import Smmboss.Foundation.Machine

namespace Smmboss.Client

/-! # WSWrapper

The sockets are numbered in the order of their creation.  How long a throttle
waits is left out.
-/

inductive WsState where
  | idle
  | connecting
  | open
  | openThrottle
  | dead
deriving DecidableEq

inductive ReadyState where
  | connecting
  | open
  | closing
  | closed
deriving DecidableEq

/-- `closeCalled` is history. -/
structure Socket where
  readyState : ReadyState := .connecting
  closeCalled : Bool := false
deriving DecidableEq

/-- What the script does to the outside, and `kill`. -/
inductive Entry where
  | created
  | killed
  | onOpen
  | onMessage
  | onClose
deriving DecidableEq

/-- `throttles` counts the functions that await `openThrottle`.  `log` and
`threw` (whether an assertion has failed, or a call on null) are history. -/
structure WsWrapper where
  state : WsState := .idle
  ws : Option Nat := none
  wantOpen : Bool := false
  sockets : List Socket := []
  throttles : Nat := 0
  log : List Entry := []
  threw : Bool := false

/-- `close()` in the browser. -/
def Socket.close (socket : Socket) : Socket :=
  { readyState := match socket.readyState with
      | .connecting | .open | .closing => .closing
      | .closed => .closed
    closeCalled := true }

def Socket.become (readyState : ReadyState) (socket : Socket) : Socket := { socket with readyState }

namespace WsWrapper

def addLog (w : WsWrapper) (entry : Entry) : WsWrapper := { w with log := w.log ++ [entry] }

def change (w : WsWrapper) (ws : Nat) (f : Socket → Socket) : WsWrapper :=
  { w with sockets := w.sockets.modify ws f }

/-- An exception ends the handler. -/
def assert (w : WsWrapper) (holds : Bool) (rest : WsWrapper → WsWrapper) : WsWrapper :=
  if holds then rest w else { w with threw := true }

/-- `this.ws.close()`. -/
def closeWs (w : WsWrapper) (rest : WsWrapper → WsWrapper) : WsWrapper :=
  match w.ws with
  | some ws => rest (w.change ws Socket.close)
  | none => { w with threw := true }

def openWs (w : WsWrapper) : WsWrapper :=
  w.assert (w.ws = none) fun w => w.assert (w.state = .idle) fun w =>
    let created : WsWrapper := { w with
      sockets := w.sockets ++ [⟨.connecting, false⟩]
      ws := some w.sockets.length
      state := .connecting }
    created.addLog .created

def openCloseWsAsNeeded (w : WsWrapper) : WsWrapper :=
  if w.state = .idle ∧ w.wantOpen then w.openWs
  else if w.state = .open ∧ ¬ w.wantOpen then w.closeWs id
  else w

def setWantOpen (w : WsWrapper) (wantOpen : Bool) : WsWrapper :=
  { w with wantOpen }.openCloseWsAsNeeded

def kill (w : WsWrapper) : WsWrapper :=
  let finish (w : WsWrapper) : WsWrapper := { w with state := .dead, wantOpen := false, ws := none }
  let w := w.addLog .killed
  if w.state = .open then w.closeWs finish else finish w

/-- `ws.onopen`, for the socket numbered `ws`. -/
def onopen (w : WsWrapper) (ws : Nat) : WsWrapper :=
  w.assert (w.ws = some ws) fun w => { w with state := .open }.addLog .onOpen

def onmessage (w : WsWrapper) (ws : Nat) : WsWrapper :=
  w.assert (w.ws = some ws) fun w => w.addLog .onMessage

def onclose (w : WsWrapper) (ws : Nat) : WsWrapper :=
  w.assert (w.ws = some ws || w.state = .dead) fun w =>
    let w := { w with ws := none }
    -- Neither branch asks whether the wrapper is dead.
    if w.wantOpen then
      { w with state := .openThrottle, throttles := w.throttles + 1 }.addLog .onClose
    else { w with state := .idle }.addLog .onClose

/-- Behind `await this.openThrottle`. -/
def afterThrottle (w : WsWrapper) : WsWrapper := { w with state := .idle }.openCloseWsAsNeeded

inductive Event where
  | setWantOpen (wantOpen : Bool)
  | kill
  | opened (ws : Nat)
  | message (ws : Nat)
  | closed (ws : Nat)
  | throttleExpired

/-- The browser opens a socket that is still connecting, delivers messages of
open sockets only, and closes each socket once. -/
def step (w : WsWrapper) : Event → Option WsWrapper
  | .setWantOpen wantOpen => some (w.setWantOpen wantOpen)
  | .kill => some w.kill
  | .opened ws =>
      (w.sockets[ws]?).bind fun socket =>
        if socket.readyState = .connecting then
          some ((w.change ws (.become .open)).onopen ws)
        else none
  | .message ws =>
      (w.sockets[ws]?).bind fun socket =>
        if socket.readyState = .open then some (w.onmessage ws) else none
  | .closed ws =>
      (w.sockets[ws]?).bind fun socket =>
        if socket.readyState ≠ .closed then some ((w.change ws (.become .closed)).onclose ws)
        else none
  | .throttleExpired =>
      if 0 < w.throttles then some { w with throttles := w.throttles - 1 }.afterThrottle else none

/-! ## The lifecycle -/

/-- Open, and `close()` has not been called. -/
def Live (w : WsWrapper) (ws : Nat) : Prop := w.sockets[ws]? = some ⟨.open, false⟩

/-- From the first `kill` on. -/
def sinceKill (log : List Entry) : List Entry := log.dropWhile fun entry => entry ≠ .killed

structure LifecycleOk (w : WsWrapper) : Prop where
  single : ∀ first second, w.Live first → w.Live second → first = second
  quiet : ∀ entry ∈ sinceKill w.log, entry ≠ .created ∧ entry ≠ .onOpen ∧ entry ≠ .onMessage
  closed : sinceKill w.log ≠ [] → ∀ ws, ¬ w.Live ws
  dead : sinceKill w.log ≠ [] → w.state = .dead
  settled : w.wantOpen = false → (∀ socket ∈ w.sockets, socket.readyState ≠ .connecting) →
    ∀ ws, ¬ w.Live ws
  asserts : w.threw = false

/-- A dead wrapper hears of no socket's opening or closing and of no throttle,
and a socket opens only while it is wanted. -/
def Allowed (w : WsWrapper) : Event → Prop
  | .opened _ => w.state ≠ .dead ∧ w.wantOpen = true
  | .closed _ | .throttleExpired => w.state ≠ .dead
  | .setWantOpen _ | .kill | .message _ => True

instance Allowed.decidable (w : WsWrapper) : (event : Event) → Decidable (w.Allowed event)
  | .opened _ => inferInstanceAs (Decidable (w.state ≠ .dead ∧ w.wantOpen = true))
  | .closed _ | .throttleExpired => inferInstanceAs (Decidable (w.state ≠ .dead))
  | .setWantOpen _ | .kill | .message _ => .isTrue trivial

/-- Every socket but the one named is closed. -/
def ClosedBut (w : WsWrapper) (ws : Option Nat) : Prop :=
  ∀ other socket, w.sockets[other]? = some socket → ws ≠ some other → socket.readyState = .closed

def NoneOpen (w : WsWrapper) : Prop :=
  ∀ (ws : Nat) (socket : Socket), w.sockets[ws]? = some socket → socket.readyState ≠ .open

/-- What each state says of the sockets. -/
inductive Shape (w : WsWrapper) : Prop where
  | idle (state : w.state = .idle) (ws : w.ws = none) (throttles : w.throttles = 0)
      (closed : w.ClosedBut none)
  | connecting (current : Nat) (state : w.state = .connecting) (ws : w.ws = some current)
      (throttles : w.throttles = 0) (socket : w.sockets[current]? = some ⟨.connecting, false⟩)
      (closed : w.ClosedBut (some current))
  | opened (current : Nat) (state : w.state = .open) (ws : w.ws = some current)
      (throttles : w.throttles = 0)
      (socket : w.sockets[current]? = some ⟨.closing, true⟩ ∨
        w.wantOpen = true ∧ w.sockets[current]? = some ⟨.open, false⟩)
      (closed : w.ClosedBut (some current))
  | throttling (state : w.state = .openThrottle) (ws : w.ws = none) (throttles : w.throttles = 1)
      (closed : w.ClosedBut none)
  | dead (state : w.state = .dead) (ws : w.ws = none) (silent : w.NoneOpen)

/-- `kill` makes a wrapper dead, and nothing happens to a dead one. -/
structure Recorded (state : WsState) (log : List Entry) : Prop where
  killed : state = .dead ↔ sinceKill log ≠ []
  quiet : ∀ entry ∈ sinceKill log, entry = .killed

structure Invariant (w : WsWrapper) : Prop where
  shape : w.Shape
  recorded : Recorded w.state w.log
  asserts : w.threw = false

theorem initial_invariant : Invariant {} where
  shape := .idle rfl rfl rfl (by simp [ClosedBut])
  recorded := ⟨by simp [sinceKill], by simp [sinceKill]⟩
  asserts := rfl

/-! ### The log -/

section Log

variable {state next : WsState} {log : List Entry} {entry : Entry}

theorem Recorded.alive (recorded : Recorded state log) (alive : state ≠ .dead) :
    sinceKill log = [] := by
  by_contra killed
  exact alive (recorded.killed.mpr killed)

theorem Recorded.move (recorded : Recorded state log) (alive : state ≠ .dead)
    (stays : next ≠ .dead) : Recorded next log where
  killed := by
    rw [recorded.alive alive]
    simp [stays]
  quiet := recorded.quiet

theorem Recorded.add (recorded : Recorded state log) (alive : state ≠ .dead)
    (stays : next ≠ .dead) (other : entry ≠ .killed) : Recorded next (log ++ [entry]) := by
  have silent := recorded.alive alive
  rw [sinceKill] at silent
  have still : sinceKill (log ++ [entry]) = [] := by
    rw [sinceKill, List.dropWhile_append, silent]
    simp [other]
  exact ⟨by simp [still, stays], by simp [still]⟩

theorem Recorded.kill (recorded : Recorded state log) : Recorded .dead (log ++ [.killed]) := by
  have since : sinceKill (log ++ [.killed]) = sinceKill log ++ [.killed] := by
    rw [sinceKill, List.dropWhile_append, sinceKill]
    split
    next empty => rw [List.isEmpty_iff.mp empty]; simp
    next => rfl
  refine ⟨by simp [since], ?_⟩
  intro entry member
  rw [since] at member
  rcases List.mem_append.mp member with old | last
  · exact recorded.quiet entry old
  · exact List.mem_singleton.mp last

end Log

/-! ### The sockets -/

section Sockets

variable {w : WsWrapper} {current : Nat} {f : Socket → Socket}

theorem change_current {socket : Socket} (found : w.sockets[current]? = some socket) :
    (w.change current f).sockets[current]? = some (f socket) := by
  rw [change, List.getElem?_modify, found]
  simp

theorem ClosedBut.change (closed : w.ClosedBut (some current)) :
    (w.change current f).ClosedBut (some current) := by
  intro other socket found different
  have apart : current ≠ other := by simpa using different
  rw [WsWrapper.change, List.getElem?_modify] at found
  simp only [apart, if_false, id_map'] at found
  exact closed other socket found different

theorem ClosedBut.closeLast (closed : w.ClosedBut (some current)) :
    (w.change current (.become .closed)).ClosedBut none := by
  intro other socket found _
  by_cases same : current = other
  · rw [WsWrapper.change, List.getElem?_modify, same] at found
    obtain ⟨before, -, rfl⟩ := Option.map_eq_some_iff.mp found
    simp [Socket.become]
  · exact closed.change other socket found (by simpa using same)

theorem ClosedBut.create (closed : w.ClosedBut none) (socket : Socket) :
    ClosedBut { w with sockets := w.sockets ++ [socket] } (some w.sockets.length) := by
  intro other found present different
  have apart : w.sockets.length ≠ other := by simpa using different
  rw [List.getElem?_append] at present
  split at present
  · exact closed other found present (by simp)
  · rw [List.getElem?_eq_none (by simp; omega)] at present
    cases present

theorem closeWs_some {rest : WsWrapper → WsWrapper} (here : w.ws = some current) :
    w.closeWs rest = rest (w.change current Socket.close) := by
  rw [closeWs, here]

/-- `close()` on the socket of an open wrapper. -/
theorem closing {wantOpen : Bool} (socket : w.sockets[current]? = some ⟨.closing, true⟩ ∨
      wantOpen = true ∧ w.sockets[current]? = some ⟨.open, false⟩) :
    (w.change current Socket.close).sockets[current]? = some ⟨.closing, true⟩ := by
  rcases socket with found | ⟨-, found⟩
  · exact change_current found
  · exact change_current found

theorem ClosedBut.noneOpen (closed : w.ClosedBut none) : w.NoneOpen := by
  intro ws socket found
  rw [closed ws socket found (by simp)]
  simp

theorem ClosedBut.noneOpen_of_current (closed : w.ClosedBut (some current)) {socket : Socket}
    (found : w.sockets[current]? = some socket) (notOpen : socket.readyState ≠ .open) :
    w.NoneOpen := by
  intro ws other present
  by_cases same : current = ws
  · rw [← same, found] at present
    cases present
    exact notOpen
  · rw [closed ws other present (by simpa using same)]
    simp

theorem NoneOpen.not_live (silent : w.NoneOpen) (ws : Nat) : ¬ w.Live ws :=
  fun live => silent ws _ live rfl

/-- Only an open wrapper has an open socket. -/
theorem Shape.noneOpen (shape : w.Shape) (notOpen : w.state ≠ .open) : w.NoneOpen := by
  cases shape with
  | idle _ _ _ closed => exact closed.noneOpen
  | throttling _ _ _ closed => exact closed.noneOpen
  | connecting _ _ _ _ socket closed => exact closed.noneOpen_of_current socket (by simp)
  | opened _ state => exact absurd state notOpen
  | dead _ _ silent => exact silent

/-- While the wrapper lives, a socket that is not closed is the current one. -/
theorem Shape.isCurrent (shape : w.Shape) (alive : w.state ≠ .dead) {ws : Nat} {socket : Socket}
    (found : w.sockets[ws]? = some socket) (notClosed : socket.readyState ≠ .closed) :
    w.ws = some ws ∧ w.throttles = 0 ∧ w.ClosedBut (some ws) := by
  cases shape with
  | idle _ _ _ closed => exact absurd (closed ws socket found (by simp)) notClosed
  | throttling _ _ _ closed => exact absurd (closed ws socket found (by simp)) notClosed
  | connecting current _ here throttles _ closed | opened current _ here throttles _ closed =>
      obtain rfl : current = ws := by
        by_contra apart
        exact notClosed (closed ws socket found (by simpa using apart))
      exact ⟨here, throttles, closed⟩
  | dead state => exact absurd state alive

/-- A connecting socket belongs to a wrapper that is connecting. -/
theorem Shape.fresh (shape : w.Shape) {ws : Nat} {socket : Socket}
    (found : w.sockets[ws]? = some socket) (connecting : socket.readyState = .connecting)
    (alive : w.state ≠ .dead) : w.sockets[ws]? = some ⟨.connecting, false⟩ := by
  obtain ⟨here, -⟩ := shape.isCurrent alive found (by simp [connecting])
  cases shape with
  | connecting current _ there _ same =>
      rwa [Option.some.inj (there.symm.trans here)] at same
  | opened current _ there _ same =>
      rw [Option.some.inj (there.symm.trans here)] at same
      rcases same with same | ⟨-, same⟩ <;> cases found.symm.trans same <;> cases connecting
  | idle _ none | throttling _ none => cases none.symm.trans here
  | dead state => exact absurd state alive

theorem Shape.addLog (shape : w.Shape) (entry : Entry) : (w.addLog entry).Shape := by
  cases shape with
  | idle state ws throttles closed => exact .idle state ws throttles closed
  | connecting current state ws throttles socket closed =>
      exact .connecting current state ws throttles socket closed
  | opened current state ws throttles socket closed =>
      exact .opened current state ws throttles socket closed
  | throttling state ws throttles closed => exact .throttling state ws throttles closed
  | dead state ws silent => exact .dead state ws silent

theorem Shape.single (shape : w.Shape) {first second : Nat} (one : w.Live first)
    (two : w.Live second) : first = second := by
  by_cases alive : w.state = .dead
  · exact absurd one ((shape.noneOpen (by simp [alive])).not_live first)
  · obtain ⟨here, -⟩ := shape.isCurrent alive one (by simp)
    obtain ⟨there, -⟩ := shape.isCurrent alive two (by simp)
    exact Option.some.inj (here.symm.trans there)

end Sockets

/-! ### The handlers -/

section Handlers

variable {w : WsWrapper} {ws : Nat}

/-- An idle wrapper opens a socket if one is wanted. -/
theorem Invariant.openIfWanted (invariant : w.Invariant) (idle : w.state = .idle) :
    w.openCloseWsAsNeeded.Invariant := by
  rw [openCloseWsAsNeeded]
  split
  next =>
    obtain ⟨-, none, throttles, closed⟩ | _ | _ | _ | _ := invariant.shape
    · simp only [openWs, assert, none, idle, decide_true, if_true]
      exact
        { shape := .connecting w.sockets.length rfl rfl throttles (by simp [addLog]) (closed.create _)
          recorded := invariant.recorded.add (by simp [idle]) (by simp [addLog]) (by simp)
          asserts := invariant.asserts }
    all_goals simp_all
  next =>
    rw [if_neg (by simp [idle])]
    exact invariant

theorem Invariant.setWantOpen (invariant : w.Invariant) (wantOpen : Bool) :
    (w.setWantOpen wantOpen).Invariant := by
  have keep (shape : Shape { w with wantOpen }) : Invariant { w with wantOpen } :=
    ⟨shape, invariant.recorded, invariant.asserts⟩
  rw [WsWrapper.setWantOpen]
  cases invariant.shape with
  | idle state ws throttles closed => exact (keep (.idle state ws throttles closed)).openIfWanted state
  | connecting current state ws throttles socket closed =>
      rw [openCloseWsAsNeeded, if_neg (by simp [state]), if_neg (by simp [state])]
      exact keep (.connecting current state ws throttles socket closed)
  | opened current state ws throttles socket closed =>
      rw [openCloseWsAsNeeded, if_neg (by simp [state])]
      split
      next unwanted =>
        rw [@closeWs_some { w with wantOpen } current id ws]
        exact
          { shape := .opened current state ws throttles (.inl (closing socket)) closed.change
            recorded := invariant.recorded
            asserts := invariant.asserts }
      next wanted =>
        have wanted : wantOpen = true := by simpa [state] using wanted
        exact keep (.opened current state ws throttles
          (socket.imp_right fun socket => ⟨wanted, socket.2⟩) closed)
  | throttling state ws throttles closed =>
      rw [openCloseWsAsNeeded, if_neg (by simp [state]), if_neg (by simp [state])]
      exact keep (.throttling state ws throttles closed)
  | dead state ws silent =>
      rw [openCloseWsAsNeeded, if_neg (by simp [state]), if_neg (by simp [state])]
      exact keep (.dead state ws silent)

theorem Invariant.kill (invariant : w.Invariant) : w.kill.Invariant := by
  rw [WsWrapper.kill]
  split
  next isOpen =>
    cases invariant.shape with
    | opened current state ws throttles socket closed =>
        rw [@closeWs_some (w.addLog .killed) current _ ws]
        exact
          { shape := .dead rfl rfl (closed.change.noneOpen_of_current (closing socket) (by simp))
            recorded := invariant.recorded.kill
            asserts := invariant.asserts }
    | idle state | connecting _ state | throttling state | dead state => simp [addLog, state] at isOpen
  next notOpen =>
    exact
      { shape := .dead rfl rfl (invariant.shape.noneOpen notOpen)
        recorded := invariant.recorded.kill
        asserts := invariant.asserts }

/-- A socket opens that is connecting and wanted. -/
theorem Invariant.opened (invariant : w.Invariant) {socket : Socket}
    (found : w.sockets[ws]? = some socket) (connecting : socket.readyState = .connecting)
    (alive : w.state ≠ .dead) (wanted : w.wantOpen = true) :
    ((w.change ws (.become .open)).onopen ws).Invariant := by
  obtain ⟨here, throttles, closed⟩ := invariant.shape.isCurrent alive found (by simp [connecting])
  have fresh := invariant.shape.fresh found connecting alive
  rw [onopen, assert, if_pos (by simp [WsWrapper.change, here])]
  exact
    { shape := .opened ws rfl here throttles (.inr ⟨wanted, change_current fresh⟩) closed.change
      recorded := invariant.recorded.add alive (by simp [addLog]) (by simp)
      asserts := invariant.asserts }

/-- Only the socket of an open wrapper gets messages. -/
theorem Invariant.message (invariant : w.Invariant) {socket : Socket}
    (found : w.sockets[ws]? = some socket) (isOpen : socket.readyState = .open) :
    (w.onmessage ws).Invariant := by
  have state : w.state = .open := by
    by_contra notOpen
    exact invariant.shape.noneOpen notOpen ws socket found isOpen
  have alive : w.state ≠ .dead := by simp [state]
  obtain ⟨here, -⟩ := invariant.shape.isCurrent alive found (by simp [isOpen])
  rw [onmessage, assert, if_pos (by simp [here])]
  exact
    { shape := invariant.shape.addLog _
      recorded := invariant.recorded.add alive (by simp [addLog, state]) (by simp)
      asserts := invariant.asserts }

theorem Invariant.closed (invariant : w.Invariant) {socket : Socket}
    (found : w.sockets[ws]? = some socket) (notClosed : socket.readyState ≠ .closed)
    (alive : w.state ≠ .dead) :
    ((w.change ws (.become .closed)).onclose ws).Invariant := by
  obtain ⟨here, throttles, closed⟩ := invariant.shape.isCurrent alive found notClosed
  rw [onclose, assert, if_pos (by simp [WsWrapper.change, here])]
  simp only
  split
  next =>
    exact
      { shape := .throttling rfl rfl (by simp [WsWrapper.change, addLog, throttles]) closed.closeLast
        recorded := invariant.recorded.add alive (by simp [addLog]) (by simp)
        asserts := invariant.asserts }
  next =>
    exact
      { shape := .idle rfl rfl throttles closed.closeLast
        recorded := invariant.recorded.add alive (by simp [addLog]) (by simp)
        asserts := invariant.asserts }

theorem Invariant.expired (invariant : w.Invariant) (waiting : 0 < w.throttles)
    (alive : w.state ≠ .dead) :
    Invariant { w with throttles := w.throttles - 1 }.afterThrottle := by
  rw [afterThrottle]
  cases invariant.shape with
  | throttling _ none throttles closed =>
      have idle : Invariant { w with throttles := w.throttles - 1, state := .idle } :=
        { shape := .idle rfl none (by simp [throttles]) closed
          recorded := invariant.recorded.move alive (by simp)
          asserts := invariant.asserts }
      exact idle.openIfWanted rfl
  | idle _ _ throttles | connecting _ _ _ throttles | opened _ _ _ throttles =>
      rw [throttles] at waiting
      cases waiting
  | dead state => exact absurd state alive

theorem step_invariant {before after : WsWrapper} {event : Event} (invariant : before.Invariant)
    (allowed : before.Allowed event) (stepped : before.step event = some after) :
    after.Invariant := by
  cases event with
  | setWantOpen wantOpen =>
      cases stepped
      exact invariant.setWantOpen wantOpen
  | kill =>
      cases stepped
      exact invariant.kill
  | opened ws =>
      obtain ⟨socket, found, stepped⟩ := Option.bind_eq_some_iff.mp stepped
      split at stepped
      next connecting =>
        cases stepped
        exact invariant.opened found connecting allowed.1 allowed.2
      next => cases stepped
  | message ws =>
      obtain ⟨socket, found, stepped⟩ := Option.bind_eq_some_iff.mp stepped
      split at stepped
      next isOpen =>
        cases stepped
        exact invariant.message found isOpen
      next => cases stepped
  | closed ws =>
      obtain ⟨socket, found, stepped⟩ := Option.bind_eq_some_iff.mp stepped
      split at stepped
      next notClosed =>
        cases stepped
        exact invariant.closed found notClosed allowed
      next => cases stepped
  | throttleExpired =>
      rw [step] at stepped
      split at stepped
      next waiting =>
        cases stepped
        exact invariant.expired waiting allowed
      next => cases stepped

end Handlers

/-! ### Every run -/

theorem Invariant.lifecycleOk {w : WsWrapper} (invariant : w.Invariant) : w.LifecycleOk where
  single _ _ one two := invariant.shape.single one two
  quiet entry member := by
    rw [invariant.recorded.quiet entry member]
    simp
  closed killed := by
    have dead := invariant.recorded.killed.mpr killed
    exact (invariant.shape.noneOpen (by simp [dead])).not_live
  dead := invariant.recorded.killed.mpr
  settled unwanted _ := by
    by_cases isOpen : w.state = .open
    · cases invariant.shape with
      | opened current _ _ _ socket closed =>
          rcases socket with closing | ⟨wanted, -⟩
          · exact (closed.noneOpen_of_current closing (by simp)).not_live
          · rw [unwanted] at wanted
            cases wanted
      | idle state | connecting _ state | throttling state | dead state => cases state.symm.trans isOpen
    · exact (invariant.shape.noneOpen isOpen).not_live
  asserts := invariant.asserts

theorem sinceKill_add {log : List Entry} (killed : sinceKill log ≠ []) (entry : Entry) :
    sinceKill (log ++ [entry]) ≠ [] := by
  rw [sinceKill, List.dropWhile_append]
  split
  next empty => exact absurd (List.isEmpty_iff.mp empty) killed
  next => simp

section Refused

variable {w : WsWrapper} {ws : Nat}

theorem Invariant.killed_of_dead (invariant : w.Invariant) (dead : w.state = .dead) :
    sinceKill w.log ≠ [] := invariant.recorded.killed.mp dead

/-- A killed wrapper has lost its socket when that opens. -/
theorem opened_dead (invariant : w.Invariant) (dead : w.state = .dead) :
    ¬ LifecycleOk ((w.change ws (.become .open)).onopen ws) := by
  intro ok
  cases invariant.shape with
  | dead _ none =>
      have asserts := ok.asserts
      rw [onopen, assert, if_neg (by simp [WsWrapper.change, none])] at asserts
      cases asserts
  | idle state | connecting _ state | opened _ state | throttling state => cases state.symm.trans dead

/-- `onopen` does not look at `wantOpen`. -/
theorem opened_unwanted (invariant : w.Invariant) {socket : Socket}
    (found : w.sockets[ws]? = some socket) (connecting : socket.readyState = .connecting)
    (alive : w.state ≠ .dead) (unwanted : w.wantOpen = false) :
    ¬ LifecycleOk ((w.change ws (.become .open)).onopen ws) := by
  intro ok
  obtain ⟨here, -, closed⟩ := invariant.shape.isCurrent alive found (by simp [connecting])
  have fresh := invariant.shape.fresh found connecting alive
  rw [onopen, assert, if_pos (by simp [WsWrapper.change, here])] at ok
  have live := change_current (f := .become .open) fresh
  apply ok.settled unwanted ?_ ws live
  intro other member
  obtain ⟨index, present⟩ := List.mem_iff_getElem?.mp member
  by_cases same : ws = index
  · rw [← same] at present
    cases live.symm.trans present
    simp [Socket.become]
  · rw [closed.change index other present (by simpa using same)]
    simp

/-- `onclose` brings a killed wrapper back. -/
theorem closed_dead (invariant : w.Invariant) (dead : w.state = .dead) :
    ¬ LifecycleOk ((w.change ws (.become .closed)).onclose ws) := by
  intro ok
  have killed := sinceKill_add (invariant.killed_of_dead dead) .onClose
  rw [onclose, assert, if_pos (by simp [WsWrapper.change, dead])] at ok
  simp only at ok
  split at ok
  next => cases ok.dead killed
  next => cases ok.dead killed

/-- So does the throttle that was awaited when it was killed. -/
theorem expired_dead (invariant : w.Invariant) (dead : w.state = .dead) :
    ¬ LifecycleOk ({ w with throttles := w.throttles - 1 }.afterThrottle) := by
  intro ok
  have killed := invariant.killed_of_dead dead
  cases invariant.shape with
  | dead _ none =>
      rw [afterThrottle, openCloseWsAsNeeded] at ok
      split at ok
      next =>
        simp only [openWs, assert, none, decide_true, if_true] at ok
        cases ok.dead (sinceKill_add killed .created)
      next =>
        rw [if_neg (by simp)] at ok
        cases ok.dead killed
  | idle state | connecting _ state | opened _ state | throttling state => cases state.symm.trans dead

theorem not_ok_of_refused {before after : WsWrapper} {event : Event} (invariant : before.Invariant)
    (refused : ¬ before.Allowed event) (stepped : before.step event = some after) :
    ¬ after.LifecycleOk := by
  cases event with
  | setWantOpen | kill | message => exact absurd trivial refused
  | opened ws =>
      obtain ⟨socket, found, stepped⟩ := Option.bind_eq_some_iff.mp stepped
      split at stepped
      next connecting =>
        cases stepped
        by_cases dead : before.state = .dead
        · exact opened_dead invariant dead
        · have unwanted : before.wantOpen = false := by simpa [Allowed, dead] using refused
          exact opened_unwanted invariant found connecting dead unwanted
      next => cases stepped
  | closed ws =>
      obtain ⟨socket, found, stepped⟩ := Option.bind_eq_some_iff.mp stepped
      split at stepped
      next =>
        cases stepped
        exact closed_dead invariant (not_not.mp refused)
      next => cases stepped
  | throttleExpired =>
      rw [step] at stepped
      split at stepped
      next =>
        cases stepped
        exact expired_dead invariant (not_not.mp refused)
      next => cases stepped

end Refused

/-- The lifecycle is right at every point of a run exactly if no event reaches a
dead wrapper and no socket opens that is no longer wanted. -/
theorem lifecycle_ok_iff {events : List Event} {w : WsWrapper}
    (ran : Machine.run step {} events = some w) :
    (∀ taken rest reached, events = taken ++ rest → Machine.run step {} taken = some reached →
        reached.LifecycleOk) ↔ Machine.Along step Allowed {} events :=
  Machine.good_throughout_iff step_invariant Invariant.lifecycleOk not_ok_of_refused
    initial_invariant ran

/-- Opened, lost, reopened after the throttle, closed on request. -/
def reconnecting : List Event :=
  [.setWantOpen true, .opened 0, .message 0, .closed 0, .throttleExpired, .opened 1,
    .setWantOpen false, .closed 1]

theorem lifecycle_ok_iff_reconnecting :
    ∃ w, Machine.run step {} reconnecting = some w ∧ w.state = .idle ∧ w.LifecycleOk := by
  have guarded : Machine.Along step Allowed {} reconnecting := by decide
  exact ⟨_, rfl, rfl, (lifecycle_ok_iff rfl).mpr guarded reconnecting [] _ rfl rfl⟩

/-- `setWantOpen(false)` while connecting: the socket opens and stays open. -/
theorem unwanted_stays_open :
    ∃ w, Machine.run step {} [.setWantOpen true, .setWantOpen false, .opened 0] = some w ∧
      ¬ w.LifecycleOk := by
  refine ⟨_, rfl, ?_⟩
  intro ok
  exact ok.settled rfl (by decide) 0 rfl

end WsWrapper

end Smmboss.Client
