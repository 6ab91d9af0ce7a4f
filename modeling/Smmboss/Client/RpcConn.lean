import Mathlib.Data.List.Nodup
import Smmboss.Foundation.Machine

namespace Smmboss.Client.RpcConn

/-! # RPCConn

Any number of calls of `rawRequest` over a connection that is lost and opened
again.  What an `await` goes on to is a step of its own; checking `isOpenSig` and
awaiting it is one, since no event comes in between.
-/

inductive Payload where
  | binary (data : List UInt8)
  | text (message : String)
deriving DecidableEq

/-- How a promise of `pendingResponsePRs` is settled.  `closed` rejects it with
`rpcConnClosedMessage`. -/
inductive Outcome where
  | message (payload : Payload)
  | closed
deriving DecidableEq

/-- Where a call of `rawRequest` is.  In `woken` and `settled`, what it awaited
has happened and it goes on next. -/
inductive Phase where
  | waiting
  | woken
  | awaiting
  | settled (outcome : Outcome)
  | resolved (data : List UInt8)
  | rejected
deriving DecidableEq

/-- `attempts` counts the times `req` has been sent. -/
structure Request where
  req : List UInt8
  attempts : Nat := 0
  phase : Phase := .woken
deriving DecidableEq

/-- One sending of one call's request. -/
structure Attempt where
  request : Nat
  number : Nat
  req : List UInt8
deriving DecidableEq

/-- An entry of `pendingResponsePRs`. -/
inductive Slot where
  | hello
  | attempt (attempt : Attempt)
deriving DecidableEq

inductive Socket where
  | connecting
  | open
deriving DecidableEq

/-- `pending` is `pendingResponsePRs`, `none` before the first `onOpen`.
`helloSent` and `received` (what is still to be answered) are the server's side
of the present connection.  `answers`, and `matched` (the slot each message
settled and the one it was for) are history. -/
structure State where
  ws : Option Socket := none
  isOpen : Bool := false
  pending : Option (List Slot) := none
  requests : List Request := []
  helloSent : Bool := false
  received : List Attempt := []
  answers : List (Attempt × Payload) := []
  matched : List (Slot × Slot) := []

namespace Request

def attempt (r : Request) (i : Nat) : Attempt := ⟨i, r.attempts, r.req⟩

def wake (r : Request) : Request := if r.phase = .waiting then { r with phase := .woken } else r

/-- The promise of attempt `number` is settled. -/
def settle (number : Nat) (outcome : Outcome) (r : Request) : Request :=
  if r.phase = .awaiting ∧ r.attempts = number then { r with phase := .settled outcome } else r

def sent (r : Request) : Request := { r with attempts := r.attempts + 1, phase := .awaiting }

end Request

/-- The hello promise is not one of a request. -/
def Slot.settle (outcome : Outcome) (requests : List Request) : Slot → List Request
  | .hello => requests
  | .attempt a => requests.modify a.request (Request.settle a.number outcome)

namespace State

/-- `isOpenSig.set(value)`: whoever waits is woken. -/
def setIsOpen (s : State) (value : Bool) : State :=
  if s.isOpen = value then s
  else { s with isOpen := value, requests := s.requests.map Request.wake }

def onOpen (s : State) : State := { s with pending := some [.hello] }.setIsOpen true

/-- `answered` is the slot that the message is for.  Without a slot to settle it
throws. -/
def onMessage (s : State) (payload : Payload) (answered : Slot) : State :=
  match s.pending with
  | some (pr :: rest) =>
      { s with
        pending := some rest
        requests := pr.settle (.message payload) s.requests
        matched := s.matched ++ [(pr, answered)] }
  | some [] | none => s

/-- Before the first `onOpen` it throws, with nothing left to do. -/
def onClose (s : State) : State :=
  let s := s.setIsOpen false
  match s.pending with
  | some prs =>
      { s with
        pending := some []
        requests := prs.foldl (fun requests pr => pr.settle .closed requests) s.requests }
  | none => s

def put (s : State) (i : Nat) (r : Request) : State := { s with requests := s.requests.set i r }

/-- The head of `outerLoop`, up to the next `await`.  `send` on null and on a
socket that is connecting throws, and so does `push` on undefined. -/
def outerLoop (s : State) (i : Nat) (r : Request) : State :=
  if s.isOpen then
    match s.ws, s.pending with
    | some .open, some prs =>
        { s.put i r.sent with
          received := s.received ++ [r.sent.attempt i]
          pending := some (prs ++ [.attempt (r.sent.attempt i)]) }
    | some .open, none =>
        { s.put i { r.sent with phase := .rejected } with
          received := s.received ++ [r.sent.attempt i] }
    | some .connecting, _ | none, _ => s.put i { r with phase := .rejected }
  else s.put i { r with phase := .waiting }

/-- `rawRequest` goes on.  A text response is a ReferenceError: what is to be
logged is not the name of a variable. -/
def resume (s : State) (i : Nat) (r : Request) : Option State :=
  match r.phase with
  | .woken | .settled .closed => some (s.outerLoop i r)
  | .settled (.message (.binary data)) => some (s.put i { r with phase := .resolved data })
  | .settled (.message (.text _)) => some (s.put i { r with phase := .rejected })
  | .waiting | .awaiting | .resolved _ | .rejected => none

end State

inductive Event where
  | call (req : List UInt8)
  | resume (i : Nat)
  | connect
  | opened
  | message (payload : Payload)
  | closed
deriving DecidableEq

/-- The server sends its hello first, and then one response to each request, in
order. -/
def step (s : State) : Event → Option State
  | .call req =>
      let r : Request := { req }
      some ({ s with requests := s.requests ++ [r] }.outerLoop s.requests.length r)
  | .resume i => (s.requests[i]?).bind fun r => s.resume i r
  | .connect => if s.ws = none then some { s with ws := some .connecting } else none
  | .opened => if s.ws = some .connecting then some { s with ws := some .open }.onOpen else none
  | .message payload =>
      if s.ws = some .open then
        match s.helloSent, s.received with
        | false, _ => some ({ s with helloSent := true }.onMessage payload .hello)
        | true, a :: rest =>
            some ({ s with received := rest, answers := s.answers ++ [(a, payload)] }.onMessage
              payload (.attempt a))
        | true, [] => none
      else none
  | .closed =>
      if s.ws = none then none
      else some { s with ws := none, helloSent := false, received := [] }.onClose

/-! ## The requests -/

/-- A request whose continuation is queued does not fail when it goes on, and if
the connection is open it sends again where it was not answered. -/
structure RequestsOk (s : State) : Prop where
  resolved : ∀ i (r : Request) data, s.requests[i]? = some r → r.phase = .resolved data →
    (r.attempt i, .binary data) ∈ s.answers
  alive : ∀ r ∈ s.requests, r.phase ≠ .rejected
  continues : ∀ i after, step s (.resume i) = some after →
    ∀ r ∈ after.requests, r.phase ≠ .rejected
  retried : ∀ i (r : Request), s.requests[i]? = some r → r.phase = .woken ∨ r.phase = .settled .closed →
    s.isOpen = true → ∃ after, step s (.resume i) = some after ∧
      after.requests[i]? = some r.sent ∧ after.received = s.received ++ [r.sent.attempt i]
  awake : s.isOpen = true → ∀ r ∈ s.requests, r.phase ≠ .waiting
  awaited : ∀ i (r : Request), s.requests[i]? = some r → r.phase = .awaiting →
    s.ws = some .open ∧ ∃ prs, s.pending = some prs ∧ .attempt (r.attempt i) ∈ prs
  matched : ∀ pair ∈ s.matched, pair.1 = pair.2

/-- A request is not answered with a text. -/
def Allowed (s : State) : Event → Prop
  | .message (.text _) => s.helloSent = false
  | .message (.binary _) | .call _ | .resume _ | .connect | .opened | .closed => True

instance Allowed.decidable (s : State) : (event : Event) → Decidable (Allowed s event)
  | .message (.text _) => inferInstanceAs (Decidable (s.helloSent = false))
  | .message (.binary _) | .call _ | .resume _ | .connect | .opened | .closed => .isTrue trivial

/-! ### Requests and what the server has received -/

/-- What each phase says of a request. -/
def Fits (isOpen : Bool) (received : List Attempt) (answers : List (Attempt × Payload)) (i : Nat)
    (r : Request) : Prop :=
  match r.phase with
  | .waiting => isOpen = false
  | .woken | .settled .closed => True
  | .awaiting => r.attempt i ∈ received
  | .settled (.message payload) =>
      (r.attempt i, payload) ∈ answers ∧ ∃ data, payload = .binary data
  | .resolved data => (r.attempt i, .binary data) ∈ answers
  | .rejected => False

structure Book (isOpen : Bool) (received : List Attempt) (answers : List (Attempt × Payload))
    (requests : List Request) : Prop where
  fits : ∀ i r, requests[i]? = some r → Fits isOpen received answers i r
  sent : ∀ a ∈ received, ∃ r, requests[a.request]? = some r ∧ r.phase = .awaiting ∧
    r.attempt a.request = a
  once : (received.map Attempt.request).Nodup

section Book

variable {isOpen : Bool} {received rest : List Attempt} {answers later : List (Attempt × Payload)}
variable {requests : List Request} {i : Nat} {r next : Request} {a : Attempt}

theorem Fits.mono {more : List Attempt} {value : Bool} (fits : Fits isOpen received answers i r)
    (waits : r.phase = .waiting → value = isOpen)
    (kept : r.attempt i ∈ received → r.attempt i ∈ more) (grow : answers ⊆ later) :
    Fits value more later i r := by
  cases phase : r.phase with
  | waiting =>
      simp only [Fits, phase] at fits ⊢
      exact (waits phase).trans fits
  | woken => simp only [Fits, phase]
  | rejected => simp only [Fits, phase] at fits
  | awaiting =>
      simp only [Fits, phase] at fits ⊢
      exact kept fits
  | settled outcome =>
      cases outcome with
      | closed => simp only [Fits, phase]
      | message payload =>
          simp only [Fits, phase] at fits ⊢
          exact ⟨grow fits.1, fits.2⟩
  | resolved data =>
      simp only [Fits, phase] at fits ⊢
      exact grow fits

/-- A request that awaits no response is moved on. -/
theorem Book.put (book : Book isOpen received answers requests) (found : requests[i]? = some r)
    (idle : r.phase ≠ .awaiting) (fits : Fits isOpen received answers i next) :
    Book isOpen received answers (requests.set i next) where
  fits := by
    intro j other present
    rw [List.getElem?_set] at present
    split at present
    next same =>
      split at present
      next =>
        cases present
        rwa [← same]
      next => cases present
    next => exact book.fits j other present
  sent := by
    intro a member
    obtain ⟨other, present, awaiting, same⟩ := book.sent a member
    have apart : i ≠ a.request := by
      intro here
      rw [← here, found] at present
      cases present
      exact idle awaiting
    have unmoved : (requests.set i next)[a.request]? = some other := by
      rw [List.getElem?_set_ne apart, present]
    exact ⟨other, unmoved, awaiting, same⟩
  once := book.once

theorem Book.send (book : Book isOpen received answers requests) (found : requests[i]? = some r)
    (idle : r.phase ≠ .awaiting) :
    Book isOpen (received ++ [r.sent.attempt i]) answers (requests.set i r.sent) := by
  have inside : i < requests.length := (List.getElem?_eq_some_iff.mp found).1
  have apart : ∀ a ∈ received, a.request ≠ i := by
    intro a member same
    obtain ⟨other, present, awaiting, -⟩ := book.sent a member
    rw [same, found] at present
    cases present
    exact idle awaiting
  exact
    { fits := by
        intro j other present
        rw [List.getElem?_set] at present
        split at present
        next same =>
          simp only [Option.some.injEq] at present
          rw [← same, ← present]
          exact List.mem_append_right _ (List.mem_singleton_self _)
        next =>
          exact (book.fits j other present).mono (fun _ => rfl) (List.mem_append_left _)
            (List.Subset.refl _)
      sent := by
        intro a member
        rcases List.mem_append.mp member with old | last
        · obtain ⟨other, present, awaiting, same⟩ := book.sent a old
          have unmoved : (requests.set i r.sent)[a.request]? = some other := by
            rw [List.getElem?_set_ne (apart a old).symm, present]
          exact ⟨other, unmoved, awaiting, same⟩
        · obtain rfl := List.mem_singleton.mp last
          exact ⟨r.sent, List.getElem?_set_self inside, rfl, rfl⟩
      once := by
        have new : i ∉ received.map Attempt.request := by
          intro member
          obtain ⟨a, old, same⟩ := List.mem_map.mp member
          exact apart a old same
        rw [List.map_append]
        exact book.once.append (List.nodup_singleton _) (List.disjoint_singleton.mpr new) }

theorem Book.call (book : Book isOpen received answers requests) (new : r.phase = .woken) :
    Book isOpen received answers (requests ++ [r]) where
  fits := by
    intro j other present
    rw [List.getElem?_append] at present
    split at present
    next => exact book.fits j other present
    next =>
      obtain rfl := List.mem_singleton.mp (List.mem_of_getElem? present)
      simp [Fits, new]
  sent := by
    intro a member
    obtain ⟨other, present, awaiting, same⟩ := book.sent a member
    have unmoved : (requests ++ [r])[a.request]? = some other := by
      rw [List.getElem?_append_left (List.getElem?_eq_some_iff.mp present).1, present]
    exact ⟨other, unmoved, awaiting, same⟩
  once := book.once

/-- The first attempt that the server has received is settled. -/
theorem Book.settle {outcome : Outcome} (book : Book isOpen (a :: rest) answers requests)
    (grow : answers ⊆ later)
    (fits : ∀ r : Request, r.attempt a.request = a →
      Fits isOpen rest later a.request { r with phase := .settled outcome }) :
    Book isOpen rest later (requests.modify a.request (Request.settle a.number outcome)) := by
  obtain ⟨here, present, awaiting, same⟩ := book.sent a List.mem_cons_self
  obtain ⟨apart, once⟩ := List.nodup_cons.mp book.once
  exact
    { fits := by
        intro j other found
        rw [List.getElem?_modify] at found
        by_cases place : a.request = j
        · subst place
          rw [present] at found
          have settled : Request.settle a.number outcome here =
              { here with phase := .settled outcome } :=
            if_pos ⟨awaiting, congrArg Attempt.number same⟩
          simp only [if_true, Option.map_eq_map, Option.map_some, settled, Option.some.injEq] at found
          rw [← found]
          exact fits here same
        · simp only [place, if_false, id_map'] at found
          apply (book.fits j other found).mono (fun _ => rfl) ?_ grow
          intro member
          apply (List.mem_cons.mp member).resolve_left
          intro equal
          exact place (congrArg Attempt.request equal).symm
      sent := by
        intro other member
        obtain ⟨r, found, waits, equal⟩ := book.sent other (List.mem_cons_of_mem a member)
        have elsewhere : a.request ≠ other.request := by
          intro equal
          exact apart (List.mem_map.mpr ⟨other, member, equal.symm⟩)
        have unmoved : (requests.modify a.request
            (Request.settle a.number outcome))[other.request]? = some r := by
          rw [List.getElem?_modify, found]
          simp [elsewhere]
        exact ⟨r, unmoved, waits, equal⟩
      once }

/-- A response settles the attempt that it is for. -/
theorem Book.answer (book : Book isOpen (a :: rest) answers requests) (data : List UInt8) :
    Book isOpen rest (answers ++ [(a, .binary data)])
      (requests.modify a.request (Request.settle a.number (.message (.binary data)))) := by
  apply book.settle (List.subset_append_left _ _)
  intro r same
  have attempted : Request.attempt { r with phase := .settled (.message (.binary data)) } a.request = a :=
    same
  simp only [Fits, attempted]
  exact ⟨by simp, data, rfl⟩

/-- The connection is lost: all that the server has received is to be sent again. -/
theorem Book.close (book : Book isOpen received answers requests) :
    Book isOpen [] answers
      ((received.map Slot.attempt).foldl (fun requests pr => pr.settle .closed requests) requests) := by
  -- The book of the attempts that are left carries the induction.
  induction received generalizing requests with
  | nil => exact book
  | cons a rest ih =>
      apply ih
      apply book.settle (List.Subset.refl _)
      intro r _
      simp only [Fits]

/-- Whoever waits for the connection is woken. -/
theorem Book.wake (book : Book isOpen received answers requests) (value : Bool) :
    Book value received answers (requests.map Request.wake) where
  fits := by
    intro j other present
    rw [List.getElem?_map] at present
    obtain ⟨r, found, rfl⟩ := Option.map_eq_some_iff.mp present
    rw [Request.wake]
    split
    next => simp only [Fits]
    next waits =>
      exact (book.fits j r found).mono (fun waiting => absurd waiting waits) id (List.Subset.refl _)
  sent := by
    intro a member
    obtain ⟨r, found, awaiting, same⟩ := book.sent a member
    have asleep : (requests.map Request.wake)[a.request]? = some r := by
      rw [List.getElem?_map, found, Option.map_some, Request.wake, if_neg (by simp [awaiting])]
    exact ⟨r, asleep, awaiting, same⟩
  once := book.once

end Book

/-! ### The connection -/

/-- While the connection is open the slots are, in order, those of the messages
that the server is still to send. -/
structure Invariant (s : State) : Prop where
  book : Book s.isOpen s.received s.answers s.requests
  opened : s.isOpen = true ↔ s.ws = some .open
  pending : s.isOpen = true →
    s.pending = some ((if s.helloSent then [] else [.hello]) ++ s.received.map .attempt)
  idle : s.isOpen = false →
    s.received = [] ∧ s.helloSent = false ∧ (s.pending = none ∨ s.pending = some [])
  matched : ∀ pair ∈ s.matched, pair.1 = pair.2

theorem initial_invariant : Invariant {} where
  book := ⟨by simp, by simp, List.nodup_nil⟩
  opened := by simp
  pending := by simp
  idle := by simp
  matched := by simp

/-- A message settles the slot that it is for. -/
theorem matched_add {matched : List (Slot × Slot)} (known : ∀ pair ∈ matched, pair.1 = pair.2)
    (slot : Slot) : ∀ pair ∈ matched ++ [(slot, slot)], pair.1 = pair.2 := by
  intro pair member
  rcases List.mem_append.mp member with old | last
  · exact known pair old
  · rw [List.mem_singleton.mp last]

section Steps

variable {s : State} {i : Nat} {r : Request}

/-- On an open connection a request is sent. -/
theorem Invariant.outerLoop_open (invariant : Invariant s) (isOpen : s.isOpen = true) :
    s.outerLoop i r = { s.put i r.sent with
      received := s.received ++ [r.sent.attempt i]
      pending := some ((if s.helloSent then [] else [.hello]) ++ s.received.map .attempt ++
        [.attempt (r.sent.attempt i)]) } := by
  rw [State.outerLoop, if_pos isOpen, invariant.opened.mp isOpen, invariant.pending isOpen]

theorem Invariant.outerLoop (invariant : Invariant s) (found : s.requests[i]? = some r)
    (idle : r.phase ≠ .awaiting) : Invariant (s.outerLoop i r) := by
  by_cases isOpen : s.isOpen = true
  · rw [invariant.outerLoop_open isOpen]
    exact
      { book := invariant.book.send found idle
        opened := invariant.opened
        pending := by
          intro _
          rw [List.map_append, ← List.append_assoc]
          rfl
        idle := fun shut => by cases isOpen.symm.trans shut
        matched := invariant.matched }
  · rw [State.outerLoop, if_neg isOpen]
    exact
      { book := invariant.book.put found idle (by simpa [Fits] using isOpen)
        opened := invariant.opened
        pending := invariant.pending
        idle := invariant.idle
        matched := invariant.matched }

theorem Invariant.put (invariant : Invariant s) (found : s.requests[i]? = some r) {next : Request}
    (idle : r.phase ≠ .awaiting) (fits : Fits s.isOpen s.received s.answers i next) :
    Invariant (s.put i next) :=
  { invariant with book := invariant.book.put found idle fits }

theorem Invariant.resume {after : State} (invariant : Invariant s)
    (found : s.requests[i]? = some r) (resumed : s.resume i r = some after) : Invariant after := by
  have fits := invariant.book.fits i r found
  cases phase : r.phase with
  | woken =>
      rw [State.resume, phase] at resumed
      cases resumed
      exact invariant.outerLoop found (by simp [phase])
  | settled outcome =>
      cases outcome with
      | closed =>
          rw [State.resume, phase] at resumed
          cases resumed
          exact invariant.outerLoop found (by simp [phase])
      | message payload =>
          simp only [Fits, phase] at fits
          obtain ⟨answered, data, rfl⟩ := fits
          rw [State.resume, phase] at resumed
          cases resumed
          exact invariant.put found (by simp [phase]) answered
  | waiting | awaiting | resolved | rejected =>
      rw [State.resume, phase] at resumed
      cases resumed

theorem Invariant.call (invariant : Invariant s) (req : List UInt8) :
    Invariant (State.outerLoop { s with requests := s.requests ++ [{ req := req }] } s.requests.length
      { req := req }) := by
  have called : Invariant { s with requests := s.requests ++ [{ req := req }] } :=
    { invariant with book := invariant.book.call rfl }
  exact called.outerLoop (by simp) (by simp)

theorem Invariant.opening (invariant : Invariant s) (connecting : s.ws = some .connecting) :
    Invariant { s with ws := some .open }.onOpen := by
  have shut : s.isOpen = false := by
    by_contra isOpen
    have opened := invariant.opened.mp (by simpa using isOpen)
    cases connecting.symm.trans opened
  obtain ⟨received, helloSent, -⟩ := invariant.idle shut
  rw [State.onOpen, State.setIsOpen, if_neg (by simp [shut])]
  exact
    { book := invariant.book.wake true
      opened := by simp
      pending := by simp [received, helloSent]
      idle := by simp
      matched := invariant.matched }

theorem Invariant.hello (invariant : Invariant s) (isOpen : s.ws = some .open)
    (first : s.helloSent = false) (payload : Payload) :
    Invariant ({ s with helloSent := true }.onMessage payload .hello) := by
  have isOpen := invariant.opened.mpr isOpen
  have pending := invariant.pending isOpen
  simp only [first, Bool.false_eq_true, if_false] at pending
  rw [State.onMessage, pending]
  exact
    { book := invariant.book
      opened := invariant.opened
      pending := by simp
      idle := fun shut => by cases isOpen.symm.trans shut
      matched := matched_add invariant.matched _ }

theorem Invariant.answer (invariant : Invariant s) (isOpen : s.ws = some .open)
    (later : s.helloSent = true) {a : Attempt} {rest : List Attempt} (received : s.received = a :: rest)
    (data : List UInt8) :
    Invariant (State.onMessage
      { s with received := rest, answers := s.answers ++ [(a, .binary data)] } (.binary data)
      (.attempt a)) := by
  have isOpen := invariant.opened.mpr isOpen
  have pending := invariant.pending isOpen
  have book := invariant.book
  simp only [later, if_true, List.nil_append, received, List.map_cons] at pending
  rw [received] at book
  rw [State.onMessage, pending]
  exact
    { book := book.answer data
      opened := invariant.opened
      pending := by simp [later]
      idle := fun shut => by cases isOpen.symm.trans shut
      matched := matched_add invariant.matched _ }

/-- Every attempt that is still to be answered is settled as closed. -/
theorem Invariant.closing (invariant : Invariant s) :
    Invariant { s with ws := none, helloSent := false, received := [] }.onClose := by
  by_cases isOpen : s.isOpen = true
  · have pending := invariant.pending isOpen
    have hello (requests : List Request) :
        (if s.helloSent then [] else [Slot.hello]).foldl
          (fun requests pr => pr.settle .closed requests) requests = requests := by
      split <;> rfl
    simp only [State.onClose, State.setIsOpen, isOpen, Bool.true_eq_false, if_false, pending,
      List.foldl_append, hello]
    exact
      { book := (invariant.book.wake false).close
        opened := by simp
        pending := by simp
        idle := fun _ => ⟨rfl, rfl, .inr rfl⟩
        matched := invariant.matched }
  · have shut : s.isOpen = false := by simpa using isOpen
    obtain ⟨received, -, pending⟩ := invariant.idle shut
    have book := invariant.book
    rw [shut, received] at book
    simp only [State.onClose, State.setIsOpen, shut, if_true]
    rcases pending with none | empty
    · rw [none]
      exact
        { book
          opened := by simp
          pending := by simp
          idle := fun _ => ⟨rfl, rfl, .inl rfl⟩
          matched := invariant.matched }
    · rw [empty]
      exact
        { book
          opened := by simp
          pending := by simp
          idle := fun _ => ⟨rfl, rfl, .inr rfl⟩
          matched := invariant.matched }

theorem step_invariant {before after : State} {event : Event} (invariant : Invariant before)
    (allowed : Allowed before event) (stepped : step before event = some after) :
    Invariant after := by
  cases event with
  | call req =>
      cases stepped
      exact invariant.call req
  | resume i =>
      obtain ⟨r, found, resumed⟩ := Option.bind_eq_some_iff.mp stepped
      exact invariant.resume found resumed
  | connect =>
      rw [step] at stepped
      split at stepped
      next none =>
        cases stepped
        have opened := invariant.opened
        rw [none] at opened
        exact
          { invariant with
            opened := by simpa using opened }
      next => cases stepped
  | opened =>
      rw [step] at stepped
      split at stepped
      next connecting =>
        cases stepped
        exact invariant.opening connecting
      next => cases stepped
  | message payload =>
      rw [step] at stepped
      split at stepped
      next isOpen =>
        split at stepped
        next _ first =>
          cases stepped
          exact invariant.hello isOpen first payload
        next a rest later received =>
          cases stepped
          cases payload with
          | binary data => exact invariant.answer isOpen later received data
          | text message => cases later.symm.trans allowed
        next => cases stepped
      next => cases stepped
  | closed =>
      rw [step] at stepped
      split at stepped
      next => cases stepped
      next =>
        cases stepped
        exact invariant.closing

end Steps

/-! ### Every run -/

theorem Invariant.retried {s : State} (invariant : Invariant s) {i : Nat} {r : Request}
    (found : s.requests[i]? = some r) (unanswered : r.phase = .woken ∨ r.phase = .settled .closed)
    (isOpen : s.isOpen = true) :
    ∃ after, step s (.resume i) = some after ∧ after.requests[i]? = some r.sent ∧
      after.received = s.received ++ [r.sent.attempt i] := by
  have stepped : step s (.resume i) = some (s.outerLoop i r) := by
    rw [step, found, Option.bind_some, State.resume]
    rcases unanswered with phase | phase <;> rw [phase]
  have inside := (List.getElem?_eq_some_iff.mp found).1
  rw [invariant.outerLoop_open isOpen] at stepped
  exact ⟨_, stepped, List.getElem?_set_self inside, rfl⟩

theorem Invariant.alive {s : State} (invariant : Invariant s) :
    ∀ r ∈ s.requests, r.phase ≠ .rejected := by
  intro r member rejected
  obtain ⟨i, found⟩ := List.mem_iff_getElem?.mp member
  have fits := invariant.book.fits i r found
  simp only [Fits, rejected] at fits

theorem Invariant.requestsOk {s : State} (invariant : Invariant s) : RequestsOk s where
  resolved i r data found phase := by
    have fits := invariant.book.fits i r found
    simpa only [Fits, phase] using fits
  alive := invariant.alive
  continues i _ stepped := by
    have allowed : Allowed s (.resume i) := trivial
    exact (step_invariant invariant allowed stepped).alive
  retried _ _ found unanswered isOpen := invariant.retried found unanswered isOpen
  awake isOpen r member waiting := by
    obtain ⟨i, found⟩ := List.mem_iff_getElem?.mp member
    have fits := invariant.book.fits i r found
    simp only [Fits, waiting] at fits
    cases isOpen.symm.trans fits
  awaited i r found awaiting := by
    have member := invariant.book.fits i r found
    simp only [Fits, awaiting] at member
    have isOpen : s.isOpen = true := by
      by_contra shut
      rw [(invariant.idle (by simpa using shut)).1] at member
      cases member
    exact ⟨invariant.opened.mp isOpen, _, invariant.pending isOpen,
      List.mem_append_right _ (List.mem_map_of_mem member)⟩
  matched := invariant.matched

/-- The request that a text answers fails when it goes on. -/
theorem RequestsOk.not_text {s : State} (ok : RequestsOk s) {i : Nat} {r : Request}
    (found : s.requests[i]? = some r) (message : String) :
    r.phase ≠ .settled (.message (.text message)) := by
  intro answered
  have resumed : step s (.resume i) = some (s.put i { r with phase := .rejected }) := by
    rw [step, found, Option.bind_some, State.resume, answered]
  have inside := (List.getElem?_eq_some_iff.mp found).1
  exact ok.continues i _ resumed _ (List.mem_iff_getElem?.mpr ⟨i, List.getElem?_set_self inside⟩) rfl

theorem Invariant.text_fails {s : State} (invariant : Invariant s) (isOpen : s.ws = some .open)
    (later : s.helloSent = true) {a : Attempt} {rest : List Attempt} (received : s.received = a :: rest)
    (message : String) :
    ¬ RequestsOk (State.onMessage
      { s with received := rest, answers := s.answers ++ [(a, .text message)] } (.text message)
      (.attempt a)) := by
  intro ok
  have pending := invariant.pending (invariant.opened.mpr isOpen)
  simp only [later, if_true, List.nil_append, received, List.map_cons] at pending
  obtain ⟨r, found, awaiting, same⟩ := invariant.book.sent a (by simp [received])
  have settled : Request.settle a.number (.message (.text message)) r =
      { r with phase := .settled (.message (.text message)) } :=
    if_pos ⟨awaiting, congrArg Attempt.number same⟩
  rw [State.onMessage, pending] at ok
  have present : (s.requests.modify a.request
      (Request.settle a.number (.message (.text message))))[a.request]? =
        some { r with phase := .settled (.message (.text message)) } := by
    rw [List.getElem?_modify, found, Option.map_eq_map, Option.map_some, if_pos rfl, settled]
  exact ok.not_text present message rfl

theorem not_ok_of_refused {before after : State} {event : Event} (invariant : Invariant before)
    (refused : ¬ Allowed before event) (stepped : step before event = some after) :
    ¬ RequestsOk after := by
  cases event with
  | message payload =>
      cases payload with
      | text message =>
          have later : before.helloSent = true := by simpa [Allowed] using refused
          rw [step] at stepped
          split at stepped
          next isOpen =>
            split at stepped
            next _ first => cases later.symm.trans first
            next a rest _ received =>
              cases stepped
              exact invariant.text_fails isOpen later received message
            next => cases stepped
          next => cases stepped
      | binary data => exact absurd trivial refused
  | call | resume | connect | opened | closed => exact absurd trivial refused

/-- All is well with the requests at every point of a run exactly if none is
answered with a text. -/
theorem requests_ok_iff {events : List Event} {s : State}
    (ran : Machine.run step {} events = some s) :
    (∀ taken rest reached, events = taken ++ rest → Machine.run step {} taken = some reached →
        RequestsOk reached) ↔ Machine.Along step Allowed {} events :=
  Machine.good_throughout_iff step_invariant Invariant.requestsOk not_ok_of_refused
    initial_invariant ran

/-- Two calls, the first sent again after a lost connection. -/
def reopened : List Event :=
  [.call [3], .connect, .opened, .resume 0, .message (.binary []), .closed, .call [1], .connect,
    .resume 0, .opened, .resume 1, .message (.binary []), .resume 0, .message (.binary [7]),
    .resume 1, .message (.binary [9]), .resume 0]

theorem requests_ok_iff_reopened :
    ∃ s, Machine.run step {} reopened = some s ∧ RequestsOk s ∧
      s.requests = [⟨[3], 2, .resolved [9]⟩, ⟨[1], 1, .resolved [7]⟩] := by
  have guarded : Machine.Along step Allowed {} reopened := by decide
  exact ⟨_, rfl, (requests_ok_iff rfl).mpr guarded reopened [] _ rfl rfl, rfl⟩

/-- A text error: `rawRequest` rejects instead of sending again. -/
theorem text_rejects :
    ∃ s, Machine.run step {} [.connect, .opened, .message (.binary []), .call [3],
        .message (.text "wrong len for get_stats"), .resume 0] = some s ∧ ¬ RequestsOk s := by
  refine ⟨_, rfl, ?_⟩
  intro ok
  exact ok.alive ⟨[3], 1, .rejected⟩ (by decide) rfl

end Smmboss.Client.RpcConn
