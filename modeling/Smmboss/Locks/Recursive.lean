import Mathlib.Algebra.Order.Ring.Nat
import Mathlib.Logic.Function.Basic
import Mathlib.Tactic.SplitIfs
import Smmboss.Foundation.Machine

namespace Smmboss.Locks

/-! # The recursive lock

A call is split where other threads can come between its accesses.  `Enter`
blocks until the inner section is free, `TryEnter` is true when it acquired it,
and waiting on the condition variable leaves the inner section and re-acquires
it at any later time.
-/

/-- Each thread's handle, which it writes as its tag. -/
structure Handles (Thread : Type u) where
  tag : Thread → UInt32
  nonzero : ∀ thread, tag thread ≠ 0
  injective : Function.Injective tag

/-- `_LOCK_RECURSIVE_T`; `inner` is the thread inside the critical section. -/
structure Lock (Thread : Type u) where
  inner : Option Thread := none
  threadTag : UInt32 := 0
  counter : Nat := 0
deriving DecidableEq

/-- Where a thread is in a call: the access it makes next. -/
inductive Phase where
  | idle
  | acquireEnter
  | acquireTag
  | acquireCount
  | tryEnter
  | tryTag
  | tryCount
  | releaseTag
  | releaseLeave
  | waitTag
  | waitCount (backup : UInt32)
  | waitSleep (backup : UInt32)
  | waiting (backup : UInt32)
  | restoreTag (backup : UInt32)
  | restoreCount
deriving DecidableEq

/-- What a call has returned, and with which lock. -/
inductive Return (Thread : Type u) where
  | tried (thread : Thread) (result : Nat) (before after : Lock Thread)
  | waited (thread : Thread) (after : Lock Thread)

/-- `count` is how often the thread has acquired the lock and not released it;
`returned` is history. -/
structure State (Thread : Type u) where
  lock : Lock Thread := {}
  phase : Thread → Phase := fun _ => .idle
  count : Thread → Nat := fun _ => 0
  returned : List (Return Thread) := []

inductive Label (Thread : Type u) where
  | acquire (thread : Thread)
  | tryAcquire (thread : Thread)
  | release (thread : Thread)
  | condWait (thread : Thread)
  | advance (thread : Thread)

variable {Thread : Type u}

/-- `counter++` and `--counter` of a `uint32_t`. -/
def increment (counter : Nat) : Nat := (counter + 1) % 2 ^ 32
def decrement (counter : Nat) : Nat := (counter + 2 ^ 32 - 1) % 2 ^ 32

namespace State

variable [DecidableEq Thread]

/-- The thread goes on to `phase`, with its count and the lock as given. -/
def put (state : State Thread) (thread : Thread) (phase : Phase) (count : Nat)
    (lock : Lock Thread) (returned : List (Return Thread)) : State Thread where
  lock
  phase := Function.update state.phase thread phase
  count := Function.update state.count thread count
  returned := state.returned ++ returned

def goto (state : State Thread) (thread : Thread) (phase : Phase) (lock : Lock Thread) :
    State Thread :=
  state.put thread phase (state.count thread) lock []

/-- The next access of a thread that is in a call. -/
def advance (handles : Handles Thread) (state : State Thread) (thread : Thread) :
    Option (State Thread) :=
  let lock := state.lock
  let count := state.count thread
  match state.phase thread with
  | .idle => none
  | .acquireEnter =>
      if lock.inner = none then some (state.goto thread .acquireTag { lock with inner := some thread })
      else none
  | .acquireTag =>
      some (state.goto thread .acquireCount { lock with threadTag := handles.tag thread })
  | .acquireCount =>
      some (state.put thread .idle (count + 1) { lock with counter := increment lock.counter } [])
  | .tryEnter =>
      -- `TryEnter` is true when it acquired, and the caller takes non-zero for a failure
      if lock.inner = none then
        let after := { lock with inner := some thread }
        some (state.put thread .idle count after [.tried thread 1 lock after])
      else some (state.goto thread .tryTag lock)
  | .tryTag => some (state.goto thread .tryCount { lock with threadTag := handles.tag thread })
  | .tryCount =>
      let after := { lock with counter := increment lock.counter }
      some (state.put thread .idle (count + 1) after [.tried thread 0 lock after])
  | .releaseTag => some (state.goto thread .releaseLeave { lock with threadTag := 0 })
  | .releaseLeave => some (state.goto thread .idle { lock with inner := none })
  | .waitTag => some (state.goto thread (.waitCount lock.threadTag) { lock with threadTag := 0 })
  | .waitCount backup => some (state.goto thread (.waitSleep backup) { lock with counter := 0 })
  | .waitSleep backup =>
      some (state.put thread (.waiting backup) 0 { lock with inner := none } [])
  | .waiting backup =>
      if lock.inner = none then
        some (state.goto thread (.restoreTag backup) { lock with inner := some thread })
      else none
  | .restoreTag backup => some (state.goto thread .restoreCount { lock with threadTag := backup })
  | .restoreCount =>
      let after := { lock with counter := 1 }
      some (state.put thread .idle 1 after [.waited thread after])

/-- A call of an idle thread up to its first shared access, or the next access. -/
def step (handles : Handles Thread) (state : State Thread) : Label Thread → Option (State Thread)
  | .acquire thread =>
      if state.phase thread = .idle then
        let owner := state.lock.threadTag = handles.tag thread
        some (state.goto thread (if owner then .acquireCount else .acquireEnter) state.lock)
      else none
  | .tryAcquire thread =>
      if state.phase thread = .idle then
        let owner := state.lock.threadTag = handles.tag thread
        some (state.goto thread (if owner then .tryCount else .tryEnter) state.lock)
      else none
  | .release thread =>
      if state.phase thread = .idle then
        let counter := decrement state.lock.counter
        some (state.put thread (if counter = 0 then .releaseTag else .idle)
          (state.count thread - 1) { state.lock with counter } [])
      else none
  | .condWait thread =>
      if state.phase thread = .idle then
        -- `EBADF`
        if state.lock.counter ≠ 1 then
          some (state.put thread .idle (state.count thread) state.lock [.waited thread state.lock])
        else some (state.goto thread .waitTag state.lock)
      else none
  | .advance thread => state.advance handles thread

end State

/-! ## What the lock is for -/

/-- The lock's fields say that the thread owns it. -/
structure Lock.OwnedBy (handles : Handles Thread) (lock : Lock Thread) (thread : Thread) : Prop where
  inner : lock.inner = some thread
  tag : lock.threadTag = handles.tag thread
  counted : lock.counter ≠ 0

def Return.Ok (handles : Handles Thread) : Return Thread → Prop
  | .tried thread result before after =>
      (result = 0 ↔ after.OwnedBy handles thread) ∧ (result ≠ 0 → after = before)
  | .waited thread after => after.OwnedBy handles thread ∧ after.counter = 1

/-- One owner at most; the inner section is an owner's as long as its count is
not back at 0, and nobody's who is idle without the lock. -/
structure LockOk (handles : Handles Thread) (state : State Thread) : Prop where
  exclusive : ∀ first second, 0 < state.count first → 0 < state.count second → first = second
  inside : ∀ thread, 0 < state.count thread → state.lock.inner = some thread
  left : ∀ thread, state.phase thread = .idle → state.count thread = 0 →
    state.lock.inner ≠ some thread
  counted : ∀ thread, state.phase thread = .idle → 0 < state.count thread →
    state.lock.OwnedBy handles thread ∧ state.lock.counter = state.count thread
  returns : ∀ event ∈ state.returned, event.Ok handles

/-- `try_acquire_recursive` is only called by the owner, `release_recursive` and
`cond_wait_recursive` too, the latter at count 1, and no count passes 32 bits. -/
def Allowed (state : State Thread) : Label Thread → Prop
  | .acquire thread => state.count thread + 1 < 2 ^ 32
  | .tryAcquire thread => 0 < state.count thread ∧ state.count thread + 1 < 2 ^ 32
  | .release thread => 0 < state.count thread
  | .condWait thread => state.count thread = 1
  | .advance _ => True

instance Allowed.decidable (state : State Thread) : (label : Label Thread) →
    Decidable (Allowed state label)
  | .acquire thread => Nat.decLt (state.count thread + 1) (2 ^ 32)
  | .tryAcquire thread =>
      inferInstanceAs (Decidable (0 < state.count thread ∧ state.count thread + 1 < 2 ^ 32))
  | .release thread => Nat.decLt 0 (state.count thread)
  | .condWait thread => Nat.decEq (state.count thread) 1
  | .advance _ => isTrue trivial

/-! ## The invariant -/

/-- What a thread's phase and count say about the lock: nothing but that it is
not inside (`none`), or whether the tag is its own and what the counter is. -/
inductive Place (tag : UInt32) : Phase → Nat → Option (Bool × Nat) → Prop where
  | free : Place tag .idle 0 none
  | owner (bound : n + 1 < 2 ^ 32) : Place tag .idle (n + 1) (some (true, n + 1))
  | acquireEnter : Place tag .acquireEnter 0 none
  | acquireTag : Place tag .acquireTag 0 (some (false, 0))
  | acquireCount (bound : n + 1 < 2 ^ 32) : Place tag .acquireCount n (some (true, n))
  | tryCount (bound : n + 1 < 2 ^ 32) : Place tag .tryCount n (some (true, n))
  | releaseTag : Place tag .releaseTag 0 (some (true, 0))
  | releaseLeave : Place tag .releaseLeave 0 (some (false, 0))
  | waitTag : Place tag .waitTag 1 (some (true, 1))
  | waitCount : Place tag (.waitCount tag) 1 (some (false, 1))
  | waitSleep : Place tag (.waitSleep tag) 1 (some (false, 0))
  | waiting : Place tag (.waiting tag) 0 none
  | restoreTag : Place tag (.restoreTag tag) 0 (some (false, 0))
  | restoreCount : Place tag .restoreCount 0 (some (true, 0))

def Lock.Agrees (handles : Handles Thread) (lock : Lock Thread) (thread : Thread) :
    Option (Bool × Nat) → Prop
  | none => lock.inner ≠ some thread
  | some (mine, counter) =>
      lock.inner = some thread ∧ lock.threadTag = (if mine then handles.tag thread else 0) ∧
        lock.counter = counter

structure Invariant (handles : Handles Thread) (state : State Thread) : Prop where
  placed : ∀ thread, ∃ place,
    Place (handles.tag thread) (state.phase thread) (state.count thread) place ∧
      state.lock.Agrees handles thread place
  free : state.lock.inner = none → state.lock.threadTag = 0 ∧ state.lock.counter = 0
  returns : ∀ event ∈ state.returned, event.Ok handles

variable {handles : Handles Thread} {state after : State Thread} {thread : Thread}

theorem initial_invariant : Invariant handles ({} : State Thread) where
  placed := by
    intro thread
    exact ⟨none, .free, by simp [Lock.Agrees]⟩
  free := fun _ => ⟨rfl, rfl⟩
  returns := by simp

/-- The tag outside is 0 or the holder's, so the test of `thread_tag` is right. -/
theorem Invariant.tag_ne (invariant : Invariant handles state)
    (outside : state.lock.inner ≠ some thread) : state.lock.threadTag ≠ handles.tag thread := by
  cases held : state.lock.inner with
  | none =>
      rw [(invariant.free held).1]
      exact (handles.nonzero thread).symm
  | some holder =>
      obtain ⟨place, _, agrees⟩ := invariant.placed holder
      cases place with
      | none => exact absurd held agrees
      | some held' =>
          obtain ⟨_, tagged, _⟩ := agrees
          rw [tagged]
          split
          · intro same
            exact outside (by rw [held, handles.injective same])
          · exact (handles.nonzero thread).symm

theorem apart_of_inside {before now : Lock Thread} (inside : before.inner = some thread)
    (stays : now.inner = some thread ∨ now.inner = none) (other : Thread) (different : other ≠ thread) :
    before.inner ≠ some other ∧ now.inner ≠ some other := by
  rcases stays with stays | left
  · simp [inside, stays, different.symm]
  · simp [inside, left, different.symm]

theorem apart_of_entering {before : Lock Thread} (free : before.inner = none) (other : Thread)
    (different : other ≠ thread) :
    before.inner ≠ some other ∧ { before with inner := some thread }.inner ≠ some other := by
  simp [free, different.symm]

/-- An idle thread is outside, or the owner at its count. -/
theorem Invariant.idle (invariant : Invariant handles state) (idle : state.phase thread = .idle) :
    (state.count thread = 0 ∧ state.lock.inner ≠ some thread) ∨
      ∃ n, n + 1 < 2 ^ 32 ∧ state.count thread = n + 1 ∧
        state.lock.Agrees handles thread (some (true, n + 1)) := by
  obtain ⟨place, placed, agrees⟩ := invariant.placed thread
  rw [idle] at placed
  generalize counted : state.count thread = count at placed
  cases placed with
  | free => exact .inl ⟨rfl, agrees⟩
  | owner bound => exact .inr ⟨_, bound, rfl, agrees⟩

theorem Invariant.held (invariant : Invariant handles state) (owns : 0 < state.count thread) :
    state.lock.inner = some thread := by
  obtain ⟨place, placed, agrees⟩ := invariant.placed thread
  cases place with
  | some held => exact agrees.1
  | none =>
      generalize state.count thread = count at placed owns
      generalize state.phase thread = phase at placed
      cases placed <;> contradiction

theorem Invariant.lockOk (invariant : Invariant handles state) : LockOk handles state where
  exclusive := by
    intro first second firstOwns secondOwns
    exact Option.some.inj ((invariant.held firstOwns).symm.trans (invariant.held secondOwns))
  inside := fun _ owns => invariant.held owns
  left := by
    intro thread idle counted
    rcases invariant.idle idle with ⟨_, outside⟩ | ⟨n, _, positive, _⟩
    · exact outside
    · rw [counted] at positive
      contradiction
  counted := by
    intro thread idle owns
    rcases invariant.idle idle with ⟨counted, _⟩ | ⟨n, _, counted, held, tagged, counter⟩
    · exact absurd counted (Nat.ne_of_gt owns)
    · exact ⟨⟨held, tagged, by simp [counter]⟩, by rw [counter, counted]⟩
  returns := invariant.returns

variable [DecidableEq Thread]

/-- A step of one thread: it either leaves the lock alone or is, before and
after, the only one that can be inside. -/
theorem Invariant.put (invariant : Invariant handles state) {phase : Phase} {count : Nat}
    {lock : Lock Thread} {returned : List (Return Thread)} {place : Option (Bool × Nat)}
    (others : lock = state.lock ∨
      ∀ other, other ≠ thread → state.lock.inner ≠ some other ∧ lock.inner ≠ some other)
    (placed : Place (handles.tag thread) phase count place) (agrees : lock.Agrees handles thread place)
    (free : lock.inner = none → lock.threadTag = 0 ∧ lock.counter = 0)
    (returns : ∀ event ∈ returned, event.Ok handles) :
    Invariant handles (state.put thread phase count lock returned) where
  placed := by
    intro other
    by_cases same : other = thread
    · subst same
      refine ⟨place, ?_, agrees⟩
      simpa [State.put] using placed
    · obtain ⟨old, oldPlaced, oldAgrees⟩ := invariant.placed other
      refine ⟨old, by simpa [State.put, same] using oldPlaced, ?_⟩
      rcases others with rfl | apart
      · exact oldAgrees
      · obtain ⟨before, now⟩ := apart other same
        cases old with
        | none => exact now
        | some held => exact absurd oldAgrees.1 before
  free := free
  returns := by
    intro event member
    rcases List.mem_append.mp member with old | new
    · exact invariant.returns event old
    · exact returns event new

theorem increment_eq (bound : n + 1 < 2 ^ 32) : increment n = n + 1 := Nat.mod_eq_of_lt bound

theorem decrement_succ (bound : n + 1 < 2 ^ 32) : decrement (n + 1) = n := by
  unfold decrement
  omega

/-- A thread that is inside keeps the lock to itself. -/
theorem Invariant.inside (invariant : Invariant handles state) {phase : Phase} {count : Nat}
    {lock : Lock Thread} {returned : List (Return Thread)} {mine : Bool} {counter : Nat}
    (held : state.lock.inner = some thread)
    (placed : Place (handles.tag thread) phase count (some (mine, counter)))
    (agrees : lock.Agrees handles thread (some (mine, counter)))
    (returns : ∀ event ∈ returned, event.Ok handles) :
    Invariant handles (state.put thread phase count lock returned) := by
  apply invariant.put (.inr (apart_of_inside held (.inl agrees.1))) placed agrees _ returns
  intro free
  rw [agrees.1] at free
  contradiction

theorem Invariant.leaves (invariant : Invariant handles state) {phase : Phase}
    (held : state.lock.inner = some thread) (untagged : state.lock.threadTag = 0)
    (uncounted : state.lock.counter = 0) (placed : Place (handles.tag thread) phase 0 none) :
    Invariant handles (state.put thread phase 0 { state.lock with inner := none } []) := by
  apply invariant.put (.inr (apart_of_inside held (.inr rfl))) placed (by simp [Lock.Agrees])
  · exact fun _ => ⟨untagged, uncounted⟩
  · simp

theorem Invariant.enters (invariant : Invariant handles state) {phase : Phase}
    (free : state.lock.inner = none)
    (placed : Place (handles.tag thread) phase 0 (some (false, 0))) :
    Invariant handles (state.put thread phase 0 { state.lock with inner := some thread } []) := by
  obtain ⟨untagged, uncounted⟩ := invariant.free free
  apply invariant.put (.inr (apart_of_entering free)) placed ⟨rfl, untagged, uncounted⟩
  · intro none
    contradiction
  · simp

theorem Invariant.waits (invariant : Invariant handles state) {phase : Phase} {count : Nat}
    {place : Option (Bool × Nat)} (placed : Place (handles.tag thread) phase count place)
    (agrees : state.lock.Agrees handles thread place) :
    Invariant handles (state.put thread phase count state.lock []) :=
  invariant.put (.inl rfl) placed agrees invariant.free (by simp)

theorem advance_invariant (invariant : Invariant handles state)
    (stepped : state.advance handles thread = some after) : Invariant handles after := by
  obtain ⟨place, placed, agrees⟩ := invariant.placed thread
  generalize phased : state.phase thread = phase at placed
  generalize counted : state.count thread = count at placed
  cases placed with
  | free => simp [State.advance, phased] at stepped
  | owner => simp [State.advance, phased] at stepped
  | acquireEnter =>
      simp only [State.advance, phased, State.goto, counted] at stepped
      split at stepped
      · cases stepped
        exact invariant.enters ‹_› .acquireTag
      · contradiction
  | acquireTag =>
      simp only [State.advance, phased, State.goto, counted] at stepped
      cases stepped
      exact invariant.inside agrees.1 (.acquireCount (by decide)) ⟨agrees.1, rfl, agrees.2.2⟩ (by simp)
  | acquireCount bound =>
      simp only [State.advance, phased, counted] at stepped
      cases stepped
      refine invariant.inside agrees.1 (.owner bound) ⟨agrees.1, agrees.2.1, ?_⟩ (by simp)
      simp only [agrees.2.2, increment_eq bound]
  | tryCount bound =>
      simp only [State.advance, phased, counted] at stepped
      cases stepped
      have now := increment_eq bound
      refine invariant.inside agrees.1 (.owner bound) ⟨agrees.1, agrees.2.1, ?_⟩ ?_
      · simp only [agrees.2.2, now]
      · intro event member
        obtain rfl := List.mem_singleton.mp member
        refine ⟨⟨fun _ => ⟨agrees.1, agrees.2.1, ?_⟩, fun _ => rfl⟩, fun failed => absurd rfl failed⟩
        simp only [agrees.2.2, now]
        exact Nat.succ_ne_zero _
  | releaseTag =>
      simp only [State.advance, phased, State.goto, counted] at stepped
      cases stepped
      exact invariant.inside agrees.1 .releaseLeave ⟨agrees.1, rfl, agrees.2.2⟩ (by simp)
  | releaseLeave =>
      simp only [State.advance, phased, State.goto, counted] at stepped
      cases stepped
      exact invariant.leaves agrees.1 agrees.2.1 agrees.2.2 .free
  | waitTag =>
      simp only [State.advance, phased, State.goto, counted] at stepped
      cases stepped
      have tagged : state.lock.threadTag = handles.tag thread := agrees.2.1
      rw [tagged]
      exact invariant.inside agrees.1 .waitCount ⟨agrees.1, rfl, agrees.2.2⟩ (by simp)
  | waitCount =>
      simp only [State.advance, phased, State.goto, counted] at stepped
      cases stepped
      exact invariant.inside agrees.1 .waitSleep ⟨agrees.1, agrees.2.1, rfl⟩ (by simp)
  | waitSleep =>
      simp only [State.advance, phased] at stepped
      cases stepped
      exact invariant.leaves agrees.1 agrees.2.1 agrees.2.2 .waiting
  | waiting =>
      simp only [State.advance, phased, State.goto, counted] at stepped
      split at stepped
      · cases stepped
        exact invariant.enters ‹_› .restoreTag
      · contradiction
  | restoreTag =>
      simp only [State.advance, phased, State.goto, counted] at stepped
      cases stepped
      exact invariant.inside agrees.1 .restoreCount ⟨agrees.1, rfl, agrees.2.2⟩ (by simp)
  | restoreCount =>
      simp only [State.advance, phased] at stepped
      cases stepped
      have owner : Place (handles.tag thread) .idle (0 + 1) (some (true, 0 + 1)) := .owner (by decide)
      refine invariant.inside agrees.1 owner ⟨agrees.1, agrees.2.1, rfl⟩ ?_
      intro event member
      obtain rfl := List.mem_singleton.mp member
      exact ⟨⟨agrees.1, agrees.2.1, by simp⟩, rfl⟩

theorem step_invariant {label : Label Thread} (invariant : Invariant handles state)
    (allowed : Allowed state label) (stepped : state.step handles label = some after) :
    Invariant handles after := by
  cases label with
  | acquire thread =>
      simp only [State.step, Option.ite_none_right_eq_some, Option.some.injEq] at stepped
      obtain ⟨idle, rfl⟩ := stepped
      rcases invariant.idle idle with ⟨counted, outside⟩ | ⟨n, bound, counted, agrees⟩
      · rw [if_neg (invariant.tag_ne outside), State.goto, counted]
        exact invariant.waits .acquireEnter outside
      · have room : n + 1 + 1 < 2 ^ 32 := by rw [← counted]; exact allowed
        have tagged : state.lock.threadTag = handles.tag thread := agrees.2.1
        rw [if_pos tagged, State.goto, counted]
        exact invariant.waits (.acquireCount room) agrees
  | tryAcquire thread =>
      simp only [State.step, Option.ite_none_right_eq_some, Option.some.injEq] at stepped
      obtain ⟨idle, rfl⟩ := stepped
      rcases invariant.idle idle with ⟨counted, _⟩ | ⟨n, bound, counted, agrees⟩
      · exact absurd counted (Nat.ne_of_gt allowed.1)
      · have room : n + 1 + 1 < 2 ^ 32 := by rw [← counted]; exact allowed.2
        have tagged : state.lock.threadTag = handles.tag thread := agrees.2.1
        rw [if_pos tagged, State.goto, counted]
        exact invariant.waits (.tryCount room) agrees
  | release thread =>
      simp only [State.step, Option.ite_none_right_eq_some, Option.some.injEq] at stepped
      obtain ⟨idle, rfl⟩ := stepped
      rcases invariant.idle idle with ⟨counted, _⟩ | ⟨n, bound, counted, held, tagged, counter⟩
      · exact absurd counted (Nat.ne_of_gt allowed)
      · rw [counter, decrement_succ bound, counted, Nat.add_sub_cancel]
        cases n with
        | zero =>
            rw [if_pos rfl]
            exact invariant.inside held .releaseTag ⟨held, tagged, rfl⟩ (by simp)
        | succ n =>
            rw [if_neg (Nat.succ_ne_zero n)]
            exact invariant.inside held (.owner (by omega)) ⟨held, tagged, rfl⟩ (by simp)
  | condWait thread =>
      simp only [State.step, Option.ite_none_right_eq_some] at stepped
      obtain ⟨idle, stepped⟩ := stepped
      rcases invariant.idle idle with ⟨counted, _⟩ | ⟨n, bound, counted, agrees⟩
      · exact absurd (counted.symm.trans allowed) (by decide)
      · obtain rfl : n = 0 := Nat.succ.inj (counted.symm.trans allowed)
        have counter : state.lock.counter = 1 := agrees.2.2
        rw [if_neg (by simp [counter]), State.goto, counted] at stepped
        cases stepped
        exact invariant.waits .waitTag agrees
  | advance thread => exact advance_invariant invariant stepped

/-- The lock in every run whose calls are allowed. -/
theorem recursiveLock_ok {labels : List (Label Thread)}
    (guarded : Machine.Along (State.step handles) Allowed {} labels)
    (ran : Machine.run (State.step handles) {} labels = some state) : LockOk handles state :=
  (Machine.run_preserves_along step_invariant initial_invariant guarded ran).lockOk

/-! Two threads, with the handles 1 and 2. -/

def pair : Handles Bool where
  tag thread := if thread then 2 else 1
  nonzero := by
    intro thread
    cases thread <;> decide
  injective := by
    intro first second same
    cases first <;> cases second <;> first | rfl | contradiction

/-- The first acquires twice and releases once, the second blocks until the
first waits, and then signals it. -/
def nested : List (Label Bool) :=
  [.acquire false, .advance false, .advance false, .advance false,
    .tryAcquire false, .advance false, .release false,
    .acquire true, .condWait false, .advance false, .advance false, .advance false,
    .advance true, .advance true, .advance true, .release true, .advance true, .advance true,
    .advance false, .advance false, .advance false]

theorem recursiveLock_ok_nested : ∃ state : State Bool,
    Machine.run (State.step pair) {} nested = some state ∧ LockOk pair state := by
  have guarded : Machine.Along (State.step pair) Allowed {} nested := by decide +kernel
  have returns : (Machine.run (State.step pair) {} nested).isSome = true := by decide +kernel
  obtain ⟨state, ran⟩ := Option.isSome_iff_exists.mp returns
  exact ⟨state, ran, recursiveLock_ok guarded ran⟩

/-- The second thread takes the failed `TryEnter` for an acquisition. -/
def stolen : List (Label Bool) :=
  [.acquire false, .advance false, .advance false, .advance false,
    .tryAcquire true, .advance true, .advance true, .advance true]

theorem stolen_not_ok : ∃ state : State Bool,
    Machine.run (State.step pair) {} stolen = some state ∧ ¬LockOk pair state := by
  have counts : (Machine.run (State.step pair) {} stolen).map
      (fun state => (state.count false, state.count true)) = some (1, 1) := by decide +kernel
  obtain ⟨state, ran, both⟩ := Option.map_eq_some_iff.mp counts
  obtain ⟨first, second⟩ := Prod.mk.inj both
  refine ⟨state, ran, ?_⟩
  intro ok
  exact absurd (ok.exclusive false true (by simp [first]) (by simp [second])) (by decide)

end Smmboss.Locks
