import Mathlib.Data.List.Flatten
import Mathlib.Data.Nat.Bitwise
import Smmboss.Foundation.AtomicUpdate
import Smmboss.Foundation.Machine

namespace Smmboss.Rpc.Flags

open AtomicUpdate (Outcome attempt attempt_stored)

/-! # The flag word

SET_FLAGS on the mongoose thread and the frame function on the game thread.  Each
access to the word, to the mutex and to the condition variable is a step.  A
load outside of the mutex may see any old value, and so may a failed exchange.
-/

def rpcFlagSendAllColls : UInt64 := 2
def rpcFlagPause : UInt64 := 8
def rpcFlagSendCollStuff : UInt64 := 0x10

/-- `(flags & flag) == flag`. -/
def test (flags flag : UInt64) : Bool := flags &&& flag == flag

inductive Side where
  | mongoose
  | game
deriving DecidableEq

/-- Where the mongoose thread is in SET_FLAGS: the access it makes next. -/
inductive Mongoose where
  | idle
  | locking (clear set : UInt64)
  | loading (clear set : UInt64)
  | exchanging (clear set expected : UInt64)
  | notifying (newFlags : UInt64)
  | unlocking (newFlags : UInt64)
  | responding (newFlags : UInt64)
deriving DecidableEq

/-- Where the game thread is in its frame function: the access it makes next. -/
inductive Game where
  | outside
  | testingPause
  | locking
  | checking
  | sleeping
  | waiting (notified : Bool)
  | relocking
  | unlocking
  | testingCollStuff
  | loadingAllColls
  | clearingAllColls
deriving DecidableEq

/-- A change of the word.  `returned` is what `test_and_clear_rpc_flag` makes of
the value that its `fetch_and` returned. -/
inductive Update where
  | setFlags (clear set : UInt64)
  | fetchAnd (returned : Bool)
deriving DecidableEq

def Update.apply (word : UInt64) : Update → UInt64
  | .setFlags clear set => (word &&& ~~~clear) ||| set
  | .fetchAnd _ => word &&& ~~~rpcFlagSendAllColls

/-- `log`, `requests`, `responses` and `results` (of `test_and_clear_rpc_flag`)
are history. -/
structure State where
  word : UInt64 := 0
  owner : Option Side := none
  mongoose : Mongoose := .idle
  game : Game := .outside
  log : List Update := []
  requests : List (UInt64 × UInt64) := []
  responses : List UInt64 := []
  results : List Bool := []

inductive Label where
  | request (clear set : UInt64)
  | lock
  | load (seen : UInt64)
  | exchange (spurious : Bool) (seen : UInt64)
  | notifyAll
  | unlock
  | respond
  | frame
  | testPause (seen : UInt64)
  | gameLock
  | check
  | sleep
  | wake (spurious : Bool)
  | relock
  | gameUnlock
  | testCollStuff (seen : UInt64)
  | loadAllColls (seen : UInt64)
  | fetchAnd
deriving DecidableEq

namespace State

/-- The accesses of SET_FLAGS. -/
def mongooseStep (state : State) : Label → Mongoose → Option State
  | .request clear set, .idle =>
      some { state with
        mongoose := .locking clear set, requests := state.requests ++ [(clear, set)] }
  | .lock, .locking clear set =>
      if state.owner = none then
        some { state with owner := some .mongoose, mongoose := .loading clear set }
      else none
  | .load seen, .loading clear set => some { state with mongoose := .exchanging clear set seen }
  | .exchange spurious seen, .exchanging clear set expected =>
      match attempt (fun flags => some ((flags &&& ~~~clear) ||| set)) state.word expected spurious with
      | .stored desired =>
          some { state with
            word := desired
            mongoose := .notifying desired
            log := state.log ++ [.setFlags clear set] }
      | .retry _ => some { state with mongoose := .exchanging clear set seen }
      | .failed => none
  | .notifyAll, .notifying newFlags =>
      some { state with
        mongoose := .unlocking newFlags
        game := match state.game with
          | .waiting _ => .waiting true
          | game => game }
  | .unlock, .unlocking newFlags =>
      some { state with owner := none, mongoose := .responding newFlags }
  | .respond, .responding newFlags =>
      some { state with mongoose := .idle, responses := state.responses ++ [newFlags] }
  | _, _ => none

/-- The accesses of the frame function.  Under the mutex the load sees the word
as it is, since SET_FLAGS changes it under the mutex only. -/
def gameStep (state : State) : Label → Game → Option State
  | .frame, .outside => some { state with game := .testingPause }
  | .testPause seen, .testingPause =>
      some { state with
        game := if test seen rpcFlagPause then .locking else .testingCollStuff }
  | .gameLock, .locking | .relock, .relocking =>
      if state.owner = none then some { state with owner := some .game, game := .checking }
      else none
  | .check, .checking =>
      some { state with
        game := if test state.word rpcFlagPause then .sleeping else .unlocking }
  | .sleep, .sleeping => some { state with owner := none, game := .waiting false }
  | .wake spurious, .waiting notified =>
      if notified || spurious then some { state with game := .relocking } else none
  | .gameUnlock, .unlocking => some { state with owner := none, game := .testingPause }
  | .testCollStuff seen, .testingCollStuff =>
      some { state with
        game := if test seen rpcFlagSendCollStuff then .loadingAllColls else .outside }
  | .loadAllColls seen, .loadingAllColls =>
      if test seen rpcFlagSendAllColls then some { state with game := .clearingAllColls }
      else some { state with game := .outside, results := state.results ++ [false] }
  | .fetchAnd, .clearingAllColls =>
      some { state with
        word := state.word &&& ~~~rpcFlagSendAllColls
        game := .outside
        log := state.log ++ [.fetchAnd (test state.word rpcFlagSendAllColls)]
        results := state.results ++ [test state.word rpcFlagSendAllColls] }
  | _, _ => none

end State

/-- A label belongs to one of the threads, and the other has no step for it. -/
def step (state : State) (label : Label) : Option State :=
  (state.mongooseStep label state.mongoose).or (state.gameStep label state.game)

/-! ## Single-bit flags -/

section Bits

variable {flag : UInt64} {index : Nat} (single : flag.toNat = 2 ^ index)

include single

theorem test_eq (flags : UInt64) : test flags flag = flags.toBitVec.getLsbD index := by
  have same : flags &&& flag = flag ↔ flags.toBitVec.getLsbD index = true := by
    rw [← UInt64.toNat_inj, UInt64.toNat_and, single, Nat.and_two_pow, ← BitVec.testBit_toNat]
    change _ ↔ flags.toNat.testBit index = true
    cases flags.toNat.testBit index with
    | false => simp [(Nat.two_pow_pos index).ne]
    | true => simp
  rw [test, Bool.eq_iff_iff, beq_iff_eq, same]

theorem test_setFlags (inside : index < 64) (flags clear set : UInt64) :
    test ((flags &&& ~~~clear) ||| set) flag =
      (test flags flag && !test clear flag || test set flag) := by
  simp only [test_eq single, UInt64.toBitVec_or, UInt64.toBitVec_and, UInt64.toBitVec_not,
    BitVec.getLsbD_or, BitVec.getLsbD_and, BitVec.getLsbD_not, inside, decide_true, Bool.true_and]

end Bits

theorem test_fetchAnd (flags : UInt64) :
    test (flags &&& ~~~rpcFlagSendAllColls) rpcFlagSendAllColls = false := by
  have cleared : ~~~rpcFlagSendAllColls &&& rpcFlagSendAllColls = 0 := by decide
  rw [test, UInt64.and_assoc, cleared, UInt64.and_zero]
  decide

/-! ## A sequence of updates -/

/-- Something about every update and the word it is applied to. -/
def Throughout (holds : UInt64 → Update → Prop) : UInt64 → List Update → Prop
  | _, [] => True
  | word, update :: rest => holds word update ∧ Throughout holds (update.apply word) rest

theorem throughout_append {holds : UInt64 → Update → Prop} {word : UInt64}
    {first second : List Update} :
    Throughout holds word (first ++ second) ↔
      Throughout holds word first ∧ Throughout holds (first.foldl Update.apply word) second := by
  induction first generalizing word with
  | nil => simp [Throughout]
  | cons update first ih =>
      rw [List.cons_append, Throughout, ih, Throughout, List.foldl_cons, and_assoc]

theorem Throughout.imp {first second : UInt64 → Update → Prop} {word : UInt64} {log : List Update}
    (implies : ∀ word update, first word update → second word update)
    (holds : Throughout first word log) : Throughout second word log := by
  induction log generalizing word with
  | nil => trivial
  | cons update log ih => exact ⟨implies word update holds.1, ih holds.2⟩

/-- SEND_ALL_COLLS goes from clear to set. -/
def Rises (word : UInt64) (update : Update) : Prop :=
  test word rpcFlagSendAllColls = false ∧ test (update.apply word) rpcFlagSendAllColls = true

/-- SEND_ALL_COLLS goes from set to clear. -/
def Falls (word : UInt64) (update : Update) : Prop :=
  test word rpcFlagSendAllColls = true ∧ test (update.apply word) rpcFlagSendAllColls = false

/-- `fetch_and` returned the word before it. -/
def Returned (word : UInt64) (update : Update) : Prop :=
  ∀ returned, update = .fetchAnd returned → returned = test word rpcFlagSendAllColls

/-- Only a true result, or a request to clear the bit, clears it. -/
def ClearedOnPurpose (word : UInt64) (update : Update) : Prop :=
  Falls word update → update = .fetchAnd true ∨
    ∃ clear set, update = .setFlags clear set ∧ test clear rpcFlagSendAllColls = true

theorem Returned.clearedOnPurpose {word : UInt64} {update : Update}
    (known : Returned word update) : ClearedOnPurpose word update := by
  intro ⟨before, after⟩
  cases update with
  | fetchAnd returned =>
      have result := known returned rfl
      rw [before] at result
      exact .inl (by rw [result])
  | setFlags clear set =>
      refine .inr ⟨clear, set, rfl, ?_⟩
      have single : rpcFlagSendAllColls.toNat = 2 ^ 1 := by decide
      rw [Update.apply, test_setFlags single (by decide), before] at after
      simp only [Bool.true_and, Bool.or_eq_false_iff, Bool.not_eq_eq_eq_not, Bool.not_false] at after
      exact after.1

/-- Without a rise there is one true result if the bit is set, and none if not. -/
theorem true_results_le {word : UInt64} {log : List Update} (known : Throughout Returned word log)
    (steady : Throughout (fun word update => ¬ Rises word update) word log) :
    log.count (.fetchAnd true) ≤ if test word rpcFlagSendAllColls then 1 else 0 := by
  induction log generalizing word with
  | nil => exact Nat.zero_le _
  | cons update log ih =>
      have rest := ih known.2 steady.2
      cases update with
      | fetchAnd returned =>
          have result := known.1 returned rfl
          rw [Update.apply, test_fetchAnd] at rest
          simp only [Bool.false_eq_true, if_false, Nat.le_zero] at rest
          rw [List.count_cons, rest, ← result]
          cases returned <;> simp
      | setFlags clear set =>
          rw [List.count_cons_of_ne (by simp)]
          refine Nat.le_trans rest ?_
          by_cases before : test word rpcFlagSendAllColls = true
          · rw [if_pos before]
            split <;> omega
          · have after : ¬ test ((Update.setFlags clear set).apply word) rpcFlagSendAllColls = true :=
              fun after => steady.1 ⟨by simpa using before, after⟩
            rw [if_neg before, if_neg after]

/-- The SET_FLAGS requests whose update has been made. -/
def performed (log : List Update) : List (UInt64 × UInt64) :=
  log.flatMap fun
    | .setFlags clear set => [(clear, set)]
    | .fetchAnd _ => []

/-- The word right after each SET_FLAGS update. -/
def wordsAfter : UInt64 → List Update → List UInt64
  | _, [] => []
  | word, .setFlags clear set :: rest =>
      (Update.setFlags clear set).apply word :: wordsAfter ((Update.setFlags clear set).apply word) rest
  | word, .fetchAnd returned :: rest => wordsAfter ((Update.fetchAnd returned).apply word) rest

theorem wordsAfter_append (word : UInt64) (first second : List Update) :
    wordsAfter word (first ++ second) =
      wordsAfter word first ++ wordsAfter (first.foldl Update.apply word) second := by
  induction first generalizing word with
  | nil => rfl
  | cons update first ih =>
      cases update with
      | setFlags clear set =>
          rw [List.cons_append, wordsAfter, ih, wordsAfter, List.foldl_cons, List.cons_append]
      | fetchAnd returned => rw [List.cons_append, wordsAfter, ih, wordsAfter, List.foldl_cons]

/-! ## The invariant -/

/-- Inside the section that the mutex protects. -/
def Mongoose.holds : Mongoose → Bool
  | .loading _ _ | .exchanging _ _ _ | .notifying _ | .unlocking _ => true
  | .idle | .locking _ _ | .responding _ => false

def Game.holds : Game → Bool
  | .checking | .sleeping | .unlocking => true
  | .outside | .testingPause | .locking | .waiting _ | .relocking | .testingCollStuff
  | .loadingAllColls | .clearingAllColls => false

/-- The request whose update is still to be made. -/
def Mongoose.pending : Mongoose → List (UInt64 × UInt64)
  | .locking clear set | .loading clear set | .exchanging clear set _ => [(clear, set)]
  | .idle | .notifying _ | .unlocking _ | .responding _ => []

/-- The response that is still to be sent. -/
def Mongoose.owed : Mongoose → List UInt64
  | .notifying newFlags | .unlocking newFlags | .responding newFlags => [newFlags]
  | .idle | .locking _ _ | .loading _ _ | .exchanging _ _ _ => []

structure Invariant (state : State) : Prop where
  word : state.word = state.log.foldl Update.apply 0
  returned : Throughout Returned 0 state.log
  requests : state.requests = performed state.log ++ state.mongoose.pending
  responses : state.responses ++ state.mongoose.owed = wordsAfter 0 state.log
  results : state.results.count true = state.log.count (.fetchAnd true)
  mongooseOwns : state.owner = some .mongoose ↔ state.mongoose.holds = true
  gameOwns : state.owner = some .game ↔ state.game.holds = true
  sleeping : state.game = .sleeping → test state.word rpcFlagPause = true
  waiting : state.game = .waiting false →
    test state.word rpcFlagPause = true ∨ ∃ newFlags, state.mongoose = .notifying newFlags

theorem initial_invariant : Invariant {} where
  word := rfl
  returned := trivial
  requests := rfl
  responses := rfl
  results := rfl
  mongooseOwns := by decide
  gameOwns := by decide
  sleeping := by simp
  waiting := by simp

section Steps

variable {before : State}

/-- The game thread goes on without touching the word or the mutex. -/
theorem Invariant.moveGame (invariant : Invariant before) {game : Game} {results : List Bool}
    (holds : game.holds = before.game.holds) (awake : game ≠ .waiting false)
    (sleeping : game = .sleeping → test before.word rpcFlagPause = true)
    (none : results.count true = 0) :
    Invariant { before with game, results := before.results ++ results } :=
  { invariant with
    results := by rw [List.count_append, none, Nat.add_zero]; exact invariant.results
    gameOwns := by rw [holds]; exact invariant.gameOwns
    sleeping
    waiting := fun asleep => absurd asleep awake }

theorem Invariant.stayGame (invariant : Invariant before) {game : Game}
    (holds : game.holds = before.game.holds) (awake : game ≠ .waiting false)
    (sleeping : game = .sleeping → test before.word rpcFlagPause = true) :
    Invariant { before with game } := by
  have moved := @Invariant.moveGame before invariant game [] holds awake sleeping rfl
  rwa [List.append_nil] at moved

theorem Invariant.lockGame (invariant : Invariant before) (free : before.owner = none) :
    Invariant { before with owner := some .game, game := .checking } :=
  { invariant with
    mongooseOwns := by
      have owns := invariant.mongooseOwns
      rw [free] at owns
      simpa using owns
    gameOwns := by simp [Game.holds]
    sleeping := by simp
    waiting := by simp }

/-- The mutex is given up with the step that goes on to `game`. -/
theorem Invariant.unlockGame (invariant : Invariant before) {game : Game}
    (held : before.game.holds = true) (left : game.holds = false)
    (waiting : game = .waiting false → test before.word rpcFlagPause = true) :
    Invariant { before with owner := none, game } :=
  { invariant with
    mongooseOwns := by
      have owns := invariant.mongooseOwns
      rw [invariant.gameOwns.mpr held] at owns
      simpa using owns
    gameOwns := by simp [left]
    sleeping := by
      intro asleep
      simp only at asleep
      rw [asleep] at left
      cases left
    waiting := fun asleep => .inl (waiting asleep) }

theorem Invariant.fetchAnd (invariant : Invariant before)
    (clearing : before.game = .clearingAllColls) :
    Invariant { before with
      word := before.word &&& ~~~rpcFlagSendAllColls
      game := .outside
      log := before.log ++ [.fetchAnd (test before.word rpcFlagSendAllColls)]
      results := before.results ++ [test before.word rpcFlagSendAllColls] } where
  word := by
    rw [List.foldl_append, ← invariant.word]
    rfl
  returned := by
    rw [throughout_append, ← invariant.word]
    refine ⟨invariant.returned, ?_, trivial⟩
    intro returned same
    cases same
    rfl
  requests := by
    have requests := invariant.requests
    simpa [performed] using requests
  responses := by
    rw [wordsAfter_append, wordsAfter, wordsAfter, List.append_nil]
    exact invariant.responses
  results := by
    rw [List.count_append, List.count_append, invariant.results]
    cases test before.word rpcFlagSendAllColls <;> rfl
  mongooseOwns := invariant.mongooseOwns
  gameOwns := by
    have owns := invariant.gameOwns
    rw [clearing] at owns
    exact owns
  sleeping := by simp
  waiting := by simp

/-- The mongoose thread goes on without touching the word, with an account of the
requests and the responses, and was not about to notify. -/
theorem Invariant.moveMongoose (invariant : Invariant before) {mongoose : Mongoose}
    {owner : Option Side} {requests : List (UInt64 × UInt64)} {responses : List UInt64}
    (asked : requests = performed before.log ++ mongoose.pending)
    (answered : responses ++ mongoose.owed = wordsAfter 0 before.log)
    (mongooseOwns : owner = some .mongoose ↔ mongoose.holds = true)
    (gameOwns : owner = some .game ↔ before.game.holds = true)
    (quiet : ∀ newFlags, before.mongoose ≠ .notifying newFlags) :
    Invariant { before with mongoose, owner, requests, responses } :=
  { invariant with
    requests := asked
    responses := answered
    mongooseOwns
    gameOwns
    waiting := by
      intro asleep
      refine .inl ((invariant.waiting asleep).resolve_right ?_)
      intro ⟨newFlags, notifying⟩
      exact quiet newFlags notifying }

theorem Invariant.request (invariant : Invariant before) (idle : before.mongoose = .idle)
    (clear set : UInt64) :
    Invariant { before with
      mongoose := .locking clear set
      requests := before.requests ++ [(clear, set)] } := by
  have requests := invariant.requests
  have responses := invariant.responses
  have owns := invariant.mongooseOwns
  rw [idle] at requests responses owns
  have asked : before.requests ++ [(clear, set)] =
      performed before.log ++ (Mongoose.locking clear set).pending := by
    rw [requests]
    simp [Mongoose.pending]
  exact invariant.moveMongoose asked responses owns invariant.gameOwns (by simp [idle])

theorem Invariant.lock (invariant : Invariant before) {clear set : UInt64}
    (locking : before.mongoose = .locking clear set) (free : before.owner = none) :
    Invariant { before with owner := some .mongoose, mongoose := .loading clear set } := by
  have requests := invariant.requests
  have responses := invariant.responses
  have gameOwns := invariant.gameOwns
  rw [locking] at requests responses
  rw [free] at gameOwns
  exact invariant.moveMongoose requests responses (by simp [Mongoose.holds]) (by simpa using gameOwns)
    (by simp [locking])

/-- The next access is an exchange: after the load, and after an exchange that
failed. -/
theorem Invariant.attempt (invariant : Invariant before) {clear set seen : UInt64}
    (pending : before.mongoose.pending = [(clear, set)])
    (holds : before.mongoose.holds = true) :
    Invariant { before with mongoose := .exchanging clear set seen } := by
  have requests := invariant.requests
  have owns := invariant.mongooseOwns
  rw [pending] at requests
  rw [holds] at owns
  have owed : before.mongoose.owed = [] := by
    cases phase : before.mongoose <;> simp_all [Mongoose.pending, Mongoose.owed]
  have responses := invariant.responses
  rw [owed] at responses
  apply invariant.moveMongoose requests responses owns invariant.gameOwns
  intro newFlags notifying
  rw [notifying] at pending
  cases pending

/-- The update of SET_FLAGS is made under the mutex, so the game thread is not
between its test of PAUSE and its wait. -/
theorem Invariant.exchange (invariant : Invariant before) {clear set expected desired : UInt64}
    (exchanging : before.mongoose = .exchanging clear set expected)
    (made : desired = (before.word &&& ~~~clear) ||| set) :
    Invariant { before with
      word := desired
      mongoose := .notifying desired
      log := before.log ++ [.setFlags clear set] } where
  word := by
    rw [List.foldl_append, ← invariant.word, made]
    rfl
  returned := by
    rw [throughout_append]
    refine ⟨invariant.returned, ?_, trivial⟩
    intro returned same
    cases same
  requests := by
    have requests := invariant.requests
    rw [exchanging] at requests
    simpa [performed, Mongoose.pending] using requests
  responses := by
    have responses := invariant.responses
    rw [exchanging, Mongoose.owed, List.append_nil] at responses
    rw [wordsAfter_append, ← responses, ← invariant.word, made]
    rfl
  results := by
    rw [List.count_append, invariant.results]
    rfl
  mongooseOwns := by
    have owns := invariant.mongooseOwns
    rwa [exchanging] at owns
  gameOwns := invariant.gameOwns
  sleeping := by
    intro asleep
    have gameOwns := invariant.gameOwns.mpr (by rw [asleep]; rfl)
    have mongooseOwns := invariant.mongooseOwns.mpr (by rw [exchanging]; rfl)
    rw [gameOwns] at mongooseOwns
    cases mongooseOwns
  waiting _ := .inr ⟨desired, rfl⟩

theorem Invariant.notifyAll (invariant : Invariant before) {newFlags : UInt64} {game : Game}
    (notifying : before.mongoose = .notifying newFlags)
    (holds : game.holds = before.game.holds) (awake : game ≠ .waiting false)
    (sleeping : game = .sleeping → test before.word rpcFlagPause = true) :
    Invariant { before with mongoose := .unlocking newFlags, game } :=
  { invariant with
    requests := by
      have requests := invariant.requests
      rwa [notifying] at requests
    responses := by
      have responses := invariant.responses
      rwa [notifying] at responses
    mongooseOwns := by
      have owns := invariant.mongooseOwns
      rwa [notifying] at owns
    gameOwns := by
      rw [holds]
      exact invariant.gameOwns
    sleeping
    waiting := fun asleep => absurd asleep awake }

theorem Invariant.unlock (invariant : Invariant before) {newFlags : UInt64}
    (unlocking : before.mongoose = .unlocking newFlags) :
    Invariant { before with owner := none, mongoose := .responding newFlags } := by
  have requests := invariant.requests
  have responses := invariant.responses
  have held := invariant.mongooseOwns.mpr (by rw [unlocking]; rfl)
  have gameOwns := invariant.gameOwns
  rw [unlocking] at requests responses
  rw [held] at gameOwns
  exact invariant.moveMongoose requests responses (by simp [Mongoose.holds]) (by simpa using gameOwns)
    (by simp [unlocking])

theorem Invariant.respond (invariant : Invariant before) {newFlags : UInt64}
    (responding : before.mongoose = .responding newFlags) :
    Invariant { before with
      mongoose := .idle
      responses := before.responses ++ [newFlags] } := by
  have requests := invariant.requests
  have responses := invariant.responses
  have owns := invariant.mongooseOwns
  rw [responding] at requests responses owns
  have answered : before.responses ++ [newFlags] ++ Mongoose.idle.owed = wordsAfter 0 before.log := by
    rw [Mongoose.owed, List.append_nil]
    exact responses
  exact invariant.moveMongoose requests answered owns invariant.gameOwns (by simp [responding])

end Steps

/-- `notify_all` wakes the game thread if it waits, and leaves it alone if not. -/
theorem notified_game (game : Game) :
    let notified : Game := match game with
      | .waiting _ => .waiting true
      | game => game
    notified.holds = game.holds ∧ notified ≠ .waiting false ∧
      (notified = .sleeping → game = .sleeping) := by
  cases game <;> simp [Game.holds]

theorem mongooseStep_invariant {before after : State} {label : Label}
    (invariant : Invariant before)
    (stepped : before.mongooseStep label before.mongoose = some after) : Invariant after := by
  cases phase : before.mongoose with
  | idle =>
      rw [phase] at stepped
      cases label with
      | request clear set =>
          cases stepped
          exact invariant.request phase clear set
      | _ => cases stepped
  | locking clear set =>
      rw [phase] at stepped
      cases label with
      | lock =>
          rw [State.mongooseStep] at stepped
          split at stepped
          next free =>
            cases stepped
            exact invariant.lock phase free
          next => cases stepped
      | _ => cases stepped
  | loading clear set =>
      rw [phase] at stepped
      cases label with
      | load seen =>
          cases stepped
          exact invariant.attempt (by rw [phase]; rfl) (by rw [phase]; rfl)
      | _ => cases stepped
  | exchanging clear set expected =>
      rw [phase] at stepped
      cases label with
      | exchange spurious seen =>
          rw [State.mongooseStep] at stepped
          split at stepped
          next desired stored =>
            obtain ⟨made, -⟩ := attempt_stored stored
            cases stepped
            exact invariant.exchange phase (Option.some.inj made).symm
          next =>
            cases stepped
            exact invariant.attempt (by rw [phase]; rfl) (by rw [phase]; rfl)
          next => cases stepped
      | _ => cases stepped
  | notifying newFlags =>
      rw [phase] at stepped
      cases label with
      | notifyAll =>
          obtain ⟨holds, awake, asleep⟩ := notified_game before.game
          cases stepped
          exact invariant.notifyAll phase holds awake fun sleeping => invariant.sleeping (asleep sleeping)
      | _ => cases stepped
  | unlocking newFlags =>
      rw [phase] at stepped
      cases label with
      | unlock =>
          cases stepped
          exact invariant.unlock phase
      | _ => cases stepped
  | responding newFlags =>
      rw [phase] at stepped
      cases label with
      | respond =>
          cases stepped
          exact invariant.respond phase
      | _ => cases stepped

theorem gameStep_invariant {before after : State} {label : Label}
    (invariant : Invariant before)
    (stepped : before.gameStep label before.game = some after) : Invariant after := by
  cases phase : before.game with
  | outside =>
      rw [phase] at stepped
      cases label with
      | frame =>
          cases stepped
          apply invariant.stayGame <;> simp [phase, Game.holds]
      | _ => cases stepped
  | testingPause =>
      rw [phase] at stepped
      cases label with
      | testPause seen =>
          cases stepped
          apply invariant.stayGame <;> split <;> simp [phase, Game.holds]
      | _ => cases stepped
  | locking =>
      rw [phase] at stepped
      cases label with
      | gameLock =>
          change (if before.owner = none then some _ else none) = some after at stepped
          split at stepped
          next free =>
            cases stepped
            exact invariant.lockGame free
          next => cases stepped
      | _ => cases stepped
  | checking =>
      rw [phase] at stepped
      cases label with
      | check =>
          cases stepped
          apply invariant.stayGame <;> split <;> simp_all [Game.holds]
      | _ => cases stepped
  | sleeping =>
      rw [phase] at stepped
      cases label with
      | sleep =>
          cases stepped
          exact invariant.unlockGame (by rw [phase]; rfl) rfl fun _ => invariant.sleeping phase
      | _ => cases stepped
  | waiting notified =>
      rw [phase] at stepped
      cases label with
      | wake spurious =>
          change (if (notified || spurious) = true then some _ else none) = some after at stepped
          split at stepped
          next =>
            cases stepped
            apply invariant.stayGame <;> simp [phase, Game.holds]
          next => cases stepped
      | _ => cases stepped
  | relocking =>
      rw [phase] at stepped
      cases label with
      | relock =>
          change (if before.owner = none then some _ else none) = some after at stepped
          split at stepped
          next free =>
            cases stepped
            exact invariant.lockGame free
          next => cases stepped
      | _ => cases stepped
  | unlocking =>
      rw [phase] at stepped
      cases label with
      | gameUnlock =>
          cases stepped
          exact invariant.unlockGame (by rw [phase]; rfl) rfl (by simp)
      | _ => cases stepped
  | testingCollStuff =>
      rw [phase] at stepped
      cases label with
      | testCollStuff seen =>
          cases stepped
          apply invariant.stayGame <;> split <;> simp [phase, Game.holds]
      | _ => cases stepped
  | loadingAllColls =>
      rw [phase] at stepped
      cases label with
      | loadAllColls seen =>
          change (if test seen rpcFlagSendAllColls = true then some _ else some _) = some after at stepped
          split at stepped
          next =>
            cases stepped
            apply invariant.stayGame <;> simp [phase, Game.holds]
          next =>
            cases stepped
            apply invariant.moveGame <;> simp [phase, Game.holds]
      | _ => cases stepped
  | clearingAllColls =>
      rw [phase] at stepped
      cases label with
      | fetchAnd =>
          cases stepped
          exact invariant.fetchAnd phase
      | _ => cases stepped

theorem step_invariant {before after : State} {label : Label} (invariant : Invariant before)
    (stepped : step before label = some after) : Invariant after := by
  rcases Option.or_eq_some_iff.mp stepped with moved | ⟨-, moved⟩
  · exact mongooseStep_invariant invariant moved
  · exact gameStep_invariant invariant moved

/-! ## Every run -/

/-- What the updates in `log` and the results of `test_and_clear_rpc_flag` say,
and that nobody sleeps through a clear PAUSE bit. -/
structure FlagsOk (state : State) : Prop where
  sequential : state.word = state.log.foldl Update.apply 0
  none_lost : state.requests = performed state.log ++ state.mongoose.pending
  responses : state.responses ++ state.mongoose.owed = wordsAfter 0 state.log
  counted : state.results.count true = state.log.count (.fetchAnd true)
  once : ∀ first rise middle rest, state.log = first ++ rise :: (middle ++ rest) →
    let word := first.foldl Update.apply 0
    Rises word rise →
    Throughout (fun word update => ¬ Rises word update) (rise.apply word) middle →
    middle.count (.fetchAnd true) ≤ 1
  never_unset : ∀ first rest, state.log = first ++ rest →
    Throughout (fun word update => ¬ Rises word update) 0 first →
    first.count (.fetchAnd true) = 0
  cleared : Throughout ClearedOnPurpose 0 state.log
  awake : state.game = .waiting false → test state.word rpcFlagPause = false →
    ∃ after, step state .notifyAll = some after ∧ after.game = .waiting true

theorem Invariant.once {state : State} (invariant : Invariant state)
    {first middle rest : List Update} {rise : Update}
    (split : state.log = first ++ rise :: (middle ++ rest))
    (steady : Throughout (fun word update => ¬ Rises word update)
      (rise.apply (first.foldl Update.apply 0)) middle) :
    middle.count (.fetchAnd true) ≤ 1 := by
  have returned := invariant.returned
  rw [split, throughout_append] at returned
  have known := (throughout_append.mp returned.2.2).1
  have le := true_results_le known steady
  split at le <;> omega

theorem Invariant.never_unset {state : State} (invariant : Invariant state)
    {first rest : List Update} (split : state.log = first ++ rest)
    (steady : Throughout (fun word update => ¬ Rises word update) 0 first) :
    first.count (.fetchAnd true) = 0 := by
  have returned := invariant.returned
  rw [split, throughout_append] at returned
  have clear : test 0 rpcFlagSendAllColls = false := by decide
  have le := true_results_le returned.1 steady
  rw [clear] at le
  exact Nat.le_zero.mp le

theorem Invariant.awake {state : State} (invariant : Invariant state)
    (asleep : state.game = .waiting false) (unpaused : test state.word rpcFlagPause = false) :
    ∃ after, step state .notifyAll = some after ∧ after.game = .waiting true := by
  rcases invariant.waiting asleep with paused | ⟨newFlags, notifying⟩
  · rw [unpaused] at paused
    cases paused
  · refine ⟨{ state with mongoose := .unlocking newFlags, game := .waiting true }, ?_, rfl⟩
    rw [step, notifying, State.mongooseStep, asleep]
    rfl

theorem flags_and_pause {labels : List Label} {state : State}
    (ran : Machine.run step {} labels = some state) : FlagsOk state := by
  have invariant : Invariant state :=
    Machine.run_preserves step_invariant initial_invariant ran
  exact
    { sequential := invariant.word
      none_lost := invariant.requests
      responses := invariant.responses
      counted := invariant.results
      once := fun _ _ _ _ split _ steady => invariant.once split steady
      never_unset := fun _ _ split steady => invariant.never_unset split steady
      cleared := invariant.returned.imp fun _ _ => Returned.clearedOnPurpose
      awake := invariant.awake }

/-- The game thread waits for a pause to end and then sends all colliders. -/
def pauseAndResume : List Label :=
  [.frame, .request 0 0x1a, .lock, .load 0, .exchange true 0, .exchange false 0, .notifyAll,
    .unlock, .testPause 0x1a, .gameLock, .respond, .check, .sleep, .request 8 0, .lock,
    .load 0x1a, .exchange false 0x1a, .notifyAll, .unlock, .wake false, .relock, .check,
    .respond, .gameUnlock, .testPause 0x12, .testCollStuff 0x12, .loadAllColls 0x12, .fetchAnd]

theorem flags_and_pause_resumed :
    ∃ state, Machine.run step {} pauseAndResume = some state ∧ FlagsOk state ∧
      state.responses = [0x1a, 0x12] ∧ state.results = [true] ∧ state.word = 0x10 := by
  have ran : ((Machine.run step {} pauseAndResume).map fun state =>
      (state.responses, state.results, state.word)) = some ([0x1a, 0x12], [true], 0x10) := by
    decide
  obtain ⟨state, ran, same⟩ := Option.map_eq_some_iff.mp ran
  simp only [Prod.mk.injEq] at same
  exact ⟨state, ran, flags_and_pause ran, same⟩

end Smmboss.Rpc.Flags
