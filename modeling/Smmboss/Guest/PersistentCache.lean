import Mathlib.Data.List.Nodup
import Mathlib.Logic.Function.Basic
import Smmboss.Foundation.Machine

namespace Smmboss.Guest.PersistentCache

/-! # A cache shared through a file

Threads of several processes call `get`.  What they share is split into steps:
`lock` is the process's `self.lock`, `flock` the lock of the file.  A line that
was written to the stream reaches the file when the stream is closed, which is
after the file was unlocked.
-/

/-- Where a thread is in `get`. -/
inductive Phase (Key : Type k) (Value : Type v) where
  | idle
  | computing (key : Key)
  | computed (key : Key) (value : Value)
  | opened (key : Key) (value : Value) (position : Nat)
  | loading (key : Key) (value : Value) (position : Nat)
  | closing (key : Key) (value : Value)
  | returning (key : Key)
deriving DecidableEq

/-- The line that a thread has written to its stream and not yet to the file. -/
def Phase.unwritten : Phase Key Value → Option (Key × Value)
  | .closing key value => some (key, value)
  | _ => none

/-- The `KeyError` of a `get` is a result too. -/
inductive Event (Process : Type p) (Key : Type k) (Value : Type v) where
  | loaded (process : Process) (key : Key) (value : Value)
  | inserted (process : Process) (key : Key) (value : Value)
  | computed (process : Process) (key : Key)
  | returned (process : Process) (key : Key) (result : Option Value)
deriving DecidableEq

/-- `dropped` are the keys that a reset removed from a process's cache; it and
`history` are ghosts. -/
structure State (Process : Type p) (Thread : Type t) (Key : Type k) (Value : Type v) where
  file : List (Key × Value)
  started : Process → Bool := fun _ => false
  cache : Process → Key → Option Value := fun _ _ => none
  lock : Process → Option Thread := fun _ => none
  flock : Option Thread := none
  phase : Thread → Phase Key Value := fun _ => .idle
  dropped : Process → Key → Bool := fun _ _ => false
  history : List (Event Process Key Value) := []

inductive Label (Process : Type p) (Thread : Type t) (Key : Type k) (Value : Type v) where
  | start (process : Process)
  | get (thread : Thread) (key : Key)
  | compute (thread : Thread) (value : Value)
  | advance (thread : Thread)

section Steps

variable {Process : Type p} {Thread : Type t} {Key : Type k} {Value : Type v}
  [DecidableEq Process] [DecidableEq Thread] [DecidableEq Key]

/-- `load` of the lines from where the stream stands. -/
def load (cache : Key → Option Value) (lines : List (Key × Value)) : Key → Option Value :=
  lines.foldl (fun cache line => Function.update cache line.1 (some line.2)) cache

namespace State

def put (state : State Process Thread Key Value) (thread : Thread) (phase : Phase Key Value)
    (events : List (Event Process Key Value)) : State Process Thread Key Value :=
  { state with
    phase := Function.update state.phase thread phase
    history := state.history ++ events }

/-- `self.cache[key] = val`, in the state's cache of one process. -/
def insert (state : State Process Thread Key Value) (process : Process) (key : Key)
    (value : Value) : State Process Thread Key Value :=
  { state with
    cache := Function.update state.cache process
      (Function.update (state.cache process) key (some value)) }

/-- The first access of `get`, under `self.lock`. -/
def get (state : State Process Thread Key Value) (process : Process) (thread : Thread)
    (key : Key) : Option (State Process Thread Key Value) :=
  match state.phase thread with
  | .idle =>
      if state.started process = true ∧ state.lock process = none then
        match state.cache process key with
        | some value => some (state.put thread .idle [.returned process key (some value)])
        | none => some (state.put thread (.computing key) [.computed process key])
      else none
  | _ => none

/-- `self.cache = {}` -/
def reset (state : State Process Thread Key Value) (process : Process) :
    State Process Thread Key Value :=
  { state with
    cache := Function.update state.cache process fun _ => none
    dropped := Function.update state.dropped process fun key =>
      state.dropped process key || (state.cache process key).isSome }

/-- The rest of `get`, one access of what is shared at a time. -/
def advance (state : State Process Thread Key Value) (process : Process) (thread : Thread) :
    Option (State Process Thread Key Value) :=
  match state.phase thread with
  | .idle => none
  | .computing _ => none
  | .computed key value =>
      if state.lock process = none then
        match state.cache process key with
        | some known => some (state.put thread .idle [.returned process key (some known)])
        | none =>
            -- `'a+'` leaves the stream at the end of the file
            let next := state.put thread (.opened key value state.file.length) []
            some { next with lock := Function.update state.lock process (some thread) }
      else none
  | .opened key value position =>
      if state.flock = none then
        let next := (state.reset process).put thread (.loading key value position) []
        some { next with flock := some thread }
      else none
  | .loading key value position =>
      match state.file[position]? with
      | some line =>
          some ((state.insert process line.1 line.2).put thread
            (.loading key value (position + 1)) [.loaded process line.1 line.2])
      | none =>
          match state.cache process key with
          | some known =>
              let next := state.put thread .idle [.returned process key (some known)]
              some { next with flock := none, lock := Function.update state.lock process none }
          | none =>
              let next := (state.insert process key value).put thread (.closing key value)
                [.inserted process key value]
              some { next with flock := none }
  | .closing key value =>
      let next := state.put thread (.returning key) []
      some { next with
        file := state.file ++ [(key, value)]
        lock := Function.update state.lock process none }
  | .returning key =>
      some (state.put thread .idle [.returned process key (state.cache process key)])

/-- The constructor, of a process that has no other thread yet. -/
def start (state : State Process Thread Key Value) (process : Process) :
    Option (State Process Thread Key Value) :=
  if state.started process = false ∧ state.flock = none then
    let empty := state.reset process
    some { empty with
      started := Function.update state.started process true
      cache := Function.update empty.cache process (load (empty.cache process) state.file)
      history := state.history ++ state.file.map fun line => .loaded process line.1 line.2 }
  else none

def step (process : Thread → Process) (state : State Process Thread Key Value) :
    Label Process Thread Key Value → Option (State Process Thread Key Value)
  | .start process => state.start process
  | .get thread key => state.get (process thread) thread key
  | .compute thread value =>
      match state.phase thread with
      | .computing key => some (state.put thread (.computed key value) [])
      | _ => none
  | .advance thread => state.advance (process thread) thread

end State

end Steps

variable {Process : Type p} {Thread : Type t} {Key : Type k} {Value : Type v}

/-! ## What the cache is for -/

/-- After the event the process has, or has had, the key. -/
def Event.Gives (process : Process) (key : Key) : Event Process Key Value → Prop
  | .loaded owner given _ | .inserted owner given _ => owner = process ∧ given = key
  | .returned owner given (some _) => owner = process ∧ given = key
  | _ => False

structure CacheOk (state : State Process Thread Key Value) : Prop where
  stable : state.history.Pairwise fun first later => ∀ process other key value result,
    first = .returned process key (some value) → later = .returned other key result →
      result = some value
  oneLine : (state.file.map Prod.fst).Nodup
  computedOnce : state.history.Pairwise fun first later => ∀ process key,
    first.Gives process key → later ≠ .computed process key

/-- No `get` of a key that a reset dropped and that is not back, also not at the
end of the `get` that put it there; and a key is appended only when it has no
line in the file and none in another stream. -/
def Allowed (process : Thread → Process) (state : State Process Thread Key Value) :
    Label Process Thread Key Value → Prop
  | .start _ | .compute _ _ => True
  | .get thread key =>
      state.dropped (process thread) key = true →
        (state.cache (process thread) key).isSome = true
  | .advance thread =>
      match state.phase thread with
      | .loading key _ position =>
          state.file.length ≤ position → state.cache (process thread) key = none →
            (∀ line ∈ state.file, line.1 ≠ key) ∧
              ∀ other, ∀ line ∈ (state.phase other).unwritten, line.1 ≠ key
      | .returning key => (state.cache (process thread) key).isSome = true
      | _ => True

/-! ## A file and the lines that are still in streams -/

/-- One line for each key, those in streams included. -/
structure Lines (file : List (Key × Value)) (unwritten : Thread → Option (Key × Value)) : Prop where
  oneLine : (file.map Prod.fst).Nodup
  apart : ∀ thread line, unwritten thread = some line → ∀ written ∈ file, written.1 ≠ line.1
  separate : ∀ first second line other, unwritten first = some line →
    unwritten second = some other → line.1 = other.1 → first = second

def HasLine (file : List (Key × Value)) (unwritten : Thread → Option (Key × Value))
    (line : Key × Value) : Prop :=
  line ∈ file ∨ ∃ thread, unwritten thread = some line

namespace Lines

variable {file : List (Key × Value)} {unwritten : Thread → Option (Key × Value)}
  {line other : Key × Value} {thread : Thread}

theorem value_unique (lines : Lines file unwritten) (left : HasLine file unwritten line)
    (right : HasLine file unwritten other) (same : line.1 = other.1) : line = other := by
  rcases left with left | ⟨first, left⟩ <;> rcases right with right | ⟨second, right⟩
  · exact List.inj_on_of_nodup_map lines.oneLine left right same
  · exact absurd same (lines.apart second other right line left)
  · exact absurd same.symm (lines.apart first line left other right)
  · obtain rfl := lines.separate first second line other left right same
    exact Option.some.inj (left.symm.trans right)

variable [DecidableEq Thread]

theorem append (lines : Lines file unwritten) (written : ∀ old ∈ file, old.1 ≠ line.1)
    (others : ∀ other, ∀ old ∈ unwritten other, old.1 ≠ line.1) :
    Lines file (Function.update unwritten thread (some line)) where
  oneLine := lines.oneLine
  apart := by
    intro other pending found
    by_cases same : other = thread
    · subst same
      simp only [Function.update_self, Option.some.injEq] at found
      subst found
      exact written
    · rw [Function.update_of_ne same] at found
      exact lines.apart other pending found
  separate := by
    intro first second left right leftFound rightFound same
    by_cases isFirst : first = thread <;> by_cases isSecond : second = thread
    · rw [isFirst, isSecond]
    · subst isFirst
      rw [Function.update_self, Option.some.injEq] at leftFound
      rw [Function.update_of_ne isSecond] at rightFound
      subst leftFound
      exact absurd same.symm (others second right rightFound)
    · subst isSecond
      rw [Function.update_self, Option.some.injEq] at rightFound
      rw [Function.update_of_ne isFirst] at leftFound
      subst rightFound
      exact absurd same (others first left leftFound)
    · rw [Function.update_of_ne isFirst] at leftFound
      rw [Function.update_of_ne isSecond] at rightFound
      exact lines.separate first second left right leftFound rightFound same

/-- Closing a stream moves its line to the file. -/
theorem close (lines : Lines file unwritten) (closing : unwritten thread = some line) :
    Lines (file ++ [line]) (Function.update unwritten thread none) where
  oneLine := by
    rw [List.map_append, List.nodup_append']
    refine ⟨lines.oneLine, List.nodup_singleton _, ?_⟩
    intro key member again
    obtain ⟨old, oldMember, rfl⟩ := List.mem_map.mp member
    exact lines.apart thread line closing old oldMember (List.mem_singleton.mp again)
  apart := by
    intro other pending found old member
    by_cases same : other = thread
    · simp [same] at found
    · rw [Function.update_of_ne same] at found
      rcases List.mem_append.mp member with member | last
      · exact lines.apart other pending found old member
      · obtain rfl := List.mem_singleton.mp last
        intro key
        exact same (lines.separate other thread pending old found closing key.symm)
  separate := by
    intro first second left right leftFound rightFound same
    by_cases isFirst : first = thread
    · simp [isFirst] at leftFound
    · by_cases isSecond : second = thread
      · simp [isSecond] at rightFound
      · rw [Function.update_of_ne isFirst] at leftFound
        rw [Function.update_of_ne isSecond] at rightFound
        exact lines.separate first second left right leftFound rightFound same

end Lines

section

variable [DecidableEq Thread] {file : List (Key × Value)}
  {unwritten : Thread → Option (Key × Value)} {line other : Key × Value} {thread : Thread}

theorem HasLine.append (found : HasLine file unwritten line) (idle : unwritten thread = none) :
    HasLine file (Function.update unwritten thread (some other)) line := by
  rcases found with written | ⟨owner, pending⟩
  · exact .inl written
  · refine .inr ⟨owner, ?_⟩
    rw [Function.update_of_ne, pending]
    rintro rfl
    simp [idle] at pending

theorem HasLine.close (found : HasLine file unwritten line) (closing : unwritten thread = some other) :
    HasLine (file ++ [other]) (Function.update unwritten thread none) line := by
  rcases found with written | ⟨owner, pending⟩
  · exact .inl (List.mem_append_left _ written)
  · by_cases same : owner = thread
    · subst same
      obtain rfl := Option.some.inj (closing.symm.trans pending)
      exact .inl (by simp)
    · exact .inr ⟨owner, by rw [Function.update_of_ne same, pending]⟩

end

/-! ## The invariant -/

section

variable [DecidableEq Key] {cache : Key → Option Value} {lines : List (Key × Value)}

theorem load_cons (line : Key × Value) :
    load cache (line :: lines) = load (Function.update cache line.1 (some line.2)) lines := rfl

theorem load_value {key : Key} (loaded : load cache lines key = some value) :
    cache key = some value ∨ (key, value) ∈ lines := by
  induction lines generalizing cache with
  | nil => exact .inl loaded
  | cons line lines ih =>
      rw [load_cons] at loaded
      rcases ih loaded with old | member
      · by_cases same : key = line.1
        · subst same
          rw [Function.update_self, Option.some.injEq] at old
          subst old
          exact .inr (List.mem_cons_self ..)
        · rw [Function.update_of_ne same] at old
          exact .inl old
      · exact .inr (List.mem_cons_of_mem _ member)

theorem load_isSome {key : Key} (known : (cache key).isSome = true ∨ ∃ line ∈ lines, line.1 = key) :
    (load cache lines key).isSome = true := by
  induction lines generalizing cache with
  | nil => simpa [load] using known
  | cons line lines ih =>
      rw [load_cons]
      apply ih
      by_cases same : key = line.1
      · exact .inl (by rw [same, Function.update_self]; rfl)
      · rw [Function.update_of_ne same]
        rcases known with known | ⟨old, member, rfl⟩
        · exact .inl known
        · rcases List.mem_cons.mp member with rfl | member
          · exact absurd rfl same
          · exact .inr ⟨old, member, rfl⟩

end

namespace State

variable (state : State Process Thread Key Value)

def HasLine (line : Key × Value) : Prop :=
  PersistentCache.HasLine state.file (fun thread => (state.phase thread).unwritten) line

/-- The process has the key, or a reset dropped it. -/
def Known (process : Process) (key : Key) : Prop :=
  (state.cache process key).isSome = true ∨ state.dropped process key = true

end State

/-- Whatever a cache holds and whatever was returned is a line of the file, or
of the stream that will be closed into it. -/
structure Invariant (state : State Process Thread Key Value) : Prop where
  lines : Lines state.file fun thread => (state.phase thread).unwritten
  cached : ∀ process key value, state.cache process key = some value → state.HasLine (key, value)
  returned : ∀ process key result, .returned process key result ∈ state.history →
    ∃ value, result = some value ∧ state.HasLine (key, value)
  known : ∀ event ∈ state.history, ∀ process key, event.Gives process key →
    state.Known process key
  computedOnce : state.history.Pairwise fun first later => ∀ process key,
    first.Gives process key → later ≠ .computed process key

theorem initial_invariant {file : List (Key × Value)} (oneLine : (file.map Prod.fst).Nodup) :
    Invariant ({ file } : State Process Thread Key Value) where
  lines := ⟨oneLine, by simp [Phase.unwritten], by simp [Phase.unwritten]⟩
  cached := by simp
  returned := by simp
  known := by simp
  computedOnce := .nil

/-- What every step does: lines and known keys stay, and what it puts in a
cache or returns has a line. -/
theorem Invariant.next {state after : State Process Thread Key Value} (invariant : Invariant state)
    (events : List (Event Process Key Value)) (history : after.history = state.history ++ events)
    (lines : Lines after.file fun thread => (after.phase thread).unwritten)
    (kept : ∀ line, state.HasLine line → after.HasLine line)
    (cached : ∀ process key value, after.cache process key = some value →
      state.cache process key = some value ∨ after.HasLine (key, value))
    (known : ∀ process key, state.Known process key → after.Known process key)
    (returned : ∀ process key result, .returned process key result ∈ events →
      ∃ value, result = some value ∧ after.HasLine (key, value))
    (given : ∀ event ∈ events, ∀ process key, event.Gives process key → after.Known process key)
    (fresh : ∀ process key, .computed process key ∈ events →
      ¬state.Known process key ∧ events = [.computed process key]) :
    Invariant after where
  lines := lines
  cached := by
    intro process key value found
    rcases cached process key value found with old | line
    · exact kept _ (invariant.cached process key value old)
    · exact line
  returned := by
    intro process key result member
    rw [history] at member
    rcases List.mem_append.mp member with old | new
    · obtain ⟨value, rfl, line⟩ := invariant.returned process key result old
      exact ⟨value, rfl, kept _ line⟩
    · exact returned process key result new
  known := by
    intro event member process key gives
    rw [history] at member
    rcases List.mem_append.mp member with old | new
    · exact known process key (invariant.known event old process key gives)
    · exact given event new process key gives
  computedOnce := by
    rw [history, List.pairwise_append]
    refine ⟨invariant.computedOnce, ?_, ?_⟩
    · apply List.pairwise_iff_forall_sublist.mpr
      intro first later sub process key _ again
      subst again
      obtain ⟨_, single⟩ := fresh process key (sub.subset (by simp))
      rw [single] at sub
      exact absurd sub.length_le (by simp)
    · intro first old later new process key gives again
      subst again
      exact (fresh process key new).1 (invariant.known first old process key gives)

/-- A step that leaves the file and the streams as they are. -/
theorem Invariant.quiet {state after : State Process Thread Key Value} (invariant : Invariant state)
    (events : List (Event Process Key Value)) (history : after.history = state.history ++ events)
    (file : after.file = state.file)
    (unwritten : ∀ thread, (after.phase thread).unwritten = (state.phase thread).unwritten)
    (cached : ∀ process key value, after.cache process key = some value →
      state.cache process key = some value ∨ (key, value) ∈ state.file)
    (known : ∀ process key, state.Known process key → after.Known process key)
    (returned : ∀ process key result, .returned process key result ∈ events →
      ∃ value, result = some value ∧ state.cache process key = some value)
    (given : ∀ event ∈ events, ∀ process key, event.Gives process key → after.Known process key)
    (fresh : ∀ process key, .computed process key ∈ events →
      ¬state.Known process key ∧ events = [.computed process key]) :
    Invariant after := by
  have same : after.HasLine = state.HasLine := by
    funext line
    simp only [State.HasLine, file, unwritten]
  apply invariant.next events history
  · simpa only [file, unwritten] using invariant.lines
  · intro line found
    rwa [same]
  · intro process key value found
    rw [same]
    exact (cached process key value found).imp_right Or.inl
  · exact known
  · intro process key result member
    obtain ⟨value, rfl, found⟩ := returned process key result member
    exact ⟨value, rfl, same ▸ invariant.cached process key value found⟩
  · exact given
  · exact fresh

/-- What is said in a step that changes no cache. -/
inductive Said (state : State Process Thread Key Value) (process : Process) :
    List (Event Process Key Value) → Prop where
  | nothing : Said state process []
  | returned (found : state.cache process key = some value) :
      Said state process [.returned process key (some value)]
  | computed (unknown : ¬state.Known process key) : Said state process [.computed process key]

theorem Invariant.talks {state after : State Process Thread Key Value} (invariant : Invariant state)
    {process : Process} {events : List (Event Process Key Value)} (said : Said state process events)
    (history : after.history = state.history ++ events) (file : after.file = state.file)
    (cache : after.cache = state.cache) (dropped : after.dropped = state.dropped)
    (unwritten : ∀ thread, (after.phase thread).unwritten = (state.phase thread).unwritten) :
    Invariant after := by
  have known : ∀ process key, after.Known process key ↔ state.Known process key := by
    intro process key
    simp only [State.Known, cache, dropped]
  apply invariant.quiet events history file unwritten
  · intro process key value found
    exact .inl (cache ▸ found)
  · exact fun process key => (known process key).mpr
  · intro owner key result member
    cases said with
    | nothing => contradiction
    | returned found =>
        cases List.mem_singleton.mp member
        exact ⟨_, rfl, found⟩
    | computed => cases List.mem_singleton.mp member
  · intro event member owner key gives
    cases said with
    | nothing => contradiction
    | returned found =>
        obtain rfl := List.mem_singleton.mp member
        obtain ⟨rfl, rfl⟩ := gives
        exact (known _ _).mpr (.inl (by rw [found]; rfl))
    | computed =>
        obtain rfl := List.mem_singleton.mp member
        exact gives.elim
  · intro owner key member
    cases said with
    | nothing => contradiction
    | returned => cases List.mem_singleton.mp member
    | computed unknown =>
        cases List.mem_singleton.mp member
        exact ⟨unknown, rfl⟩

section Preserved

variable {state after : State Process Thread Key Value} {process : Process} {thread : Thread}

section

variable [DecidableEq Thread]

theorem unwritten_update {phase : Thread → Phase Key Value} {next : Phase Key Value}
    (same : next.unwritten = (phase thread).unwritten) (other : Thread) :
    (Function.update phase thread next other).unwritten = (phase other).unwritten := by
  by_cases isThread : other = thread
  · rw [isThread, Function.update_self, same]
  · rw [Function.update_of_ne isThread]

theorem unwritten_eq_update {phase : Thread → Phase Key Value} {next : Phase Key Value} :
    (fun other => (Function.update phase thread next other).unwritten) =
      Function.update (fun other => (phase other).unwritten) thread next.unwritten := by
  funext other
  by_cases isThread : other = thread
  · simp [isThread]
  · simp [isThread]

theorem get_invariant {key : Key} (invariant : Invariant state)
    (kept : state.dropped process key = true → (state.cache process key).isSome = true)
    (stepped : state.get process thread key = some after) : Invariant after := by
  unfold State.get at stepped
  cases phased : state.phase thread with
  | idle =>
      simp only [phased, Option.ite_none_right_eq_some] at stepped
      obtain ⟨_, stepped⟩ := stepped
      cases cached : state.cache process key with
      | some value =>
          simp only [cached, Option.some.injEq] at stepped
          subst stepped
          exact invariant.talks (.returned cached) rfl rfl rfl rfl
            (unwritten_update (by rw [phased]))
      | none =>
          simp only [cached, Option.some.injEq] at stepped
          subst stepped
          have unknown : ¬state.Known process key := by
            rintro (known | dropped)
            · simp [cached] at known
            · simpa [cached] using kept dropped
          exact invariant.talks (.computed unknown) rfl rfl rfl rfl
            (unwritten_update (by rw [phased]; rfl))
  | _ => simp [phased] at stepped

theorem close_invariant {key : Key} {value : Value} (invariant : Invariant state)
    (closing : (state.phase thread).unwritten = some (key, value))
    (phased : after.phase = Function.update state.phase thread (.returning key))
    (file : after.file = state.file ++ [(key, value)])
    (cache : after.cache = state.cache) (dropped : after.dropped = state.dropped)
    (history : after.history = state.history ++ []) : Invariant after := by
  have pending : (fun other => (after.phase other).unwritten) =
      Function.update (fun other => (state.phase other).unwritten) thread none := by
    rw [phased, unwritten_eq_update]
    rfl
  apply invariant.next [] history
  · rw [file, pending]
    exact invariant.lines.close closing
  · intro line found
    rw [State.HasLine, file, pending]
    exact HasLine.close found closing
  · exact fun owner other found cached => .inl (cache ▸ cached)
  · intro owner other
    simp only [State.Known, cache, dropped]
    exact id
  · simp
  · simp
  · simp

end

section

variable [DecidableEq Process]

theorem State.Known.reset {owner : Process} {key : Key} (known : state.Known owner key) :
    (state.reset process).Known owner key := by
  by_cases isOwner : owner = process
  · subst isOwner
    exact .inr (by simpa [State.reset, State.Known, or_comm] using known)
  · rcases known with known | dropped
    · exact .inl (by simpa [State.reset, isOwner] using known)
    · exact .inr (by simpa [State.reset, isOwner] using dropped)

variable [DecidableEq Thread]

/-- The reset of `load` under the file's lock. -/
theorem reset_invariant {phase : Phase Key Value} (invariant : Invariant state)
    (same : phase.unwritten = (state.phase thread).unwritten)
    (phased : after.phase = Function.update state.phase thread phase)
    (file : after.file = state.file) (cache : after.cache = (state.reset process).cache)
    (dropped : after.dropped = (state.reset process).dropped)
    (history : after.history = state.history ++ []) : Invariant after := by
  apply invariant.quiet [] history file
  · rw [phased]
    exact unwritten_update same
  · intro owner key value found
    rw [cache] at found
    by_cases isOwner : owner = process
    · simp [State.reset, isOwner] at found
    · exact .inl (by simpa [State.reset, isOwner] using found)
  · intro owner key known
    have now := (known.reset : (state.reset process).Known owner key)
    rwa [State.Known, ← cache, ← dropped] at now
  · simp
  · simp
  · simp

end

section

variable [DecidableEq Process] [DecidableEq Key]

/-- A line for a key is put in a cache; everything known stays known. -/
theorem State.Known.insert {owner : Process} {key other : Key} {value : Value}
    (known : state.Known owner other) : (state.insert process key value).Known owner other := by
  rcases known with known | dropped
  · by_cases isOwner : owner = process
    · subst isOwner
      by_cases isKey : other = key
      · exact .inl (by simp [State.insert, isKey])
      · exact .inl (by simpa [State.insert, isKey] using known)
    · exact .inl (by simpa [State.insert, isOwner] using known)
  · exact .inr dropped

theorem State.insert_known (key : Key) (value : Value) :
    (state.insert process key value).Known process key :=
  .inl (by simp [State.insert])

theorem State.insert_cached {owner : Process} {key other : Key} {value found : Value}
    (cached : (state.insert process key value).cache owner other = some found) :
    state.cache owner other = some found ∨ (other, found) = (key, value) := by
  by_cases isOwner : owner = process
  · subst isOwner
    by_cases isKey : other = key
    · subst isKey
      simp [State.insert] at cached
      exact .inr (by rw [cached])
    · exact .inl (by simpa [State.insert, isKey] using cached)
  · exact .inl (by simpa [State.insert, isOwner] using cached)

theorem start_invariant (invariant : Invariant state)
    (stepped : state.start process = some after) : Invariant after := by
  unfold State.start at stepped
  simp only [Option.ite_none_right_eq_some, Option.some.injEq] at stepped
  obtain ⟨_, rfl⟩ := stepped
  refine invariant.quiet _ rfl rfl (fun _ => rfl) ?_ ?_ ?_ ?_ ?_
  · intro owner key value found
    by_cases isOwner : owner = process
    · subst isOwner
      simp only [Function.update_self] at found
      rcases load_value found with empty | line
      · simp [State.reset] at empty
      · exact .inr line
    · exact .inl (by simpa [State.reset, isOwner] using found)
  · intro owner key known
    by_cases isOwner : owner = process
    · subst isOwner
      exact .inr (by simpa [State.reset, State.Known, or_comm] using known)
    · rcases known with known | dropped
      · exact .inl (by simpa [State.reset, isOwner] using known)
      · exact .inr (by simpa [State.reset, isOwner] using dropped)
  · intro owner key result again
    obtain ⟨line, _, isLoaded⟩ := List.mem_map.mp again
    cases isLoaded
  · intro event isLoaded owner key gives
    obtain ⟨line, member, rfl⟩ := List.mem_map.mp isLoaded
    obtain ⟨rfl, rfl⟩ := gives
    apply Or.inl
    simp only [Function.update_self]
    exact load_isSome (.inr ⟨line, member, rfl⟩)
  · intro owner key again
    obtain ⟨line, _, isLoaded⟩ := List.mem_map.mp again
    cases isLoaded

end

variable [DecidableEq Process] [DecidableEq Thread] [DecidableEq Key]

theorem line_invariant {line : Key × Value} {phase : Phase Key Value} (invariant : Invariant state)
    (member : line ∈ state.file) (same : phase.unwritten = (state.phase thread).unwritten) :
    Invariant ((state.insert process line.1 line.2).put thread phase
      [.loaded process line.1 line.2]) := by
  refine invariant.quiet [.loaded process line.1 line.2] rfl rfl (unwritten_update same)
    ?_ ?_ ?_ ?_ ?_
  · intro owner key value found
    rcases State.insert_cached found with old | new
    · exact .inl old
    · exact .inr (new ▸ member)
  · exact fun owner key known => known.insert
  · intro owner key result again
    cases List.mem_singleton.mp again
  · intro event isLoaded owner key gives
    obtain rfl := List.mem_singleton.mp isLoaded
    obtain ⟨rfl, rfl⟩ := gives
    exact State.insert_known ..
  · intro owner key again
    cases List.mem_singleton.mp again

/-- The line of a key that has none goes to the stream. -/
theorem insert_invariant {key : Key} {value : Value} (invariant : Invariant state)
    (idle : (state.phase thread).unwritten = none)
    (written : ∀ line ∈ state.file, line.1 ≠ key)
    (others : ∀ other, ∀ line ∈ (state.phase other).unwritten, line.1 ≠ key)
    (phased : after.phase = Function.update state.phase thread (.closing key value))
    (file : after.file = state.file)
    (cache : after.cache = (state.insert process key value).cache)
    (dropped : after.dropped = state.dropped)
    (history : after.history = state.history ++ [.inserted process key value]) :
    Invariant after := by
  have known : ∀ {owner other}, (state.insert process key value).Known owner other →
      after.Known owner other := by
    intro owner other
    simp only [State.Known, cache, dropped, State.insert]
    exact id
  have pending : (fun other => (after.phase other).unwritten) =
      Function.update (fun other => (state.phase other).unwritten) thread (some (key, value)) := by
    rw [phased, unwritten_eq_update]
    rfl
  apply invariant.next _ history
  · rw [file, pending]
    exact invariant.lines.append written others
  · intro line found
    rw [State.HasLine, file, pending]
    exact HasLine.append found idle
  · intro owner other found cached
    rw [cache] at cached
    rcases State.insert_cached cached with old | new
    · exact .inl old
    · have pending : (after.phase thread).unwritten = some (key, value) := by
        rw [phased, Function.update_self]
        rfl
      exact .inr (.inr ⟨thread, new ▸ pending⟩)
  · exact fun owner other old => known old.insert
  · intro owner other result again
    cases List.mem_singleton.mp again
  · intro event isInserted owner other gives
    obtain rfl := List.mem_singleton.mp isInserted
    obtain ⟨rfl, rfl⟩ := gives
    exact known (State.insert_known ..)
  · intro owner other again
    cases List.mem_singleton.mp again

theorem advance_invariant (assigned : Thread → Process) (invariant : Invariant state)
    (allowed : Allowed assigned state (.advance thread))
    (stepped : state.advance (assigned thread) thread = some after) : Invariant after := by
  unfold Allowed at allowed
  unfold State.advance at stepped
  cases phased : state.phase thread with
  | idle => simp [phased] at stepped
  | computing key => simp [phased] at stepped
  | computed key value =>
      simp only [phased, Option.ite_none_right_eq_some] at stepped
      obtain ⟨_, stepped⟩ := stepped
      split at stepped
      · rename_i cached
        cases stepped
        exact invariant.talks (.returned cached) rfl rfl rfl rfl
          (unwritten_update (by rw [phased]; rfl))
      · cases stepped
        exact invariant.talks (Said.nothing : Said state (assigned thread) []) (by simp [State.put]) rfl rfl rfl
          (unwritten_update (by rw [phased]; rfl))
  | opened key value position =>
      simp only [phased, Option.ite_none_right_eq_some, Option.some.injEq] at stepped
      obtain ⟨_, rfl⟩ := stepped
      exact reset_invariant invariant (by rw [phased]; rfl) rfl rfl rfl rfl rfl
  | loading key value position =>
      simp only [phased] at stepped allowed
      split at stepped
      · rename_i line found
        cases stepped
        exact line_invariant invariant (List.mem_of_getElem? found) (by rw [phased]; rfl)
      · rename_i ended
        split at stepped
        · rename_i cached
          cases stepped
          exact invariant.talks (.returned cached) rfl rfl rfl rfl
            (unwritten_update (by rw [phased]; rfl))
        · rename_i missing
          cases stepped
          obtain ⟨written, others⟩ := allowed (List.getElem?_eq_none_iff.mp ended) missing
          exact insert_invariant invariant (by rw [phased]; rfl) written others rfl rfl rfl rfl rfl
  | closing key value =>
      simp only [phased] at stepped
      cases stepped
      exact close_invariant invariant (by rw [phased]; rfl) rfl rfl rfl rfl rfl
  | returning key =>
      simp only [phased] at stepped allowed
      obtain ⟨value, cached⟩ := Option.isSome_iff_exists.mp allowed
      rw [cached] at stepped
      cases stepped
      exact invariant.talks (.returned cached) rfl rfl rfl rfl
        (unwritten_update (by rw [phased]; rfl))

theorem step_invariant {assigned : Thread → Process} {label : Label Process Thread Key Value}
    (invariant : Invariant state) (allowed : Allowed assigned state label)
    (stepped : state.step assigned label = some after) : Invariant after := by
  cases label with
  | start process => exact start_invariant invariant stepped
  | get thread key => exact get_invariant invariant allowed stepped
  | compute thread value =>
      simp only [State.step] at stepped
      split at stepped
      · rename_i key phased
        cases stepped
        exact invariant.talks (Said.nothing : Said state (assigned thread) []) rfl rfl rfl rfl
          (unwritten_update (by rw [phased]; rfl))
      · contradiction
  | advance thread => exact advance_invariant assigned invariant allowed stepped

end Preserved

theorem Invariant.cacheOk {state : State Process Thread Key Value} (invariant : Invariant state) :
    CacheOk state where
  oneLine := invariant.lines.oneLine
  computedOnce := invariant.computedOnce
  stable := by
    apply List.pairwise_iff_forall_sublist.mpr
    intro first later sub process other key value result isFirst isLater
    subst isFirst isLater
    obtain ⟨returned, same, line⟩ := invariant.returned process key (some value) (sub.subset (by simp))
    obtain ⟨again, rfl, otherLine⟩ := invariant.returned other key result (sub.subset (by simp))
    obtain rfl := Option.some.inj same
    exact congrArg (fun line : Key × Value => some line.2)
      (invariant.lines.value_unique otherLine line rfl)

/-- The shared cache in every run in which no step meets the reset or a line it
does not see. -/
theorem persistentCache_ok [DecidableEq Process] [DecidableEq Thread] [DecidableEq Key]
    {assigned : Thread → Process} {file : List (Key × Value)}
    {labels : List (Label Process Thread Key Value)} {state : State Process Thread Key Value}
    (oneLine : (file.map Prod.fst).Nodup)
    (guarded : Machine.Along (State.step assigned) (Allowed assigned) { file } labels)
    (ran : Machine.run (State.step assigned) { file } labels = some state) : CacheOk state :=
  (Machine.run_preserves_along step_invariant (initial_invariant oneLine) guarded ran).cacheOk

/-! Two processes of one thread each. -/

/-- The first appends a line, which the second loads when it starts. -/
def handedOver : List (Label Bool Bool Nat Nat) :=
  [.start false, .get false 5, .compute false 50, .advance false, .advance false, .advance false,
    .advance false, .advance false, .start true, .get true 5]

theorem persistentCache_ok_handedOver : ∃ state : State Bool Bool Nat Nat,
    Machine.run (State.step id) { file := [] } handedOver = some state ∧ CacheOk state := by
  have guarded : Machine.Along (State.step id) (Allowed id)
      ({ file := [] } : State Bool Bool Nat Nat) handedOver := by
    simp [handedOver, Machine.Along, State.step, State.start, State.get, State.advance, State.put,
      State.insert, State.reset, Allowed, load, Function.update, Phase.unwritten]
  have returns : (Machine.run (State.step id) { file := [] } handedOver).isSome = true := by
    decide +kernel
  obtain ⟨state, ran⟩ := Option.isSome_iff_exists.mp returns
  exact ⟨state, ran, persistentCache_ok (by simp) guarded ran⟩

/-- One process asks for two keys and then for the first of them again. -/
def askedAgain : List (Label Bool Bool Nat Nat) :=
  let asked key value := [.get false key, .compute false value, .advance false, .advance false,
    .advance false, .advance false, .advance false]
  .start false :: asked 5 50 ++ asked 6 60 ++ asked 5 51

theorem askedAgain_not_ok : ∃ state : State Bool Bool Nat Nat,
    Machine.run (State.step id) { file := [] } askedAgain = some state ∧
      state.file = [(5, 50), (6, 60), (5, 51)] ∧ ¬CacheOk state := by
  have outcome : (Machine.run (State.step id) { file := [] } askedAgain).map State.file =
      some [(5, 50), (6, 60), (5, 51)] := by decide +kernel
  obtain ⟨state, ran, file⟩ := Option.map_eq_some_iff.mp outcome
  refine ⟨state, ran, file, ?_⟩
  intro ok
  have oneLine := ok.oneLine
  rw [file] at oneLine
  exact absurd oneLine (by decide)

end Smmboss.Guest.PersistentCache
