import Mathlib.Data.List.Nodup
import Smmboss.Foundation.Machine

namespace Smmboss.Hose.Descriptors

/-! # Who owns a descriptor

`push_fd` on the mongoose thread and `do_iter` on the hose thread, as far as they
pass descriptors on.  A missing descriptor is `none` instead of -1, and what is
to be sent is left to the labels.
-/

/-- Where the mongoose thread is in `push_fd`. -/
inductive Pusher where
  | idle
  | displaced (old : Nat)
deriving DecidableEq

/-- Where the hose thread is in `do_iter`.  In `replaced` and `cleared`,
`cur_fd_` has been closed and is about to be overwritten. -/
inductive Iteration where
  | idle
  | taken (fd : Nat)
  | replaced (fd : Nat)
  | sending
  | failed
  | cleared
deriving DecidableEq

/-- `pushed`, `installed` and `closed` are history, in order. -/
structure State where
  newFd : Option Nat := none
  curFd : Option Nat := none
  pusher : Pusher := .idle
  iteration : Iteration := .idle
  pushed : List Nat := []
  installed : List Nat := []
  closed : List Nat := []
deriving DecidableEq

inductive Label where
  | push (fd : Nat)
  | closeOld
  | exchange (moreToSend : Bool)
  | closeCur
  | install
  | send (ok : Bool)
  | closeFailed
  | clear

/-- `close`, where there is something to close. -/
def State.close (state : State) (fd : Option Nat) : State :=
  { state with closed := state.closed ++ fd.toList }

/-- A pushed descriptor is not one of those pushed before. -/
def step (state : State) : Label → Option State
  | .push fd =>
      match state.pusher with
      | .idle =>
          if fd ∈ state.pushed then none
          else some { state with
            newFd := some fd
            pusher := (state.newFd.map Pusher.displaced).getD .idle
            pushed := state.pushed ++ [fd] }
      | .displaced _ => none
  | .closeOld =>
      match state.pusher with
      | .displaced old => some { state.close (some old) with pusher := .idle }
      | .idle => none
  | .exchange moreToSend =>
      match state.iteration, state.newFd with
      | .idle, some fd => some { state with newFd := none, iteration := .taken fd }
      | .idle, none =>
          some { state with
            iteration := if moreToSend ∧ state.curFd ≠ none then .sending else .idle }
      | _, _ => none
  | .closeCur =>
      match state.iteration with
      | .taken fd => some { state.close state.curFd with iteration := .replaced fd }
      | _ => none
  | .install =>
      match state.iteration with
      | .replaced fd =>
          some { state with
            curFd := some fd, iteration := .idle, installed := state.installed ++ [fd] }
      | _ => none
  | .send ok =>
      match state.iteration with
      | .sending => some { state with iteration := if ok then .idle else .failed }
      | _ => none
  | .closeFailed =>
      match state.iteration with
      | .failed => some { state.close state.curFd with iteration := .cleared }
      | _ => none
  | .clear =>
      match state.iteration with
      | .cleared => some { state with curFd := none, iteration := .idle }
      | _ => none

/-! ## Where a descriptor is -/

def Pusher.held : Pusher → Option Nat
  | .idle => none
  | .displaced old => some old

def Iteration.held : Iteration → Option Nat
  | .taken fd | .replaced fd => some fd
  | .idle | .sending | .failed | .cleared => none

/-- `cur_fd_`, while it is not a closed descriptor about to be overwritten. -/
def State.current (state : State) : Option Nat :=
  match state.iteration with
  | .replaced _ | .cleared => none
  | .idle | .taken _ | .sending | .failed => state.curFd

inductive Place where
  | parked
  | installed
  | heldByMongoose
  | heldByHose
  | closed
deriving DecidableEq

def State.At (state : State) (fd : Nat) : Place → Prop
  | .parked => state.newFd = some fd
  | .installed => state.current = some fd
  | .heldByMongoose => state.pusher.held = some fd
  | .heldByHose => state.iteration.held = some fd
  | .closed => fd ∈ state.closed

/-- How often the descriptor is held by somebody or closed. -/
def State.holdings (state : State) (fd : Nat) : Nat :=
  state.newFd.toList.count fd + state.current.toList.count fd +
    state.pusher.held.toList.count fd + state.iteration.held.toList.count fd +
    state.closed.count fd

/-- What the hose thread has installed, is about to install, and will find next. -/
def State.queue (state : State) : List Nat :=
  state.installed ++ state.iteration.held.toList ++ state.newFd.toList

structure Invariant (state : State) : Prop where
  distinct : state.pushed.Nodup
  balance : ∀ fd, state.holdings fd = state.pushed.count fd
  order : state.queue.Sublist state.pushed
  newest : ∀ fd, state.pushed.getLast? = some fd → fd ∈ state.queue
  connected : state.iteration = .sending ∨ state.iteration = .failed → state.curFd ≠ none

theorem initial_invariant : Invariant {} where
  distinct := List.nodup_nil
  balance := fun _ => rfl
  order := List.Sublist.refl []
  newest := by simp
  connected := by simp

section Steps

variable {before after : State}

/-- The descriptor parked before is now held by the mongoose thread. -/
theorem push_invariant {fd : Nat} (invariant : Invariant before) (idle : before.pusher = .idle)
    (fresh : fd ∉ before.pushed) :
    Invariant { before with
      newFd := some fd
      pusher := (before.newFd.map Pusher.displaced).getD .idle
      pushed := before.pushed ++ [fd] } where
  distinct := by
    have apart : ∀ other ∈ before.pushed, other ≠ fd :=
      fun other known => ne_of_mem_of_not_mem known fresh
    simpa [List.nodup_append, invariant.distinct] using apart
  balance := by
    intro other
    have balance := invariant.balance other
    simp only [State.holdings, idle, State.current] at balance ⊢
    cases parked : before.newFd with
    | none =>
        simp [parked, Pusher.held, List.count_append] at balance ⊢
        omega
    | some old =>
        simp [parked, Pusher.held, List.count_append] at balance ⊢
        omega
  order := by
    have order := invariant.order
    have kept := (List.sublist_append_left _ _).trans order
    exact kept.append (List.Sublist.refl [fd])
  newest := by simp [State.queue]
  connected := invariant.connected

theorem closeOld_invariant {old : Nat} (invariant : Invariant before)
    (displaced : before.pusher = .displaced old) :
    Invariant { before.close (some old) with pusher := .idle } where
  distinct := invariant.distinct
  balance := by
    intro other
    have balance := invariant.balance other
    simp [State.holdings, displaced, State.current, State.close, Pusher.held] at balance ⊢
    omega
  order := invariant.order
  newest := invariant.newest
  connected := invariant.connected

theorem take_invariant {fd : Nat} (invariant : Invariant before)
    (idle : before.iteration = .idle) (parked : before.newFd = some fd) :
    Invariant { before with newFd := none, iteration := .taken fd } where
  distinct := invariant.distinct
  balance := by
    intro other
    have balance := invariant.balance other
    simp [State.holdings, idle, parked, State.current, Iteration.held] at balance ⊢
    omega
  order := by
    have order := invariant.order
    simp [State.queue, idle, parked, Iteration.held] at order ⊢
    exact order
  newest := by
    have newest := invariant.newest
    simp [State.queue, idle, parked, Iteration.held] at newest ⊢
    exact newest
  connected := by simp

/-- A step within `do_iter` that moves no descriptor. -/
theorem move_invariant {iteration : Iteration} (invariant : Invariant before)
    (current : before.current = before.curFd) (held : before.iteration.held = none)
    (live : iteration = .idle ∨ (iteration = .sending ∨ iteration = .failed) ∧ before.curFd ≠ none) :
    Invariant { before with iteration } where
  distinct := invariant.distinct
  balance := by
    intro other
    have balance := invariant.balance other
    rw [State.holdings, current, held] at balance
    rcases live with rfl | ⟨rfl | rfl, _⟩ <;> exact balance
  order := by
    have order := invariant.order
    rw [State.queue, held] at order
    rcases live with rfl | ⟨rfl | rfl, _⟩ <;> exact order
  newest := by
    have newest := invariant.newest
    unfold State.queue at newest
    rw [held] at newest
    rcases live with rfl | ⟨rfl | rfl, _⟩ <;> exact newest
  connected := by
    rcases live with rfl | ⟨_, some⟩
    · simp
    · exact fun _ => some

theorem closeCur_invariant {fd : Nat} (invariant : Invariant before)
    (taken : before.iteration = .taken fd) :
    Invariant { before.close before.curFd with iteration := .replaced fd } where
  distinct := invariant.distinct
  balance := by
    intro other
    have balance := invariant.balance other
    simp [State.holdings, taken, State.current, State.close, Iteration.held, List.count_append]
      at balance ⊢
    omega
  order := by
    have order := invariant.order
    rw [State.queue, taken] at order
    exact order
  newest := by
    have newest := invariant.newest
    unfold State.queue at newest
    rw [taken] at newest
    exact newest
  connected := by simp

theorem install_invariant {fd : Nat} (invariant : Invariant before)
    (replaced : before.iteration = .replaced fd) :
    Invariant { before with
      curFd := some fd, iteration := .idle, installed := before.installed ++ [fd] } where
  distinct := invariant.distinct
  balance := by
    intro other
    have balance := invariant.balance other
    simp [State.holdings, replaced, State.current, Iteration.held] at balance ⊢
    omega
  order := by
    have order := invariant.order
    simp [State.queue, replaced, Iteration.held] at order ⊢
    exact order
  newest := by
    have newest := invariant.newest
    simp [State.queue, replaced, Iteration.held] at newest ⊢
    exact newest
  connected := by simp

theorem closeFailed_invariant (invariant : Invariant before)
    (failed : before.iteration = .failed) :
    Invariant { before.close before.curFd with iteration := .cleared } where
  distinct := invariant.distinct
  balance := by
    intro other
    have balance := invariant.balance other
    simp [State.holdings, failed, State.current, State.close, Iteration.held, List.count_append]
      at balance ⊢
    omega
  order := by
    have order := invariant.order
    rw [State.queue, failed] at order
    exact order
  newest := by
    have newest := invariant.newest
    unfold State.queue at newest
    rw [failed] at newest
    exact newest
  connected := by simp

theorem clear_invariant (invariant : Invariant before) (cleared : before.iteration = .cleared) :
    Invariant { before with curFd := none, iteration := .idle } where
  distinct := invariant.distinct
  balance := by
    intro other
    have balance := invariant.balance other
    simpa [State.holdings, cleared, State.current, Iteration.held] using balance
  order := by
    have order := invariant.order
    rw [State.queue, cleared] at order
    exact order
  newest := by
    have newest := invariant.newest
    unfold State.queue at newest
    rw [cleared] at newest
    exact newest
  connected := by simp

theorem step_invariant {label : Label} (invariant : Invariant before)
    (stepped : step before label = some after) : Invariant after := by
  cases label with
  | push fd =>
      simp only [step] at stepped
      split at stepped
      · rename_i idle
        split_ifs at stepped with known
        cases stepped
        exact push_invariant invariant idle known
      · cases stepped
  | closeOld =>
      simp only [step] at stepped
      split at stepped
      · rename_i old displaced
        cases stepped
        exact closeOld_invariant invariant displaced
      · cases stepped
  | exchange moreToSend =>
      simp only [step] at stepped
      split at stepped
      · rename_i fd idle parked
        cases stepped
        exact take_invariant invariant idle parked
      · rename_i idle parked
        cases stepped
        have current : before.current = before.curFd := by rw [State.current, idle]
        apply move_invariant invariant current (by rw [idle]; rfl)
        split_ifs with sends
        · exact .inr ⟨.inl rfl, sends.2⟩
        · exact .inl rfl
      · cases stepped
  | closeCur =>
      simp only [step] at stepped
      split at stepped
      · rename_i fd taken
        cases stepped
        exact closeCur_invariant invariant taken
      · cases stepped
  | install =>
      simp only [step] at stepped
      split at stepped
      · rename_i fd replaced
        cases stepped
        exact install_invariant invariant replaced
      · cases stepped
  | send ok =>
      simp only [step] at stepped
      split at stepped
      · rename_i sending
        cases stepped
        have current : before.current = before.curFd := by rw [State.current, sending]
        apply move_invariant invariant current (by rw [sending]; rfl)
        cases ok with
        | true => exact .inl rfl
        | false => exact .inr ⟨.inr rfl, invariant.connected (.inl sending)⟩
      · cases stepped
  | closeFailed =>
      simp only [step] at stepped
      split at stepped
      · rename_i failed
        cases stepped
        exact closeFailed_invariant invariant failed
      · cases stepped
  | clear =>
      simp only [step] at stepped
      split at stepped
      · rename_i cleared
        cases stepped
        exact clear_invariant invariant cleared
      · cases stepped

end Steps

/-! ## Ownership in every state reached -/

structure OwnershipOk (state : State) : Prop where
  place : ∀ fd ∈ state.pushed, ∃! place, state.At fd place
  closedOnce : state.closed.Nodup
  sends : state.iteration = .sending →
    ∃ fd, state.curFd = some fd ∧ state.At fd .installed ∧ fd ∉ state.closed
  order : state.pushed.Nodup ∧ state.installed.Sublist state.pushed
  newest : ∀ fd, state.pushed.getLast? = some fd → fd ∈ state.closed → fd ∈ state.installed

/-- How often the descriptor is at a place. -/
def State.countAt (state : State) (fd : Nat) : Place → Nat
  | .parked => state.newFd.toList.count fd
  | .installed => state.current.toList.count fd
  | .heldByMongoose => state.pusher.held.toList.count fd
  | .heldByHose => state.iteration.held.toList.count fd
  | .closed => state.closed.count fd

theorem at_iff {state : State} {fd : Nat} {place : Place} :
    state.At fd place ↔ 0 < state.countAt fd place := by
  cases place <;> simp [State.At, State.countAt, List.count_pos_iff]

theorem unique_of_sum {counts : Place → Nat}
    (sum : counts .parked + counts .installed + counts .heldByMongoose + counts .heldByHose +
      counts .closed = 1) : ∃! place, 0 < counts place := by
  have somewhere : ∃ place, 0 < counts place := by
    by_contra nowhere
    simp only [not_exists, Nat.not_lt, Nat.le_zero] at nowhere
    simp [nowhere] at sum
  obtain ⟨place, here⟩ := somewhere
  refine ⟨place, here, ?_⟩
  intro other there
  cases place <;> cases other <;> first | rfl | omega

section Invariant

variable {state : State} (invariant : Invariant state)

include invariant

/-- A pushed descriptor is counted once. -/
theorem Invariant.sum {fd : Nat} (known : fd ∈ state.pushed) :
    state.countAt fd .parked + state.countAt fd .installed + state.countAt fd .heldByMongoose +
      state.countAt fd .heldByHose + state.countAt fd .closed = 1 := by
  have balance := invariant.balance fd
  rwa [List.count_eq_one_of_mem invariant.distinct known] at balance

/-- What is anywhere has been pushed. -/
theorem Invariant.known {fd : Nat} {place : Place} (there : state.At fd place) :
    fd ∈ state.pushed := by
  have counted := at_iff.mp there
  have balance := invariant.balance fd
  rw [← List.count_pos_iff, ← balance]
  unfold State.holdings
  cases place <;> simp only [State.countAt] at counted <;> omega

theorem Invariant.place {fd : Nat} (known : fd ∈ state.pushed) : ∃! place, state.At fd place := by
  simp only [at_iff]
  exact unique_of_sum (invariant.sum known)

theorem Invariant.apart {fd : Nat} {first second : Place} (left : state.At fd first)
    (right : state.At fd second) : first = second :=
  (invariant.place (invariant.known left)).unique left right

theorem Invariant.ownershipOk : OwnershipOk state where
  place := fun _ known => invariant.place known
  closedOnce := by
    rw [List.nodup_iff_count_le_one]
    intro fd
    by_cases closed : fd ∈ state.closed
    · have sum := invariant.sum (@Invariant.known state invariant fd .closed closed)
      simp only [State.countAt] at sum
      omega
    · rw [List.count_eq_zero_of_not_mem closed]
      exact Nat.zero_le 1
  sends := by
    intro sending
    obtain ⟨fd, connected⟩ := Option.ne_none_iff_exists'.mp (invariant.connected (.inl sending))
    have installed : state.At fd .installed := by
      simp only [State.At, State.current, sending, connected]
    refine ⟨fd, connected, installed, ?_⟩
    intro closed
    have same := @Invariant.apart state invariant fd .installed .closed installed closed
    cases same
  order := by
    refine ⟨invariant.distinct, ?_⟩
    have order := invariant.order
    unfold State.queue at order
    rw [List.append_assoc] at order
    exact (List.sublist_append_left _ _).trans order
  newest := by
    intro fd last closed
    have queued := invariant.newest fd last
    simp only [State.queue, List.mem_append, Option.mem_toList] at queued
    rcases queued with (installed | held) | parked
    · exact installed
    · have same := @Invariant.apart state invariant fd .heldByHose .closed held closed
      cases same
    · have same := @Invariant.apart state invariant fd .parked .closed parked closed
      cases same

end Invariant

/-- Whatever the two threads do, each descriptor has one owner. -/
theorem descriptor_ownership {labels : List Label} {state : State}
    (ran : Machine.run step {} labels = some state) : OwnershipOk state := by
  have invariant : Invariant state :=
    Machine.run_preserves (fun kept stepped => step_invariant kept stepped) initial_invariant ran
  exact invariant.ownershipOk

/-- Two connections; the second one displaces the first after it was installed. -/
def twoConnections : List Label :=
  [.push 5, .exchange false, .closeCur, .install, .push 6, .exchange true, .closeCur, .install,
    .exchange true, .send false, .closeFailed]

theorem descriptor_ownership_twoConnections :
    ∃ state, Machine.run step {} twoConnections = some state ∧ state.closed = [5, 6] ∧
      OwnershipOk state := by
  have ran : Machine.run step {} twoConnections = some {
      curFd := some 6, iteration := .cleared, pushed := [5, 6], installed := [5, 6]
      closed := [5, 6] } := by decide
  exact ⟨_, ran, rfl, descriptor_ownership ran⟩

end Smmboss.Hose.Descriptors
