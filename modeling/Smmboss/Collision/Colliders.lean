import Smmboss.Collision.Steps

namespace Smmboss.Collision

open StupidHash (Table)

/-! # The tracked colliders

`s_colliders` holds pointers that the loop for `RPC_FLAG_SEND_ALL_COLLS` follows
later.  The two hooks that maintain it each look at the flags for themselves.
-/

variable {env : Env} {state before after : State} {memory : Memory} {self ptr : Ptr}
  {label : Label}

theorem State.mem_trackedColliders :
    ptr ∈ state.trackedColliders ↔ ∃ key, state.colliders.Has key ∧ key.toPtr = ptr := by
  have mapped : state.trackedColliders = (state.colliders.toList.map Prod.fst).map UInt48.toPtr := by
    rw [State.trackedColliders, List.map_map]
    rfl
  simp only [mapped, List.mem_map (f := UInt48.toPtr), Table.has_iff_mem_toList]

theorem State.toPtr_mem_trackedColliders {key : UInt48} :
    key.toPtr ∈ state.trackedColliders ↔ state.colliders.Has key := by
  rw [State.mem_trackedColliders]
  constructor
  · intro ⟨other, has, same⟩
    exact UInt48.toPtr_injective same ▸ has
  · intro has
    exact ⟨key, has, rfl⟩

/-- `s_colliders` has as many keys as it can hold. -/
def State.CollidersFull (state : State) : Prop :=
  state.colliders.entriesCount = collidersParams.numEntrySlots

instance (state : State) : Decidable state.CollidersFull :=
  inferInstanceAs (Decidable (_ = _))

def State.CollidersValid (state : State) : Prop := state.colliders.Valid collidersParams

/-- The hook on an addition that looks at `s_colliders` adds the collider, if
there is a slot for it, and publishes it in any case. -/
theorem track_spec (valid : before.CollidersValid) (hooked : before.hooked sendCollStuff = true)
    (called : before.colliderAddToCollisionGrid env memory self = some after) :
    after.CollidersValid ∧ after.alive = Function.update before.alive self true ∧
      after.log = before.log ++
        before.events env (.normalCollider .added (memory.normalCollider self)) ∧
      ∀ ptr, ptr ∈ after.trackedColliders ↔
        ptr ∈ before.trackedColliders ∨ ptr = self ∧ ¬ before.CollidersFull := by
  rcases State.trackCollider_cases called with
    ⟨unhooked, _⟩ | ⟨_, key, table, entry, found, same, looked, rfl⟩
  · have flipped : before.hooked sendCollStuff = false := unhooked
    rw [hooked] at flipped
    contradiction
  · have has := StupidHash.lookup_insert_has valid looked
    refine ⟨?_, ?_, State.writePacket_log, ?_⟩
    · simpa only [State.CollidersValid, State.reportNormalCollider, State.writePacket_colliders]
        using StupidHash.lookup_insert_valid valid looked
    · rw [State.reportNormalCollider, State.writePacket_alive]
    · intro ptr
      simp only [State.mem_trackedColliders, State.reportNormalCollider,
        State.writePacket_colliders, has, State.CollidersFull]
      constructor
      · intro ⟨other, known, at_ptr⟩
        rcases known with old | ⟨rfl, room⟩
        · exact Or.inl ⟨other, old, at_ptr⟩
        · exact Or.inr ⟨at_ptr.symm.trans same, room⟩
      · intro known
        rcases known with ⟨other, old, at_ptr⟩ | ⟨rfl, room⟩
        · exact ⟨other, Or.inl old, at_ptr⟩
        · exact ⟨key, Or.inr ⟨rfl, room⟩, same⟩

/-- The hook on a removal that looks at `s_colliders` takes the collider out of
it, and publishes that if it was there. -/
theorem untrack_spec (valid : before.CollidersValid) (hooked : before.hooked sendCollStuff = true)
    (called : before.colliderRemoveFromCollisionGridAndLists env self = some after) :
    after.CollidersValid ∧ after.alive = Function.update before.alive self false ∧
      after.log = before.log ++ (if self ∈ before.trackedColliders then
        before.events env (.normalColliderGone self) else []) ∧
      ∀ ptr, ptr ∈ after.trackedColliders ↔ ptr ∈ before.trackedColliders ∧ ptr ≠ self := by
  rcases State.untrackCollider_cases called with
    ⟨unhooked, _⟩ | ⟨_, key, table, entry, found, same, looked, outcome⟩
  · have flipped : before.hooked sendCollStuff = false := unhooked
    rw [hooked] at flipped
    contradiction
  · subst same
    obtain ⟨rfl, found⟩ := StupidHash.lookup_plain_cases valid looked
    rcases outcome with ⟨rfl, rfl⟩ | ⟨idx, removed, rfl, succeeded, rfl⟩
    · have absent : key.toPtr ∉ before.trackedColliders := by
        rw [State.toPtr_mem_trackedColliders]
        rcases found with ⟨_, missing, _⟩ | ⟨_, absent⟩
        · contradiction
        · exact absent
      refine ⟨valid, rfl, by simp [absent], ?_⟩
      intro ptr
      constructor
      · intro member
        refine ⟨member, ?_⟩
        intro collides
        exact absent (collides ▸ member)
      · exact And.left
    · obtain ⟨alive, at_key⟩ : before.colliders.Live idx ∧
          (before.colliders.entries idx).key = key := by
        rcases found with ⟨_, same, alive, at_key⟩ | ⟨missing, _⟩
        · cases same
          exact ⟨alive, at_key⟩
        · contradiction
      have present : key.toPtr ∈ before.trackedColliders :=
        State.toPtr_mem_trackedColliders.mpr ⟨idx, alive, at_key⟩
      have has := StupidHash.remove_has valid alive succeeded
      refine ⟨?_, by rw [State.writePacket_alive], ?_, ?_⟩
      · simpa only [State.CollidersValid, State.writePacket_colliders] using
          StupidHash.remove_valid valid alive succeeded
      · rw [State.writePacket_log, if_pos present]
        rfl
      · intro ptr
        simp only [State.mem_trackedColliders, State.writePacket_colliders, has, at_key]
        constructor
        · intro ⟨other, ⟨known, apart⟩, at_ptr⟩
          refine ⟨⟨other, known, at_ptr⟩, ?_⟩
          intro collides
          exact apart (UInt48.toPtr_injective (at_ptr.trans collides))
        · intro ⟨⟨other, known, at_ptr⟩, apart⟩
          refine ⟨other, ⟨known, ?_⟩, at_ptr⟩
          intro collides
          exact apart (at_ptr.symm.trans (congrArg UInt48.toPtr collides))

theorem track_unhooked (unhooked : before.hooked sendCollStuff = false)
    (called : before.colliderAddToCollisionGrid env memory self = some after) :
    after = { before with alive := Function.update before.alive self true } := by
  rcases State.trackCollider_cases called with ⟨_, same⟩ | ⟨hooked, _⟩
  · exact same
  · have flipped : before.hooked sendCollStuff = true := hooked
    rw [unhooked] at flipped
    contradiction

theorem untrack_unhooked (unhooked : before.hooked sendCollStuff = false)
    (called : before.colliderRemoveFromCollisionGridAndLists env self = some after) :
    after = { before with alive := Function.update before.alive self false } := by
  rcases State.untrackCollider_cases called with ⟨_, same⟩ | ⟨hooked, _⟩
  · exact same
  · have flipped : before.hooked sendCollStuff = true := hooked
    rw [unhooked] at flipped
    contradiction

theorem track_valid (valid : before.CollidersValid)
    (called : before.colliderAddToCollisionGrid env memory self = some after) :
    after.CollidersValid := by
  cases hooked : before.hooked sendCollStuff with
  | true => exact (track_spec valid hooked called).1
  | false => exact track_unhooked hooked called ▸ valid

theorem untrack_valid (valid : before.CollidersValid)
    (called : before.colliderRemoveFromCollisionGridAndLists env self = some after) :
    after.CollidersValid := by
  cases hooked : before.hooked sendCollStuff with
  | true => exact (untrack_spec valid hooked called).1
  | false => exact untrack_unhooked hooked called ▸ valid

/-- The other steps leave the tracked and the existing colliders alone. -/
theorem step_colliders (other : label.changes .colliders = false)
    (stepped : step env before label = some after) :
    after.colliders = before.colliders ∧ after.alive = before.alive := by
  let view (state : State) := (state.colliders, state.alive)
  have blind : Blind view := fun _ _ _ _ => rfl
  have same : view after = view before :=
    blind.step (fun _ _ => rfl) (fun _ _ => rfl) (fun _ _ => rfl)
      (fun changes => by rw [other] at changes; contradiction)
      (fun _ _ _ => rfl) (fun _ _ _ => rfl) stepped
  exact Prod.mk.inj same

theorem step_collidersValid (valid : before.CollidersValid)
    (stepped : step env before label = some after) : after.CollidersValid := by
  cases changes : label.changes .colliders with
  | false =>
      rw [State.CollidersValid, (step_colliders changes stepped).1]
      exact valid
  | true =>
      cases label with
      | addToCollisionGrid memory self => exact track_valid valid (play_of_step rfl stepped)
      | removeFromCollisionGridAndLists self =>
          exact untrack_valid valid (play_of_step rfl stepped)
      | setFlags | frameStart | testAllColls | fetchAndAllColls | scolTrueOutmost
      | doManyCollisions | hitboxCollide | bgCollideAgainstTwopoint | bgCollideAgainstPoint =>
          contradiction

theorem initial_collidersValid : initial.CollidersValid := StupidHash.zero_valid

/-! ## Dangling pointers -/

/-- What the loop over `s_colliders` would follow is there. -/
def State.TrackedAlive (state : State) : Prop :=
  ∀ ptr ∈ state.trackedColliders, state.alive ptr = true

/-- A tracked collider is removed while the hook looks. -/
def RemovalSeen (state : State) : Label → Prop
  | .removeFromCollisionGridAndLists self =>
      self ∈ state.trackedColliders → state.hooked sendCollStuff = true
  | _ => True

instance (state : State) (label : Label) : Decidable (RemovalSeen state label) :=
  match label with
  | .removeFromCollisionGridAndLists _ => inferInstanceAs (Decidable (_ → _))
  | .setFlags _ _ | .frameStart | .testAllColls | .fetchAndAllColls _ | .addToCollisionGrid _ _
  | .scolTrueOutmost _ _ | .doManyCollisions _ _ _ | .hitboxCollide _ _ _ _
  | .bgCollideAgainstTwopoint _ _ | .bgCollideAgainstPoint _ _ => isTrue trivial

structure Tracking (state : State) : Prop where
  valid : state.CollidersValid
  alive : state.TrackedAlive

theorem initial_tracking : Tracking initial where
  valid := initial_collidersValid
  alive := by
    intro ptr tracked
    contradiction

theorem Tracking.trackedAlive_add (tracking : Tracking before)
    (called : before.colliderAddToCollisionGrid env memory self = some after) :
    after.TrackedAlive := by
  intro ptr member
  cases hooked : before.hooked sendCollStuff with
  | true =>
      obtain ⟨_, alive, _, tracked⟩ := track_spec tracking.valid hooked called
      rw [alive]
      by_cases same : ptr = self
      · rw [same, Function.update_self]
      · rw [Function.update_of_ne same]
        rcases (tracked ptr).mp member with old | ⟨new, _⟩
        · exact tracking.alive ptr old
        · contradiction
  | false =>
      obtain rfl := track_unhooked hooked called
      by_cases same : ptr = self
      · rw [same]
        exact Function.update_self ..
      · exact (Function.update_of_ne same ..).trans (tracking.alive ptr member)

theorem Tracking.trackedAlive_remove (tracking : Tracking before)
    (seen : self ∈ before.trackedColliders → before.hooked sendCollStuff = true)
    (called : before.colliderRemoveFromCollisionGridAndLists env self = some after) :
    after.TrackedAlive := by
  intro ptr member
  cases hooked : before.hooked sendCollStuff with
  | true =>
      obtain ⟨_, alive, _, tracked⟩ := untrack_spec tracking.valid hooked called
      obtain ⟨old, apart⟩ := (tracked ptr).mp member
      rw [alive, Function.update_of_ne apart]
      exact tracking.alive ptr old
  | false =>
      obtain rfl := untrack_unhooked hooked called
      have apart : ptr ≠ self := by
        intro same
        have flipped := seen (same ▸ member)
        rw [hooked] at flipped
        contradiction
      exact (Function.update_of_ne apart ..).trans (tracking.alive ptr member)

theorem step_trackedAlive (tracking : Tracking before) (seen : RemovalSeen before label)
    (stepped : step env before label = some after) : after.TrackedAlive := by
  cases changes : label.changes .colliders with
  | false =>
      obtain ⟨colliders, alive⟩ := step_colliders changes stepped
      intro ptr tracked
      rw [State.trackedColliders, colliders] at tracked
      rw [alive]
      exact tracking.alive ptr tracked
  | true =>
      cases label with
      | addToCollisionGrid memory self =>
          exact tracking.trackedAlive_add (play_of_step rfl stepped)
      | removeFromCollisionGridAndLists self =>
          exact tracking.trackedAlive_remove seen (play_of_step rfl stepped)
      | setFlags | frameStart | testAllColls | fetchAndAllColls | scolTrueOutmost
      | doManyCollisions | hitboxCollide | bgCollideAgainstTwopoint | bgCollideAgainstPoint =>
          contradiction

theorem step_tracking (tracking : Tracking before) (seen : RemovalSeen before label)
    (stepped : step env before label = some after) : Tracking after where
  valid := step_collidersValid tracking.valid stepped
  alive := step_trackedAlive tracking seen stepped

/-- A tracked collider that is removed unseen dangles at once. -/
theorem not_trackedAlive_of_unseen (tracked : self ∈ before.trackedColliders)
    (unhooked : before.hooked sendCollStuff = false)
    (stepped : step env before (.removeFromCollisionGridAndLists self) = some after) :
    ¬ after.TrackedAlive := by
  intro alive
  obtain rfl := untrack_unhooked unhooked (play_of_step rfl stepped)
  have dead : Function.update before.alive self false self = false := Function.update_self ..
  have living : Function.update before.alive self false self = true := alive self tracked
  rw [dead] at living
  contradiction

theorem not_trackedAlive_of_refused (refused : ¬ RemovalSeen before label)
    (stepped : step env before label = some after) : ¬ after.TrackedAlive := by
  cases label with
  | removeFromCollisionGridAndLists self =>
      obtain ⟨tracked, unhooked⟩ := Classical.not_imp.mp refused
      exact not_trackedAlive_of_unseen tracked (Bool.eq_false_iff.mpr unhooked) stepped
  | setFlags | frameStart | testAllColls | fetchAndAllColls | addToCollisionGrid
  | scolTrueOutmost | doManyCollisions | hitboxCollide | bgCollideAgainstTwopoint
  | bgCollideAgainstPoint => exact absurd trivial refused

/-- The tracked colliders exist at every point of a run exactly if no tracked
collider is ever removed while the hook does not look. -/
theorem tracked_alive_iff {labels : List Label} {final : State}
    (ran : Machine.run (step env) initial labels = some final) :
    (∀ taken rest middle, labels = taken ++ rest →
        Machine.run (step env) initial taken = some middle → middle.TrackedAlive) ↔
      Machine.Along (step env) RemovalSeen initial labels :=
  Machine.good_throughout_iff step_tracking Tracking.alive
    (fun _ refused stepped => not_trackedAlive_of_refused refused stepped) initial_tracking ran

theorem tracked_alive_added :
    ∃ state, Machine.run (step roomyEnv) initial [.setFlags 0 sendCollStuff, .frameStart,
        .testAllColls, .addToCollisionGrid (fun _ => 0) 8, .addToCollisionGrid (fun _ => 0) 16,
        .removeFromCollisionGridAndLists 8] = some state ∧
      state.trackedColliders = [16] ∧ state.TrackedAlive := by
  obtain ⟨state, ran, tracked⟩ : ∃ state, Machine.run (step roomyEnv) initial
      [.setFlags 0 sendCollStuff, .frameStart, .testAllColls,
        .addToCollisionGrid (fun _ => 0) 8, .addToCollisionGrid (fun _ => 0) 16,
        .removeFromCollisionGridAndLists 8] = some state ∧
      state.trackedColliders = [16] := ⟨_, rfl, rfl⟩
  have guarded : Machine.Along (step roomyEnv) RemovalSeen initial
      [.setFlags 0 sendCollStuff, .frameStart, .testAllColls,
        .addToCollisionGrid (fun _ => 0) 8, .addToCollisionGrid (fun _ => 0) 16,
        .removeFromCollisionGridAndLists 8] := by decide
  exact ⟨state, ran, tracked,
    (tracked_alive_iff ran).mpr guarded _ [] state (List.append_nil _).symm ran⟩

/-- The flag is cleared while collider 8 is tracked, the collider is removed, and
the flags are set again. -/
def removedUnseen : List Label :=
  [.setFlags 0 sendCollStuff, .frameStart, .testAllColls, .addToCollisionGrid (fun _ => 0) 8,
    .setFlags sendCollStuff 0, .removeFromCollisionGridAndLists 8,
    .setFlags 0 (sendCollStuff ||| sendAllColls), .frameStart, .testAllColls]

/-- The loop over `s_colliders` is about to follow the pointer to collider 8. -/
theorem tracked_collider_dangles :
    ∃ state, Machine.run (step roomyEnv) initial removedUnseen = some state ∧
      state.game = .clearAllColls ∧ state.testRpcFlag sendAllColls = true ∧
      state.trackedColliders = [8] ∧ state.alive 8 = false ∧ ¬ state.TrackedAlive := by
  obtain ⟨state, ran, game, flag, tracked, dead⟩ : ∃ state,
      Machine.run (step roomyEnv) initial removedUnseen = some state ∧
        state.game = .clearAllColls ∧ state.testRpcFlag sendAllColls = true ∧
        state.trackedColliders = [8] ∧ state.alive 8 = false := ⟨_, rfl, rfl, rfl, rfl, rfl⟩
  refine ⟨state, ran, game, flag, tracked, dead, ?_⟩
  intro alive
  have living := alive 8 (by simp [tracked])
  rw [dead] at living
  contradiction

end Smmboss.Collision
