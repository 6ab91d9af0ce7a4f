import Smmboss.Collision.Steps

namespace Smmboss.Collision

open StupidHash (Table)
open Segments (Grows Throughout)

/-! # Hitboxes and their collisions

The server reports a hitbox once between two frame starts, which is when it
clears `s_hitboxes_this_frame`.  The client forgets its hitboxes at another
moment, at a 'do_many' packet of world 0.
-/

variable {env : Env} {before after : State} {memory : Memory} {hb hb1 hb2 : Ptr} {label : Label}

/-- The client starts a new frame, with no hitboxes. -/
def HosePacket.startsFrame : HosePacket → Bool
  | .doMany _ worldId => worldId == 0
  | _ => false

def Event.startsFrame : Event → Bool
  | .published packet => packet.startsFrame
  | .scolsCleared => false

def Reported (log : List Event) (hb : Ptr) : Prop :=
  ∃ contents worldId,
    .published (.hitbox hb contents worldId) ∈ Segments.since Event.startsFrame log

/-- If the event is a collision, its hitboxes have been reported in the frame. -/
def Preceded (log : List Event) (event : Event) : Prop :=
  ∀ hb1 hb2 ret, event = .published (.collisi hb1 hb2 ret) → Reported log hb1 ∧ Reported log hb2

theorem Reported.grows {log grown : List Event} (reported : Reported log hb)
    (grows : Grows (fun event => event.startsFrame = false) log grown) : Reported grown hb := by
  obtain ⟨contents, worldId, member⟩ := reported
  obtain ⟨news, same⟩ := grows.since
  refine ⟨contents, worldId, ?_⟩
  rw [same]
  exact List.mem_append_left _ member

theorem reported_hitbox (log : List Event) (memory : Memory) (hb : Ptr) :
    Reported (log ++ [.published (memory.hitbox hb)]) hb := by
  refine ⟨memory.raw hb 0x1c8, memory.ownerWorldId (memory.ptr (hb + 0xa8)), ?_⟩
  have unmarked : Event.startsFrame (.published (memory.hitbox hb)) = false := rfl
  rw [Segments.since_snoc, unmarked]
  exact List.mem_append_right _ (List.mem_singleton_self _)

theorem Event.OutsideOf.startsFrame {event : Event} (outside : event.OutsideOf .hitboxes) :
    event.startsFrame = false := by
  cases event with
  | scolsCleared => rfl
  | published packet => cases packet <;> first | rfl | contradiction

theorem Event.OutsideOf.preceded {event : Event} (outside : event.OutsideOf .hitboxes)
    (log : List Event) : Preceded log event := by
  intro hb1 hb2 ret same
  rw [same] at outside
  contradiction

/-- What the server takes for reported the client has been told. -/
structure Reporting (state : State) : Prop where
  valid : state.hitboxesThisFrame.Valid hitboxesParams
  told : ∀ key, state.hitboxesThisFrame.Has key → Reported state.log key.toPtr
  preceded : Throughout Preceded state.log

theorem initial_reporting : Reporting initial where
  valid := StupidHash.zero_valid
  told := by
    intro key has
    exact absurd has (Table.not_has_of_empty rfl)
  preceded := Throughout.nil _

/-- Events that are no collisions keep the invariant, unless they start a frame
and the table is not empty. -/
theorem Reporting.grows (reporting : Reporting before)
    (table : after.hitboxesThisFrame = before.hitboxesThisFrame)
    (grows : Grows (Event.OutsideOf .hitboxes) before.log after.log) : Reporting after where
  valid := table ▸ reporting.valid
  told := by
    intro key has
    rw [table] at has
    exact (reporting.told key has).grows (grows.mono fun _ outside => outside.startsFrame)
  preceded := reporting.preceded.grows (grows.mono fun _ outside => outside.preceded)

theorem Reporting.of_empty (preceded : Throughout Preceded after.log)
    (valid : after.hitboxesThisFrame.Valid hitboxesParams)
    (empty : after.hitboxesThisFrame.entriesCount = 0) : Reporting after where
  valid
  told := by
    intro key has
    exact absurd has (Table.not_has_of_empty empty)
  preceded

section Roomy

variable (roomy : env.Roomy)

include roomy

/-- After `report_hitbox` the client knows the hitbox, and all it knew before. -/
theorem Reporting.reportHitbox (reporting : Reporting before)
    (called : before.reportHitbox env memory hb = some after) :
    Reporting after ∧ Reported after.log hb ∧
      ∀ other, Reported before.log other → Reported after.log other := by
  obtain ⟨key, table, entry, seen, rfl, looked, rest⟩ := State.reportHitbox_cases called
  have valid := StupidHash.lookup_insert_valid reporting.valid looked
  have has := StupidHash.lookup_insert_has reporting.valid looked
  have found := StupidHash.lookup_insert_found reporting.valid looked
  cases seen with
  | true =>
      rw [if_pos rfl] at rest
      subst rest
      have known := reporting.told key (found.mp rfl)
      refine ⟨⟨valid, ?_, reporting.preceded⟩, known, fun _ reported => reported⟩
      intro other otherHas
      rcases (has other).mp otherHas with old | ⟨rfl, _⟩
      · exact reporting.told other old
      · exact known
  | false =>
      rw [if_neg Bool.false_ne_true] at rest
      have log : after.log = before.log ++ [.published (memory.hitbox key.toPtr)] := by
        rw [rest, State.writePacket_log_of_roomy roomy]
      have same : after.hitboxesThisFrame = table := by
        rw [rest, State.writePacket_hitboxesThisFrame]
      have grows : Grows (fun event => event.startsFrame = false) before.log after.log := by
        rw [log]
        exact Grows.snoc _ rfl
      have known : Reported after.log key.toPtr := by
        rw [log]
        exact reported_hitbox _ _ _
      refine ⟨⟨same ▸ valid, ?_, ?_⟩, known, fun _ reported => reported.grows grows⟩
      · intro other otherHas
        rw [same] at otherHas
        rcases (has other).mp otherHas with old | ⟨rfl, _⟩
        · exact (reporting.told other old).grows grows
        · exact known
      · rw [log]
        exact reporting.preceded.snoc nofun

theorem Reporting.hitboxCollide {ret : UInt64} (reporting : Reporting before)
    (called : before.hitboxCollide env memory hb1 hb2 ret = some after) : Reporting after := by
  unfold State.hitboxCollide at called
  split at called
  · simp only [Option.bind_eq_bind, Option.pure_def, Option.bind_eq_some_iff,
      Option.some.injEq] at called
    obtain ⟨first, firstReported, second, secondReported, rfl⟩ := called
    obtain ⟨firstReporting, known1, _⟩ := reporting.reportHitbox roomy firstReported
    obtain ⟨secondReporting, known2, keeps⟩ := firstReporting.reportHitbox roomy secondReported
    have log := State.writePacket_log_of_roomy roomy second (.collisi hb1 hb2 ret)
    have grows : Grows (fun event => event.startsFrame = false) second.log
        (second.writePacket env (.collisi hb1 hb2 ret)).log := by
      rw [log]
      exact Grows.snoc _ rfl
    refine ⟨?_, ?_, ?_⟩
    · rw [State.writePacket_hitboxesThisFrame]
      exact secondReporting.valid
    · intro key has
      rw [State.writePacket_hitboxesThisFrame] at has
      exact (secondReporting.told key has).grows grows
    · rw [log]
      apply secondReporting.preceded.snoc
      intro other1 other2 otherRet same
      cases same
      exact ⟨keeps hb1 known1, known2⟩
  · cases called
    exact reporting

/-- The 'do_many' packet itself. -/
theorem Reporting.doMany (reporting : Reporting before) {self : Ptr}
    (fresh : (memory.doMany self).startsFrame = true →
      before.hitboxesThisFrame.entriesCount = 0) :
    Reporting (before.writePacket env (memory.doMany self)) := by
  have log := State.writePacket_log_of_roomy roomy before (memory.doMany self)
  have preceded : Throughout Preceded (before.writePacket env (memory.doMany self)).log := by
    rw [log]
    exact reporting.preceded.snoc nofun
  cases starts : (memory.doMany self).startsFrame with
  | true =>
      apply Reporting.of_empty preceded
      · rw [State.writePacket_hitboxesThisFrame]
        exact reporting.valid
      · rw [State.writePacket_hitboxesThisFrame]
        exact fresh starts
  | false =>
      refine ⟨?_, ?_, preceded⟩
      · rw [State.writePacket_hitboxesThisFrame]
        exact reporting.valid
      · intro key has
        rw [State.writePacket_hitboxesThisFrame] at has
        rw [log]
        exact (reporting.told key has).grows (Grows.snoc _ starts)

theorem Reporting.doManyCollisions {self : Ptr} {hitboxes : List Ptr}
    (reporting : Reporting before)
    (fresh : before.hooked sendCollStuff = true → (memory.doMany self).startsFrame = true →
      before.hitboxesThisFrame.entriesCount = 0)
    (called : before.areaSystemDoManyCollisions env memory self hitboxes = some after) :
    Reporting after := by
  unfold State.areaSystemDoManyCollisions at called
  split at called
  · rw [Machine.foldlM_eq_run] at called
    exact Machine.run_preserves (fun reporting called => (reporting.reportHitbox roomy called).1)
      (reporting.doMany roomy (fresh ‹_›)) called
  · cases called
    exact reporting

end Roomy

theorem step_hitboxes (other : label.changes .hitboxes = false)
    (stepped : step env before label = some after) :
    after.hitboxesThisFrame = before.hitboxesThisFrame := by
  have blind : Blind State.hitboxesThisFrame := fun _ _ _ _ => rfl
  exact blind.step (fun _ _ => rfl) (fun _ _ => rfl) (fun _ _ => rfl)
    (fun _ => ⟨fun _ _ => rfl, fun _ _ => rfl⟩) (fun _ _ _ => rfl)
    (fun changes => by rw [other] at changes; contradiction) stepped

theorem Reporting.frameStart (reporting : Reporting before) : Reporting before.frameStart := by
  unfold State.frameStart
  split
  · exact Reporting.of_empty reporting.preceded
      (StupidHash.clear_valid hitboxesParams before.hitboxesThisFrame) rfl
  · exact reporting

/-- Where the hook tells the client of a new frame, nothing counts as reported. -/
def FrameFresh (state : State) : Label → Prop
  | .doManyCollisions memory self _ =>
      state.hooked sendCollStuff = true → (memory.doMany self).startsFrame = true →
        state.hitboxesThisFrame.entriesCount = 0
  | _ => True

instance (state : State) (label : Label) : Decidable (FrameFresh state label) :=
  match label with
  | .doManyCollisions _ _ _ => inferInstanceAs (Decidable (_ → _ → _ = _))
  | .setFlags _ _ | .frameStart | .testAllColls | .fetchAndAllColls _ | .addToCollisionGrid _ _
  | .removeFromCollisionGridAndLists _ | .scolTrueOutmost _ _ | .hitboxCollide _ _ _ _
  | .bgCollideAgainstTwopoint _ _ | .bgCollideAgainstPoint _ _ => isTrue trivial

theorem step_reporting (roomy : env.Roomy) (reporting : Reporting before)
    (fresh : FrameFresh before label) (stepped : step env before label = some after) :
    Reporting after := by
  cases changes : label.changes .hitboxes with
  | false =>
      have quiet : label.logs .hitboxes = false := by
        cases label <;> first | rfl | contradiction
      exact reporting.grows (step_hitboxes changes stepped) (step_grows quiet stepped)
  | true =>
      cases label with
      | frameStart =>
          cases play_of_step rfl stepped
          exact reporting.frameStart
      | doManyCollisions memory self hitboxes =>
          exact reporting.doManyCollisions roomy fresh (play_of_step rfl stepped)
      | hitboxCollide memory hb1 hb2 ret =>
          exact reporting.hitboxCollide roomy (play_of_step rfl stepped)
      | setFlags | testAllColls | fetchAndAllColls | addToCollisionGrid
      | removeFromCollisionGridAndLists | scolTrueOutmost | bgCollideAgainstTwopoint
      | bgCollideAgainstPoint => contradiction

/-- On a run on which `s_hitboxes_this_frame` is empty whenever the client starts
a frame, every collision comes after its two hitboxes, in the same frame. -/
theorem collisions_preceded (roomy : env.Roomy) {labels : List Label} {final : State}
    (ran : Machine.run (step env) initial labels = some final)
    (fresh : Machine.Along (step env) FrameFresh initial labels) :
    Throughout Preceded final.log := by
  have reporting : Reporting final :=
    Machine.run_preserves_along (step_reporting roomy) initial_reporting fresh ran
  exact reporting.preceded

/-- A frame of world 0 in which two hitboxes collide. -/
def collidingFrame : List Label :=
  [.doManyCollisions (fun _ => 0) 32 [8, 16], .hitboxCollide (fun _ => 0) 8 16 1]

theorem collisions_preceded_twoFrames :
    ∃ state, Machine.run (step roomyEnv) initial ([.setFlags 0 sendCollStuff] ++
        [.frameStart, .testAllColls] ++ collidingFrame ++ [.frameStart, .testAllColls] ++
        collidingFrame) = some state ∧
      .published (.collisi 8 16 1) ∈ state.log ∧ Throughout Preceded state.log := by
  obtain ⟨state, ran, collided⟩ : ∃ state, Machine.run (step roomyEnv) initial
      ([.setFlags 0 sendCollStuff] ++ [.frameStart, .testAllColls] ++ collidingFrame ++
        [.frameStart, .testAllColls] ++ collidingFrame) = some state ∧
      state.log[3]? = some (.published (.collisi 8 16 1)) := ⟨_, rfl, rfl⟩
  have fresh : Machine.Along (step roomyEnv) FrameFresh initial
      ([.setFlags 0 sendCollStuff] ++ [.frameStart, .testAllColls] ++ collidingFrame ++
        [.frameStart, .testAllColls] ++ collidingFrame) := by decide
  exact ⟨state, ran, List.mem_of_getElem? collided,
    collisions_preceded (fun _ => rfl) ran fresh⟩

/-- The flag is off while the second frame starts, and on again before its
collisions. -/
def toggledFrame : List Label :=
  [.setFlags 0 sendCollStuff] ++ [.frameStart, .testAllColls] ++ collidingFrame ++
    [.setFlags sendCollStuff 0, .frameStart, .setFlags 0 sendCollStuff] ++ collidingFrame

/-- The second frame's collision is published without its hitboxes. -/
theorem collision_unpreceded :
    ∃ state, Machine.run (step roomyEnv) initial toggledFrame = some state ∧
      state.log = [.published (.doMany 32 0), .published (Memory.hitbox (fun _ => 0) 8),
        .published (Memory.hitbox (fun _ => 0) 16), .published (.collisi 8 16 1),
        .published (.doMany 32 0), .published (.collisi 8 16 1)] ∧
      ¬ Throughout Preceded state.log := by
  obtain ⟨state, ran, log⟩ : ∃ state,
      Machine.run (step roomyEnv) initial toggledFrame = some state ∧
        state.log = [.published (.doMany 32 0), .published (Memory.hitbox (fun _ => 0) 8),
          .published (Memory.hitbox (fun _ => 0) 16), .published (.collisi 8 16 1),
          .published (.doMany 32 0), .published (.collisi 8 16 1)] := ⟨_, rfl, rfl⟩
  refine ⟨state, ran, log, ?_⟩
  intro throughout
  have preceded := throughout [.published (.doMany 32 0),
    .published (Memory.hitbox (fun _ => 0) 8), .published (Memory.hitbox (fun _ => 0) 16),
    .published (.collisi 8 16 1), .published (.doMany 32 0)] _ [] log
  obtain ⟨⟨_, _, reported⟩, _⟩ := preceded 8 16 1 rfl
  contradiction

end Smmboss.Collision
