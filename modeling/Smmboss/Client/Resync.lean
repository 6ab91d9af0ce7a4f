import Smmboss.Client.HoseParser
import Smmboss.Collision.Colliders

namespace Smmboss.Client

open Collision (Ptr HosePacket Memory Env Event Label State)

/-! # The server's colliders and the client's

The client's `normalColliderMap` next to the server's `s_colliders`, from an
'allcols' packet on.
-/

variable {env past : Env} {server after : State} {client : HoseParser} {memory : Memory} {ptr : Ptr}

/-- What the server published between two of its states. -/
def publishedSince (before after : State) : List HosePacket :=
  (after.log.drop before.log.length).filterMap Event.packet?

theorem publishedSince_of_log {news : List Event} (log : after.log = server.log ++ news) :
    publishedSince server after = news.filterMap Event.packet? := by
  rw [publishedSince, log, List.drop_left]

/-- The server, and a client that receives every packet. -/
structure View where
  server : State
  client : HoseParser

def View.step (env : Env) (view : View) (label : Label) : Option View :=
  (Collision.step env view.server label).map fun after =>
    ⟨after, view.client.receive (publishedSince view.server after)⟩

theorem View.step_eq_some_iff {view next : View} {label : Label} :
    view.step env label = some next ↔
      Collision.step env view.server label = some next.server ∧
        next.client = view.client.receive (publishedSince view.server next.server) := by
  rw [View.step, Option.map_eq_some_iff]
  constructor
  · intro ⟨after, stepped, same⟩
    subst same
    exact ⟨stepped, rfl⟩
  · intro ⟨stepped, received⟩
    refine ⟨next.server, stepped, ?_⟩
    rw [← received]

/-- The two maps have the same keys. -/
def View.Agree (view : View) : Prop :=
  ∀ ptr, ptr ∈ view.client.normalColliderMap ↔ ptr ∈ view.server.trackedColliders

/-! ## The burst -/

theorem foldl_reportNormalCollider_log (roomy : env.Roomy) (colliders : List Ptr) (state : State) :
    (colliders.foldl (State.reportNormalCollider env memory .all) state).log =
      state.log ++ colliders.map fun nc =>
        .published (.normalCollider .all (memory.normalCollider nc)) := by
  induction colliders generalizing state with
  | nil => simp
  | cons nc rest ih =>
      rw [List.foldl_cons, ih, State.reportNormalCollider,
        State.writePacket_log_of_roomy roomy, List.map_cons, List.append_assoc]
      rfl

theorem publishedSince_burst (roomy : env.Roomy)
    (requested : server.testRpcFlag Collision.sendAllColls = true) :
    publishedSince server (server.fetchAndAllColls env memory) =
      .allcols :: server.trackedColliders.map fun nc =>
        .normalCollider .all (memory.normalCollider nc) := by
  have log : (server.fetchAndAllColls env memory).log = server.log ++ (.scolsCleared ::
      .published .allcols :: server.trackedColliders.map fun nc =>
        .published (.normalCollider .all (memory.normalCollider nc))) := by
    rw [State.fetchAndAllColls, requested, if_pos rfl, State.sendAllColliders,
      foldl_reportNormalCollider_log roomy, State.writePacket_log_of_roomy roomy,
      State.clearScols, List.append_assoc, List.append_assoc]
    rfl
  rw [publishedSince_of_log log]
  change HosePacket.allcols ::
    (List.map _ server.trackedColliders).filterMap Event.packet? = _
  rw [List.filterMap_map]
  exact congrArg (List.cons _) (congrFun List.filterMap_eq_map _)

theorem mem_receive_burst (colliders : List Ptr) (client : HoseParser) :
    ptr ∈ (client.receive (colliders.map fun nc =>
        .normalCollider .all (memory.normalCollider nc))).normalColliderMap ↔
      ptr ∈ client.normalColliderMap ∨ ptr ∈ colliders := by
  induction colliders generalizing client with
  | nil => simp [HoseParser.receive]
  | cons nc rest ih =>
      rw [List.map_cons, HoseParser.receive, List.foldl_cons]
      apply (ih _).trans
      rw [HoseParser.mem_onMessage_normalCollider, Collision.Memory.normalCollider_nc,
        List.mem_cons]
      tauto

theorem fetchAndAllColls_colliders :
    (server.fetchAndAllColls env memory).colliders = server.colliders := by
  have blind : Collision.Blind State.colliders := fun _ _ _ _ => rfl
  exact blind.frame.fetchAndAllColls (fun _ _ => rfl) (fun _ _ => rfl) (fun _ => rfl) trivial
    (fun _ => trivial) server

/-- After the burst the client has the server's colliders, and those it had. -/
theorem mem_after_burst {start sent : View} (roomy : env.Roomy)
    (requested : start.server.testRpcFlag Collision.sendAllColls = true)
    (stepped : start.step env (.fetchAndAllColls memory) = some sent) :
    sent.server.trackedColliders = start.server.trackedColliders ∧
      ∀ ptr, ptr ∈ sent.client.normalColliderMap ↔
        ptr ∈ start.client.normalColliderMap ∨ ptr ∈ start.server.trackedColliders := by
  obtain ⟨stepped, received⟩ := View.step_eq_some_iff.mp stepped
  rcases Collision.step_cases stepped with
    ⟨_, _, impossible, _⟩ | ⟨impossible, _⟩ | ⟨_, same, _, burst⟩ | ⟨_, played⟩
  · contradiction
  · contradiction
  · cases same
    refine ⟨?_, ?_⟩
    · rw [State.trackedColliders, burst, fetchAndAllColls_colliders]
      rfl
    · intro ptr
      rw [received, burst, publishedSince_burst roomy requested]
      exact mem_receive_burst _ _
  · cases played

/-! ## Additions and removals -/

def ofColliders : Label → Prop
  | .addToCollisionGrid _ _ | .removeFromCollisionGridAndLists _ => True
  | _ => False

/-- The server while it sends its colliders. -/
structure Sending (view : View) : Prop where
  valid : view.server.CollidersValid
  hooked : view.server.hooked Collision.sendCollStuff = true

theorem step_hooked {label : Label} (only : ofColliders label)
    (stepped : Collision.step env server label = some after) :
    after.hooked Collision.sendCollStuff = server.hooked Collision.sendCollStuff := by
  let view (state : State) := state.hooked Collision.sendCollStuff
  have blind : Collision.Blind view := fun _ _ _ _ => rfl
  cases label with
  | addToCollisionGrid memory self =>
      have same : view after = view { server with
          alive := Function.update server.alive self true } :=
        blind.frame.trackCollider (fun _ _ => rfl) trivial (Collision.play_of_step rfl stepped)
      exact same
  | removeFromCollisionGridAndLists self =>
      have same : view after = view { server with
          alive := Function.update server.alive self false } :=
        blind.frame.untrackCollider (fun _ _ => rfl) trivial (Collision.play_of_step rfl stepped)
      exact same
  | setFlags | frameStart | testAllColls | fetchAndAllColls | scolTrueOutmost
  | doManyCollisions | hitboxCollide | bgCollideAgainstTwopoint | bgCollideAgainstPoint =>
      contradiction

theorem Sending.step {view next : View} {label : Label} (sending : Sending view)
    (only : ofColliders label) (stepped : view.step env label = some next) : Sending next := by
  obtain ⟨stepped, _⟩ := View.step_eq_some_iff.mp stepped
  refine ⟨Collision.step_collidersValid sending.valid stepped, ?_⟩
  rw [step_hooked only stepped]
  exact sending.hooked

/-- An addition reaches the client always, and `s_colliders` unless it is full. -/
theorem Sending.add {view next : View} {self : Ptr} (sending : Sending view) (roomy : env.Roomy)
    (stepped : view.step env (.addToCollisionGrid memory self) = some next) (ptr : Ptr) :
    (ptr ∈ next.client.normalColliderMap ↔ ptr = self ∨ ptr ∈ view.client.normalColliderMap) ∧
      (ptr ∈ next.server.trackedColliders ↔
        ptr ∈ view.server.trackedColliders ∨ ptr = self ∧ ¬ view.server.CollidersFull) := by
  obtain ⟨stepped, received⟩ := View.step_eq_some_iff.mp stepped
  have played := Collision.play_of_step rfl stepped
  obtain ⟨_, _, log, tracked⟩ := Collision.track_spec sending.valid sending.hooked played
  rw [State.events, roomy, if_pos rfl] at log
  refine ⟨?_, tracked ptr⟩
  rw [received, publishedSince_of_log log]
  exact HoseParser.mem_onMessage_normalCollider

theorem Sending.remove {view next : View} {self : Ptr} (sending : Sending view)
    (roomy : env.Roomy) (agree : view.Agree)
    (stepped : view.step env (.removeFromCollisionGridAndLists self) = some next) :
    next.Agree := by
  obtain ⟨stepped, received⟩ := View.step_eq_some_iff.mp stepped
  have played := Collision.play_of_step rfl stepped
  obtain ⟨_, _, log, tracked⟩ := Collision.untrack_spec sending.valid sending.hooked played
  intro ptr
  rw [tracked ptr, received, publishedSince_of_log log]
  by_cases present : self ∈ view.server.trackedColliders
  · rw [if_pos present, State.events, roomy, if_pos rfl]
    apply HoseParser.mem_onMessage_normalColliderGone.trans
    rw [agree ptr, and_comm]
  · rw [if_neg present]
    apply (agree ptr).trans
    constructor
    · intro member
      refine ⟨member, ?_⟩
      intro same
      exact present (same ▸ member)
    · exact And.left

/-- A collider that `s_colliders` cannot take is not added. -/
def SlotFor (view : View) : Label → Prop
  | .addToCollisionGrid _ self =>
      self ∈ view.server.trackedColliders ∨ ¬ view.server.CollidersFull
  | _ => True

instance (view : View) (label : Label) : Decidable (SlotFor view label) :=
  match label with
  | .addToCollisionGrid _ _ => inferInstanceAs (Decidable (_ ∨ ¬ _))
  | .setFlags _ _ | .frameStart | .testAllColls | .fetchAndAllColls _
  | .removeFromCollisionGridAndLists _ | .scolTrueOutmost _ _ | .doManyCollisions _ _ _
  | .hitboxCollide _ _ _ _ | .bgCollideAgainstTwopoint _ _ | .bgCollideAgainstPoint _ _ =>
      isTrue trivial

theorem Sending.agree_add_iff {view next : View} {self : Ptr} (sending : Sending view)
    (roomy : env.Roomy) (agree : view.Agree)
    (stepped : view.step env (.addToCollisionGrid memory self) = some next) :
    next.Agree ↔ SlotFor view (.addToCollisionGrid memory self) := by
  have added := sending.add roomy stepped
  constructor
  · intro nextAgree
    have known := (nextAgree self).mp ((added self).1.mpr (Or.inl rfl))
    rcases (added self).2.mp known with old | ⟨_, room⟩
    · exact Or.inl old
    · exact Or.inr room
  · intro slot ptr
    rw [(added ptr).1, (added ptr).2, agree ptr]
    constructor
    · intro known
      rcases known with rfl | old
      · rcases slot with present | room
        · exact Or.inl present
        · exact Or.inr ⟨rfl, room⟩
      · exact Or.inl old
    · intro known
      rcases known with old | ⟨same, _⟩
      · exact Or.inr old
      · exact Or.inl same

/-- Agreement survives a step exactly if there is a slot for what it adds. -/
theorem Sending.agree_step_iff {view next : View} {label : Label} (sending : Sending view)
    (roomy : env.Roomy) (only : ofColliders label) (agree : view.Agree)
    (stepped : view.step env label = some next) : next.Agree ↔ SlotFor view label := by
  cases label with
  | addToCollisionGrid memory self => exact sending.agree_add_iff roomy agree stepped
  | removeFromCollisionGridAndLists self =>
      exact iff_of_true (sending.remove roomy agree stepped) trivial
  | setFlags | frameStart | testAllColls | fetchAndAllColls | scolTrueOutmost
  | doManyCollisions | hitboxCollide | bgCollideAgainstTwopoint | bgCollideAgainstPoint =>
      contradiction

/-- The views agree at every point of a run of additions and removals exactly if
they agree at its start and there is always a slot. -/
theorem agree_run_iff (roomy : env.Roomy) {labels : List Label} {start final : View}
    (sending : Sending start) (only : ∀ label ∈ labels, ofColliders label)
    (ran : Machine.run (View.step env) start labels = some final) :
    (∀ taken rest view, labels = taken ++ rest →
        Machine.run (View.step env) start taken = some view → view.Agree) ↔
      start.Agree ∧ Machine.Along (View.step env) SlotFor start labels := by
  induction labels generalizing start with
  | nil =>
      constructor
      · intro agree
        exact ⟨agree [] [] start rfl rfl, trivial⟩
      · intro ⟨agree, _⟩ taken rest view split reached
        obtain ⟨rfl, _⟩ := List.append_eq_nil_iff.mp split.symm
        cases reached
        exact agree
  | cons label labels ih =>
      obtain ⟨next, stepped, remaining⟩ := Machine.run_cons_iff.mp ran
      have onlyLabel := only label (by simp)
      have later := ih (sending.step onlyLabel stepped)
        (fun other member => only other (by simp [member])) remaining
      rw [Machine.along_cons_iff stepped]
      constructor
      · intro agree
        have startAgree := agree [] (label :: labels) start rfl rfl
        obtain ⟨nextAgree, slots⟩ := later.mp (by
          intro taken rest view split reached
          apply agree (label :: taken) rest view (by rw [split, List.cons_append])
          exact Machine.run_cons_iff.mpr ⟨next, stepped, reached⟩)
        have slot := (sending.agree_step_iff roomy onlyLabel startAgree stepped).mp nextAgree
        exact ⟨startAgree, slot, slots⟩
      · intro ⟨startAgree, slot, slots⟩ taken rest view split reached
        cases taken with
        | nil =>
            cases reached
            exact startAgree
        | cons first taken =>
            obtain ⟨rfl, tail⟩ := List.cons.inj split
            obtain ⟨middle, again, reached⟩ := Machine.run_cons_iff.mp reached
            obtain rfl := Option.some.inj (stepped.symm.trans again)
            have nextAgree :=
              (sending.agree_step_iff roomy onlyLabel startAgree stepped).mpr slot
            exact later.mpr ⟨nextAgree, slots⟩ taken rest view tail reached

/-- From an 'allcols' packet on, the client's colliders are the server's at every
point exactly if it knew no others before, and no collider is added that
`s_colliders` has no slot for. -/
theorem resync_iff {earlier labels : List Label} {start sent final : View}
    (reached : Machine.run (Collision.step past) Collision.initial earlier = some start.server)
    (roomy : env.Roomy) (requested : start.server.testRpcFlag Collision.sendAllColls = true)
    (burst : start.step env (.fetchAndAllColls memory) = some sent)
    (hooked : sent.server.hooked Collision.sendCollStuff = true)
    (only : ∀ label ∈ labels, ofColliders label)
    (ran : Machine.run (View.step env) sent labels = some final) :
    (∀ taken rest view, labels = taken ++ rest →
        Machine.run (View.step env) sent taken = some view → view.Agree) ↔
      (∀ ptr ∈ start.client.normalColliderMap, ptr ∈ start.server.trackedColliders) ∧
        Machine.Along (View.step env) SlotFor sent labels := by
  have valid : start.server.CollidersValid :=
    Machine.run_preserves Collision.step_collidersValid Collision.initial_collidersValid reached
  have sending : Sending sent :=
    ⟨Collision.step_collidersValid valid (View.step_eq_some_iff.mp burst).1, hooked⟩
  obtain ⟨tracked, known⟩ := mem_after_burst roomy requested burst
  have agree_iff : sent.Agree ↔
      ∀ ptr ∈ start.client.normalColliderMap, ptr ∈ start.server.trackedColliders := by
    constructor
    · intro agree ptr member
      rw [← tracked]
      exact (agree ptr).mp ((known ptr).mpr (Or.inl member))
    · intro included ptr
      rw [known ptr, tracked]
      exact ⟨fun either => either.elim (included ptr) id, Or.inr⟩
  rw [agree_run_iff roomy sending only ran, agree_iff]

/-- A client that was told of collider 8. -/
def toldClient : HoseParser :=
  HoseParser.new.onMessage
    (.normalCollider .added (Memory.normalCollider (fun _ => 0) 8))

/-- The server tracks colliders 8 and 16 and is asked for all of them. -/
def trackingRun : List Label :=
  [.setFlags 0 Collision.sendCollStuff, .frameStart, .testAllColls,
    .addToCollisionGrid (fun _ => 0) 8, .addToCollisionGrid (fun _ => 0) 16,
    .setFlags 0 Collision.sendAllColls, .frameStart, .testAllColls]

theorem resync_iff_tracking :
    ∃ start sent final : View,
      Machine.run (Collision.step Collision.roomyEnv) Collision.initial trackingRun =
        some start.server ∧
      start.client = toldClient ∧
      start.step Collision.roomyEnv (.fetchAndAllColls fun _ => 0) = some sent ∧
      Machine.run (View.step Collision.roomyEnv) sent
        [.addToCollisionGrid (fun _ => 0) 24, .removeFromCollisionGridAndLists 8] = some final ∧
      final.client.normalColliderMap.keys = [16, 24] ∧ final.Agree := by
  obtain ⟨start, sent, final, reached, client, burst, ran, keys, requested, hooked, tracked,
      slots⟩ : ∃ start sent final : View,
        Machine.run (Collision.step Collision.roomyEnv) Collision.initial trackingRun =
          some start.server ∧
        start.client = toldClient ∧
        start.step Collision.roomyEnv (.fetchAndAllColls fun _ => 0) = some sent ∧
        Machine.run (View.step Collision.roomyEnv) sent
          [.addToCollisionGrid (fun _ => 0) 24, .removeFromCollisionGridAndLists 8] =
            some final ∧
        final.client.normalColliderMap.keys = [16, 24] ∧
        start.server.testRpcFlag Collision.sendAllColls = true ∧
        sent.server.hooked Collision.sendCollStuff = true ∧
        start.server.trackedColliders = [8, 16] ∧
        Machine.Along (View.step Collision.roomyEnv) SlotFor sent
          [.addToCollisionGrid (fun _ => 0) 24, .removeFromCollisionGridAndLists 8] :=
    ⟨⟨_, _⟩, _, _, rfl, rfl, rfl, rfl, rfl, rfl, rfl, rfl, by decide⟩
  refine ⟨start, sent, final, reached, client, burst, ran, keys, ?_⟩
  have included : ∀ ptr ∈ start.client.normalColliderMap, ptr ∈ start.server.trackedColliders := by
    have told : toldClient.normalColliderMap.keys = [8] := rfl
    intro ptr member
    rw [client, AList.mem_keys, told, List.mem_singleton] at member
    rw [member, tracked]
    exact List.mem_cons_self
  have only (label : Label) (member : label ∈ [.addToCollisionGrid (fun _ => 0) 24,
      .removeFromCollisionGridAndLists 8]) : ofColliders label := by
    rcases List.mem_cons.mp member with rfl | other
    · trivial
    · obtain rfl := List.mem_singleton.mp other
      trivial
  exact (resync_iff reached (fun _ => rfl) requested burst hooked only ran).mpr
    ⟨included, slots⟩ _ [] final (List.append_nil _).symm ran

/-- The server tracks nothing and is asked for everything. -/
def emptyRun : List Label :=
  [.setFlags 0 (Collision.sendCollStuff ||| Collision.sendAllColls), .frameStart, .testAllColls]

/-- The client keeps a collider that the server does not send. -/
theorem resync_keeps_stale :
    ∃ start sent : View,
      Machine.run (Collision.step Collision.roomyEnv) Collision.initial emptyRun =
        some start.server ∧
      start.client = toldClient ∧ start.server.testRpcFlag Collision.sendAllColls = true ∧
      start.step Collision.roomyEnv (.fetchAndAllColls fun _ => 0) = some sent ∧
      sent.server.hooked Collision.sendCollStuff = true ∧
      sent.client.normalColliderMap.keys = [8] ∧ sent.server.trackedColliders = [] ∧
      ¬ sent.Agree := by
  obtain ⟨start, sent, reached, client, requested, burst, hooked, known, tracked⟩ :
      ∃ start sent : View,
        Machine.run (Collision.step Collision.roomyEnv) Collision.initial emptyRun =
          some start.server ∧
        start.client = toldClient ∧ start.server.testRpcFlag Collision.sendAllColls = true ∧
        start.step Collision.roomyEnv (.fetchAndAllColls fun _ => 0) = some sent ∧
        sent.server.hooked Collision.sendCollStuff = true ∧
        sent.client.normalColliderMap.keys = [8] ∧ sent.server.trackedColliders = [] :=
    ⟨⟨_, _⟩, _, rfl, rfl, rfl, rfl, rfl, rfl, rfl⟩
  refine ⟨start, sent, reached, client, requested, burst, hooked, known, tracked, ?_⟩
  intro agree
  have member : (8 : Ptr) ∈ sent.client.normalColliderMap := by
    rw [AList.mem_keys, known]
    exact List.mem_singleton_self 8
  have sentToo := (agree 8).mp member
  rw [tracked] at sentToo
  contradiction

end Smmboss.Client
