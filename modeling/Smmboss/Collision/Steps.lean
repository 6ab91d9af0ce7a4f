import Smmboss.Foundation.Segments
import Smmboss.Collision.Server

namespace Smmboss.Collision

open StupidHash (Table)
open Segments (Grows)

/-! # What the steps change -/

namespace State

variable {env : Env} {state after : State} {memory : Memory} {packet : HosePacket}

/-- What a call of `write_packet` adds to the log. -/
def events (env : Env) (state : State) (packet : HosePacket) : List Event :=
  if env.room state.writes then [.published packet]
  else if state.justWroteOverrun then []
  else [.published .overrun]

theorem writePacket_eq (env : Env) (state : State) (packet : HosePacket) :
    state.writePacket env packet =
      { state with
        writes := state.writes + 1
        justWroteOverrun := !env.room state.writes
        log := state.log ++ state.events env packet } := by
  obtain ⟨_, _, _, _, _, justWroteOverrun, writes, _, _, _⟩ := state
  cases room : env.room writes with
  | true => simp [writePacket, events, publish, room]
  | false => cases justWroteOverrun <;> simp [writePacket, events, refuse, room]

theorem refuse_eq_writePacket (failed : env.room state.writes = false) (packet : HosePacket) :
    state.refuse = state.writePacket env packet := by
  simp [writePacket, failed]

@[simp] theorem writePacket_colliders :
    (state.writePacket env packet).colliders = state.colliders := by
  rw [writePacket_eq]

@[simp] theorem writePacket_hashedScols :
    (state.writePacket env packet).hashedScols = state.hashedScols := by
  rw [writePacket_eq]

@[simp] theorem writePacket_hitboxesThisFrame :
    (state.writePacket env packet).hitboxesThisFrame = state.hitboxesThisFrame := by
  rw [writePacket_eq]

@[simp] theorem writePacket_alive : (state.writePacket env packet).alive = state.alive := by
  rw [writePacket_eq]

@[simp] theorem writePacket_writes :
    (state.writePacket env packet).writes = state.writes + 1 := by
  rw [writePacket_eq]

@[simp] theorem writePacket_log :
    (state.writePacket env packet).log = state.log ++ state.events env packet := by
  rw [writePacket_eq]

theorem writePacket_log_of_roomy (roomy : env.Roomy) (state : State) (packet : HosePacket) :
    (state.writePacket env packet).log = state.log ++ [.published packet] := by
  rw [writePacket_log, events, roomy, if_pos rfl]

theorem published_mem_events {other : HosePacket} (ordinary : other ≠ .overrun) :
    .published other ∈ state.events env packet ↔
      env.room state.writes = true ∧ other = packet := by
  unfold events
  split
  · simp [*]
  · split <;> simp [*]

theorem mem_events {event : Event} (member : event ∈ state.events env packet) :
    event = .published packet ∨ event = .published .overrun := by
  unfold events at member
  split at member
  · exact Or.inl (List.mem_singleton.mp member)
  · split at member
    · cases member
    · exact Or.inr (List.mem_singleton.mp member)

theorem writePacket_grows {Allowed : Event → Prop} (env : Env) (state : State)
    (packetAllowed : Allowed (.published packet))
    (overrunAllowed : Allowed (.published .overrun)) :
    Grows Allowed state.log (state.writePacket env packet).log := by
  refine ⟨_, writePacket_log, ?_⟩
  intro event member
  rcases mem_events member with rfl | rfl
  · exact packetAllowed
  · exact overrunAllowed

/-! ## The hooks taken apart -/

theorem reportHitbox_cases {hb : Ptr} (reported : state.reportHitbox env memory hb = some after) :
    ∃ key table entry seen, key.toPtr = hb ∧
      state.hitboxesThisFrame.lookup hitboxesParams key true = some (table, entry, seen) ∧
      after = if seen then { state with hitboxesThisFrame := table }
        else { state with hitboxesThisFrame := table }.writePacket env (memory.hitbox hb) := by
  unfold reportHitbox at reported
  split at reported
  · cases reported
  · simp only [Option.bind_eq_bind, Option.pure_def, Option.bind_eq_some_iff, Prod.exists,
      Option.some.injEq] at reported
    obtain ⟨key, made, table, entry, seen, looked, rfl⟩ := reported
    exact ⟨key, table, entry, seen, UInt48.ofPtr_eq_some_iff.mp made, looked, rfl⟩

theorem writeCachedDump_cases {entry : Option Nat} {found sent : Bool}
    (written : state.writeCachedDump env entry found packet = (after, sent)) :
    (env.room state.writes = false ∧ after = state.writePacket env packet ∧
        sent = env.unassigned state.writes) ∨
      (env.room state.writes = true ∧ state.oldHash entry found ≠ some (env.xxh3 packet.body) ∧
        after = (state.storeHash entry (env.xxh3 packet.body)).publish packet ∧ sent = true) ∨
      (env.room state.writes = true ∧ state.oldHash entry found = some (env.xxh3 packet.body) ∧
        after = (state.storeHash entry (env.xxh3 packet.body)).decline ∧ sent = false) := by
  rw [writeCachedDump] at written
  cases room : env.room state.writes with
  | false =>
      rw [room, refuse_eq_writePacket room packet] at written
      obtain ⟨rfl, rfl⟩ := Prod.mk.inj written
      exact Or.inl ⟨rfl, rfl, rfl⟩
  | true =>
      rw [room, if_pos rfl] at written
      dsimp only at written
      split at written
      · obtain ⟨rfl, rfl⟩ := Prod.mk.inj written
        exact Or.inr (Or.inl ⟨rfl, ‹_›, rfl, rfl⟩)
      · obtain ⟨rfl, rfl⟩ := Prod.mk.inj written
        exact Or.inr (Or.inr ⟨rfl, not_not.mp ‹_›, rfl, rfl⟩)

theorem scolTrueOutmost_cases {self : Ptr}
    (called : state.scolTrueOutmost env memory self = some after) :
    (state.hooked sendCollStuff = false ∧ after = state) ∨
      (state.hooked sendCollStuff = true ∧ ∃ key table entry found, key.toPtr = self ∧
        state.hashedScols.lookup hashedScolsParams key true = some (table, entry, found) ∧
        ∃ dumped sent,
          { state with hashedScols := table }.writeCachedDump env entry found
            (.scolCollider (memory.scolCollider self)) = (dumped, sent) ∧
          after = if sent then dumped
            else dumped.writePacket env (.hashedScolCollider self)) := by
  unfold scolTrueOutmost at called
  split at called
  · simp only [Option.bind_eq_bind, Option.pure_def, Option.bind_eq_some_iff,
      Prod.exists, Option.some.injEq] at called
    obtain ⟨key, made, table, entry, found, looked, rfl⟩ := called
    exact Or.inr ⟨‹_›, key, table, entry, found, UInt48.ofPtr_eq_some_iff.mp made, looked,
      _, _, rfl, rfl⟩
  · exact Or.inl ⟨Bool.eq_false_iff.mpr ‹_›, (Option.some.inj called).symm⟩

theorem trackCollider_cases {self : Ptr}
    (called : state.trackCollider env memory self = some after) :
    (state.hooked sendCollStuff = false ∧ after = state) ∨
      (state.hooked sendCollStuff = true ∧ ∃ key table entry found, key.toPtr = self ∧
        state.colliders.lookup collidersParams key true = some (table, entry, found) ∧
        after = { state with colliders := table }.reportNormalCollider env memory .added self) := by
  unfold trackCollider at called
  split at called
  · simp only [Option.bind_eq_bind, Option.pure_def, Option.bind_eq_some_iff,
      Prod.exists, Option.some.injEq] at called
    obtain ⟨key, made, table, entry, found, looked, rfl⟩ := called
    exact Or.inr ⟨‹_›, key, table, entry, found, UInt48.ofPtr_eq_some_iff.mp made, looked, rfl⟩
  · exact Or.inl ⟨Bool.eq_false_iff.mpr ‹_›, (Option.some.inj called).symm⟩

theorem untrackCollider_cases {self : Ptr} (called : state.untrackCollider env self = some after) :
    (state.hooked sendCollStuff = false ∧ after = state) ∨
      (state.hooked sendCollStuff = true ∧ ∃ key table entry found, key.toPtr = self ∧
        state.colliders.lookup collidersParams key false = some (table, entry, found) ∧
        ((entry = none ∧ after = { state with colliders := table }) ∨
          ∃ idx removed, entry = some idx ∧ table.remove collidersParams idx = some removed ∧
            after = { state with colliders := removed }.writePacket env
              (.normalColliderGone self))) := by
  unfold untrackCollider at called
  split at called
  · simp only [Option.bind_eq_bind, Option.bind_eq_some_iff, Prod.exists] at called
    obtain ⟨key, made, table, entry, found, looked, called⟩ := called
    refine Or.inr ⟨‹_›, key, table, entry, found, UInt48.ofPtr_eq_some_iff.mp made, looked, ?_⟩
    cases entry with
    | none => exact Or.inl ⟨rfl, (Option.some.inj called).symm⟩
    | some idx =>
        obtain ⟨removed, succeeded, called⟩ := Option.bind_eq_some_iff.mp called
        exact Or.inr ⟨idx, removed, rfl, succeeded, (Option.some.inj called).symm⟩
  · exact Or.inl ⟨Bool.eq_false_iff.mpr ‹_›, (Option.some.inj called).symm⟩

end State

variable {env : Env} {before after : State} {label : Label}

theorem step_cases (stepped : step env before label = some after) :
    (∃ clear set, label = .setFlags clear set ∧
        after = { before with flags := before.flags &&& ~~~clear ||| set }) ∨
      (label = .testAllColls ∧ before.game = .testAllColls ∧ after = { before with
        game := if before.testRpcFlag sendAllColls then .clearAllColls else .playing }) ∨
      (∃ memory, label = .fetchAndAllColls memory ∧ before.game = .clearAllColls ∧
        after = before.fetchAndAllColls env memory) ∨
      (before.game = .playing ∧ play env before label = some after) := by
  unfold step at stepped
  split at stepped
  · exact Or.inl ⟨_, _, rfl, (Option.some.inj stepped).symm⟩
  · exact Or.inr (Or.inl ⟨rfl, ‹_›, (Option.some.inj stepped).symm⟩)
  · exact Or.inr (Or.inr (Or.inl ⟨_, rfl, ‹_›, (Option.some.inj stepped).symm⟩))
  · exact Or.inr (Or.inr (Or.inr ⟨‹_›, stepped⟩))
  · cases stepped

/-- The game thread's steps outside the frame start. -/
def Label.played : Label → Bool
  | .setFlags _ _ | .testAllColls | .fetchAndAllColls _ => false
  | .frameStart | .addToCollisionGrid _ _ | .removeFromCollisionGridAndLists _
  | .scolTrueOutmost _ _ | .doManyCollisions _ _ _ | .hitboxCollide _ _ _ _
  | .bgCollideAgainstTwopoint _ _ | .bgCollideAgainstPoint _ _ => true

theorem play_of_step (played : label.played = true) (stepped : step env before label = some after) :
    play env before label = some after := by
  rcases step_cases stepped with
    ⟨_, _, rfl, _⟩ | ⟨rfl, _⟩ | ⟨_, rfl, _⟩ | ⟨_, stepped⟩
  · contradiction
  · contradiction
  · contradiction
  · exact stepped

/-! ## Frames

Each hook works on one of the three tables, and publishes packets.  A relation
between states that holds across both holds across the hook.
-/

inductive Component where
  | colliders
  | hashedScols
  | hitboxes
deriving DecidableEq

/-- The components a step may change. -/
def Label.changes : Label → Component → Bool
  | .addToCollisionGrid _ _, component | .removeFromCollisionGridAndLists _, component =>
      component = .colliders
  | .fetchAndAllColls _, component | .scolTrueOutmost _ _, component => component = .hashedScols
  | .frameStart, component | .doManyCollisions _ _ _, component
  | .hitboxCollide _ _ _ _, component => component = .hitboxes
  | .setFlags _ _, _ | .testAllColls, _ | .bgCollideAgainstTwopoint _ _, _
  | .bgCollideAgainstPoint _ _, _ => false

/-- The component an event of the log is about. -/
def Event.component : Event → Option Component
  | .scolsCleared => some .hashedScols
  | .published packet =>
      match packet with
      | .hitbox _ _ _ | .collisi _ _ _ | .doMany _ _ => some .hitboxes
      | .normalCollider _ _ | .normalColliderGone _ => some .colliders
      | .scolCollider _ | .hashedScolCollider _ => some .hashedScols
      | .bgCollisionTwopoint _ | .bgCollisionPoint _ | .allcols | .overrun => none

def Event.OutsideOf (component : Component) (event : Event) : Prop :=
  event.component ≠ some component

theorem overrun_outsideOf (component : Component) :
    Event.OutsideOf component (.published .overrun) := nofun

/-- The components a step may log events of. -/
def Label.logs : Label → Component → Bool
  | .addToCollisionGrid _ _, component | .removeFromCollisionGridAndLists _, component =>
      component = .colliders
  | .fetchAndAllColls _, component => component = .colliders ∨ component = .hashedScols
  | .scolTrueOutmost _ _, component => component = .hashedScols
  | .doManyCollisions _ _ _, component | .hitboxCollide _ _ _ _, component =>
      component = .hitboxes
  | .setFlags _ _, _ | .frameStart, _ | .testAllColls, _ | .bgCollideAgainstTwopoint _ _, _
  | .bgCollideAgainstPoint _ _, _ => false

/-- A relation that composes, and that holds across every call of `write_packet` for an
`Allowed` packet. -/
structure Frame (env : Env) (Allowed : HosePacket → Prop) (rel : State → State → Prop) :
    Prop where
  refl (state : State) : rel state state
  trans {first middle last : State} : rel first middle → rel middle last → rel first last
  write (state : State) {packet : HosePacket} :
    Allowed packet → rel state (state.writePacket env packet)
  decline (state : State) : rel state state.decline

namespace Frame

variable {Allowed : HosePacket → Prop} {rel : State → State → Prop} {memory : Memory}
  {self hb hb1 hb2 : Ptr}

theorem reportHitbox (frame : Frame env Allowed rel)
    (hitboxes : ∀ state table, rel state { state with hitboxesThisFrame := table })
    (allowed : Allowed (memory.hitbox hb))
    (reported : before.reportHitbox env memory hb = some after) : rel before after := by
  obtain ⟨_, table, _, seen, _, _, rfl⟩ := State.reportHitbox_cases reported
  cases seen with
  | true => exact hitboxes before table
  | false => exact frame.trans (hitboxes before table) (frame.write _ allowed)

theorem hitboxCollide {ret : UInt64} (frame : Frame env Allowed rel)
    (hitboxes : ∀ state table, rel state { state with hitboxesThisFrame := table })
    (hitboxAllowed : ∀ hb, Allowed (memory.hitbox hb)) (allowed : Allowed (.collisi hb1 hb2 ret))
    (called : before.hitboxCollide env memory hb1 hb2 ret = some after) : rel before after := by
  unfold State.hitboxCollide at called
  split at called
  · simp only [Option.bind_eq_bind, Option.pure_def, Option.bind_eq_some_iff,
      Option.some.injEq] at called
    obtain ⟨first, firstReported, second, secondReported, rfl⟩ := called
    have atFirst := frame.reportHitbox hitboxes (hitboxAllowed hb1) firstReported
    have atSecond := frame.reportHitbox hitboxes (hitboxAllowed hb2) secondReported
    exact frame.trans (frame.trans atFirst atSecond) (frame.write second allowed)
  · cases called
    exact frame.refl before

theorem doManyCollisions {boxes : List Ptr} (frame : Frame env Allowed rel)
    (hitboxes : ∀ state table, rel state { state with hitboxesThisFrame := table })
    (hitboxAllowed : ∀ hb, Allowed (memory.hitbox hb)) (allowed : Allowed (memory.doMany self))
    (called : before.areaSystemDoManyCollisions env memory self boxes = some after) :
    rel before after := by
  unfold State.areaSystemDoManyCollisions at called
  split at called
  · rw [Machine.foldlM_eq_run] at called
    have reported {state next : State} {hb : Ptr} (reached : rel before state)
        (reported : state.reportHitbox env memory hb = some next) : rel before next :=
      frame.trans reached (frame.reportHitbox hitboxes (hitboxAllowed hb) reported)
    exact Machine.run_preserves reported (frame.write before allowed) called
  · cases called
    exact frame.refl before

theorem writeCachedDump {entry : Option Nat} {found sent : Bool} {packet : HosePacket}
    (frame : Frame env Allowed rel)
    (hashedScols : ∀ state table, rel state { state with hashedScols := table })
    (allowed : Allowed packet)
    (written : before.writeCachedDump env entry found packet = (after, sent)) :
    rel before after := by
  have stored (hash : UInt64) : rel before (before.storeHash entry hash) := hashedScols before _
  rcases State.writeCachedDump_cases written with
    ⟨_, rfl, _⟩ | ⟨room, _, rfl, _⟩ | ⟨_, _, rfl, _⟩
  · exact frame.write before allowed
  · have published := frame.write (before.storeHash entry (env.xxh3 packet.body)) allowed
    rw [State.writePacket, State.storeHash, if_pos room] at published
    exact frame.trans (stored _) published
  · exact frame.trans (stored _) (frame.decline _)

theorem scolTrueOutmost (frame : Frame env Allowed rel)
    (hashedScols : ∀ state table, rel state { state with hashedScols := table })
    (dumpAllowed : Allowed (.scolCollider (memory.scolCollider self)))
    (allowed : Allowed (.hashedScolCollider self))
    (called : before.scolTrueOutmost env memory self = some after) : rel before after := by
  rcases State.scolTrueOutmost_cases called with
    ⟨_, rfl⟩ | ⟨_, _, table, entry, found, _, _, dumped, sent, written, rfl⟩
  · exact frame.refl _
  · have reached : rel before dumped := frame.trans (hashedScols before table)
      (frame.writeCachedDump hashedScols dumpAllowed written)
    cases sent with
    | true => exact reached
    | false => exact frame.trans reached (frame.write dumped allowed)

theorem trackCollider (frame : Frame env Allowed rel)
    (colliders : ∀ state table, rel state { state with colliders := table })
    (allowed : Allowed (.normalCollider .added (memory.normalCollider self)))
    (called : before.trackCollider env memory self = some after) : rel before after := by
  rcases State.trackCollider_cases called with ⟨_, rfl⟩ | ⟨_, _, table, _, _, _, _, rfl⟩
  · exact frame.refl _
  · exact frame.trans (colliders before table) (frame.write _ allowed)

theorem untrackCollider (frame : Frame env Allowed rel)
    (colliders : ∀ state table, rel state { state with colliders := table })
    (allowed : Allowed (.normalColliderGone self))
    (called : before.untrackCollider env self = some after) : rel before after := by
  rcases State.untrackCollider_cases called with
    ⟨_, rfl⟩ | ⟨_, _, table, _, _, _, _, ⟨_, rfl⟩ | ⟨_, removed, _, _, rfl⟩⟩
  · exact frame.refl _
  · exact colliders before table
  · exact frame.trans (colliders before removed) (frame.write _ allowed)

theorem bgCollide {packet : HosePacket} (frame : Frame env Allowed rel) (allowed : Allowed packet)
    (state : State) : rel state (state.bgCollide env packet) := by
  unfold State.bgCollide
  split
  · exact frame.write state allowed
  · exact frame.refl state

theorem sendAllColliders (frame : Frame env Allowed rel) (allcolsAllowed : Allowed .allcols)
    (allowed : ∀ nc, Allowed (.normalCollider .all (memory.normalCollider nc))) (state : State) :
    rel state (state.sendAllColliders env memory) := by
  have reported (colliders : List Ptr) (start : State) :
      rel start (colliders.foldl (State.reportNormalCollider env memory .all) start) := by
    induction colliders generalizing start with
    | nil => exact frame.refl start
    | cons nc rest ih => exact frame.trans (frame.write start (allowed _)) (ih _)
  exact frame.trans (frame.write state allcolsAllowed) (reported _ _)

theorem fetchAndAllColls (frame : Frame env Allowed rel)
    (flags : ∀ state flags, rel state { state with flags })
    (game : ∀ state game, rel state { state with game })
    (cleared : ∀ state, rel state state.clearScols) (allcolsAllowed : Allowed .allcols)
    (allowed : ∀ nc, Allowed (.normalCollider .all (memory.normalCollider nc))) (state : State) :
    rel state (state.fetchAndAllColls env memory) := by
  let flagged : State := { state with flags := state.flags &&& ~~~sendAllColls }
  have entered : rel state { flagged with game := .playing } :=
    frame.trans (flags state flagged.flags) (game flagged _)
  unfold State.fetchAndAllColls
  dsimp only
  split
  · exact frame.trans entered
      (frame.trans (cleared _) (frame.sendAllColliders allcolsAllowed allowed _))
  · exact entered

/-- What is left to show of a step: the components it `changes`, and the packets of those
that it `logs`. -/
theorem step (frame : Frame env Allowed rel)
    (flags : ∀ state flags, rel state { state with flags })
    (installed : ∀ state installed, rel state { state with installed })
    (game : ∀ state game, rel state { state with game })
    (colliders : label.changes .colliders → (∀ state alive, rel state { state with alive }) ∧
      ∀ state table, rel state { state with colliders := table })
    (hashedScols : label.changes .hashedScols →
      ∀ state table, rel state { state with hashedScols := table })
    (hitboxes : label.changes .hitboxes →
      ∀ state table, rel state { state with hitboxesThisFrame := table })
    (cleared : label.changes .hashedScols → label.logs .hashedScols →
      ∀ state, rel state state.clearScols)
    (packets : ∀ packet, (∀ component, (Event.published packet).component = some component →
      label.logs component) → Allowed packet)
    (stepped : step env before label = some after) : rel before after := by
  have logged {component : Component} {packet : HosePacket} (logs : label.logs component)
      (own : (Event.published packet).component = some component) : Allowed packet := by
    refine packets packet fun other same => ?_
    rw [own] at same
    cases same
    exact logs
  rcases step_cases stepped with
    ⟨clear, set, rfl, rfl⟩ | ⟨rfl, _, rfl⟩ | ⟨memory, rfl, _, rfl⟩ | ⟨_, played⟩
  · exact flags before _
  · exact game before _
  · exact frame.fetchAndAllColls flags game (cleared rfl rfl) (packets _ nofun)
      (fun _ => logged rfl rfl) before
  · cases label with
    | setFlags => cases played
    | testAllColls => cases played
    | fetchAndAllColls => cases played
    | frameStart =>
        cases played
        unfold State.frameStart
        split
        · let hooked := { before with installed := true }
          let emptied := { hooked with hitboxesThisFrame := before.hitboxesThisFrame.clear }
          have reached : rel before emptied :=
            frame.trans (installed before true) (hitboxes rfl hooked _)
          exact frame.trans reached (game emptied _)
        · exact frame.refl before
    | addToCollisionGrid memory self =>
        obtain ⟨alive, table⟩ := colliders rfl
        exact frame.trans (alive before _) (frame.trackCollider table (logged rfl rfl) played)
    | removeFromCollisionGridAndLists self =>
        obtain ⟨alive, table⟩ := colliders rfl
        exact frame.trans (alive before _) (frame.untrackCollider table (logged rfl rfl) played)
    | scolTrueOutmost memory self =>
        exact frame.scolTrueOutmost (hashedScols rfl) (logged rfl rfl) (logged rfl rfl) played
    | doManyCollisions memory self boxes =>
        exact frame.doManyCollisions (hitboxes rfl) (fun _ => logged rfl rfl) (logged rfl rfl) played
    | hitboxCollide memory hb1 hb2 ret =>
        exact frame.hitboxCollide (hitboxes rfl) (fun _ => logged rfl rfl) (logged rfl rfl) played
    | bgCollideAgainstTwopoint memory call =>
        cases played
        exact frame.bgCollide (packets (.bgCollisionTwopoint _) nofun) before
    | bgCollideAgainstPoint memory call =>
        cases played
        exact frame.bgCollide (packets (.bgCollisionPoint _) nofun) before

end Frame

/-! ## What the steps leave alone -/

/-- A view that does not show what `write_packet` changes. -/
def Blind (view : State → α) : Prop :=
  ∀ (state : State) (writes : Nat) (justWroteOverrun : Bool) (log : List Event),
    view { state with writes, justWroteOverrun, log } = view state

theorem Blind.frame {view : State → α} (blind : Blind view) :
    Frame env (fun _ => True) (fun before after => view after = view before) where
  refl _ := rfl
  trans first second := second.trans first
  write state := by
    intro packet _
    rw [State.writePacket_eq]
    exact blind state _ _ _
  decline state := blind state _ state.justWroteOverrun state.log

/-- A step changes only the components that it `changes`, besides the flags and
what `write_packet` and the frame start keep for themselves. -/
theorem Blind.step {view : State → α} (blind : Blind view)
    (flags : ∀ state flags, view { state with flags } = view state)
    (installed : ∀ state installed, view { state with installed } = view state)
    (game : ∀ state game, view { state with game } = view state)
    (colliders : label.changes .colliders → (∀ state alive, view { state with alive } = view state) ∧
      ∀ state table, view { state with colliders := table } = view state)
    (hashedScols : label.changes .hashedScols →
      ∀ state table, view { state with hashedScols := table } = view state)
    (hitboxes : label.changes .hitboxes →
      ∀ state table, view { state with hitboxesThisFrame := table } = view state)
    (stepped : step env before label = some after) : view after = view before := by
  refine blind.frame.step flags installed game colliders hashedScols hitboxes ?_
    (fun _ _ => trivial) stepped
  intro changes _ state
  have emptied := hashedScols changes state state.hashedScols.clear
  exact (blind _ state.writes state.justWroteOverrun _).trans emptied

/-- The log grows by allowed events. -/
theorem log_frame {Allowed : Event → Prop} (overrunAllowed : Allowed (.published .overrun)) :
    Frame env (fun packet => Allowed (.published packet))
      (fun before after => Grows Allowed before.log after.log) where
  refl state := Grows.refl state.log
  trans first second := first.trans second
  write state := by
    intro packet allowed
    exact State.writePacket_grows env state allowed overrunAllowed
  decline state := Grows.refl state.log

/-- A step logs events only of the components that it `logs`. -/
theorem step_grows {component : Component} (quiet : label.logs component = false)
    (stepped : step env before label = some after) :
    Grows (Event.OutsideOf component) before.log after.log := by
  have same (state : State) : Grows (Event.OutsideOf component) state.log state.log :=
    Grows.refl state.log
  refine (log_frame (overrun_outsideOf component)).step (fun state _ => same state)
    (fun state _ => same state) (fun state _ => same state)
    (fun _ => ⟨fun state _ => same state, fun state _ => same state⟩)
    (fun _ state _ => same state) (fun _ state _ => same state) ?_ ?_ stepped
  · intro _ logs state
    apply Grows.snoc
    intro own
    cases own
    rw [quiet] at logs
    contradiction
  · intro packet logs own
    have logged := logs component own
    rw [quiet] at logged
    contradiction

end Smmboss.Collision
