import Mathlib.Data.Set.Function
import Smmboss.Collision.Steps

namespace Smmboss.Collision

open StupidHash (Table)
open Segments (Grows)

/-! # Cached dumps

Instead of a dump that the client has already, `scol_true_outmost` publishes
'scolco~'.  It decides by the hash stored for the pointer, which only the review
callback of a successful reservation updates.
-/

variable {env : Env} {bodies : Set (List UInt8)} {before after : State} {memory : Memory}
  {self scol : Ptr} {label : Label}

def ScolCollider.body (collider : ScolCollider) : List UInt8 :=
  (HosePacket.scolCollider collider).body

/-- What `self` would be dumped with. -/
def Memory.scolBody (memory : Memory) (self : Ptr) : List UInt8 := (memory.scolCollider self).body

def Event.isClear (event : Event) : Bool := event = .scolsCleared

def Event.dumpOf? (scol : Ptr) : Event → Option ScolCollider
  | .published (.scolCollider collider) => if collider.self = scol then some collider else none
  | _ => none

/-- The latest dump of `scol` since the cache was last cleared. -/
def latestDump (log : List Event) (scol : Ptr) : Option ScolCollider :=
  ((Segments.since Event.isClear log).filterMap (Event.dumpOf? scol)).getLast?

theorem latestDump_snoc (log : List Event) (event : Event) (scol : Ptr) :
    latestDump (log ++ [event]) scol =
      if event.isClear then none else (event.dumpOf? scol).or (latestDump log scol) := by
  rw [latestDump, Segments.since_snoc]
  cases cleared : event.isClear with
  | true => rfl
  | false =>
      cases dump : event.dumpOf? scol with
      | none => simp [latestDump, dump]
      | some collider => simp [dump]

theorem latestDump_outside {event : Event} (outside : event.OutsideOf .hashedScols)
    (log : List Event) : latestDump (log ++ [event]) scol = latestDump log scol := by
  have unmarked : event.isClear = false := by
    cases event with
    | scolsCleared => contradiction
    | published packet => rfl
  have other : event.dumpOf? scol = none := by
    cases event with
    | scolsCleared => rfl
    | published packet => cases packet <;> first | rfl | contradiction
  rw [latestDump_snoc, unmarked, other]
  rfl

theorem latestDump_grows {log grown : List Event}
    (grows : Grows (Event.OutsideOf .hashedScols) log grown) :
    latestDump grown scol = latestDump log scol := by
  obtain ⟨news, rfl, outside⟩ := grows
  induction news using List.reverseRecOn with
  | nil => rw [List.append_nil]
  | append_singleton news last ih =>
      have rest : ∀ event ∈ news, event.OutsideOf .hashedScols :=
        fun event member => outside event (by simp [member])
      rw [← List.append_assoc, latestDump_outside (outside last (by simp)), ih rest]

/-- 'scolco~' is no dump. -/
theorem latestDump_hashed (log : List Event) :
    latestDump (log ++ [.published (.hashedScolCollider self)]) scol = latestDump log scol := by
  rw [latestDump_snoc]
  rfl

theorem latestDump_events_hashed (state : State) :
    latestDump (state.log ++ state.events env (.hashedScolCollider self)) scol =
      latestDump state.log scol := by
  unfold State.events
  split
  · exact latestDump_hashed _
  · split
    · rw [List.append_nil]
    · exact latestDump_outside (overrun_outsideOf _) _

theorem latestDump_events_refused {state : State} (failed : env.room state.writes = false)
    (packet : HosePacket) :
    latestDump (state.log ++ state.events env packet) scol = latestDump state.log scol := by
  unfold State.events
  rw [failed, if_neg Bool.false_ne_true]
  split
  · rw [List.append_nil]
  · exact latestDump_outside (overrun_outsideOf _) _

theorem hashed_mem_events {state : State} {packet : HosePacket} :
    .published (.hashedScolCollider scol) ∈ state.events env packet ↔
      env.room state.writes = true ∧ HosePacket.hashedScolCollider scol = packet :=
  State.published_mem_events nofun

/-- Every stored hash is that of the latest dump of its pointer. -/
structure Cached (env : Env) (bodies : Set (List UInt8)) (state : State) : Prop where
  valid : state.hashedScols.Valid hashedScolsParams
  hashed : ∀ idx, state.hashedScols.Live idx → ∃ collider,
    latestDump state.log (state.hashedScols.entries idx).key.toPtr = some collider ∧
      (state.hashedScols.entries idx).value = env.xxh3 collider.body
  known : ∀ scol collider, latestDump state.log scol = some collider → collider.body ∈ bodies

theorem initial_cached : Cached env bodies initial where
  valid := StupidHash.zero_valid
  hashed := by
    intro idx alive
    have positive := alive.1
    have bound : idx ≤ 0 := alive.2
    omega
  known := by
    intro scol collider found
    contradiction

theorem Cached.of_same (cached : Cached env bodies before)
    (table : after.hashedScols = before.hashedScols)
    (latest : ∀ scol, latestDump after.log scol = latestDump before.log scol) :
    Cached env bodies after where
  valid := table ▸ cached.valid
  hashed := by
    intro idx alive
    rw [table] at alive ⊢
    rw [latest]
    exact cached.hashed idx alive
  known := by
    intro scol collider found
    exact cached.known scol collider ((latest scol).symm.trans found)

/-- Clearing the cache starts over. -/
theorem Cached.of_cleared (table : after.hashedScols = before.hashedScols.clear)
    (latest : ∀ scol, latestDump after.log scol = none) : Cached env bodies after where
  valid := table ▸ StupidHash.clear_valid hashedScolsParams before.hashedScols
  hashed := by
    intro idx alive
    rw [table] at alive
    have positive := alive.1
    have bound : idx ≤ 0 := alive.2
    omega
  known := by
    intro scol collider found
    rw [latest] at found
    contradiction

/-- The review callback stores the hash of a dump that is the latest one. -/
theorem Cached.refresh (cached : Cached env bodies before) {key : UInt48}
    {table : Table UInt48 UInt64} {entry : Option Nat} {found : Bool} {collider : ScolCollider}
    (looked : before.hashedScols.lookup hashedScolsParams key true = some (table, entry, found))
    (stored : after.hashedScols = table.storeEntry entry (env.xxh3 collider.body))
    (dumped : latestDump after.log key.toPtr = some collider) (known : collider.body ∈ bodies)
    (others : ∀ scol, scol ≠ key.toPtr → latestDump after.log scol = latestDump before.log scol) :
    Cached env bodies after := by
  obtain ⟨valid, entries⟩ :=
    StupidHash.lookup_storeEntry cached.valid looked (env.xxh3 collider.body)
  rw [← stored] at valid entries
  refine ⟨valid, ?_, ?_⟩
  · intro idx alive
    rcases entries idx alive with ⟨at_key, value⟩ | ⟨apart, old, at_key, value⟩
    · exact ⟨collider, at_key ▸ dumped, value⟩
    · have elsewhere : (before.hashedScols.entries idx).key.toPtr ≠ key.toPtr :=
        fun same => apart (UInt48.toPtr_injective same)
      rw [at_key, value, others _ elsewhere]
      exact cached.hashed idx old
  · intro scol other latest
    by_cases same : scol = key.toPtr
    · rw [same, dumped] at latest
      cases latest
      exact known
    · rw [others scol same] at latest
      exact cached.known scol other latest

/-! ## One call of the hook -/

/-- What publishing 'scolco~' for `scol` promises. -/
def Vouched (state : State) (scol : Ptr) (body : List UInt8) : Prop :=
  ∃ collider, latestDump state.log scol = some collider ∧ collider.body = body

theorem Cached.vouched (cached : Cached env bodies before) (distinct : Set.InjOn env.xxh3 bodies)
    {idx : Nat} (alive : before.hashedScols.Live idx) {body : List UInt8} (known : body ∈ bodies)
    (same : (before.hashedScols.entries idx).value = env.xxh3 body) :
    Vouched before (before.hashedScols.entries idx).key.toPtr body := by
  obtain ⟨collider, latest, value⟩ := cached.hashed idx alive
  have hashes : env.xxh3 collider.body = env.xxh3 body := value.symm.trans same
  exact ⟨collider, latest, distinct (cached.known _ collider latest) known hashes⟩

/-- `s_hashed_scols` has an entry for `self`. -/
def State.HasScol (state : State) (self : Ptr) : Prop :=
  ∃ entry ∈ state.hashedScols.toList, entry.1.toPtr = self

/-- It has one with this hash. -/
def State.HasHash (state : State) (self : Ptr) (hash : UInt64) : Prop :=
  ∃ entry ∈ state.hashedScols.toList, entry.1.toPtr = self ∧ entry.2 = hash

def State.ScolsFull (state : State) : Prop :=
  state.hashedScols.entriesCount = hashedScolsParams.numEntrySlots

/-- Where there is no room for the dump, so that the review callback does not
run, the call makes no entry, and publishes 'scolco~' only for what is stored. -/
def DumpReviewed (env : Env) (state : State) : Label → Prop
  | .scolTrueOutmost memory self =>
      state.hooked sendCollStuff = true → env.room state.writes = false →
        (state.HasScol self ∨ state.ScolsFull) ∧
          (env.unassigned state.writes = true ∨ env.room (state.writes + 1) = false ∨
            state.HasHash self (env.xxh3 (memory.scolBody self)))
  | _ => True

instance (env : Env) (state : State) (label : Label) : Decidable (DumpReviewed env state label) :=
  match label with
  | .scolTrueOutmost _ _ =>
      have : Decidable state.ScolsFull := inferInstanceAs (Decidable (_ = _))
      have (self : Ptr) : Decidable (state.HasScol self) :=
        inferInstanceAs (Decidable (∃ entry ∈ state.hashedScols.toList, _))
      have (self : Ptr) (hash : UInt64) : Decidable (state.HasHash self hash) :=
        inferInstanceAs (Decidable (∃ entry ∈ state.hashedScols.toList, _))
      inferInstanceAs (Decidable (_ → _ → _))
  | .setFlags _ _ | .frameStart | .testAllColls | .fetchAndAllColls _ | .addToCollisionGrid _ _
  | .removeFromCollisionGridAndLists _ | .doManyCollisions _ _ _ | .hitboxCollide _ _ _ _
  | .bgCollideAgainstTwopoint _ _ | .bgCollideAgainstPoint _ _ => isTrue trivial

theorem State.hasScol_iff {key : UInt48} : before.HasScol key.toPtr ↔ before.hashedScols.Has key := by
  constructor
  · intro ⟨⟨other, value⟩, member, same⟩
    obtain ⟨idx, alive, at_idx, _⟩ := Table.mem_toList.mp member
    exact ⟨idx, alive, at_idx.trans (UInt48.toPtr_injective same)⟩
  · intro ⟨idx, alive, same⟩
    exact ⟨(key, (before.hashedScols.entries idx).value),
      Table.mem_toList.mpr ⟨idx, alive, same, rfl⟩, rfl⟩

theorem Cached.vouched_of_hasHash (cached : Cached env bodies before)
    (distinct : Set.InjOn env.xxh3 bodies) {body : List UInt8} (known : body ∈ bodies)
    (has : before.HasHash self (env.xxh3 body)) : Vouched before self body := by
  obtain ⟨⟨key, value⟩, member, rfl, same⟩ := has
  obtain ⟨idx, alive, rfl, rfl⟩ := Table.mem_toList.mp member
  exact cached.vouched distinct alive known same

/-- What a call of the hook is to achieve. -/
structure ScolCalled (env : Env) (bodies : Set (List UInt8)) (before after : State) (self : Ptr)
    (body : List UInt8) : Prop where
  cached : Cached env bodies after
  vouched : ∀ scol, .published (.hashedScolCollider scol) ∈ after.log.drop before.log.length →
    scol = self ∧ Vouched before self body

/-- The reservation for the dump fails: nothing is dumped, and the table stays. -/
theorem Cached.call_refused (cached : Cached env bodies before)
    (distinct : Set.InjOn env.xxh3 bodies) (known : memory.scolBody self ∈ bodies)
    (failed : env.room before.writes = false)
    (reviewed : env.unassigned before.writes = true ∨ env.room (before.writes + 1) = false ∨
      before.HasHash self (env.xxh3 (memory.scolBody self))) {dumped : State}
    (refused : dumped = before.writePacket env (.scolCollider (memory.scolCollider self)))
    (rest : after = if env.unassigned before.writes then dumped
      else dumped.writePacket env (.hashedScolCollider self)) :
    ScolCalled env bodies before after self (memory.scolBody self) := by
  subst refused
  have table : after.hashedScols = before.hashedScols := by
    rw [rest]
    split <;> simp
  have latest (scol : Ptr) : latestDump after.log scol = latestDump before.log scol := by
    rw [rest]
    split
    · rw [State.writePacket_log, latestDump_events_refused failed]
    · rw [State.writePacket_log, latestDump_events_hashed, State.writePacket_log,
        latestDump_events_refused failed]
  refine ⟨cached.of_same table latest, ?_⟩
  intro scol published
  have unpublished (other : Ptr) : Event.published (.hashedScolCollider other) ∉
      before.events env (.scolCollider (memory.scolCollider self)) := by
    rw [hashed_mem_events]
    intro ⟨_, impossible⟩
    contradiction
  rw [rest] at published
  cases sent : env.unassigned before.writes with
  | true =>
      rw [sent, if_pos rfl, State.writePacket_log, List.drop_left] at published
      exact absurd published (unpublished scol)
  | false =>
      rw [sent, if_neg Bool.false_ne_true, State.writePacket_log, State.writePacket_log,
        List.append_assoc, List.drop_left, List.mem_append] at published
      have second := published.resolve_left (unpublished scol)
      rw [hashed_mem_events, State.writePacket_writes] at second
      obtain ⟨room, same⟩ := second
      cases same
      rcases reviewed with true_read | dropped | has
      · rw [sent] at true_read
        contradiction
      · rw [room] at dropped
        contradiction
      · exact ⟨rfl, cached.vouched_of_hasHash distinct known has⟩

theorem latestDump_published {log : List Event} {collider : ScolCollider} :
    latestDump (log ++ [.published (.scolCollider collider)]) collider.self = some collider := by
  simp [latestDump_snoc, Event.isClear, Event.dumpOf?]

theorem latestDump_published_of_ne {log : List Event} {collider : ScolCollider}
    (apart : scol ≠ collider.self) :
    latestDump (log ++ [.published (.scolCollider collider)]) scol = latestDump log scol := by
  simp [latestDump_snoc, Event.isClear, Event.dumpOf?, apart.symm]

/-- The dump is new: it is published and its hash is stored. -/
theorem Cached.call_dumped (cached : Cached env bodies before) {key : UInt48}
    {table : Table UInt48 UInt64} {entry : Option Nat} {found : Bool}
    (known : memory.scolBody key.toPtr ∈ bodies)
    (looked : before.hashedScols.lookup hashedScolsParams key true = some (table, entry, found))
    (published : after = (({ before with hashedScols := table } : State).storeHash entry
      (env.xxh3 (memory.scolBody key.toPtr))).publish
        (.scolCollider (memory.scolCollider key.toPtr))) :
    ScolCalled env bodies before after key.toPtr (memory.scolBody key.toPtr) := by
  have log : after.log =
      before.log ++ [.published (.scolCollider (memory.scolCollider key.toPtr))] := by
    rw [published]
    rfl
  constructor
  · refine cached.refresh looked (by rw [published]; rfl) ?_ known ?_
    · rw [log]
      exact latestDump_published
    · intro scol apart
      rw [log]
      exact latestDump_published_of_ne apart
  · intro scol hashed
    rw [log, List.drop_left] at hashed
    simp at hashed

/-- The hash of the dump is stored already: 'scolco~' stands for it. -/
theorem Cached.call_declined (cached : Cached env bodies before)
    (distinct : Set.InjOn env.xxh3 bodies) {key : UInt48}
    {table : Table UInt48 UInt64} {entry : Option Nat} {found : Bool}
    (known : memory.scolBody key.toPtr ∈ bodies)
    (looked : before.hashedScols.lookup hashedScolsParams key true = some (table, entry, found))
    (same : State.oldHash { before with hashedScols := table } entry found =
      some (env.xxh3 (memory.scolBody key.toPtr)))
    (written : after = (({ before with hashedScols := table } : State).storeHash entry
      (env.xxh3 (memory.scolBody key.toPtr))).decline.writePacket env
        (.hashedScolCollider key.toPtr)) :
    ScolCalled env bodies before after key.toPtr (memory.scolBody key.toPtr) := by
  have vouched : Vouched before key.toPtr (memory.scolBody key.toPtr) := by
    rcases StupidHash.lookup_insert_cases cached.valid looked with
      ⟨idx, rfl, rfl, rfl, alive, at_key⟩ | ⟨_, rfl, _⟩ | ⟨_, _, rfl, _⟩
    · rw [← at_key]
      rw [← at_key] at known same
      exact cached.vouched distinct alive known (Option.some.inj same)
    · contradiction
    · contradiction
  obtain ⟨collider, latest, body⟩ := vouched
  have unchanged (scol : Ptr) : latestDump after.log scol = latestDump before.log scol := by
    rw [written, State.writePacket_log]
    exact latestDump_events_hashed _
  constructor
  · refine cached.refresh looked ?_ ((unchanged _).trans latest) (body ▸ known) ?_
    · rw [written, State.writePacket_hashedScols, body]
      rfl
    · intro scol _
      exact unchanged scol
  · intro scol hashed
    have log : after.log = before.log ++ State.events env
        (({ before with hashedScols := table } : State).storeHash entry
          (env.xxh3 (memory.scolBody key.toPtr))).decline (.hashedScolCollider key.toPtr) := by
      rw [written, State.writePacket_log]
      rfl
    rw [log, List.drop_left, hashed_mem_events] at hashed
    cases hashed.2
    exact ⟨rfl, collider, latest, body⟩

theorem Cached.call (cached : Cached env bodies before) (distinct : Set.InjOn env.xxh3 bodies)
    (known : memory.scolBody self ∈ bodies)
    (reviewed : DumpReviewed env before (.scolTrueOutmost memory self))
    (called : before.scolTrueOutmost env memory self = some after) :
    ScolCalled env bodies before after self (memory.scolBody self) := by
  rcases State.scolTrueOutmost_cases called with
    ⟨_, rfl⟩ | ⟨hooked, key, table, entry, found, rfl, looked, dumped, sent, written, rest⟩
  · refine ⟨cached, ?_⟩
    intro scol hashed
    simp at hashed
  · rcases State.writeCachedDump_cases written with
      ⟨failed, dumpedEq, rfl⟩ | ⟨_, _, dumpedEq, rfl⟩ | ⟨_, same, dumpedEq, rfl⟩
    · obtain ⟨stays, vouched⟩ := reviewed hooked failed
      have unchanged : table = before.hashedScols := by
        rcases StupidHash.lookup_insert_cases cached.valid looked with
          ⟨_, _, _, same, _⟩ | ⟨_, _, same, _⟩ | ⟨_, _, _, absent, room, _⟩
        · exact same
        · exact same
        · rcases stays with has | full
          · exact absurd (State.hasScol_iff.mp has) absent
          · exact absurd full room
      subst unchanged
      exact cached.call_refused distinct known failed vouched dumpedEq rest
    · rw [if_pos rfl] at rest
      exact cached.call_dumped known looked (rest.trans dumpedEq)
    · rw [if_neg Bool.false_ne_true, dumpedEq] at rest
      exact cached.call_declined distinct known looked same rest

/-! ## The other steps -/

theorem step_hashedScols (other : label.changes .hashedScols = false)
    (stepped : step env before label = some after) : after.hashedScols = before.hashedScols := by
  have blind : Blind State.hashedScols := fun _ _ _ _ => rfl
  exact blind.step (fun _ _ => rfl) (fun _ _ => rfl) (fun _ _ => rfl)
    (fun _ => ⟨fun _ _ => rfl, fun _ _ => rfl⟩)
    (fun changes => by rw [other] at changes; contradiction) (fun _ _ _ => rfl) stepped

theorem Cached.fetchAndAllColls (cached : Cached env bodies before) (memory : Memory) :
    Cached env bodies (before.fetchAndAllColls env memory) := by
  unfold State.fetchAndAllColls
  dsimp only
  split
  · have blind : Blind State.hashedScols := fun _ _ _ _ => rfl
    apply Cached.of_cleared (blind.frame.sendAllColliders trivial (fun _ => trivial) _)
    intro scol
    let flagged : State :=
      { before with flags := before.flags &&& ~~~sendAllColls, game := .playing }
    have grows : Grows (Event.OutsideOf .hashedScols) flagged.clearScols.log
        (flagged.clearScols.sendAllColliders env memory).log :=
      (log_frame (overrun_outsideOf .hashedScols)).sendAllColliders nofun (fun _ => nofun) _
    exact (latestDump_grows grows).trans (latestDump_snoc _ _ _)
  · exact cached.of_same rfl fun _ => rfl

theorem fetchAndAllColls_unhashed (memory : Memory) :
    ∀ event ∈ (before.fetchAndAllColls env memory).log.drop before.log.length,
      event ≠ .published (.hashedScolCollider scol) := by
  have grows : Grows (fun event => event ≠ .published (.hashedScolCollider scol)) before.log
      (before.fetchAndAllColls env memory).log :=
    (log_frame nofun).fetchAndAllColls (fun state _ => Grows.refl state.log)
      (fun state _ => Grows.refl state.log) (fun _ => Grows.snoc _ nofun) nofun
      (fun _ => nofun) before
  exact grows.drop_allowed

/-- Where a step publishes 'scolco~' for a pointer, it is a call of the hook on
it, and its latest dump has the body it would be dumped with now. -/
def CachedOk (before : State) (label : Label) (after : State) : Prop :=
  ∀ scol, .published (.hashedScolCollider scol) ∈ after.log.drop before.log.length →
    ∃ memory, label = .scolTrueOutmost memory scol ∧ Vouched before scol (memory.scolBody scol)

/-- The bodies of the calls of a run. -/
def calledBodies (labels : List Label) : Set (List UInt8) :=
  { body | ∃ memory self, Label.scolTrueOutmost memory self ∈ labels ∧
    body = memory.scolBody self }

def Known (bodies : Set (List UInt8)) : Label → Prop
  | .scolTrueOutmost memory self => memory.scolBody self ∈ bodies
  | _ => True

theorem step_cached (cached : Cached env bodies before) (distinct : Set.InjOn env.xxh3 bodies)
    (reviewed : DumpReviewed env before label) (known : Known bodies label)
    (stepped : step env before label = some after) :
    Cached env bodies after ∧ CachedOk before label after := by
  cases logs : label.logs .hashedScols with
  | false =>
      have grows := step_grows logs stepped
      have unchanged : label.changes .hashedScols = false := by
        cases label <;> first | rfl | contradiction
      refine ⟨cached.of_same (step_hashedScols unchanged stepped) fun _ => latestDump_grows grows, ?_⟩
      intro scol hashed
      exact absurd rfl (grows.drop_allowed _ hashed)
  | true =>
      rcases step_cases stepped with
        ⟨_, _, rfl, _⟩ | ⟨rfl, _⟩ | ⟨memory, rfl, _, rfl⟩ | ⟨_, played⟩
      · contradiction
      · contradiction
      · refine ⟨cached.fetchAndAllColls memory, ?_⟩
        intro scol hashed
        exact absurd rfl (fetchAndAllColls_unhashed memory _ hashed)
      · cases label with
        | scolTrueOutmost memory self =>
            obtain ⟨afterCached, vouched⟩ := cached.call distinct known reviewed played
            refine ⟨afterCached, ?_⟩
            intro scol hashed
            obtain ⟨rfl, body⟩ := vouched scol hashed
            exact ⟨memory, rfl, body⟩
        | setFlags | frameStart | testAllColls | fetchAndAllColls | addToCollisionGrid
        | removeFromCollisionGridAndLists | doManyCollisions | hitboxCollide
        | bgCollideAgainstTwopoint | bgCollideAgainstPoint => contradiction

/-- On a run in which a failing reservation never leaves a cached dump without
its review, 'scolco~' is only published for what the latest dump says. -/
theorem cached_dumps_ok {labels : List Label}
    (distinct : Set.InjOn env.xxh3 (calledBodies labels))
    (reviewed : Machine.Along (step env) (DumpReviewed env) initial labels) :
    ∀ taken label rest before after, labels = taken ++ label :: rest →
      Machine.run (step env) initial taken = some before →
      step env before label = some after → CachedOk before label after := by
  intro taken label rest before after split reached stepped
  have known : Machine.Along (step env) (fun _ label => Known (calledBodies labels) label)
      initial labels := by
    apply Machine.Along.of_forall
    intro state label member
    cases label with
    | scolTrueOutmost memory self => exact ⟨memory, self, member, rfl⟩
    | setFlags | frameStart | testAllColls | fetchAndAllColls | addToCollisionGrid
    | removeFromCollisionGridAndLists | doManyCollisions | hitboxCollide
    | bgCollideAgainstTwopoint | bgCollideAgainstPoint => trivial
  -- the bodies are those of the whole run, not of the part taken so far
  generalize calledBodies labels = bodies at distinct known
  have guarded := reviewed.and known
  obtain ⟨now, nowKnown⟩ := Machine.along_iff.mp guarded taken label rest before split reached
  rw [split] at guarded
  have cached : Cached env bodies before :=
    Machine.run_preserves_along
      (fun cached allowed stepped => (step_cached cached distinct allowed.1 allowed.2 stepped).1)
      initial_cached guarded.prefix reached
  exact (step_cached cached distinct now nowKnown stepped).2

/-- The hashes are those of colliders 8 and 16 in zeroed memory. -/
def zeroedEnv : Env where
  room := fun _ => true
  unassigned := fun _ => false
  xxh3 := fun body => if body.getD 8 0 = 8 then 0x939b668dadd1301 else 0x105a39c42a720e6b
  hitboxVtable := 0

/-- Collider 8 is dumped, collider 16 is, and collider 8 is met again. -/
def dumpedTwice : List Label :=
  [.setFlags 0 sendCollStuff, .frameStart, .testAllColls, .scolTrueOutmost (fun _ => 0) 8,
    .scolTrueOutmost (fun _ => 0) 16]

theorem zeroedEnv_distinct :
    Set.InjOn zeroedEnv.xxh3 (calledBodies (dumpedTwice ++ [.scolTrueOutmost (fun _ => 0) 8])) := by
  have hashes : zeroedEnv.xxh3 (Memory.scolBody (fun _ => 0) 8) ≠
      zeroedEnv.xxh3 (Memory.scolBody (fun _ => 0) 16) := by decide
  have bodies {body : List UInt8}
      (called : body ∈ calledBodies (dumpedTwice ++ [.scolTrueOutmost (fun _ => 0) 8])) :
      body = Memory.scolBody (fun _ => 0) 8 ∨ body = Memory.scolBody (fun _ => 0) 16 := by
    obtain ⟨memory, self, member, rfl⟩ := called
    simp only [dumpedTwice, List.cons_append, List.nil_append, List.mem_cons, reduceCtorEq,
      Label.scolTrueOutmost.injEq, List.not_mem_nil, or_false, false_or] at member
    rcases member with ⟨rfl, rfl⟩ | ⟨rfl, rfl⟩ | ⟨rfl, rfl⟩
    · exact Or.inl rfl
    · exact Or.inr rfl
    · exact Or.inl rfl
  intro first firstCalled second secondCalled same
  rcases bodies firstCalled with rfl | rfl <;> rcases bodies secondCalled with rfl | rfl
  · rfl
  · exact absurd same hashes
  · exact absurd same.symm hashes
  · rfl

theorem cached_dumps_ok_dumpedTwice :
    ∃ before after, Machine.run (step zeroedEnv) initial dumpedTwice = some before ∧
      step zeroedEnv before (.scolTrueOutmost (fun _ => 0) 8) = some after ∧
      after.log.drop before.log.length = [.published (.hashedScolCollider 8)] ∧
      CachedOk before (.scolTrueOutmost (fun _ => 0) 8) after := by
  obtain ⟨before, after, ran, stepped, published⟩ : ∃ before after,
      Machine.run (step zeroedEnv) initial dumpedTwice = some before ∧
        step zeroedEnv before (.scolTrueOutmost (fun _ => 0) 8) = some after ∧
        after.log.drop before.log.length = [.published (.hashedScolCollider 8)] :=
    ⟨_, _, rfl, rfl, rfl⟩
  have reviewed : Machine.Along (step zeroedEnv) (DumpReviewed zeroedEnv) initial
      (dumpedTwice ++ [.scolTrueOutmost (fun _ => 0) 8]) := by decide
  exact ⟨before, after, ran, stepped, published,
    cached_dumps_ok zeroedEnv_distinct reviewed dumpedTwice _ [] before after rfl ran stepped⟩

/-- The first packet finds no room, and the unassigned variable is zero. -/
def fullEnv : Env where
  room := fun write => write ≠ 0
  unassigned := fun _ => false
  xxh3 := fun _ => 0x939b668dadd1301
  hitboxVtable := 0

/-- 'scolco~' is published for a collider that was never dumped. -/
theorem cached_dump_missing :
    Set.InjOn fullEnv.xxh3 (calledBodies [.setFlags 0 sendCollStuff, .frameStart, .testAllColls,
        .scolTrueOutmost (fun _ => 0) 8]) ∧
      ∃ before after, Machine.run (step fullEnv) initial
          [.setFlags 0 sendCollStuff, .frameStart, .testAllColls] = some before ∧
        step fullEnv before (.scolTrueOutmost (fun _ => 0) 8) = some after ∧
        after.log = [.published .overrun, .published (.hashedScolCollider 8)] ∧
        ¬ CachedOk before (.scolTrueOutmost (fun _ => 0) 8) after := by
  constructor
  · intro first ⟨firstMemory, firstSelf, firstMember, firstBody⟩
      second ⟨secondMemory, secondSelf, secondMember, secondBody⟩ _
    simp only [List.mem_cons, reduceCtorEq, Label.scolTrueOutmost.injEq, List.not_mem_nil,
      or_false, false_or] at firstMember secondMember
    rw [firstBody, secondBody, firstMember.1, firstMember.2, secondMember.1, secondMember.2]
  · obtain ⟨before, after, ran, stepped, empty, log⟩ : ∃ before after, Machine.run (step fullEnv)
        initial [.setFlags 0 sendCollStuff, .frameStart, .testAllColls] = some before ∧
          step fullEnv before (.scolTrueOutmost (fun _ => 0) 8) = some after ∧ before.log = [] ∧
          after.log = [.published .overrun, .published (.hashedScolCollider 8)] :=
      ⟨_, _, rfl, rfl, rfl, rfl⟩
    refine ⟨before, after, ran, stepped, log, ?_⟩
    intro ok
    have published : Event.published (.hashedScolCollider 8) ∈
        after.log.drop before.log.length := by
      rw [log, empty]
      exact List.mem_cons_of_mem _ (List.mem_singleton_self _)
    obtain ⟨_, _, collider, dumped, _⟩ := ok 8 published
    rw [empty] at dumped
    contradiction

end Smmboss.Collision
