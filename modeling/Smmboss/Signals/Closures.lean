import Smmboss.Signals.Propagate

namespace Smmboss.Signals

/-! # The closures

Every closure meets what the methods assume of it, by induction on how deep the calls
go: `set` and `reject` through the loop over the links of the signal, and the closure of
`bind` through what `derive` makes of the formula and the link that it adds.
-/

variable {V E : Type} {values : Values V}

namespace Graph

variable {base : Nat → Ordinal.{0}} {graph middle later : Graph V E} {height : Ordinal.{0}}
  {pending : LinkId → Prop} {target : SignalId} {call : Call V E} {heap : Heap V E}

/-! ## Setting and rejecting a signal -/

/-- The links out of a signal are those that a loop has before it at its start. -/
theorem Valid.ahead (valid : graph.Valid base) {link : LinkId} (live : graph.heap.Live link)
    (source : (graph.heap.link link).source = target) : graph.Ahead target 0 link := by
  obtain ⟨place, found⟩ := List.mem_iff_getElem?.mp (valid.live live)
  exact ⟨place, Nat.zero_le _, source ▸ found⟩

/-- Once a signal holds something else, only the links out of it may be off. -/
theorem looping_assign (valid : graph.Valid base) (known : target < graph.heap.signals) {old : V}
    {held : Held V E} (alive : graph.heap.held target = .value old)
    (allowed : graph.const target = none ∨ ∃ exception, held = .exception exception)
    (settled : graph.Settled (graph.level target) pending)
    (older : ∀ link, pending link → link < graph.heap.links) :
    Looping base pending target held 0 (graph.assign target held) := by
  refine ⟨valid.assign allowed, known, held_assign .., ?_, older⟩
  intro link live low
  have evolves := @evolves_assign _ _ graph target held old alive
  have different : (graph.heap.link link).target ≠ target := by
    rintro same
    rw [show ((graph.assign target held).heap.link link).target = _ from same] at low
    exact lt_irrefl _ low
  obtain ⟨sound, good⟩ := settled link live low
  refine ⟨evolves.sound valid live different sound, fun notPending => ?_⟩
  have source : (graph.heap.link link).source ≠ target :=
    fun same => notPending (Or.inr (valid.ahead live same))
  exact evolves.good valid live source different (good fun was => notPending (Or.inl was))

theorem Bumped.called {held : Held V E} {old : V} (valid : graph.Valid base)
    (alive : graph.heap.held target = .value old)
    (below : graph.level target < height)
    (bumped : Bumped base pending target (graph.assign target held) later) :
    Called base pending height target graph later where
  valid := bumped.valid
  evolves := by
    have assigning := @evolves_assign _ _ graph target held old alive
    refine (assigning.mono fun _ _ => Or.inr).trans valid bumped.evolves ?_
    exact fun _ _ => Or.inl
  settled := by
    rintro link live (low | new)
    · exact bumped.settled link live low
    · refine bumped.settled link live ?_
      have high := bumped.heights link new (bumped.valid.live_lt live)
      exact (bumped.valid.heights live).2.1.trans high
  heights link new older := (bumped.heights link new older).trans below

theorem set_called (lawful : values.Lawful) (correct : Correct base call) {old value : V}
    {rounds : Nat} (valid : graph.Valid base) (known : target < graph.heap.signals)
    (alive : graph.heap.held target = .value old) (plain : graph.const target = none)
    (settled : graph.Settled (graph.level target) pending)
    (older : ∀ link, pending link → link < graph.heap.links)
    (below : graph.level target < height)
    (ran : Heap.set values call rounds target value graph.heap = some heap) :
    ∃ later : Graph V E, later.heap = heap ∧ Called base pending height target graph later ∧
      NoNew graph later ∧ later.heap.held target = .value value ∧
      later.heap.forwardingLink target = graph.heap.forwardingLink target ∧
      later.heap.linksIn target = graph.heap.linksIn target := by
  unfold Heap.set at ran
  rw [alive] at ran
  by_cases same : values.strictEquals old value = true
  · simp only [if_pos same, Option.some_inj] at ran
    obtain rfl := lawful old value same
    refine ⟨graph, ran, ⟨valid, Evolves.refl graph, ?_, ?_⟩,
      fun signal _ raised => ⟨signal, raised⟩, alive, rfl, rfl⟩
    · rintro link live (low | new)
      · exact settled link live low
      · exact absurd (valid.live_lt live) new.not_gt
    · exact fun link new known => absurd known new.not_gt
  · simp only [if_neg same] at ran
    have start : Looping base pending target (.value value) 0
        (graph.assign target (.value value)) :=
      looping_assign valid known alive (Or.inl plain) settled older
    obtain ⟨later, rfl, bumped, noNew⟩ := bump_value correct start ran
    obtain ⟨held, forwarding, into⟩ := bumped.evolves.same known (lt_irrefl _)
    refine ⟨later, rfl, bumped.called valid alive below, ?_,
      held.trans (held_assign ..), forwarding, into⟩
    intro signal exception raised
    obtain ⟨before, holds⟩ := noNew signal exception raised
    by_cases isTarget : before = target
    · rw [isTarget, held_assign] at holds
      cases holds
    · rw [held_assign_of_ne isTarget] at holds
      exact ⟨before, holds⟩

theorem reject_called (correct : Correct base call) {old : V} {exception : E} {rounds : Nat}
    (valid : graph.Valid base) (known : target < graph.heap.signals)
    (alive : graph.heap.held target = .value old)
    (settled : graph.Settled (graph.level target) pending)
    (older : ∀ link, pending link → link < graph.heap.links)
    (below : graph.level target < height)
    (ran : Heap.reject call rounds target exception graph.heap = some heap) :
    ∃ later : Graph V E, later.heap = heap ∧ Called base pending height target graph later ∧
      Refused target exception graph later := by
  unfold Heap.reject at ran
  rw [alive] at ran
  obtain ⟨between, bumping, killing⟩ := Option.bind_eq_some_iff.mp ran
  have start : Looping base pending target (.exception exception) 0
      (graph.assign target (.exception exception)) :=
    looping_assign valid known alive (Or.inr ⟨exception, rfl⟩) settled older
  obtain ⟨bumped, rfl, loop, emptied⟩ := bump_exception correct start
    (fun _ _ early => absurd early (Nat.not_lt_zero _)) bumping
  have raised : bumped.heap.held target = .exception exception :=
    (loop.evolves.same known (lt_irrefl _)).1.trans (held_assign ..)
  have targetKnown : target < bumped.heap.signals := known.trans_le loop.evolves.signals
  obtain ⟨killedValid, evolving, held, links, live⟩ := @killAll_into _ _ base target
    (bumped.heap.linksIn target) bumped loop.valid targetKnown ⟨exception, raised⟩
    fun link member => (loop.valid.into member).2
  -- no link out of the target is left
  have dead : (bumped.killAll (bumped.heap.linksIn target)).killAll
      ((bumped.killAll (bumped.heap.linksIn target)).heap.linksOut target) =
      bumped.killAll (bumped.heap.linksIn target) := by
    apply killAll_dead
    intro link member
    obtain ⟨alive, source⟩ := killedValid.out member
    have before := ((live link).mp alive).1
    rw [evolving.link (loop.valid.live_lt before)] at source
    exact emptied.out link before source
  obtain rfl := Option.some_inj.mp killing
  refine ⟨bumped.killAll (bumped.heap.linksIn target), congrArg Graph.heap dead.symm, ?_, ?_⟩
  · have called := loop.called valid alive below
    refine ⟨killedValid, called.evolves.trans valid evolving fun _ _ => Or.inr, ?_, ?_⟩
    · rintro link alive low
      obtain ⟨before, notInto⟩ := (live link).mp alive
      have record := evolving.link (loop.valid.live_lt before)
      have source := emptied.out link before
      have notTarget : (bumped.heap.link link).target ≠ target :=
        fun same => notInto (same ▸ before)
      rw [record, evolving.level (loop.valid.target_lt before)] at low
      obtain ⟨sound, good⟩ := called.settled link before low
      exact ⟨evolving.sound loop.valid before notTarget sound, fun notPending =>
        evolving.good loop.valid before source notTarget (good notPending)⟩
    · intro link new alive
      rw [links, emptied.links] at alive
      exact absurd alive (Nat.not_lt_of_le new)
  · refine ⟨(congrFun held target).trans raised, ?_, ?_, links.trans emptied.links, ?_, ?_⟩
    · intro link alive same
      obtain ⟨before, notInto⟩ := (live link).mp alive
      rw [evolving.link (loop.valid.live_lt before)] at same
      exact notInto (same ▸ before)
    · intro link alive
      have before := ((live link).mp alive).1
      rw [evolving.link (loop.valid.live_lt before)]
      exact emptied.out link before
    · intro link older alive
      rcases emptied.kept link older alive with still | ⟨other, rejected⟩
      · by_cases into : some link ∈ bumped.heap.linksIn target
        · have same : (graph.heap.link link).target = target :=
            (loop.evolves.target older).symm.trans (loop.valid.into into).2
          exact Or.inr ⟨exception, (congrFun held _).trans (same ▸ raised)⟩
        · exact Or.inl ((live link).mpr ⟨still, into⟩)
      · exact Or.inr ⟨other, (congrFun held _).trans rejected⟩
    · intro signal other holds
      rcases emptied.exceptions signal other ((congrFun held signal).symm.trans holds) with
        same | was
      · exact Or.inl same
      · by_cases isTarget : signal = target
        · rw [isTarget, held_assign] at was
          cases was
          exact Or.inl rfl
        · rw [held_assign_of_ne isTarget] at was
          exact Or.inr was

/-! ## Before and after a call -/

/-- A region stays settled while nothing in it is touched and its links are good. -/
theorem Settled.evolve {may : SignalId → Prop} (settled : graph.Settled (graph.level target) pending)
    (valid : graph.Valid base) (evolves : Evolves may graph later)
    (known : target < graph.heap.signals)
    (untouched : ∀ signal, graph.level signal < graph.level target → ¬ may signal)
    (held : ∀ signal, signal < graph.heap.signals →
      later.heap.held signal = graph.heap.held signal)
    (fresh : ∀ link, graph.heap.links ≤ link → later.heap.Live link →
      later.level (later.heap.link link).target < graph.level target →
        later.Sound link ∧ later.Good link) :
    later.Settled (later.level target) pending := by
  intro link live low
  rw [evolves.level known] at low
  rcases Nat.lt_or_ge link graph.heap.links with old | new
  · have before := evolves.revived old live
    rw [evolves.target old, evolves.level (valid.target_lt before)] at low
    obtain ⟨sound, good⟩ := settled link before low
    exact ⟨evolves.sound valid before (untouched _ low) sound, fun notPending =>
      evolves.good_of_held valid before (held _ (valid.source_lt before)) (untouched _ low)
        (good notPending)⟩
  · obtain ⟨sound, good⟩ := fresh link new live low
    exact ⟨sound, fun _ => good⟩

theorem Called.prefixed (valid : graph.Valid base) (known : target < graph.heap.signals)
    (evolves : Evolves (· = target) graph middle) {lower : Ordinal.{0}}
    (called : Called base pending lower target middle later) (less : lower ≤ height)
    (heights : ∀ link, graph.heap.links ≤ link → link < middle.heap.links →
      middle.height link < height)
    (fresh : ∀ link, graph.heap.links ≤ link → link < middle.heap.links →
      later.heap.Live link → later.Sound link ∧ later.Good link) :
    Called base pending height target graph later where
  valid := called.valid
  evolves := by
    refine (evolves.mono fun _ _ => Or.inr).trans valid called.evolves ?_
    intro signal old under
    rwa [Under, evolves.level old, evolves.level known] at under
  settled := by
    rintro link live (low | new)
    · rw [← evolves.level known] at low
      exact called.settled link live (Or.inl low)
    · rcases Nat.lt_or_ge link middle.heap.links with between | newer
      · obtain ⟨sound, good⟩ := fresh link new between live
        exact ⟨sound, fun _ => good⟩
      · exact called.settled link live (Or.inr newer)
  heights := by
    intro link new older
    rcases Nat.lt_or_ge link middle.heap.links with between | newer
    · rw [called.evolves.height between]
      exact heights link new between
    · exact (called.heights link newer older).trans_le less

/-- The variable of `bind` is assigned after the call. -/
theorem Called.assigned (valid : graph.Valid base) (known : target < graph.heap.signals)
    (called : Called base pending (graph.level target + 1) target graph later)
    {link : Option LinkId}
    (allowed : ∀ forwardingLink, link = some forwardingLink →
      forwardingLink < later.heap.links ∧
        (later.heap.link forwardingLink).update = .forward target) :
    Called base pending (graph.level target + 1) target graph
      (later.setForwardingLink target link) where
  valid := called.valid.setForwardingLink allowed
  evolves := called.evolves.trans valid (evolves_setForwardingLink target link)
    fun _ _ => Or.inr
  settled := by
    intro other live reason
    have evolves : Evolves (· = target) later (later.setForwardingLink target link) :=
      evolves_setForwardingLink target link
    have low : later.level (later.heap.link other).target < graph.level target := by
      rcases reason with low | new
      · exact low
      · have high := called.heights other new (called.valid.live_lt live)
        exact (called.valid.heights live).2.1.trans_le (Order.lt_add_one_iff.mp high)
    have different : (later.heap.link other).target ≠ target := by
      rintro same
      rw [same, called.evolves.level known] at low
      exact lt_irrefl _ low
    obtain ⟨sound, good⟩ := called.settled other live (Or.inl low)
    exact ⟨evolves.sound called.valid live different sound, fun notPending =>
      evolves.good_of_held called.valid live rfl different (good notPending)⟩
  heights := called.heights

/-! ## The link that `bind` had -/

def killForwardingLink (graph : Graph V E) (boundSignal : SignalId) : Graph V E :=
  { graph with heap := graph.heap.killForwardingLink boundSignal }

theorem killForwardingLink_spec (valid : graph.Valid base) (bound : SignalId) :
    (graph.killForwardingLink bound).Valid base ∧
      Evolves (· = bound) graph (graph.killForwardingLink bound) ∧
      (∀ signal, (graph.killForwardingLink bound).heap.held signal = graph.heap.held signal) ∧
      (graph.killForwardingLink bound).heap.links = graph.heap.links ∧
      ∀ link, (graph.killForwardingLink bound).heap.Live link ↔
        graph.heap.Live link ∧ graph.heap.forwardingLink bound ≠ some link := by
  cases found : graph.heap.forwardingLink bound with
  | none =>
      have same : graph.killForwardingLink bound = graph := by
        rw [killForwardingLink, Heap.killForwardingLink, found]
      rw [same]
      exact ⟨valid, Evolves.refl graph, fun _ => rfl, rfl,
        fun link => ⟨fun live => ⟨live, fun same => by cases same⟩, And.left⟩⟩
  | some link =>
      have same : graph.killForwardingLink bound = graph.kill link := by
        rw [killForwardingLink, Heap.killForwardingLink, found]
        rfl
      obtain ⟨-, record⟩ := valid.forwarding found
      have target : (graph.heap.link link).target = bound := by
        rw [Link.target, record]
        rfl
      rw [same]
      refine ⟨valid.kill link, ?_, fun _ => rfl, rfl, ?_⟩
      · exact target ▸ evolves_kill (Or.inl ⟨bound, record⟩)
      · intro other
        rw [Option.some_inj.ne, ne_comm]
        exact Heap.live_kill

section Bind

variable {f : V → Formula V} {scope : List SignalId} {bound : SignalId}

theorem Ready.killed (ready : Ready base pending height (.bind f scope bound) graph) :
    Ready base pending height (.bind f scope bound) (graph.killForwardingLink bound) := by
  obtain ⟨valid, evolves, held, links, live⟩ := killForwardingLink_spec ready.valid bound
  refine ⟨valid, ready.known.trans_le evolves.signals, ?_, ready.admissible.newer evolves
    ready.known, ?_, ?_, ?_⟩
  · obtain ⟨value, alive⟩ := ready.alive
    exact ⟨value, (held bound).trans alive⟩
  · rintro _ _ _ ⟨⟩ link alive forward
    obtain ⟨before, notForwarding⟩ := (live link).mp alive
    rw [evolves.link (ready.valid.live_lt before)] at forward
    exact absurd (ready.sole f scope bound rfl link before forward) notForwarding
  · refine ready.settled.evolve ready.valid evolves ready.known ?_ (fun signal _ => held signal) ?_
    · rintro signal low rfl
      exact lt_irrefl _ low
    · intro link new alive
      exact absurd (links ▸ valid.live_lt alive) new.not_gt
  · exact fun link was => links ▸ ready.old link was

theorem bind_exception (correct : Correct base call) {exception : E} {rounds : Nat}
    (ready : Ready base pending height (.bind f scope bound) graph)
    (ran : Heap.reject call rounds bound exception (graph.heap.killForwardingLink bound) =
      some heap) :
    ∃ later : Graph V E, later.heap = heap ∧ Called base pending height bound graph later ∧
      Refused bound exception graph later := by
  obtain ⟨valid, evolves, held, links, live⟩ := killForwardingLink_spec ready.valid bound
  have killed := ready.killed
  obtain ⟨value, alive⟩ := killed.alive
  obtain ⟨later, rfl, called, refused⟩ := reject_called correct valid killed.known alive
    killed.settled killed.old killed.admissible.1 ran
  have none : ∀ link, graph.heap.links ≤ link →
      ¬ link < (graph.killForwardingLink bound).heap.links := fun link new old =>
    absurd (links ▸ old) new.not_gt
  refine ⟨later, rfl, called.prefixed ready.valid ready.known evolves le_rfl
    (fun link new old => absurd old (none link new))
    (fun link new old => absurd old (none link new)), refused.held, refused.into, refused.out,
    refused.links.trans links, ?_, ?_⟩
  · intro link old before
    have record := evolves.target old
    by_cases forwarding : graph.heap.forwardingLink bound = some link
    · obtain ⟨-, forward⟩ := ready.valid.forwarding forwarding
      have target : (graph.heap.link link).target = bound := by
        rw [Link.target, forward]
        rfl
      exact Or.inr ⟨exception, target ▸ refused.held⟩
    · rw [← record]
      exact refused.kept link (links ▸ old) ((live link).mpr ⟨before, forwarding⟩)
  · intro signal other raised
    rcases refused.exceptions signal other raised with same | was
    · exact Or.inl same
    · exact Or.inr ((held signal).symm.trans was)

/-- The graph in which the closure of `bind` has derived its signal, the link that it had
killed. -/
structure Rebinds (base : Nat → Ordinal.{0}) (pending : LinkId → Prop) (height : Ordinal.{0})
    (f : V → Formula V) (scope : List SignalId) (bound : SignalId) (value : V)
    (forwarder : SignalId) (graph middle : Graph V E) : Prop where
  ready : Ready base pending height (.bind f scope bound) graph
  valid : middle.Valid base
  evolves : Evolves (· = bound) graph middle
  alive : ∃ old, middle.heap.held bound = .value old
  known : forwarder < middle.heap.signals
  above : graph.level bound + 1 ≤ middle.level forwarder
  built : middle.Built (f value) scope forwarder
  settled : middle.Settled (middle.level bound) pending
  heights : ∀ link, graph.heap.links ≤ link → link < middle.heap.links →
    middle.height link < height
  levels : ∀ link, graph.heap.links ≤ link → middle.heap.Live link →
    graph.level bound < middle.level (middle.heap.link link).target
  fresh : ∀ link, graph.heap.links ≤ link → middle.heap.Live link →
    middle.Sound link ∧ middle.Good link
  dead : ∀ link, link < graph.heap.links → middle.heap.Live link →
    (middle.heap.link link).update ≠ .forward bound
  noNew : NoNew graph middle

theorem Ready.derived (lawful : values.Lawful) {value : V} {fuel : Nat} {forwarder : SignalId}
    (ready : Ready base pending height (.bind f scope bound) graph)
    (ran : Heap.derive values (Heap.update values fuel) (f value) scope
      (graph.heap.killForwardingLink bound) = some (forwarder, heap)) :
    ∃ middle : Graph V E, middle.heap = heap ∧
      Rebinds base pending height f scope bound value forwarder graph middle := by
  obtain ⟨valid, killing, held, links, live⟩ := killForwardingLink_spec ready.valid bound
  have killed := ready.killed
  obtain ⟨room, fits⟩ := killed.admissible.2 f scope bound rfl value
  obtain ⟨middle, rfl, made⟩ := derive_derived lawful killed.valid fits ran
  have grown := made.grown
  have new : ∀ link, graph.heap.links ≤ link →
      (graph.killForwardingLink bound).heap.links ≤ link := fun link new => links ▸ new
  have lower : graph.level bound < graph.level bound + 1 := lt_add_one _
  have evolves : Evolves (· = bound) graph middle :=
    killing.trans ready.valid grown.evolves fun _ _ => False.elim
  obtain ⟨old, alive⟩ := killed.alive
  refine ⟨middle, rfl, ready, grown.valid, evolves, ⟨old, ?_⟩, made.known, made.above, made.built,
    ?_, ?_, ?_, ?_, ?_, ?_⟩
  · exact (grown.evolves.same killed.known id).1.trans alive
  · refine killed.settled.evolve valid grown.evolves killed.known (fun _ _ => id)
      (fun signal known => (grown.evolves.same known id).1) ?_
    exact fun link newer alive _ => grown.fresh link newer alive
  · exact fun link newer older => (grown.heights link (new link newer) older).trans_lt room
  · exact fun link newer alive => lower.trans_le (grown.levels link (new link newer) alive)
  · exact fun link newer alive => grown.fresh link (new link newer) alive
  · intro link older alive forward
    have before := evolves.revived older alive
    obtain ⟨-, notForwarding⟩ := (live link).mp (grown.evolves.revived (links ▸ older) alive)
    rw [evolves.link older] at forward
    exact notForwarding (ready.sole f scope bound rfl link before forward)
  · intro signal exception raised
    obtain ⟨other, was⟩ := grown.exceptions signal exception raised
    exact ⟨other, (held other).symm.trans was⟩

namespace Rebinds

variable {forwarder : SignalId} {value : V}

theorem boundLevel
    (rebinds : Rebinds base pending height f scope bound value forwarder graph middle) :
    middle.level bound = graph.level bound := rebinds.evolves.level rebinds.ready.known

theorem boundKnown
    (rebinds : Rebinds base pending height f scope bound value forwarder graph middle) :
    bound < middle.heap.signals := rebinds.ready.known.trans_le rebinds.evolves.signals

/-- A link made for the formula is above the bound signal. -/
theorem apart
    (rebinds : Rebinds base pending height f scope bound value forwarder graph middle)
    {link : LinkId} (new : graph.heap.links ≤ link) (live : middle.heap.Live link) :
    ¬ middle.Under bound (middle.heap.link link).source ∧
      ¬ middle.Under bound (middle.heap.link link).target := by
  have target := rebinds.levels link new live
  rw [← rebinds.boundLevel] at target
  have source := target.trans (rebinds.valid.down live)
  have above : ∀ signal, middle.level bound < middle.level signal →
      ¬ middle.Under bound signal := by
    rintro signal high (low | rfl)
    · exact lt_asymm low high
    · exact lt_irrefl _ high
  exact ⟨above _ source, above _ target⟩

theorem forwarderAbove
    (rebinds : Rebinds base pending height f scope bound value forwarder graph middle) :
    ¬ middle.Under bound forwarder := by
  have high := (lt_add_one _).trans_le rebinds.above
  rw [← rebinds.boundLevel] at high
  rintro (low | rfl)
  · exact lt_asymm low high
  · exact lt_irrefl _ high

/-- A link made for the formula stays good. -/
theorem freshAfter
    (rebinds : Rebinds base pending height f scope bound value forwarder graph middle)
    (evolves : Evolves (middle.Under bound) middle later) {link : LinkId}
    (new : graph.heap.links ≤ link) (old : link < middle.heap.links)
    (live : later.heap.Live link) : later.Sound link ∧ later.Good link := by
  have before := evolves.revived old live
  obtain ⟨sound, good⟩ := rebinds.fresh link new before
  obtain ⟨source, target⟩ := rebinds.apart new before
  exact ⟨evolves.sound rebinds.valid before target sound,
    evolves.good rebinds.valid before source target good⟩

/-- Without a link, the inner closure may be called to reject. -/
theorem refuseReady
    (rebinds : Rebinds base pending height f scope bound value forwarder graph middle) :
    Ready base pending (middle.level bound + 1) (.forward bound) middle :=
  ⟨rebinds.valid, rebinds.boundKnown, rebinds.alive, ⟨lt_add_one _, nofun⟩, nofun,
    rebinds.settled,
    fun link was => (rebinds.ready.old link was).trans_le rebinds.evolves.links⟩

/-- The inner link is lower than the closure that adds it. -/
theorem forwardLower
    (rebinds : Rebinds base pending height f scope bound value forwarder graph middle) :
    middle.level bound + 1 < height := by
  rw [rebinds.boundLevel]
  exact le_self_add.trans_lt (rebinds.ready.admissible.2 f scope bound rfl value).1

theorem refuses
    (rebinds : Rebinds base pending height f scope bound value forwarder graph middle)
    (correct : Correct base call) {exception : E}
    (held : middle.heap.held forwarder = .exception exception)
    (ran : call (.forward bound) (.exception exception) middle.heap = some heap) :
    ∃ later : Graph V E, later.heap = heap.setForwardingLink bound none ∧
      Called base pending height bound graph later ∧ NoNew graph later ∧
      Result graph later value (.bind f scope bound) := by
  obtain ⟨later, rfl, called, refused⟩ := correct.exception rebinds.refuseReady ran
  have assigned : Called base pending (middle.level bound + 1) bound middle
      (later.setForwardingLink bound none) :=
    called.assigned rebinds.valid rebinds.boundKnown nofun
  refine ⟨later.setForwardingLink bound none, rfl, ?_, ?_, Or.inl ⟨⟨exception, refused.held⟩,
    refused.into⟩⟩
  · exact assigned.prefixed rebinds.ready.valid rebinds.ready.known rebinds.evolves
      rebinds.forwardLower.le rebinds.heights
      fun link new old => rebinds.freshAfter assigned.evolves new old
  · intro signal other raised
    rcases refused.exceptions signal other raised with rfl | was
    · exact rebinds.noNew forwarder other held
    · exact rebinds.noNew signal other was

/-- With the inner link added, its closure may be called. -/
theorem forwardReady
    (rebinds : Rebinds base pending height f scope bound value forwarder graph middle)
    (recorded : ∃ link, link < middle.heap.links ∧
      (middle.heap.link link).update = .bind f scope bound) :
    Ready base pending (middle.level bound + 1) (.forward bound)
      (middle.addLink forwarder (.forward bound) (middle.level bound + 1)) := by
  have evolves : Evolves (· = bound) middle
      (middle.addLink forwarder (.forward bound) (middle.level bound + 1)) :=
    @evolves_addLink _ _ middle forwarder (.forward bound) _
  have valid := valid_forward rebinds.valid rebinds.known (rebinds.boundLevel ▸ rebinds.above)
    recorded
  refine ⟨valid, rebinds.boundKnown, rebinds.alive, ⟨lt_add_one _, nofun⟩, nofun, ?_, ?_⟩
  · refine rebinds.settled.evolve rebinds.valid evolves rebinds.boundKnown ?_ (fun _ _ => rfl) ?_
    · rintro signal low rfl
      exact lt_irrefl _ low
    · intro link new live low
      have same : link = middle.heap.links :=
        le_antisymm (Nat.lt_succ_iff.mp (valid.live_lt live)) new
      rw [same, link_addLink] at low
      exact absurd low (lt_irrefl _)
  · exact fun link was => (rebinds.ready.old link was).trans_le
      (rebinds.evolves.links.trans evolves.links)

theorem forwards
    (rebinds : Rebinds base pending height f scope bound value forwarder graph middle)
    (recorded : ∃ link, link < middle.heap.links ∧
      (middle.heap.link link).update = .bind f scope bound)
    (correct : Correct base call) {holding : V}
    (held : middle.heap.held forwarder = .value holding)
    (ran : call (.forward bound) (.value holding)
      (middle.heap.addLink forwarder (.forward bound)) = some heap) :
    ∃ later : Graph V E,
      later.heap = heap.setForwardingLink bound (some middle.heap.links) ∧
      Called base pending height bound graph later ∧ NoNew graph later ∧
      Result graph later value (.bind f scope bound) := by
  have adding : Evolves (· = bound) middle
      (middle.addLink forwarder (.forward bound) (middle.level bound + 1)) :=
    @evolves_addLink _ _ middle forwarder (.forward bound) _
  have ready := rebinds.forwardReady recorded
  have linkKnown : middle.heap.links <
      (middle.addLink forwarder (.forward bound) (middle.level bound + 1)).heap.links :=
    Nat.lt_succ_self _
  obtain ⟨later, rfl, called, noNew, result, -, into⟩ :=
    correct.value ready ⟨middle.heap.links, linkKnown, by rw [link_addLink]⟩ ran
  have record : later.heap.link middle.heap.links = ⟨forwarder, .forward bound⟩ := by
    rw [called.evolves.link linkKnown, link_addLink]
  have assigned : Called base pending (middle.level bound + 1) bound
      (middle.addLink forwarder (.forward bound) (middle.level bound + 1))
      (later.setForwardingLink bound (some middle.heap.links)) := by
    refine called.assigned ready.valid ready.known ?_
    rintro link same
    cases same
    exact ⟨linkKnown.trans_le called.evolves.links, by rw [record]; rfl⟩
  have evolves : Evolves (middle.Under bound) middle
      (later.setForwardingLink bound (some middle.heap.links)) :=
    (adding.mono fun _ _ => Or.inr).trans rebinds.valid assigned.evolves fun _ _ => id
  have live : later.heap.Live middle.heap.links := by
    have adds := @live_addLink _ _ middle forwarder (.forward bound) (middle.level bound + 1)
    rw [Heap.Live, link_addLink] at adds
    rw [Heap.Live, record]
    exact into.symm ▸ adds
  have forwarderHeld : later.heap.held forwarder = .value holding :=
    (evolves.same rebinds.known rebinds.forwarderAbove).1.trans held
  refine ⟨later.setForwardingLink bound (some middle.heap.links), rfl, ?_, ?_,
    Or.inr ⟨⟨holding, result⟩, ⟨middle.heap.links, forwardingLink_setForwardingLink .., live, ?_⟩,
      ?_⟩⟩
  · refine assigned.prefixed rebinds.ready.valid rebinds.ready.known
      (rebinds.evolves.trans rebinds.ready.valid adding fun _ _ => id)
      rebinds.forwardLower.le ?_ ?_
    · intro link new old
      rcases Nat.lt_succ_iff_lt_or_eq.mp old with older | rfl
      · rw [adding.height older]
        exact rebinds.heights link new older
      · rw [height_addLink]
        exact rebinds.forwardLower
    · intro link new old alive
      rcases Nat.lt_succ_iff_lt_or_eq.mp old with older | rfl
      · exact rebinds.freshAfter evolves new older alive
      · exact forward_good record forwarderHeld result
          (@forwardingLink_setForwardingLink _ _ later bound _)
  · intro signal exception raised
    obtain ⟨before, was⟩ := noNew signal exception raised
    exact rebinds.noNew before exception was
  · show (later.setForwardingLink bound _).Built (f value) scope
      (later.heap.link middle.heap.links).source
    rw [record]
    exact evolves.built rebinds.valid rebinds.known rebinds.built
  · intro link old alive
    have older := old.trans_le rebinds.evolves.links
    rw [evolves.link older]
    exact rebinds.dead link old (evolves.revived older alive)

end Rebinds

/-- The closure of `bind` on a value. -/
theorem bind_value (lawful : values.Lawful) {value : V} {fuel rounds : Nat}
    (correct : Correct base (Heap.update values fuel : Call V E))
    (ready : Ready base pending height (.bind f scope bound) graph)
    (recorded : ∃ link, link < graph.heap.links ∧
      (graph.heap.link link).update = .bind f scope bound)
    (ran : Heap.runUpdate values (Heap.update values fuel) rounds (.bind f scope bound)
      (.value value) graph.heap = some heap) :
    ∃ later : Graph V E, later.heap = heap ∧ Called base pending height bound graph later ∧
      NoNew graph later ∧ Result graph later value (.bind f scope bound) := by
  obtain ⟨⟨forwarder, derived⟩, derives, rest⟩ := Option.bind_eq_some_iff.mp ran
  obtain ⟨⟨link, created⟩, creating, final⟩ := Option.bind_eq_some_iff.mp rest
  obtain rfl := Option.some_inj.mp final
  obtain ⟨middle, rfl, rebinds⟩ := ready.derived lawful derives
  obtain ⟨old, alive⟩ := rebinds.alive
  cases held : middle.heap.held forwarder with
  | exception exception =>
      rw [@Heap.create_exception _ _ _ _ _ (.forward bound) _ _ alive held,
        Option.map_eq_some_iff] at creating
      obtain ⟨rejected, called, equal⟩ := creating
      obtain ⟨rfl, rfl⟩ := Prod.mk.inj equal
      exact rebinds.refuses correct held called
  | value holding =>
      rw [@Heap.create_value _ _ _ _ _ (.forward bound) _ _ alive held,
        Option.map_eq_some_iff] at creating
      obtain ⟨forwarded, called, equal⟩ := creating
      obtain ⟨rfl, rfl⟩ := Prod.mk.inj equal
      obtain ⟨recordedLink, known, record⟩ := recorded
      exact rebinds.forwards ⟨recordedLink, known.trans_le rebinds.evolves.links,
        by rw [rebinds.evolves.link known, record]⟩ correct held called

end Bind

/-- Every closure does what the methods assume of the closures they call. -/
theorem update_correct (lawful : values.Lawful) {fuel : Nat} :
    Correct base (Heap.update values fuel : Call V E) := by
  induction fuel with
  | zero =>
      constructor
      · intro pending height update graph value heap _ _ ran
        cases ran
      · intro pending height update graph exception heap _ ran
        cases ran
  | succ fuel ih =>
      constructor
      · intro pending height update graph value heap ready recorded ran
        obtain ⟨old, alive⟩ := ready.alive
        have plain : graph.const update.target = none := by
          obtain ⟨link, known, record⟩ := recorded
          have noConst := ready.valid.plain_of_record known
          rwa [Link.target, record] at noConst
        cases update with
        | map f mappedSignal =>
            exact set_called lawful ih ready.valid ready.known alive plain ready.settled
              ready.old ready.admissible.1 ran
        | forward boundSignal =>
            exact set_called lawful ih ready.valid ready.known alive plain ready.settled
              ready.old ready.admissible.1 ran
        | bind f scope boundSignal => exact bind_value lawful ih ready recorded ran
      · intro pending height update graph exception heap ready ran
        obtain ⟨old, alive⟩ := ready.alive
        cases update with
        | map f mappedSignal =>
            exact reject_called ih ready.valid ready.known alive ready.settled ready.old
              ready.admissible.1 ran
        | forward boundSignal =>
            exact reject_called ih ready.valid ready.known alive ready.settled ready.old
              ready.admissible.1 ran
        | bind f scope boundSignal => exact bind_exception ih ready ran

end Graph

end Smmboss.Signals
