import Smmboss.Signals.Moves

namespace Smmboss.Signals

/-! # Deriving signals

What `derive` makes of a formula is new and up to date, and no signal that was there is
touched: nothing depends yet on the signals that it makes.
-/

variable {V E : Type} {values : Values V}

/-- Values that `===` takes for equal are equal. -/
def Values.Lawful (values : Values V) : Prop :=
  ∀ first second, values.strictEquals first second = true → first = second

namespace Heap

variable {call : Call V E} {heap later : Heap V E} {signal : SignalId}

theorem bumpFrom_quiet (quiet : ∀ link, some link ∉ heap.linksOut signal) {rounds : Nat} :
    ∀ {index : Nat}, bumpFrom call signal rounds index heap = some later → later = heap := by
  induction rounds with
  | zero =>
      intro index ran
      cases ran
  | succ rounds ih =>
      intro index ran
      rw [bumpFrom] at ran
      split at ran
      · exact (Option.some_inj.mp ran).symm
      · exact ih ran
      · rename_i link found
        exact absurd (List.mem_of_getElem? found) (quiet link)

theorem assign_self {held : Held V E} (holds : heap.held signal = held) :
    heap.assign signal held = heap := by
  rw [assign, ← holds, Function.update_eq_self]

theorem set_quiet (lawful : values.Lawful) {old value : V} {rounds : Nat}
    (alive : heap.held signal = .value old) (quiet : ∀ link, some link ∉ heap.linksOut signal)
    (ran : set values call rounds signal value heap = some later) :
    later = heap.assign signal (.value value) := by
  unfold set at ran
  rw [alive] at ran
  by_cases same : values.strictEquals old value = true
  · simp only [if_pos same, Option.some_inj] at ran
    rw [assign_self (lawful old value same ▸ alive), ran]
  · simp only [if_neg same] at ran
    exact @bumpFrom_quiet _ _ _ (heap.assign signal (.value value)) _ _ quiet _ _ ran

theorem reject_quiet {old : V} {exception : E} {rounds : Nat}
    (alive : heap.held signal = .value old) (quiet : ∀ link, some link ∉ heap.linksOut signal)
    (ran : reject call rounds signal exception heap = some later) :
    later = (((heap.assign signal (.exception exception)).killAll (heap.linksIn signal)).killAll
      (((heap.assign signal (.exception exception)).killAll
        (heap.linksIn signal)).linksOut signal)) := by
  unfold reject at ran
  rw [alive] at ran
  obtain ⟨bumped, bumping, killed⟩ := Option.bind_eq_some_iff.mp ran
  obtain rfl :=
    @bumpFrom_quiet _ _ _ (heap.assign signal (.exception exception)) _ _ quiet _ _ bumping
  exact (Option.some_inj.mp killed).symm

end Heap

namespace Graph

variable {base : Nat → Ordinal.{0}} {graph later last : Graph V E}
  {low high : Ordinal.{0}}

/-- New signals and links between two levels, all up to date, and no old signal touched. -/
structure Grown (base : Nat → Ordinal.{0}) (low high : Ordinal.{0}) (graph later : Graph V E) :
    Prop where
  valid : later.Valid base
  evolves : Evolves (fun _ => False) graph later
  names : later.heap.names = graph.heap.names
  heights : ∀ link, graph.heap.links ≤ link → link < later.heap.links →
    later.height link ≤ high
  levels : ∀ link, graph.heap.links ≤ link → later.heap.Live link →
    low ≤ later.level (later.heap.link link).target
  fresh : ∀ link, graph.heap.links ≤ link → later.heap.Live link →
    later.Sound link ∧ later.Good link
  exceptions : ∀ signal exception, later.heap.held signal = .exception exception →
    ∃ other, graph.heap.held other = .exception exception

theorem Grown.refl (valid : graph.Valid base) : Grown base low high graph graph where
  valid := valid
  evolves := Evolves.refl graph
  names := rfl
  heights _ new known := absurd known new.not_gt
  levels _ new live := absurd (valid.live_lt live) new.not_gt
  fresh _ new live := absurd (valid.live_lt live) new.not_gt
  exceptions signal _ holds := ⟨signal, holds⟩

theorem Grown.mono (grown : Grown base low high graph later) {lower higher : Ordinal.{0}}
    (below : lower ≤ low) (above : high ≤ higher) : Grown base lower higher graph later :=
  { grown with
    heights := fun link new known => (grown.heights link new known).trans above
    levels := fun link new live => below.trans (grown.levels link new live) }

theorem Grown.trans (valid : graph.Valid base) (first : Grown base low high graph later)
    (second : Grown base low high later last) : Grown base low high graph last where
  valid := second.valid
  evolves := first.evolves.trans valid second.evolves fun _ _ => id
  names := second.names.trans first.names
  heights := by
    intro link new known
    rcases Nat.lt_or_ge link later.heap.links with old | newer
    · rw [second.evolves.height old]
      exact first.heights link new old
    · exact second.heights link newer known
  levels := by
    intro link new live
    rcases Nat.lt_or_ge link later.heap.links with old | newer
    · have before := second.evolves.revived old live
      rw [second.evolves.link old, second.evolves.level (first.valid.target_lt before)]
      exact first.levels link new before
    · exact second.levels link newer live
  fresh := by
    intro link new live
    rcases Nat.lt_or_ge link later.heap.links with old | newer
    · have before := second.evolves.revived old live
      obtain ⟨sound, good⟩ := first.fresh link new before
      exact ⟨second.evolves.sound first.valid before id sound,
        second.evolves.good first.valid before id id good⟩
    · exact second.fresh link newer live
  exceptions := by
    intro signal exception holds
    obtain ⟨other, between⟩ := second.exceptions signal exception holds
    exact first.exceptions other exception between

/-- A link from a signal below the new ones is no new link. -/
theorem Grown.source (grown : Grown base low high graph later) {link : LinkId}
    (new : graph.heap.links ≤ link) (live : later.heap.Live link) :
    low < later.level (later.heap.link link).source :=
  (grown.levels link new live).trans_lt (grown.valid.down live)

section New

variable {undefined : V} {level height : Ordinal.{0}} {source : SignalId} {update : Update V}

/-- `new Signal`, and the link into it. -/
def linked (graph : Graph V E) (undefined : V) (level : Ordinal.{0}) (source : SignalId)
    (update : Update V) (height : Ordinal.{0}) : Graph V E :=
  (graph.newSignal undefined level none).addLink source update height

theorem held_linked_of_ne {signal : SignalId} (old : signal ≠ graph.heap.signals) :
    (graph.linked undefined level source update height).heap.held signal =
      graph.heap.held signal := Function.update_of_ne old ..

theorem held_linked :
    (graph.linked undefined level source update height).heap.held graph.heap.signals =
      .value undefined := Function.update_self ..

theorem level_linked :
    (graph.linked undefined level source update height).level graph.heap.signals = level :=
  Function.update_self ..

theorem height_linked :
    (graph.linked undefined level source update height).height graph.heap.links = height :=
  Function.update_self ..

theorem const_linked :
    (graph.linked undefined level source update height).const graph.heap.signals = none :=
  Function.update_self ..

theorem link_linked :
    (graph.linked undefined level source update height).heap.link graph.heap.links =
      ⟨source, update⟩ := link_addLink

theorem live_linked :
    (graph.linked undefined level source update height).heap.Live graph.heap.links :=
  live_addLink

theorem evolves_linked (valid : graph.Valid base) (target : update.target = graph.heap.signals) :
    Evolves (fun _ => False) graph (graph.linked undefined level source update height) :=
  (evolves_newSignal valid).trans valid evolves_addLink fun _ known same =>
    known.ne (same.trans target)

theorem valid_linked (valid : graph.Valid base) (known : source < graph.heap.signals)
    (below : height ≤ graph.level source) (target : update.target = graph.heap.signals)
    (admissible : (graph.newSignal undefined level none).Admissible base height update) :
    (graph.linked undefined level source update height).Valid base := by
  have evolves : Evolves (fun _ => False) graph (graph.newSignal undefined level none) :=
    evolves_newSignal valid
  refine (valid.newSignal fun _ found => by cases found).addLink (known.trans_le evolves.signals)
    (target ▸ Nat.lt_succ_self _) ((evolves.level known).symm ▸ below) admissible
    (target ▸ const_newSignal) ?_
  intro link linkKnown into
  exact absurd (into.trans target) (valid.ends linkKnown).2.ne

/-- The new signal has no links out yet. -/
theorem linksOut_linked (known : source < graph.heap.signals) :
    (graph.linked undefined level source update height).heap.linksOut graph.heap.signals = [] :=
  (linksOut_addLink_of_ne known.ne').trans linksOut_newSignal

/-- A new signal that holds the exception of another. -/
theorem grown_rejected (valid : graph.Valid base) {exception : E}
    (raised : graph.heap.held source = .exception exception) :
    Grown base low high graph
      ((graph.newSignal undefined level none).assign graph.heap.signals
        (.exception exception)) := by
  have newValid : ((graph.newSignal undefined level none).assign graph.heap.signals
      (.exception exception)).Valid base :=
    (valid.newSignal fun _ found => by cases found).assign (Or.inl const_newSignal)
  refine ⟨newValid, (evolves_newSignal valid).trans valid (evolves_assign held_newSignal)
    fun signal known same => known.ne same, rfl, ?_, ?_, ?_, ?_⟩
  · exact fun link new known => absurd known new.not_gt
  · exact fun link new live => absurd (newValid.live_lt live) new.not_gt
  · exact fun link new live => absurd (newValid.live_lt live) new.not_gt
  · intro signal other holds
    by_cases same : signal = graph.heap.signals
    · rw [same, held_assign] at holds
      cases holds
      exact ⟨source, raised⟩
    · rw [held_assign_of_ne same] at holds
      exact ⟨signal, (Function.update_of_ne same ..).symm.trans holds⟩

/-- A new signal mapped from another. -/
theorem grown_mapped (valid : graph.Valid base) {f : V → V} {value : V}
    (known : source < graph.heap.signals) (below : level + 1 ≤ graph.level source)
    (holds : graph.heap.held source = .value value) :
    Grown base level (level + 1) graph
      ((graph.linked undefined level source (.map f graph.heap.signals) (level + 1)).assign
        graph.heap.signals (.value (f value))) := by
  have linkedValid : (graph.linked undefined level source (.map f graph.heap.signals)
      (level + 1)).Valid base := by
    refine valid_linked valid known below rfl ⟨?_, fun _ _ _ same => by cases same⟩
    rw [Update.target, level_newSignal]
    exact lt_add_one _
  have only : ∀ link, graph.heap.links ≤ link → link < graph.heap.links + 1 →
      link = graph.heap.links := fun link new old => by omega
  have record : ((graph.linked undefined level source (.map f graph.heap.signals)
      (level + 1)).assign graph.heap.signals (.value (f value))).heap.link graph.heap.links =
      ⟨source, .map f graph.heap.signals⟩ := Function.update_self ..
  have newLevel : ((graph.linked undefined level source (.map f graph.heap.signals)
      (level + 1)).assign graph.heap.signals (.value (f value))).level graph.heap.signals =
      level := Function.update_self ..
  have newHeight : ((graph.linked undefined level source (.map f graph.heap.signals)
      (level + 1)).assign graph.heap.signals (.value (f value))).height graph.heap.links =
      level + 1 := Function.update_self ..
  refine ⟨linkedValid.assign (Or.inl const_linked), (evolves_linked valid rfl).trans valid
    (evolves_assign held_linked) fun _ old same => old.ne same, rfl, ?_, ?_, ?_, ?_⟩
  · intro link new old
    rw [only link new old, newHeight]
  · intro link new live
    rw [only link new (linkedValid.live_lt live), record]
    exact newLevel.ge
  · intro link new live
    rw [only link new (linkedValid.live_lt live)]
    refine ⟨⟨?_, ?_⟩, value, ?_, ?_⟩
    · rw [record]
      rintro ⟨exception, raised⟩
      rw [Link.target, Update.target, held_assign] at raised
      cases raised
    · rw [record]
      exact fun _ same => by cases same
    · rw [record, held_assign_of_ne known.ne, held_linked_of_ne known.ne, holds]
    · rw [record]
      exact held_assign ..
  · intro signal exception raised
    by_cases same : signal = graph.heap.signals
    · rw [same, held_assign] at raised
      cases raised
    · rw [held_assign_of_ne same, held_linked_of_ne same] at raised
      exact ⟨signal, raised⟩

end New

section Bound

variable {f : V → Formula V} {scope : List SignalId} {bound source forwarder : SignalId}

theorem Valid.plain_of_record (valid : graph.Valid base) {link : LinkId}
    (known : link < graph.heap.links) :
    graph.const (graph.heap.link link).target = none := by
  cases found : graph.const (graph.heap.link link).target with
  | none => rfl
  | some value => exact absurd rfl ((valid.const found).2.1 link known)

/-- `bind` may add its inner link. -/
theorem valid_forward (valid : graph.Valid base) (known : forwarder < graph.heap.signals)
    (above : graph.level bound + 1 ≤ graph.level forwarder)
    (recorded : ∃ link, link < graph.heap.links ∧
      (graph.heap.link link).update = .bind f scope bound) :
    (graph.addLink forwarder (.forward bound) (graph.level bound + 1)).Valid base := by
  obtain ⟨link, linkKnown, record⟩ := recorded
  have target : (graph.heap.link link).target = bound := by rw [Link.target, record]; rfl
  refine valid.addLink known (target ▸ (valid.ends linkKnown).2) above
    ⟨lt_add_one _, fun _ _ _ same => by cases same⟩ (target ▸ valid.plain_of_record linkKnown) ?_
  intro other otherKnown into
  refine ⟨⟨bound, rfl⟩, ?_⟩
  rcases valid.sole linkKnown otherKnown (target.trans into.symm) (by simp [record]) with
    same | ⟨⟨signal, forward⟩, -⟩
  · rw [← same, record]
    exact fun _ _ same => by cases same
  · rw [forward]
    exact fun _ _ same => by cases same

/-- The graph with `bind`'s inner link, its signal set and its variable assigned. -/
def forwarded (graph : Graph V E) (forwarder bound : SignalId) (value : V) : Graph V E :=
  ((graph.addLink forwarder (.forward bound) (graph.level bound + 1)).assign bound
    (.value value)).setForwardingLink bound (some graph.heap.links)

/-- The graph with `bind`'s signal rejected, its links killed and its variable null. -/
def refused (graph : Graph V E) (bound : SignalId) (exception : E) : Graph V E :=
  ((graph.assign bound (.exception exception)).killAll
    (graph.heap.linksIn bound)).setForwardingLink bound none

theorem valid_forwarded (valid : graph.Valid base) (known : forwarder < graph.heap.signals)
    (above : graph.level bound + 1 ≤ graph.level forwarder)
    (recorded : ∃ link, link < graph.heap.links ∧
      (graph.heap.link link).update = .bind f scope bound) (value : V) :
    (graph.forwarded forwarder bound value).Valid base := by
  have target : graph.const bound = none := by
    obtain ⟨link, linkKnown, record⟩ := recorded
    have plain := valid.plain_of_record linkKnown
    rwa [Link.target, record] at plain
  have linked := valid_forward valid known above recorded
  refine (@Valid.assign _ _ _ _ linked bound (.value value) (Or.inl target)).setForwardingLink ?_
  rintro link same
  cases same
  exact ⟨Nat.lt_succ_self _, by
    rw [show (((graph.addLink forwarder (.forward bound) (graph.level bound + 1)).assign bound
      (.value value)).heap.link graph.heap.links) = ⟨forwarder, .forward bound⟩ from
        Function.update_self ..]⟩

theorem evolves_forwarded (valid : graph.Valid base) {old value : V}
    (alive : graph.heap.held bound = .value old) :
    Evolves (· = bound) graph (graph.forwarded forwarder bound value) := by
  have linking : Evolves (· = bound) graph
      (graph.addLink forwarder (.forward bound) (graph.level bound + 1)) :=
    @evolves_addLink _ _ graph forwarder (.forward bound) _
  have assigning := @evolves_assign _ _
    (graph.addLink forwarder (.forward bound) (graph.level bound + 1)) bound (.value value) old alive
  exact (linking.trans valid assigning fun _ _ => id).trans valid
    (evolves_setForwardingLink bound _) fun _ _ => id

theorem held_forwarded (value : V) :
    (graph.forwarded forwarder bound value).heap.held bound = .value value := held_assign ..

theorem held_forwarded_of_ne {signal : SignalId} (different : signal ≠ bound) (value : V) :
    (graph.forwarded forwarder bound value).heap.held signal = graph.heap.held signal :=
  held_assign_of_ne different ..

theorem link_forwarded (value : V) :
    (graph.forwarded forwarder bound value).heap.link graph.heap.links =
      ⟨forwarder, .forward bound⟩ := Function.update_self ..

theorem live_forwarded (value : V) :
    (graph.forwarded forwarder bound value).heap.Live graph.heap.links :=
  @live_addLink _ _ graph forwarder (.forward bound) (graph.level bound + 1)

/-- The inner link is good when its ends hold the same and the variable has it. -/
theorem forward_good {link : LinkId} {holding : V}
    (record : graph.heap.link link = ⟨forwarder, .forward bound⟩)
    (held : graph.heap.held forwarder = .value holding)
    (holds : graph.heap.held bound = .value holding)
    (forwarding : graph.heap.forwardingLink bound = some link) :
    graph.Sound link ∧ graph.Good link := by
  refine ⟨⟨?_, ?_⟩, holding, ?_, ?_⟩
  · rw [record]
    rintro ⟨exception, raised⟩
    rw [Link.target, Update.target, holds] at raised
    cases raised
  · rw [record]
    rintro signal same
    cases same
    exact forwarding
  · rw [record, held]
  · rw [record]
    exact holds

theorem fresh_forwarded {value : V} (different : forwarder ≠ bound)
    (holds : graph.heap.held forwarder = .value value) :
    (graph.forwarded forwarder bound value).Sound graph.heap.links ∧
      (graph.forwarded forwarder bound value).Good graph.heap.links :=
  forward_good (link_forwarded value) ((held_forwarded_of_ne different value).trans holds)
    (held_forwarded value) (forwardingLink_setForwardingLink ..)

theorem brought_forwarded (valid : graph.Valid base) {old value current : V}
    (alive : graph.heap.held bound = .value old) (known : forwarder < graph.heap.signals)
    (built : graph.Built (f current) scope forwarder) :
    (graph.forwarded forwarder bound value).Brought current (.bind f scope bound) := by
  refine ⟨graph.heap.links, forwardingLink_setForwardingLink .., live_forwarded value, ?_⟩
  rw [link_forwarded]
  exact (evolves_forwarded valid alive).built valid known built

/-- What rejecting a signal with no links out amounts to. -/
theorem refused_spec (valid : graph.Valid base) (known : bound < graph.heap.signals) {old : V}
    (alive : graph.heap.held bound = .value old) (exception : E) :
    (graph.refused bound exception).Valid base ∧
      Evolves (· = bound) graph (graph.refused bound exception) ∧
      (graph.refused bound exception).heap.held bound = .exception exception ∧
      (graph.refused bound exception).heap.links = graph.heap.links ∧
      (∀ signal, signal ≠ bound →
        (graph.refused bound exception).heap.held signal = graph.heap.held signal) ∧
      ∀ link, (graph.refused bound exception).heap.Live link →
        graph.heap.Live link ∧ (graph.heap.link link).target ≠ bound := by
  have assigned := @evolves_assign _ _ graph bound (.exception exception) old alive
  obtain ⟨killed, killing, held, links, live⟩ :=
    @killAll_into _ _ base bound (graph.heap.linksIn bound)
      (graph.assign bound (.exception exception))
      (valid.assign (Or.inr ⟨exception, rfl⟩)) known ⟨exception, held_assign ..⟩
      fun link member => (valid.into member).2
  refine ⟨killed.setForwardingLink nofun, ?_, ?_, links, ?_, ?_⟩
  · exact (assigned.trans valid killing fun _ _ => id).trans valid
      (evolves_setForwardingLink bound none) fun _ _ => id
  · exact (congrFun held bound).trans (held_assign ..)
  · intro signal different
    exact (congrFun held signal).trans (held_assign_of_ne different ..)
  · intro link alive
    obtain ⟨before, notInto⟩ := (live link).mp alive
    exact ⟨before, fun into => notInto (into ▸ before)⟩

/-- What the two ends of a new signal's derivation by `bind` have in common. -/
structure Binds (base : Nat → Ordinal.{0}) (level height high : Ordinal.{0}) (undefined : V)
    (f : V → Formula V) (scope : List SignalId) (source : SignalId) (graph inner : Graph V E) :
    Prop where
  valid : graph.Valid base
  known : source < graph.heap.signals
  below : height ≤ graph.level source
  admissible : (graph.newSignal undefined level none).Admissible base height
    (.bind f scope graph.heap.signals)
  top : height ≤ high
  grown : Grown base (level + 1) high
    (graph.linked undefined level source (.bind f scope graph.heap.signals) height) inner

namespace Binds

variable {level height : Ordinal.{0}} {undefined : V} {inner : Graph V E}

theorem linkedValid (binds : Binds base level height high undefined f scope source graph inner) :
    (graph.linked undefined level source (.bind f scope graph.heap.signals) height).Valid base :=
  valid_linked binds.valid binds.known binds.below rfl binds.admissible

theorem evolves (binds : Binds base level height high undefined f scope source graph inner) :
    Evolves (fun _ => False) graph inner :=
  (evolves_linked binds.valid rfl).trans binds.valid binds.grown.evolves fun _ _ => id

theorem boundKnown (binds : Binds base level height high undefined f scope source graph inner) :
    graph.heap.signals < inner.heap.signals :=
  (Nat.lt_succ_self _).trans_le binds.grown.evolves.signals

theorem boundLevel (binds : Binds base level height high undefined f scope source graph inner) :
    inner.level graph.heap.signals = level := by
  rw [binds.grown.evolves.level (Nat.lt_succ_self _), level_linked]

theorem boundHeld (binds : Binds base level height high undefined f scope source graph inner) :
    inner.heap.held graph.heap.signals = .value undefined := by
  rw [(binds.grown.evolves.same (Nat.lt_succ_self _) id).1, held_linked]

theorem linkKnown (binds : Binds base level height high undefined f scope source graph inner) :
    graph.heap.links < inner.heap.links :=
  (Nat.lt_succ_self _).trans_le binds.grown.evolves.links

theorem record (binds : Binds base level height high undefined f scope source graph inner) :
    inner.heap.link graph.heap.links = ⟨source, .bind f scope graph.heap.signals⟩ :=
  (binds.grown.evolves.link (Nat.lt_succ_self graph.heap.links)).trans link_linked

theorem live (binds : Binds base level height high undefined f scope source graph inner) :
    inner.heap.Live graph.heap.links :=
  (binds.grown.evolves.live_iff binds.linkedValid (Nat.lt_succ_self graph.heap.links) id).mpr
    live_linked

theorem linkAfter (binds : Binds base level height high undefined f scope source graph inner)
    {later : Graph V E} (evolving : Evolves (· = graph.heap.signals) inner later) :
    later.heap.Rejected graph.heap.signals ∨
      later.heap.link graph.heap.links = ⟨source, .bind f scope graph.heap.signals⟩ ∧
        later.heap.Live graph.heap.links := by
  have kept := evolving.kept binds.linkKnown binds.live (by simp [binds.record])
  rw [binds.record] at kept
  rcases kept with live | rejected
  · exact Or.inr ⟨by rw [evolving.link binds.linkKnown, binds.record], live⟩
  · exact Or.inl rejected

theorem heightOfLink
    (binds : Binds base level height high undefined f scope source graph inner) :
    inner.height graph.heap.links = height :=
  (binds.grown.evolves.height (Nat.lt_succ_self graph.heap.links)).trans height_linked

/-- The bound signal has no links out yet. -/
theorem quiet (binds : Binds base level height high undefined f scope source graph inner) :
    ∀ link, some link ∉ inner.heap.linksOut graph.heap.signals := by
  intro link member
  obtain ⟨live, source⟩ := binds.grown.valid.out member
  obtain ⟨index, found⟩ := List.mem_iff_getElem?.mp member
  rcases binds.grown.evolves.outOld (Nat.lt_succ_self _) found with old | ⟨-, new⟩
  · rw [linksOut_linked binds.known] at old
    cases old
  · have above := binds.grown.source new live
    rw [source, binds.boundLevel] at above
    exact absurd (above.trans' (lt_add_one _)) (lt_irrefl _)

/-- A link made while the formula was derived touches no end of the bound signal. -/
theorem apart (binds : Binds base level height high undefined f scope source graph inner)
    {link : LinkId} (new : graph.heap.links < link) (live : inner.heap.Live link) :
    (inner.heap.link link).source ≠ graph.heap.signals ∧
      (inner.heap.link link).target ≠ graph.heap.signals := by
  have above : level < level + 1 := lt_add_one _
  have low := binds.grown.levels link new live
  constructor
  · intro same
    have down := (above.trans_le low).trans (binds.grown.valid.down live)
    rw [same, binds.boundLevel] at down
    exact lt_irrefl _ down
  · intro same
    rw [same, binds.boundLevel] at low
    exact absurd low above.not_ge

theorem exceptions (binds : Binds base level height high undefined f scope source graph inner)
    (signal : SignalId) (exception : E) (raised : inner.heap.held signal = .exception exception) :
    ∃ other, graph.heap.held other = .exception exception := by
  obtain ⟨other, before⟩ := binds.grown.exceptions signal exception raised
  by_cases same : other = graph.heap.signals
  · rw [same, held_linked] at before
    cases before
  · rw [held_linked_of_ne same] at before
    exact ⟨other, before⟩

theorem forwarded (binds : Binds base level height high undefined f scope source graph inner)
    {forwarder : SignalId} {current value : V} (known : forwarder < inner.heap.signals)
    (above : level + 1 ≤ inner.level forwarder) (low : level + 1 ≤ high)
    (holds : graph.heap.held source = .value current)
    (held : inner.heap.held forwarder = .value value)
    (built : inner.Built (f current) scope forwarder) :
    Grown base level high graph (inner.forwarded forwarder graph.heap.signals value) := by
  have inValid := binds.grown.valid
  have evolving : Evolves (· = graph.heap.signals) inner
      (inner.forwarded forwarder graph.heap.signals value) :=
    evolves_forwarded inValid binds.boundHeld
  have forwardedValid : (inner.forwarded forwarder graph.heap.signals value).Valid base :=
    valid_forwarded inValid known (by rwa [binds.boundLevel])
      ⟨graph.heap.links, binds.linkKnown, by rw [binds.record]⟩ value
  have different : forwarder ≠ graph.heap.signals := by
    rintro rfl
    rw [binds.boundLevel] at above
    exact absurd above (lt_add_one _).not_ge
  -- a new link is the one into the bound signal, one of the formula's, or the inner one
  have cases : ∀ link, graph.heap.links ≤ link → link < inner.heap.links + 1 →
      link = graph.heap.links ∨ (graph.heap.links < link ∧ link < inner.heap.links) ∨
        link = inner.heap.links := by
    intro link new old
    omega
  refine ⟨forwardedValid, binds.evolves.trans binds.valid evolving fun _ old same =>
    old.ne same, binds.grown.names, ?_, ?_, ?_, ?_⟩
  · intro link new old
    rcases cases link new old with rfl | ⟨newer, older⟩ | rfl
    · rw [evolving.height binds.linkKnown, binds.heightOfLink]
      exact binds.top
    · rw [evolving.height older]
      exact binds.grown.heights link newer older
    · rw [show (inner.forwarded forwarder graph.heap.signals value).height inner.heap.links =
        inner.level graph.heap.signals + 1 from Function.update_self .., binds.boundLevel]
      exact low
  · intro link new live
    rcases cases link new (forwardedValid.live_lt live) with rfl | ⟨newer, older⟩ | rfl
    · rw [evolving.link binds.linkKnown, binds.record]
      exact ((evolving.level binds.boundKnown).trans binds.boundLevel).ge
    · have before := evolving.revived older live
      rw [evolving.link older, evolving.level (inValid.target_lt before)]
      exact (lt_add_one _).le.trans (binds.grown.levels link newer before)
    · rw [link_forwarded]
      exact ((evolving.level binds.boundKnown).trans binds.boundLevel).ge
  · intro link new live
    rcases cases link new (forwardedValid.live_lt live) with rfl | ⟨newer, older⟩ | rfl
    · have record : (inner.forwarded forwarder graph.heap.signals value).heap.link
          graph.heap.links = ⟨source, .bind f scope graph.heap.signals⟩ := by
        rw [evolving.link binds.linkKnown, binds.record]
      refine ⟨⟨?_, ?_⟩, current, ?_, ?_⟩
      · rw [record]
        rintro ⟨exception, raised⟩
        rw [Link.target, Update.target, held_forwarded] at raised
        cases raised
      · rw [record]
        exact fun _ same => by cases same
      · rw [record, held_forwarded_of_ne binds.known.ne,
          (binds.evolves.same binds.known id).1, holds]
      · rw [record]
        exact brought_forwarded inValid binds.boundHeld known built
    · have before := evolving.revived older live
      obtain ⟨source, target⟩ := binds.apart newer before
      obtain ⟨sound, good⟩ := binds.grown.fresh link newer before
      exact ⟨evolving.sound inValid before target sound,
        evolving.good inValid before source target good⟩
    · exact fresh_forwarded different held
  · intro signal exception raised
    by_cases same : signal = graph.heap.signals
    · rw [same, held_forwarded] at raised
      cases raised
    · rw [held_forwarded_of_ne same] at raised
      exact binds.exceptions signal exception raised

theorem refused (binds : Binds base level height high undefined f scope source graph inner)
    {forwarder : SignalId} {exception : E}
    (held : inner.heap.held forwarder = .exception exception) :
    Grown base level high graph (inner.refused graph.heap.signals exception) := by
  have inValid := binds.grown.valid
  obtain ⟨refusedValid, evolving, raised, links, others, lives⟩ :=
    refused_spec inValid binds.boundKnown binds.boundHeld exception
  -- the link into the bound signal is dead again
  have newer : ∀ link, graph.heap.links ≤ link →
      (inner.refused graph.heap.signals exception).heap.Live link →
        graph.heap.links < link ∧ link < inner.heap.links ∧ inner.heap.Live link := by
    intro link new live
    obtain ⟨before, target⟩ := lives link live
    refine ⟨lt_of_le_of_ne new ?_, inValid.live_lt before, before⟩
    rintro rfl
    rw [binds.record] at target
    exact target rfl
  refine ⟨refusedValid, binds.evolves.trans binds.valid evolving fun _ old same =>
    old.ne same, (Heap.names_killAll _).trans binds.grown.names, ?_, ?_, ?_, ?_⟩
  · intro link new old
    rw [links] at old
    rw [evolving.height old]
    rcases new.lt_or_eq with later | rfl
    · exact binds.grown.heights link later old
    · rw [binds.heightOfLink]
      exact binds.top
  · intro link new live
    obtain ⟨later, old, before⟩ := newer link new live
    rw [evolving.link old, evolving.level (inValid.target_lt before)]
    exact (lt_add_one _).le.trans (binds.grown.levels link later before)
  · intro link new live
    obtain ⟨later, old, before⟩ := newer link new live
    obtain ⟨source, target⟩ := binds.apart later before
    obtain ⟨sound, good⟩ := binds.grown.fresh link later before
    exact ⟨evolving.sound inValid before target sound,
      evolving.good inValid before source target good⟩
  · intro signal other holds
    by_cases same : signal = graph.heap.signals
    · rw [same, raised] at holds
      cases holds
      exact binds.exceptions forwarder exception held
    · rw [others signal same] at holds
      exact binds.exceptions signal other holds

end Binds

end Bound

/-! ## Room for the parts of a formula -/

section Fits

variable {level : Ordinal.{0}} {formula body : Formula V} {scope : List SignalId}

/-- The height of the link that calls a function given to `bind`. -/
noncomputable def bindHeight (level : Ordinal.{0}) (f : V → Formula V) : Ordinal.{0} :=
  level + (1 + (⨆ value, (f value).size) + 1)

theorem Fits.part (fits : graph.Fits base level formula scope) {partLevel : Ordinal.{0}}
    {part : Formula V} (inside : partLevel + part.size ≤ level + formula.size)
    (closed : ∀ {seen : Nat → Prop}, formula.Closed seen scope.length →
      part.Closed seen scope.length) :
    graph.Fits base partLevel part scope := by
  refine ⟨closed (fits.1.imp fun name above => inside.trans_lt above), fun signal member => ?_⟩
  obtain ⟨known, above⟩ := fits.2 signal member
  exact ⟨known, inside.trans above⟩

theorem Fits.map {f : V → V} (fits : graph.Fits base level (.map formula f) scope) :
    graph.Fits base (level + 1) formula scope :=
  fits.part (by rw [Formula.size, add_assoc]) id

theorem Fits.bindBase {f : V → Formula V} (fits : graph.Fits base level (.bind formula f) scope) :
    graph.Fits base (bindHeight level f) formula scope :=
  fits.part (by rw [Formula.size, bindHeight, add_assoc]) And.left

theorem lt_bindHeight (level : Ordinal.{0}) (f : V → Formula V) (value : V) :
    level + 1 + (f value).size < bindHeight level f := by
  rw [bindHeight, ← add_assoc, add_assoc level 1 (f value).size]
  exact Order.lt_add_one_iff.mpr (add_le_add_right (Formula.size_le_bind f value) level)

theorem bindHeight_le {f : V → Formula V} :
    bindHeight level f ≤ level + (Formula.bind formula f).size := by
  rw [Formula.size, ← add_assoc]
  exact le_self_add

theorem Fits.bindInner {f : V → Formula V}
    (fits : graph.Fits base level (.bind formula f) scope) (value : V) :
    graph.Fits base (level + 1) (f value) scope :=
  fits.part ((lt_bindHeight level f value).le.trans bindHeight_le) fun closed => closed.2 value

theorem Fits.start (fits : graph.Fits base level (.share formula body) scope) :
    graph.Fits base (level + body.size) formula scope :=
  fits.part (by rw [Formula.size, add_assoc]) And.left

theorem Fits.rest (fits : graph.Fits base level (.share formula body) scope)
    {later : Graph V E} {may : SignalId → Prop} (evolves : Evolves may graph later)
    {shared : SignalId} (known : shared < later.heap.signals)
    (above : level + body.size ≤ later.level shared) :
    later.Fits base level body (scope ++ [shared]) := by
  have inside : level + body.size ≤ level + (Formula.share formula body).size := by
    rw [Formula.size]
    exact add_le_add_right le_self_add level
  refine ⟨?_, fun signal member => ?_⟩
  · rw [List.length_append]
    exact fits.1.2.imp fun name high => inside.trans_lt high
  · rcases List.mem_append.mp member with old | new
    · obtain ⟨before, high⟩ := fits.2 signal old
      exact ⟨before.trans_le evolves.signals,
        inside.trans (high.trans_eq (evolves.level before).symm)⟩
    · rw [List.mem_singleton.mp new]
      exact ⟨known, above⟩

end Fits

/-! ## The new signal of `bind` -/

section NewBound

variable {undefined : V} {level high : Ordinal.{0}} {f : V → Formula V} {scope : List SignalId}
  {source forwarder : SignalId} {inner : Graph V E} {value : V}

theorem admissible_new (valid : graph.Valid base)
    (fits : ∀ value, graph.Fits base (level + 1) (f value) scope) :
    (graph.newSignal undefined level none).Admissible base (bindHeight level f)
      (.bind f scope graph.heap.signals) := by
  have atLevel : (graph.newSignal undefined level none).level graph.heap.signals = level :=
    Function.update_self ..
  refine ⟨?_, ?_⟩
  · rw [Update.target, atLevel, bindHeight, ← add_assoc]
    exact (lt_add_one level).trans_le ((add_le_add_right le_self_add level).trans le_self_add)
  · rintro _ _ _ ⟨⟩ held
    rw [atLevel]
    exact ⟨lt_bindHeight level f held,
      (fits held).newer (@evolves_newSignal _ _ _ _ _ _ _ valid fun _ => False)⟩

/-- Its variable is null, so the closure kills no link. -/
theorem killForwardingLink_linked {update : Update V} {height : Ordinal.{0}} :
    (graph.linked undefined level source update height).heap.killForwardingLink
      graph.heap.signals = (graph.linked undefined level source update height).heap := by
  rw [Heap.killForwardingLink, show (graph.linked undefined level source update
    height).heap.forwardingLink graph.heap.signals = none from Function.update_self ..]

theorem Binds.start (valid : graph.Valid base) (known : source < graph.heap.signals)
    (below : bindHeight level f ≤ graph.level source) (top : bindHeight level f ≤ high)
    (fits : ∀ value, graph.Fits base (level + 1) (f value) scope)
    (grown : Grown base (level + 1) (level + 1 + (f value).size)
      (graph.linked undefined level source (.bind f scope graph.heap.signals)
        (bindHeight level f)) inner) :
    Binds base level (bindHeight level f) high undefined f scope source graph inner :=
  ⟨valid, known, below, admissible_new valid fits, top,
    grown.mono le_rfl ((lt_bindHeight level f value).le.trans top)⟩

theorem Binds.apartFrom {height : Ordinal.{0}}
    (binds : Binds base level height high undefined f scope source graph inner)
    (above : level + 1 ≤ inner.level forwarder) : forwarder ≠ graph.heap.signals := by
  rintro rfl
  rw [binds.boundLevel] at above
  exact absurd above (lt_add_one _).not_ge

theorem Binds.quiet_addLink {height : Ordinal.{0}}
    (binds : Binds base level height high undefined f scope source graph inner)
    (above : level + 1 ≤ inner.level forwarder) (link : LinkId) :
    some link ∉ (inner.heap.addLink forwarder (.forward graph.heap.signals)).linksOut
      graph.heap.signals := by
  have same : (inner.addLink forwarder (.forward graph.heap.signals) 0).heap.linksOut
      graph.heap.signals = inner.heap.linksOut graph.heap.signals :=
    linksOut_addLink_of_ne (binds.apartFrom above).symm
  exact fun member => binds.quiet link (same ▸ member)

end NewBound

end Graph

/-! ## The methods on a new signal -/

namespace Heap

variable {call : Call V E} {heap later : Heap V E} {signal source : SignalId} {update : Update V}

theorem create_value {old value : V} (alive : heap.held update.target = .value old)
    (holds : heap.held source = .value value) :
    create call source update heap =
      (call update (.value value) (heap.addLink source update)).map
        fun later => (some heap.links, later) := by
  rw [create, alive, holds]

theorem create_exception {old : V} {exception : E}
    (alive : heap.held update.target = .value old)
    (raised : heap.held source = .exception exception) :
    create call source update heap =
      (call update (.exception exception) heap).map fun later => (none, later) := by
  rw [create, alive, raised]

theorem reject_bare {old : V} {exception : E} {rounds : Nat}
    (alive : heap.held signal = .value old) (linksIn : heap.linksIn signal = [])
    (linksOut : heap.linksOut signal = [])
    (ran : reject call rounds signal exception heap = some later) :
    later = heap.assign signal (.exception exception) := by
  have killed := reject_quiet alive (by rw [linksOut]; exact fun _ found => by cases found) ran
  rw [linksIn] at killed
  rw [killed]
  show (heap.assign signal (.exception exception)).killAll (heap.linksOut signal) = _
  rw [linksOut]
  rfl

end Heap

namespace Graph

variable {base : Nat → Ordinal.{0}} {graph : Graph V E} {level : Ordinal.{0}}
  {scope : List SignalId} {fuel : Nat} {heap : Heap V E} {link : Option LinkId}

/-- What `derive` makes of a formula. -/
structure Derived (base : Nat → Ordinal.{0}) (level : Ordinal.{0}) (formula : Formula V)
    (scope : List SignalId) (graph : Graph V E) (signal : SignalId) (later : Graph V E) :
    Prop where
  grown : Grown base level (level + formula.size) graph later
  known : signal < later.heap.signals
  above : level ≤ later.level signal
  built : later.Built formula scope signal

theorem create_mapped (lawful : values.Lawful) (valid : graph.Valid base)
    {source : SignalId} (known : source < graph.heap.signals)
    (below : level + 1 ≤ graph.level source) {f : V → V}
    (ran : Heap.create (Heap.update values fuel) source (.map f graph.heap.signals)
      (graph.heap.newSignal values.undefined) = some (link, heap)) :
    ∃ later : Graph V E, later.heap = heap ∧ Grown base level (level + 1) graph later ∧
      graph.heap.signals < later.heap.signals ∧ level ≤ later.level graph.heap.signals ∧
      (later.heap.Rejected graph.heap.signals ∨
        later.heap.link graph.heap.links = ⟨source, .map f graph.heap.signals⟩ ∧
          later.heap.Live graph.heap.links) := by
  have alive : (graph.heap.newSignal values.undefined).held graph.heap.signals =
      .value values.undefined := Function.update_self ..
  have same : (graph.heap.newSignal values.undefined).held source = graph.heap.held source :=
    Function.update_of_ne known.ne ..
  cases holds : graph.heap.held source with
  | exception exception =>
      rw [Heap.create_exception alive (same.trans holds), Option.map_eq_some_iff] at ran
      obtain ⟨result, called, equal⟩ := ran
      obtain ⟨rfl, rfl⟩ := Prod.mk.inj equal
      cases fuel with
      | zero => cases called
      | succ fuel =>
          obtain rfl := Heap.reject_bare alive (Function.update_self ..)
            (Function.update_self ..) called
          exact ⟨(graph.newSignal values.undefined level none).assign graph.heap.signals
            (.exception exception), rfl, grown_rejected valid holds, Nat.lt_succ_self _,
            le_of_eq (Function.update_self graph.heap.signals level graph.level).symm,
            Or.inl ⟨exception, held_assign ..⟩⟩
  | value value =>
      rw [Heap.create_value alive (same.trans holds), Option.map_eq_some_iff] at ran
      obtain ⟨result, called, equal⟩ := ran
      obtain ⟨rfl, rfl⟩ := Prod.mk.inj equal
      cases fuel with
      | zero => cases called
      | succ fuel =>
          have out : ((graph.heap.newSignal values.undefined).addLink source
              (.map f graph.heap.signals)).linksOut graph.heap.signals = [] :=
            @linksOut_linked _ _ graph values.undefined level (level + 1) source
              (.map f graph.heap.signals) known
          obtain rfl := @Heap.set_quiet _ _ _ _ ((graph.heap.newSignal values.undefined).addLink
            source (.map f graph.heap.signals)) _ graph.heap.signals lawful _ _ _ alive
            (by rw [out]; exact fun _ found => by cases found) called
          exact ⟨(graph.linked values.undefined level source (.map f graph.heap.signals)
            (level + 1)).assign graph.heap.signals (.value (f value)), rfl,
            grown_mapped valid known below holds, Nat.lt_succ_self _,
            le_of_eq (Function.update_self graph.heap.signals level graph.level).symm,
            Or.inr ⟨Function.update_self ..,
              @live_linked _ _ graph values.undefined level (level + 1) source
                (.map f graph.heap.signals)⟩⟩

theorem reject_refused {bound : SignalId} {old : V} {exception : E} {call : Call V E}
    {rounds : Nat} (valid : graph.Valid base) (known : bound < graph.heap.signals)
    (alive : graph.heap.held bound = .value old)
    (quiet : ∀ link, some link ∉ graph.heap.linksOut bound)
    (ran : Heap.reject call rounds bound exception graph.heap = some heap) :
    heap.setForwardingLink bound none = (graph.refused bound exception).heap := by
  have rejected := Heap.reject_quiet alive quiet ran
  obtain ⟨-, evolves, -⟩ := refused_spec valid known alive exception
  have dead : ((graph.assign bound (.exception exception)).killAll
      (graph.heap.linksIn bound)).killAll (((graph.assign bound (.exception exception)).killAll
        (graph.heap.linksIn bound)).heap.linksOut bound) =
      (graph.assign bound (.exception exception)).killAll (graph.heap.linksIn bound) := by
    apply killAll_dead
    intro link member
    obtain ⟨index, found⟩ := List.mem_iff_getElem?.mp member
    rcases evolves.outOld known found with before | ⟨-, new⟩
    · exact quiet link (List.mem_of_getElem? before)
    · obtain ⟨killed, -⟩ := @killAll_into _ _ base bound (graph.heap.linksIn bound)
        (graph.assign bound (.exception exception))
        (valid.assign (Or.inr ⟨exception, rfl⟩)) known ⟨exception, held_assign ..⟩
        fun link member => (valid.into member).2
      have old := killed.live_lt (killed.out member).1
      obtain ⟨-, -, -, links, -⟩ := refused_spec valid known alive exception
      exact absurd (links ▸ old) new.not_gt
  rw [rejected]
  exact congrArg (fun graph : Graph V E => graph.heap.setForwardingLink bound none) dead

theorem create_bound (lawful : values.Lawful) (valid : graph.Valid base) {source : SignalId}
    {f : V → Formula V} {high : Ordinal.{0}} (known : source < graph.heap.signals)
    (below : bindHeight level f ≤ graph.level source) (top : bindHeight level f ≤ high)
    (fits : ∀ value, graph.Fits base (level + 1) (f value) scope)
    (inner : ∀ {fuel : Nat} {value : V} {graph : Graph V E} {signal : SignalId}
      {heap : Heap V E}, graph.Valid base → graph.Fits base (level + 1) (f value) scope →
        Heap.derive values (Heap.update values fuel) (f value) scope graph.heap =
          some (signal, heap) →
        ∃ later : Graph V E, later.heap = heap ∧
          Derived base (level + 1) (f value) scope graph signal later)
    (ran : Heap.create (Heap.update values fuel) source (.bind f scope graph.heap.signals)
      (graph.heap.newSignal values.undefined) = some (link, heap)) :
    ∃ later : Graph V E, later.heap = heap ∧ Grown base level high graph later ∧
      graph.heap.signals < later.heap.signals ∧ level ≤ later.level graph.heap.signals ∧
      (later.heap.Rejected graph.heap.signals ∨
        later.heap.link graph.heap.links = ⟨source, .bind f scope graph.heap.signals⟩ ∧
          later.heap.Live graph.heap.links) := by
  have alive : (graph.heap.newSignal values.undefined).held graph.heap.signals =
      .value values.undefined := Function.update_self ..
  have same : (graph.heap.newSignal values.undefined).held source = graph.heap.held source :=
    Function.update_of_ne known.ne ..
  have variableNull : (graph.heap.newSignal values.undefined).forwardingLink
      graph.heap.signals = none := Function.update_self ..
  have newLevel : level ≤ (graph.newSignal values.undefined level none).level
      graph.heap.signals :=
    le_of_eq (Function.update_self graph.heap.signals level graph.level).symm
  cases holds : graph.heap.held source with
  | exception exception =>
      rw [Heap.create_exception alive (same.trans holds), Option.map_eq_some_iff] at ran
      obtain ⟨result, called, equal⟩ := ran
      obtain ⟨rfl, rfl⟩ := Prod.mk.inj equal
      cases fuel with
      | zero => cases called
      | succ fuel =>
          have rejects : Heap.reject (Heap.update values fuel) fuel graph.heap.signals exception
              ((graph.heap.newSignal values.undefined).killForwardingLink graph.heap.signals) =
                some result := called
          rw [Heap.killForwardingLink, variableNull] at rejects
          obtain rfl := Heap.reject_bare alive (Function.update_self ..)
            (Function.update_self ..) rejects
          exact ⟨(graph.newSignal values.undefined level none).assign graph.heap.signals
            (.exception exception), rfl, grown_rejected valid holds, Nat.lt_succ_self _,
            newLevel, Or.inl ⟨exception, held_assign ..⟩⟩
  | value value =>
      rw [Heap.create_value alive (same.trans holds), Option.map_eq_some_iff] at ran
      obtain ⟨result, called, equal⟩ := ran
      obtain ⟨rfl, rfl⟩ := Prod.mk.inj equal
      cases fuel with
      | zero => cases called
      | succ fuel =>
          obtain ⟨⟨forwarder, derived⟩, derives, rest⟩ := Option.bind_eq_some_iff.mp called
          obtain ⟨⟨forwardingLink, created⟩, creating, final⟩ := Option.bind_eq_some_iff.mp rest
          have linkedValid : (graph.linked values.undefined level source
              (.bind f scope graph.heap.signals) (bindHeight level f)).Valid base :=
            valid_linked valid known below rfl (admissible_new valid fits)
          obtain ⟨between, rfl, made⟩ := inner linkedValid
            ((fits value).newer (evolves_linked valid rfl))
            ((@killForwardingLink_linked _ _ graph _ _ _ _ _).symm ▸ derives)
          have binds : Graph.Binds base level (bindHeight level f) high values.undefined f scope
              source graph between := Binds.start valid known below top fits made.grown
          cases held : between.heap.held forwarder with
          | exception exception =>
              rw [Heap.create_exception binds.boundHeld held, Option.map_eq_some_iff] at creating
              obtain ⟨rejected, rejecting, equal⟩ := creating
              obtain ⟨rfl, rfl⟩ := Prod.mk.inj equal
              cases fuel with
              | zero => cases rejecting
              | succ fuel =>
                  have refused := reject_refused binds.grown.valid binds.boundKnown
                    binds.boundHeld binds.quiet rejecting
                  obtain ⟨-, evolving, raised, -⟩ := refused_spec binds.grown.valid
                    binds.boundKnown binds.boundHeld exception
                  exact ⟨between.refused graph.heap.signals exception,
                    refused.symm.trans (Option.some_inj.mp final), binds.refused held,
                    binds.boundKnown.trans_le evolving.signals,
                    ((evolving.level binds.boundKnown).trans binds.boundLevel).ge,
                    Or.inl ⟨exception, raised⟩⟩
          | value holding =>
              rw [Heap.create_value binds.boundHeld held, Option.map_eq_some_iff] at creating
              obtain ⟨forwarded, forwarding, equal⟩ := creating
              obtain ⟨rfl, rfl⟩ := Prod.mk.inj equal
              cases fuel with
              | zero => cases forwarding
              | succ fuel =>
                  obtain rfl := @Heap.set_quiet _ _ _ _ (between.heap.addLink forwarder
                    (.forward graph.heap.signals)) _ graph.heap.signals lawful _ _ _
                    binds.boundHeld (binds.quiet_addLink made.above) forwarding
                  have evolving : Evolves (· = graph.heap.signals) between
                      (between.forwarded forwarder graph.heap.signals holding) :=
                    evolves_forwarded binds.grown.valid binds.boundHeld
                  exact ⟨between.forwarded forwarder graph.heap.signals holding,
                    Option.some_inj.mp final,
                    binds.forwarded made.known made.above
                      (le_self_add.trans ((lt_bindHeight level f value).le.trans top)) holds
                      held made.built,
                    binds.boundKnown.trans_le evolving.signals,
                    ((evolving.level binds.boundKnown).trans binds.boundLevel).ge,
                    binds.linkAfter evolving⟩

/-- What a formula becomes is new between its level and what it reads, and up to date. -/
theorem derive_derived (lawful : values.Lawful) {formula : Formula V} :
    ∀ {fuel : Nat} {level : Ordinal.{0}} {scope : List SignalId} {graph : Graph V E}
      {signal : SignalId} {heap : Heap V E}, graph.Valid base →
      graph.Fits base level formula scope →
      Heap.derive values (Heap.update values fuel) formula scope graph.heap =
        some (signal, heap) →
      ∃ later : Graph V E, later.heap = heap ∧
        Derived base level formula scope graph signal later := by
  induction formula with
  | signal name =>
      intro fuel level scope graph signal heap valid fits ran
      rw [Heap.derive, Option.map_eq_some_iff] at ran
      obtain ⟨found, named, same⟩ := ran
      obtain ⟨rfl, rfl⟩ := Prod.mk.inj same
      obtain ⟨known, above⟩ := valid.names named
      exact ⟨graph, rfl, Grown.refl valid, known,
        (le_self_add.trans (le_of_lt fits.1)).trans above, named⟩
  | shared index =>
      intro fuel level scope graph signal heap valid fits ran
      rw [Heap.derive, Option.map_eq_some_iff] at ran
      obtain ⟨found, inScope, same⟩ := ran
      obtain ⟨rfl, rfl⟩ := Prod.mk.inj same
      obtain ⟨known, above⟩ := fits.2 found (List.mem_of_getElem? inScope)
      exact ⟨graph, rfl, Grown.refl valid, known, le_self_add.trans above, inScope⟩
  | value value =>
      intro fuel level scope graph signal heap valid fits ran
      obtain ⟨rfl, rfl⟩ := Prod.mk.inj (Option.some_inj.mp ran)
      have newValid : (graph.newSignal value level (some value)).Valid base :=
        valid.newSignal fun held same => (Option.some_inj.mp same).symm
      refine ⟨graph.newSignal value level (some value), rfl, ?_, Nat.lt_succ_self _,
        le_of_eq (Function.update_self graph.heap.signals level graph.level).symm,
        const_newSignal⟩
      refine ⟨newValid, evolves_newSignal valid, rfl, ?_, ?_, ?_, ?_⟩
      · exact fun link new known => absurd known new.not_gt
      · exact fun link new live => absurd (newValid.live_lt live) new.not_gt
      · exact fun link new live => absurd (newValid.live_lt live) new.not_gt
      · intro signal exception raised
        by_cases same : signal = graph.heap.signals
        · rw [same, held_newSignal] at raised
          cases raised
        · exact ⟨signal, (Function.update_of_ne same ..).symm.trans raised⟩
  | map source f ih =>
      intro fuel level scope graph signal heap valid fits ran
      obtain ⟨⟨source, between⟩, first, rest⟩ := Option.bind_eq_some_iff.mp ran
      obtain ⟨⟨link, created⟩, creating, final⟩ := Option.bind_eq_some_iff.mp rest
      obtain ⟨rfl, rfl⟩ := Prod.mk.inj (Option.some_inj.mp final)
      obtain ⟨inner, rfl, made⟩ := ih valid fits.map first
      obtain ⟨later, rfl, grown, known, above, linked⟩ :=
        create_mapped lawful made.grown.valid made.known made.above creating
      refine ⟨later, rfl, ?_, known, above, ?_⟩
      · exact (made.grown.mono le_self_add (by rw [Formula.size, add_assoc])).trans valid
          (grown.mono le_rfl (by rw [Formula.size, ← add_assoc]; exact le_self_add))
      · rcases linked with rejected | ⟨record, live⟩
        · exact Or.inl rejected
        · exact Or.inr ⟨_, source, live, record,
            grown.evolves.built made.grown.valid made.known made.built⟩
  | bind source f baseIH fIH =>
      intro fuel level scope graph signal heap valid fits ran
      obtain ⟨⟨source, between⟩, first, rest⟩ := Option.bind_eq_some_iff.mp ran
      obtain ⟨⟨link, created⟩, creating, final⟩ := Option.bind_eq_some_iff.mp rest
      obtain ⟨rfl, rfl⟩ := Prod.mk.inj (Option.some_inj.mp final)
      obtain ⟨inner, rfl, made⟩ := baseIH valid fits.bindBase first
      obtain ⟨later, rfl, grown, known, above, linked⟩ :=
        create_bound lawful made.grown.valid made.known made.above bindHeight_le
          (fun value => (fits.bindInner value).newer made.grown.evolves)
          (fun {_ value} => fIH value) creating
      have low : level ≤ bindHeight level f := le_self_add
      refine ⟨later, rfl, ?_, known, above, ?_⟩
      · exact (made.grown.mono low (by rw [Formula.size, bindHeight, add_assoc])).trans valid
          grown
      · rcases linked with rejected | ⟨record, live⟩
        · exact Or.inl rejected
        · exact Or.inr ⟨_, source, live, record,
            grown.evolves.built made.grown.valid made.known made.built⟩
  | share first body firstIH bodyIH =>
      intro fuel level scope graph signal heap valid fits ran
      obtain ⟨⟨shared, between⟩, ranFirst, ranBody⟩ := Option.bind_eq_some_iff.mp ran
      obtain ⟨inner, rfl, made⟩ := firstIH valid fits.start ranFirst
      obtain ⟨later, rfl, rest⟩ := bodyIH made.grown.valid
        (fits.rest made.grown.evolves made.known made.above) ranBody
      refine ⟨later, rfl, ?_, rest.known, rest.above, shared,
        made.known.trans_le rest.grown.evolves.signals,
        rest.grown.evolves.built made.grown.valid made.known made.built, rest.built⟩
      exact (made.grown.mono le_self_add (by rw [Formula.size, add_assoc])).trans valid
        (rest.grown.mono le_rfl (by rw [Formula.size, ← add_assoc]; exact le_self_add))

end Graph

end Smmboss.Signals
