import Smmboss.Signals.Derive

namespace Smmboss.Signals

/-! # Propagation

What the call of a link's closure brings about: its target is up to date or rejected,
and so is all that depends on it, but for the links that a loop under way still has to
visit.  The calls are what the methods assume of the calls they make.
-/

variable {V E : Type} {values : Values V}

namespace Graph

variable {base : Nat → Ordinal.{0}} {graph later : Graph V E} {height : Ordinal.{0}}
  {pending : LinkId → Prop}

/-- The signals that an iteration over the links of this one may touch. -/
def Below (graph : Graph V E) (source signal : SignalId) : Prop :=
  graph.level signal < graph.level source

/-- The signals that a call of a closure may touch that sets this one. -/
def Under (graph : Graph V E) (target signal : SignalId) : Prop :=
  graph.level signal < graph.level target ∨ signal = target

/-- The links that an iteration has before it. -/
def Ahead (graph : Graph V E) (signal : SignalId) (index : Nat) (link : LinkId) : Prop :=
  ∃ place, index ≤ place ∧ (graph.heap.linksOut signal)[place]? = some (some link)

/-- The closure may be called: its target and what depends on that are as they should be,
but for the target's own value and the pending links. -/
structure Ready (base : Nat → Ordinal.{0}) (pending : LinkId → Prop) (height : Ordinal.{0})
    (update : Update V) (graph : Graph V E) : Prop where
  valid : graph.Valid base
  known : update.target < graph.heap.signals
  alive : ∃ value, graph.heap.held update.target = .value value
  admissible : graph.Admissible base height update
  sole : ∀ f scope boundSignal, update = .bind f scope boundSignal →
    ∀ link, graph.heap.Live link → (graph.heap.link link).update = .forward boundSignal →
      graph.heap.forwardingLink boundSignal = some link
  settled : graph.Settled (graph.level update.target) pending
  old : ∀ link, pending link → link < graph.heap.links

/-- What a call that sets the target leaves behind. -/
structure Called (base : Nat → Ordinal.{0}) (pending : LinkId → Prop) (height : Ordinal.{0})
    (target : SignalId) (graph later : Graph V E) : Prop where
  valid : later.Valid base
  evolves : Evolves (graph.Under target) graph later
  settled : ∀ link, later.heap.Live link →
    later.level (later.heap.link link).target < graph.level target ∨ graph.heap.links ≤ link →
      later.Sound link ∧ (¬ pending link → later.Good link)
  heights : ∀ link, graph.heap.links ≤ link → link < later.heap.links →
    later.height link < height

/-- The target after a call with a value. -/
def Result (graph later : Graph V E) (value : V) : Update V → Prop
  | .map f mappedSignal => later.heap.held mappedSignal = .value (f value) ∧
      later.heap.forwardingLink mappedSignal = graph.heap.forwardingLink mappedSignal ∧
      later.heap.linksIn mappedSignal = graph.heap.linksIn mappedSignal
  | .forward boundSignal => later.heap.held boundSignal = .value value ∧
      later.heap.forwardingLink boundSignal = graph.heap.forwardingLink boundSignal ∧
      later.heap.linksIn boundSignal = graph.heap.linksIn boundSignal
  | .bind f scope boundSignal =>
      (later.heap.Rejected boundSignal ∧
        ∀ link, later.heap.Live link → (later.heap.link link).target ≠ boundSignal) ∨
      (∃ current, later.heap.held boundSignal = .value current) ∧
        later.Brought value (.bind f scope boundSignal) ∧
        ∀ link, link < graph.heap.links → later.heap.Live link →
          (later.heap.link link).update ≠ .forward boundSignal

/-- The target after a call with an exception. -/
structure Refused (target : SignalId) (exception : E) (graph later : Graph V E) : Prop where
  held : later.heap.held target = .exception exception
  into : ∀ link, later.heap.Live link → (later.heap.link link).target ≠ target
  out : ∀ link, later.heap.Live link → (later.heap.link link).source ≠ target
  links : later.heap.links = graph.heap.links
  kept : ∀ link, link < graph.heap.links → graph.heap.Live link →
    later.heap.Live link ∨ later.heap.Rejected (graph.heap.link link).target
  exceptions : ∀ signal other, later.heap.held signal = .exception other →
    other = exception ∨ graph.heap.held signal = .exception other

/-- No exceptions but those of signals that were rejected before. -/
def NoNew (graph later : Graph V E) : Prop :=
  ∀ signal exception, later.heap.held signal = .exception exception →
    ∃ before, graph.heap.held before = .exception exception

theorem NoNew.trans {last : Graph V E} (first : NoNew graph later) (second : NoNew later last) :
    NoNew graph last := by
  intro signal exception raised
  obtain ⟨between, held⟩ := second signal exception raised
  exact first between exception held

/-- What the methods assume of the closures that they call. -/
structure Correct (base : Nat → Ordinal.{0}) (call : Call V E) : Prop where
  value : ∀ {pending height update} {graph : Graph V E} {value heap},
    Ready base pending height update graph →
    (∃ link, link < graph.heap.links ∧ (graph.heap.link link).update = update) →
    call update (.value value) graph.heap = some heap →
      ∃ later : Graph V E, later.heap = heap ∧
        Called base pending height update.target graph later ∧
        NoNew graph later ∧ Result graph later value update
  exception : ∀ {pending height update} {graph : Graph V E} {exception heap},
    Ready base pending height update graph →
    call update (.exception exception) graph.heap = some heap →
      ∃ later : Graph V E, later.heap = heap ∧
        Called base pending height update.target graph later ∧
        Refused update.target exception graph later

/-! ## Iterating over the links of a signal -/

section Iteration

variable {signal target : SignalId} {index : Nat} {before : LinkId → Prop} {level : Ordinal.{0}}

theorem Valid.up (valid : graph.Valid base) {link : LinkId} (live : graph.heap.Live link)
    (notUnder : ¬ graph.level (graph.heap.link link).target < graph.level target) :
    ¬ graph.Under target (graph.heap.link link).source := by
  have higher := (not_lt.mp notUnder).trans_lt (valid.down live)
  rintro (below | rfl)
  · exact absurd below higher.not_gt
  · exact lt_irrefl _ higher

/-- A region stays settled over a call, if the links into its target are accounted for. -/
theorem settled_after (valid : graph.Valid base) (settled : graph.Settled level before)
    (called : Called base pending height target graph later)
    (into : ∀ link, link < graph.heap.links → later.heap.Live link →
      (graph.heap.link link).target = target →
        later.Sound link ∧ (¬ pending link → later.Good link))
    (fewer : ∀ link, graph.heap.Live link → (graph.heap.link link).target ≠ target →
      before link → pending link) :
    later.Settled level pending := by
  intro link live low
  rcases Nat.lt_or_ge link graph.heap.links with old | new
  · have wasLive := called.evolves.revived old live
    have sameTarget := called.evolves.target old
    have sameLevel := called.evolves.level (valid.target_lt wasLive)
    by_cases isTarget : (graph.heap.link link).target = target
    · exact into link old live isTarget
    · by_cases under : graph.level (graph.heap.link link).target < graph.level target
      · refine called.settled link live (Or.inl ?_)
        rwa [sameTarget, sameLevel]
      · have untouched : ¬ graph.Under target (graph.heap.link link).target :=
          fun touched => touched.elim under isTarget
        rw [sameTarget, sameLevel] at low
        obtain ⟨sound, good⟩ := settled link wasLive low
        refine ⟨called.evolves.sound valid wasLive untouched sound, fun notPending => ?_⟩
        exact called.evolves.good valid wasLive (valid.up wasLive under) untouched
          (good fun was => notPending (fewer link wasLive isTarget was))
  · exact called.settled link live (Or.inr new)

theorem Ahead.next {link other : LinkId} (ahead : graph.Ahead signal index link)
    (here : (graph.heap.linksOut signal)[index]? = some (some other)) (different : link ≠ other) :
    graph.Ahead signal (index + 1) link := by
  obtain ⟨place, beyond, found⟩ := ahead
  refine ⟨place, ?_, found⟩
  rcases beyond.lt_or_eq with later | rfl
  · exact later
  · rw [here] at found
    cases found
    exact absurd rfl different

theorem Ahead.skip {link : LinkId} (ahead : graph.Ahead signal index link)
    (here : (graph.heap.linksOut signal)[index]? = some none) :
    graph.Ahead signal (index + 1) link := by
  obtain ⟨place, beyond, found⟩ := ahead
  refine ⟨place, ?_, found⟩
  rcases beyond.lt_or_eq with later | rfl
  · exact later
  · rw [here] at found
    cases found

theorem sound_of_held {link : LinkId}
    (alive : ∃ value, graph.heap.held (graph.heap.link link).target = .value value)
    (plain : ∀ boundSignal, (graph.heap.link link).update ≠ .forward boundSignal) :
    graph.Sound link := by
  refine ⟨?_, fun boundSignal forward => absurd forward (plain boundSignal)⟩
  rintro ⟨exception, raised⟩
  obtain ⟨value, held⟩ := alive
  rw [held] at raised
  cases raised

/-- After a call over a link, the links into its target are as they should be. -/
theorem into_after (valid : graph.Valid base) {link : LinkId} (live : graph.heap.Live link)
    (settled : graph.Settled level before)
    (low : graph.level (graph.heap.link link).target < level) {value : V}
    (called : Called base pending height (graph.heap.link link).target graph later)
    (result : Result graph later value (graph.heap.link link).update)
    (holds : later.heap.held (graph.heap.link link).source = .value value)
    (fewer : ∀ other, graph.heap.Live other → other ≠ link → before other → pending other) :
    ∀ other, other < graph.heap.links → later.heap.Live other →
      (graph.heap.link other).target = (graph.heap.link link).target →
        later.Sound other ∧ (¬ pending other → later.Good other) := by
  intro other old otherLive together
  have known := valid.live_lt live
  have record := called.evolves.link known
  have otherRecord := called.evolves.link old
  have wasLive := called.evolves.revived old otherLive
  obtain ⟨sound, -⟩ := settled link live low
  obtain ⟨otherSound, otherGood⟩ := settled other wasLive (together ▸ low)
  cases update : (graph.heap.link link).update with
  | map f mappedSignal =>
      rw [update] at result
      rcases valid.sole known old together.symm (by simp [update]) with rfl | ⟨-, noMap⟩
      · refine ⟨sound_of_held ⟨f value, ?_⟩ ?_, fun _ => ⟨value, ?_, ?_⟩⟩
        · rw [record, Link.target, update]
          exact result.1
        · rw [record, update]
          exact fun _ same => by cases same
        · rw [record, holds]
        · rw [record, update]
          exact result.1
      · exact absurd update (noMap f mappedSignal)
  | forward boundSignal =>
      rw [update] at result
      have target : (graph.heap.link link).target = boundSignal := by
        rw [Link.target, update]
        rfl
      have alive : later.heap.held (later.heap.link other).target = .value value := by
        rw [otherRecord, together, target]
        exact result.1
      cases otherUpdate : (graph.heap.link other).update with
      | forward otherSignal =>
          have same : otherSignal = boundSignal := by
            rw [← target, ← together, Link.target, otherUpdate]
            rfl
          subst same
          have equal : some other = some link :=
            (otherSound.2 otherSignal otherUpdate).symm.trans (sound.2 otherSignal update)
          obtain rfl := Option.some_inj.mp equal
          refine ⟨⟨?_, ?_⟩, fun _ => ⟨value, ?_, ?_⟩⟩
          · rintro ⟨exception, raised⟩
            rw [alive] at raised
            cases raised
          · rw [record]
            rintro signal forward
            rw [update] at forward
            cases forward
            rw [result.2.1]
            exact sound.2 otherSignal update
          · rw [record, holds]
          · rw [record, update]
            exact result.1
      | map f mappedSignal =>
          rcases valid.sole old known together (by simp [otherUpdate]) with rfl | ⟨-, noMap⟩
          · rw [update] at otherUpdate
            cases otherUpdate
          · exact absurd otherUpdate (noMap f mappedSignal)
      | bind f scope otherSignal =>
          have same : otherSignal = boundSignal := by
            rw [← target, ← together, Link.target, otherUpdate]
            rfl
          subst same
          refine ⟨sound_of_held ⟨value, alive⟩ (by rw [otherRecord, otherUpdate]; exact fun _ same => by cases same),
            fun notPending => ?_⟩
          have different : other ≠ link := by
            rintro rfl
            rw [update] at otherUpdate
            cases otherUpdate
          obtain ⟨current, held, brought⟩ :=
            otherGood fun was => notPending (fewer other wasLive different was)
          refine ⟨current, ?_, ?_⟩
          · have untouched : ¬ graph.Under (graph.heap.link link).target
                (graph.heap.link other).source := valid.up wasLive (by rw [together]; exact lt_irrefl _)
            rw [otherRecord, (called.evolves.same (valid.source_lt wasLive) untouched).1, held]
          · rw [otherUpdate] at brought
            rw [otherRecord, otherUpdate]
            exact called.evolves.brought_bind valid result.2.1 result.2.2 brought
  | bind f scope boundSignal =>
      rw [update] at result
      have target : (graph.heap.link link).target = boundSignal := by
        rw [Link.target, update]
        rfl
      rcases result with ⟨-, noLive⟩ | ⟨⟨current, held⟩, brought, noForward⟩
      · exact absurd (by rw [otherRecord, together, target]) (noLive other otherLive)
      · rcases valid.sole known old together.symm (by simp [update]) with
          rfl | ⟨⟨signal, forward⟩, -⟩
        · refine ⟨sound_of_held ⟨current, ?_⟩ ?_, fun _ => ⟨value, ?_, ?_⟩⟩
          · rw [record, target, held]
          · rw [record, update]
            exact fun _ same => by cases same
          · rw [record, holds]
          · rw [record, update]
            exact brought
        · have same : signal = boundSignal := by
            rw [← target, ← together, Link.target, forward]
            rfl
          subst same
          exact absurd (by rw [otherRecord, forward]) (noForward other old otherLive)

theorem above_under (valid : graph.Valid base) {link : LinkId} (live : graph.heap.Live link) :
    ¬ graph.Under (graph.heap.link link).target (graph.heap.link link).source :=
  valid.up live (lt_irrefl _)

theorem Settled.mono {after : LinkId → Prop} {lower : Ordinal.{0}}
    (settled : graph.Settled level before) (below : lower ≤ level)
    (fewer : ∀ link, graph.heap.Live link → graph.level (graph.heap.link link).target < lower →
      before link → after link) : graph.Settled lower after := by
  intro link live low
  obtain ⟨sound, good⟩ := settled link live (low.trans_le below)
  exact ⟨sound, fun notAfter => good fun was => notAfter (fewer link live low was)⟩

/-- An iteration over the links of the signal has come so far: what is below the signal is
settled but for the links that it has before it. -/
structure Looping (base : Nat → Ordinal.{0}) (pending : LinkId → Prop) (signal : SignalId)
    (held : Held V E) (index : Nat) (graph : Graph V E) : Prop where
  valid : graph.Valid base
  known : signal < graph.heap.signals
  holds : graph.heap.held signal = held
  settled : graph.Settled (graph.level signal)
    fun link => pending link ∨ graph.Ahead signal index link
  old : ∀ link, pending link → link < graph.heap.links

namespace Looping

variable {held : Held V E} {link : LinkId} {call : Call V E} {heap : Heap V E}

theorem skip (looping : Looping base pending signal held index graph)
    (empty : (graph.heap.linksOut signal)[index]? = some none) :
    Looping base pending signal held (index + 1) graph := by
  refine { looping with settled := looping.settled.mono le_rfl ?_ }
  rintro link _ _ (was | ahead)
  · exact Or.inl was
  · exact Or.inr (ahead.skip empty)

/-- Nothing is ahead when the iteration ends. -/
theorem ended (looping : Looping base pending signal held index graph)
    (ended : (graph.heap.linksOut signal)[index]? = none) :
    graph.Settled (graph.level signal) pending := by
  refine looping.settled.mono le_rfl ?_
  rintro link _ _ (was | ⟨place, beyond, found⟩)
  · exact was
  · have short := List.getElem?_eq_none_iff.mp ended
    rw [List.getElem?_eq_none (short.trans beyond)] at found
    cases found

/-- The closure of the link at hand may be called. -/
theorem ready (looping : Looping base pending signal held index graph)
    (here : (graph.heap.linksOut signal)[index]? = some (some link)) :
    Ready base (fun other => pending other ∨ graph.Ahead signal (index + 1) other)
      (graph.height link) (graph.heap.link link).update graph := by
  have valid := looping.valid
  obtain ⟨live, source⟩ := valid.out (List.mem_of_getElem? here)
  have low : graph.level (graph.heap.link link).target < graph.level signal :=
    source ▸ valid.down live
  obtain ⟨⟨alive, forward⟩, -⟩ := looping.settled link live low
  refine ⟨valid, valid.target_lt live, ?_, (valid.heights live).2, ?_, ?_, ?_⟩
  · cases held : graph.heap.held (graph.heap.link link).target with
    | value value => exact ⟨value, held⟩
    | exception exception => exact absurd ⟨exception, held⟩ alive
  · intro f scope boundSignal update other otherLive forward
    have together : (graph.heap.link other).target = (graph.heap.link link).target := by
      rw [Link.target, Link.target, forward, update]
      rfl
    exact (looping.settled other otherLive (together ▸ low)).1.2 boundSignal forward
  · refine looping.settled.mono low.le ?_
    rintro other otherLive lower (was | ahead)
    · exact Or.inl was
    · refine Or.inr (ahead.next here ?_)
      rintro rfl
      exact lt_irrefl _ lower
  · rintro other (was | ⟨place, -, found⟩)
    · exact looping.old other was
    · exact valid.live_lt (valid.out (List.mem_of_getElem? found)).1

/-- A call over the link at hand, the links into its target accounted for. -/
theorem next (looping : Looping base pending signal held index graph)
    (here : (graph.heap.linksOut signal)[index]? = some (some link))
    (called : Called base (fun other => pending other ∨ graph.Ahead signal (index + 1) other)
      (graph.height link) (graph.heap.link link).target graph later)
    (into : ∀ other, other < graph.heap.links → later.heap.Live other →
      (graph.heap.link other).target = (graph.heap.link link).target →
        later.Sound other ∧
          (¬ (pending other ∨ graph.Ahead signal (index + 1) other) → later.Good other)) :
    Looping base pending signal held (index + 1) later := by
  have valid := looping.valid
  obtain ⟨live, source⟩ := valid.out (List.mem_of_getElem? here)
  have untouched : ¬ graph.Under (graph.heap.link link).target signal :=
    source ▸ above_under valid live
  refine ⟨called.valid, looping.known.trans_le called.evolves.signals,
    (called.evolves.same looping.known untouched).1.trans looping.holds, ?_,
    fun other was => (looping.old other was).trans_le called.evolves.links⟩
  have settled := settled_after valid looping.settled called into (by
    rintro other _ different (was | ahead)
    · exact Or.inl was
    · exact Or.inr (ahead.next here (by rintro rfl; exact different rfl)))
  refine Settled.mono settled (called.evolves.level looping.known).le ?_
  rintro other otherLive _ (was | ⟨place, beyond, found⟩)
  · exact Or.inl was
  · exact Or.inr ⟨place, beyond, called.evolves.stays looping.known found otherLive⟩

theorem value_step {value : V} (looping : Looping base pending signal (.value value) index graph)
    (correct : Correct base call)
    (here : (graph.heap.linksOut signal)[index]? = some (some link))
    (ran : call (graph.heap.link link).update (.value value) graph.heap = some heap) :
    ∃ later : Graph V E, later.heap = heap ∧
      Called base (fun other => pending other ∨ graph.Ahead signal (index + 1) other)
        (graph.height link) (graph.heap.link link).target graph later ∧
      NoNew graph later ∧ Looping base pending signal (.value value) (index + 1) later := by
  have valid := looping.valid
  obtain ⟨live, source⟩ := valid.out (List.mem_of_getElem? here)
  obtain ⟨later, rfl, called, noNew, result⟩ :=
    correct.value (looping.ready here) ⟨link, valid.live_lt live, rfl⟩ ran
  have untouched : ¬ graph.Under (graph.heap.link link).target signal :=
    source ▸ above_under valid live
  have holds : later.heap.held signal = .value value :=
    (called.evolves.same looping.known untouched).1.trans looping.holds
  refine ⟨later, rfl, called, noNew, looping.next here called ?_⟩
  refine into_after valid live looping.settled (source ▸ valid.down live) called result
    (source ▸ holds) ?_
  rintro other _ different (was | ahead)
  · exact Or.inl was
  · exact Or.inr (ahead.next here different)

theorem exception_step {exception : E}
    (looping : Looping base pending signal (.exception exception) index graph)
    (correct : Correct base call)
    (here : (graph.heap.linksOut signal)[index]? = some (some link))
    (ran : call (graph.heap.link link).update (.exception exception) graph.heap = some heap) :
    ∃ later : Graph V E, later.heap = heap ∧
      Called base (fun other => pending other ∨ graph.Ahead signal (index + 1) other)
        (graph.height link) (graph.heap.link link).target graph later ∧
      Refused (graph.heap.link link).target exception graph later ∧
      Looping base pending signal (.exception exception) (index + 1) later := by
  obtain ⟨later, rfl, called, refused⟩ := correct.exception (looping.ready here) ran
  refine ⟨later, rfl, called, refused, looping.next here called ?_⟩
  exact fun other older otherLive together => absurd
    ((called.evolves.target older).trans together) (refused.into other otherLive)

theorem step (looping : Looping base pending signal held index graph)
    (correct : Correct base call)
    (here : (graph.heap.linksOut signal)[index]? = some (some link))
    (ran : call (graph.heap.link link).update held graph.heap = some heap) :
    ∃ later : Graph V E, later.heap = heap ∧
      Called base (fun other => pending other ∨ graph.Ahead signal (index + 1) other)
        (graph.height link) (graph.heap.link link).target graph later ∧
      Looping base pending signal held (index + 1) later := by
  cases held with
  | value value =>
      obtain ⟨later, same, called, -, next⟩ := looping.value_step correct here ran
      exact ⟨later, same, called, next⟩
  | exception exception =>
      obtain ⟨later, same, called, -, next⟩ := looping.exception_step correct here ran
      exact ⟨later, same, called, next⟩

end Looping

/-- What an iteration over the links of a signal leaves behind. -/
structure Bumped (base : Nat → Ordinal.{0}) (pending : LinkId → Prop) (signal : SignalId)
    (graph later : Graph V E) : Prop where
  valid : later.Valid base
  evolves : Evolves (graph.Below signal) graph later
  settled : later.Settled (graph.level signal) pending
  heights : ∀ link, graph.heap.links ≤ link → link < later.heap.links →
    later.height link < graph.level signal

theorem Bumped.refl (valid : graph.Valid base)
    (settled : graph.Settled (graph.level signal) pending) :
    Bumped base pending signal graph graph :=
  ⟨valid, Evolves.refl graph, settled, fun _ new older => absurd older new.not_gt⟩

theorem Bumped.after {last : Graph V E} (valid : graph.Valid base)
    (known : signal < graph.heap.signals) {link : LinkId}
    (here : some link ∈ graph.heap.linksOut signal)
    (called : Called base before (graph.height link) (graph.heap.link link).target graph later)
    (bumped : Bumped base pending signal later last) : Bumped base pending signal graph last := by
  obtain ⟨live, source⟩ := valid.out here
  have sameLevel := called.evolves.level known
  have low : graph.level (graph.heap.link link).target < graph.level signal :=
    source ▸ valid.down live
  refine ⟨bumped.valid, ?_, sameLevel ▸ bumped.settled, ?_⟩
  · refine (called.evolves.mono ?_).trans valid bumped.evolves ?_
    · rintro other _ (below | rfl)
      · exact below.trans low
      · exact low
    · intro other otherKnown below
      rwa [Below, called.evolves.level otherKnown, sameLevel] at below
  · intro other new otherKnown
    rcases Nat.lt_or_ge other later.heap.links with between | newer
    · rw [bumped.evolves.height between]
      exact (called.heights other new between).trans_le (source ▸ (valid.heights live).1)
    · rw [← sameLevel]
      exact bumped.heights other newer otherKnown

theorem bump_value {call : Call V E} (correct : Correct base call) {value : V} {rounds : Nat} :
    ∀ {graph : Graph V E} {index : Nat} {heap : Heap V E},
      Looping base pending signal (.value value) index graph →
      Heap.bumpFrom call signal rounds index graph.heap = some heap →
        ∃ later : Graph V E, later.heap = heap ∧ Bumped base pending signal graph later ∧
          NoNew graph later := by
  induction rounds with
  | zero =>
      intro graph index heap _ ran
      cases ran
  | succ rounds ih =>
      intro graph index heap looping ran
      rw [Heap.bumpFrom] at ran
      split at ran
      · rename_i ended
        obtain rfl := Option.some_inj.mp ran
        exact ⟨graph, rfl, Bumped.refl looping.valid (looping.ended ended),
          fun signal _ raised => ⟨signal, raised⟩⟩
      · rename_i empty
        exact ih (looping.skip empty) ran
      · rename_i link here
        obtain ⟨between, called, rest⟩ := Option.bind_eq_some_iff.mp ran
        rw [looping.holds] at called
        obtain ⟨later, rfl, call, noNew, next⟩ := looping.value_step correct here called
        obtain ⟨last, rfl, bumped, noNewer⟩ := ih next rest
        exact ⟨last, rfl, bumped.after looping.valid looping.known (List.mem_of_getElem? here)
          call, noNew.trans noNewer⟩

/-- What an iteration over the links of a rejected signal leaves behind. -/
structure Emptied (signal : SignalId) (exception : E) (graph later : Graph V E) : Prop where
  out : ∀ link, later.heap.Live link → (later.heap.link link).source ≠ signal
  links : later.heap.links = graph.heap.links
  kept : ∀ link, link < graph.heap.links → graph.heap.Live link →
    later.heap.Live link ∨ later.heap.Rejected (graph.heap.link link).target
  exceptions : ∀ other raised, later.heap.held other = .exception raised →
    raised = exception ∨ graph.heap.held other = .exception raised

/-- No link is left at the places that the iteration has passed. -/
def Passed (graph : Graph V E) (signal : SignalId) (index : Nat) : Prop :=
  ∀ place link, place < index → (graph.heap.linksOut signal)[place]? ≠ some (some link)

theorem Passed.skip (passed : graph.Passed signal index)
    (empty : (graph.heap.linksOut signal)[index]? = some none) :
    graph.Passed signal (index + 1) := by
  intro place link before found
  rcases Nat.lt_succ_iff_lt_or_eq.mp before with earlier | rfl
  · exact passed place link earlier found
  · rw [empty] at found
    cases found

theorem Passed.next (passed : graph.Passed signal index) {link : LinkId}
    (valid : graph.Valid base) (known : signal < graph.heap.signals)
    (here : (graph.heap.linksOut signal)[index]? = some (some link)) {exception : E}
    (called : Called base before (graph.height link) (graph.heap.link link).target graph later)
    (refused : Refused (graph.heap.link link).target exception graph later) :
    later.Passed signal (index + 1) := by
  intro place other early found
  have live := (valid.out (List.mem_of_getElem? here)).1
  have otherLive := (called.valid.out (List.mem_of_getElem? found)).1
  rcases called.evolves.outOld known found with was | ⟨-, new⟩
  · rcases Nat.lt_succ_iff_lt_or_eq.mp early with earlier | rfl
    · exact passed place other earlier was
    · rw [here] at was
      cases was
      exact refused.into link otherLive (called.evolves.target (valid.live_lt live))
  · have older := called.valid.live_lt otherLive
    rw [refused.links] at older
    exact absurd older new.not_gt

theorem bump_exception {call : Call V E} (correct : Correct base call) {exception : E}
    {rounds : Nat} :
    ∀ {graph : Graph V E} {index : Nat} {heap : Heap V E},
      Looping base pending signal (.exception exception) index graph →
      graph.Passed signal index →
      Heap.bumpFrom call signal rounds index graph.heap = some heap →
        ∃ later : Graph V E, later.heap = heap ∧ Bumped base pending signal graph later ∧
          Emptied signal exception graph later := by
  induction rounds with
  | zero =>
      intro graph index heap _ _ ran
      cases ran
  | succ rounds ih =>
      intro graph index heap looping passed ran
      have valid := looping.valid
      rw [Heap.bumpFrom] at ran
      split at ran
      · rename_i ended
        have short := List.getElem?_eq_none_iff.mp ended
        obtain rfl := Option.some_inj.mp ran
        refine ⟨graph, rfl, Bumped.refl valid (looping.ended ended), ?_, rfl,
          fun link _ live => Or.inl live, fun _ _ => Or.inr⟩
        rintro link live rfl
        obtain ⟨place, found⟩ := List.mem_iff_getElem?.mp (valid.live live)
        have inside := (List.getElem?_eq_some_iff.mp found).1
        exact passed place link (inside.trans_le short) found
      · rename_i empty
        exact ih (looping.skip empty) (passed.skip empty) ran
      · rename_i link here
        obtain ⟨between, called, rest⟩ := Option.bind_eq_some_iff.mp ran
        rw [looping.holds] at called
        obtain ⟨later, rfl, call, refused, next⟩ := looping.exception_step correct here called
        obtain ⟨last, rfl, bumped, emptied⟩ :=
          ih next (passed.next valid looping.known here call refused) rest
        refine ⟨last, rfl, bumped.after valid looping.known (List.mem_of_getElem? here) call,
          emptied.out, emptied.links.trans refused.links, ?_, ?_⟩
        · intro other older otherLive
          have targetKnown := (valid.ends older).2
          rcases refused.kept other older otherLive with still | rejected
          · have record := call.evolves.target older
            rw [← record]
            exact emptied.kept other (refused.links ▸ older) still
          · exact Or.inr (bumped.evolves.rejected
              (targetKnown.trans_le call.evolves.signals) rejected)
        · intro other raised held
          rcases emptied.exceptions other raised held with same | was
          · exact Or.inl same
          · exact refused.exceptions other raised was

end Iteration

end Graph

end Smmboss.Signals
