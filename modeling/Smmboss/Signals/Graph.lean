import Mathlib.SetTheory.Ordinal.Family
import Smmboss.Signals.Heap

namespace Smmboss.Signals

/-! # The graph of the links

What a heap is between two steps of a propagation.  Each signal has a level and each
link a height, ordinals that go down along the links; a formula has a size, the room
that its new signals and links take between the level of the signal they feed and the
levels of the signals they read.
-/

variable {V E : Type}

namespace Formula

noncomputable def size : Formula V → Ordinal.{0}
  | .signal _ => 0
  | .shared _ => 0
  | .value _ => 0
  | .map base _ => 1 + base.size
  | .bind base f => 1 + (⨆ value, (f value).size) + 1 + base.size
  | .share first body => body.size + first.size

/-- The formula reads only such signals of the network, and of its scope those it has. -/
def Closed (seen : Nat → Prop) : Nat → Formula V → Prop
  | _, .signal name => seen name
  | depth, .shared index => index < depth
  | _, .value _ => True
  | depth, .map base _ => base.Closed seen depth
  | depth, .bind base f => base.Closed seen depth ∧ ∀ value, (f value).Closed seen depth
  | depth, .share first body => first.Closed seen depth ∧ body.Closed seen (depth + 1)

theorem Closed.imp {seen other : Nat → Prop} (weaker : ∀ name, seen name → other name)
    {formula : Formula V} : ∀ {depth : Nat}, formula.Closed seen depth →
      formula.Closed other depth := by
  induction formula with
  | signal name => exact fun closed => weaker name closed
  | shared | value => exact id
  | map base f ih => exact fun closed => ih closed
  | bind base f baseIH fIH =>
      exact fun closed => ⟨baseIH closed.1, fun value => fIH value (closed.2 value)⟩
  | share first body firstIH bodyIH =>
      exact fun closed => ⟨firstIH closed.1, bodyIH closed.2⟩

theorem size_le_bind (f : V → Formula V) (value : V) :
    1 + (f value).size ≤ 1 + (⨆ value, (f value).size) :=
  add_le_add_right (Ordinal.le_iSup (fun value => (f value).size) value) 1

end Formula

/-- A heap with the levels and heights, and the plain values that formulas became. -/
structure Graph (V E : Type) where
  heap : Heap V E
  level : SignalId → Ordinal.{0}
  height : LinkId → Ordinal.{0}
  const : SignalId → Option V

def Heap.Rejected (heap : Heap V E) (signal : SignalId) : Prop :=
  ∃ exception, heap.held signal = .exception exception

/-- The link has not been killed. -/
def Heap.Live (heap : Heap V E) (link : LinkId) : Prop :=
  some link ∈ heap.linksIn (heap.link link).target

namespace Graph

/-- The signal is what the formula denotes, or has been rejected. -/
def Built (graph : Graph V E) : Formula V → List SignalId → SignalId → Prop
  | .signal name, _, signal => graph.heap.names[name]? = some signal
  | .shared index, scope, signal => scope[index]? = some signal
  | .value value, _, signal => graph.const signal = some value
  | .map base f, scope, signal => graph.heap.Rejected signal ∨
      ∃ link source, graph.heap.Live link ∧ graph.heap.link link = ⟨source, .map f signal⟩ ∧
        graph.Built base scope source
  | .bind base f, scope, signal => graph.heap.Rejected signal ∨
      ∃ link source, graph.heap.Live link ∧
        graph.heap.link link = ⟨source, .bind f scope signal⟩ ∧ graph.Built base scope source
  | .share first body, scope, signal =>
      ∃ shared, shared < graph.heap.signals ∧ graph.Built first scope shared ∧
        graph.Built body (scope ++ [shared]) signal

/-- What a link has brought about once its closure has run on the source's value. -/
def Brought (graph : Graph V E) (value : V) : Update V → Prop
  | .map f mappedSignal => graph.heap.held mappedSignal = .value (f value)
  | .forward boundSignal => graph.heap.held boundSignal = .value value
  | .bind f scope boundSignal => ∃ link, graph.heap.forwardingLink boundSignal = some link ∧
      graph.heap.Live link ∧ graph.Built (f value) scope (graph.heap.link link).source

/-- The link's target is up to date with its source. -/
def Good (graph : Graph V E) (link : LinkId) : Prop :=
  ∃ value, graph.heap.held (graph.heap.link link).source = .value value ∧
    graph.Brought value (graph.heap.link link).update

/-- The link's target is not rejected, and a link of `bind`'s inner kind is the one that
the variable has. -/
def Sound (graph : Graph V E) (link : LinkId) : Prop :=
  ¬ graph.heap.Rejected (graph.heap.link link).target ∧
    ∀ boundSignal, (graph.heap.link link).update = .forward boundSignal →
      graph.heap.forwardingLink boundSignal = some link

/-- The links into signals below the level, but for those in `pending`, are good. -/
def Settled (graph : Graph V E) (level : Ordinal.{0}) (pending : LinkId → Prop) : Prop :=
  ∀ link, graph.heap.Live link → graph.level (graph.heap.link link).target < level →
    graph.Sound link ∧ (¬ pending link → graph.Good link)

section Valid

-- the levels of the signals of the network
variable (base : Nat → Ordinal.{0})

/-- A formula has room from this level on up to the signals that it reads. -/
def Fits (graph : Graph V E) (level : Ordinal.{0}) (formula : Formula V)
    (scope : List SignalId) : Prop :=
  formula.Closed (fun name => level + formula.size < base name) scope.length ∧
    ∀ signal ∈ scope, signal < graph.heap.signals ∧ level + formula.size ≤ graph.level signal

/-- The link of this closure may have this height. -/
def Admissible (graph : Graph V E) (height : Ordinal.{0}) (update : Update V) : Prop :=
  graph.level update.target < height ∧
    ∀ f scope boundSignal, update = .bind f scope boundSignal → ∀ value,
      graph.level boundSignal + 1 + (f value).size < height ∧
        graph.Fits base (graph.level boundSignal + 1) (f value) scope

structure Valid (graph : Graph V E) : Prop where
  out : ∀ {signal : SignalId} {link : LinkId}, some link ∈ graph.heap.linksOut signal →
    graph.heap.Live link ∧ (graph.heap.link link).source = signal
  live : ∀ {link : LinkId}, graph.heap.Live link →
    some link ∈ graph.heap.linksOut (graph.heap.link link).source
  into : ∀ {signal : SignalId} {link : LinkId}, some link ∈ graph.heap.linksIn signal →
    link < graph.heap.links ∧ (graph.heap.link link).target = signal
  ends : ∀ {link : LinkId}, link < graph.heap.links →
    (graph.heap.link link).source < graph.heap.signals ∧
      (graph.heap.link link).target < graph.heap.signals
  sole : ∀ {link other : LinkId}, link < graph.heap.links → other < graph.heap.links →
    (graph.heap.link link).target = (graph.heap.link other).target →
      (∀ signal, (graph.heap.link link).update ≠ .forward signal) →
        link = other ∨ (∃ signal, (graph.heap.link other).update = .forward signal) ∧
          ∀ f signal, (graph.heap.link link).update ≠ .map f signal
  forwarding : ∀ {signal : SignalId} {link : LinkId}, graph.heap.forwardingLink signal = some link →
    link < graph.heap.links ∧ (graph.heap.link link).update = .forward signal
  names : ∀ {name : Nat} {signal : SignalId}, graph.heap.names[name]? = some signal →
    signal < graph.heap.signals ∧ base name ≤ graph.level signal
  heights : ∀ {link : LinkId}, graph.heap.Live link →
    graph.height link ≤ graph.level (graph.heap.link link).source ∧
      graph.Admissible base (graph.height link) (graph.heap.link link).update
  const : ∀ {signal : SignalId} {value : V}, graph.const signal = some value →
    signal < graph.heap.signals ∧
      (∀ link, link < graph.heap.links → (graph.heap.link link).target ≠ signal) ∧
      (graph.heap.held signal = .value value ∨ graph.heap.Rejected signal)

end Valid

/-- What any part of a propagation leaves as it is.  Signals that it may not touch keep
what they hold and the links into them. -/
structure Evolves (may : SignalId → Prop) (graph later : Graph V E) : Prop where
  signals : graph.heap.signals ≤ later.heap.signals
  links : graph.heap.links ≤ later.heap.links
  level : ∀ {signal : SignalId}, signal < graph.heap.signals → later.level signal = graph.level signal
  height : ∀ {link : LinkId}, link < graph.heap.links → later.height link = graph.height link
  const : ∀ {signal : SignalId}, signal < graph.heap.signals → later.const signal = graph.const signal
  link : ∀ {link : LinkId}, link < graph.heap.links → later.heap.link link = graph.heap.link link
  names : ∀ {name : Nat} {signal : SignalId}, graph.heap.names[name]? = some signal →
    later.heap.names[name]? = some signal
  frozen : ∀ {signal : SignalId} {exception : E}, signal < graph.heap.signals →
    graph.heap.held signal = .exception exception →
      later.heap.held signal = .exception exception
  kept : ∀ {link : LinkId}, link < graph.heap.links → graph.heap.Live link →
    (∀ signal, (graph.heap.link link).update ≠ .forward signal) →
      later.heap.Live link ∨ later.heap.Rejected (graph.heap.link link).target
  revived : ∀ {link : LinkId}, link < graph.heap.links → later.heap.Live link → graph.heap.Live link
  same : ∀ {signal : SignalId}, signal < graph.heap.signals → ¬ may signal →
    later.heap.held signal = graph.heap.held signal ∧
      later.heap.forwardingLink signal = graph.heap.forwardingLink signal ∧
      later.heap.linksIn signal = graph.heap.linksIn signal
  longer : ∀ {signal : SignalId}, signal < graph.heap.signals →
    (graph.heap.linksOut signal).length ≤ (later.heap.linksOut signal).length
  outOld : ∀ {signal : SignalId} {index : Nat} {link : LinkId}, signal < graph.heap.signals →
    (later.heap.linksOut signal)[index]? = some (some link) →
      (graph.heap.linksOut signal)[index]? = some (some link) ∨
        (graph.heap.linksOut signal).length ≤ index ∧ graph.heap.links ≤ link
  stays : ∀ {signal : SignalId} {index : Nat} {link : LinkId}, signal < graph.heap.signals →
    (graph.heap.linksOut signal)[index]? = some (some link) → later.heap.Live link →
      (later.heap.linksOut signal)[index]? = some (some link)

variable {base : Nat → Ordinal.{0}} {may mayLater : SignalId → Prop}
  {graph later last : Graph V E}

theorem Valid.live_lt (valid : graph.Valid base) {link : LinkId} (live : graph.heap.Live link) :
    link < graph.heap.links := (valid.into live).1

theorem Valid.source_lt (valid : graph.Valid base) {link : LinkId}
    (live : graph.heap.Live link) : (graph.heap.link link).source < graph.heap.signals :=
  (valid.ends (valid.live_lt live)).1

theorem Valid.target_lt (valid : graph.Valid base) {link : LinkId}
    (live : graph.heap.Live link) : (graph.heap.link link).target < graph.heap.signals :=
  (valid.ends (valid.live_lt live)).2

/-- Levels go down along a link. -/
theorem Valid.down (valid : graph.Valid base) {link : LinkId} (live : graph.heap.Live link) :
    graph.level (graph.heap.link link).target < graph.level (graph.heap.link link).source :=
  (valid.heights live).2.1.trans_le (valid.heights live).1

namespace Evolves

theorem refl (graph : Graph V E) : Evolves may graph graph where
  signals := le_rfl
  links := le_rfl
  level _ := rfl
  height _ := rfl
  const _ := rfl
  link _ := rfl
  names := id
  frozen _ := id
  kept _ live _ := Or.inl live
  revived _ := id
  same _ _ := ⟨rfl, rfl, rfl⟩
  longer _ := le_rfl
  outOld _ := Or.inl
  stays _ there _ := there

theorem mono (evolves : Evolves may graph later)
    (more : ∀ signal < graph.heap.signals, may signal → mayLater signal) :
    Evolves mayLater graph later :=
  { evolves with same := fun known untouched =>
      evolves.same known fun touched => untouched (more _ known touched) }

theorem target (evolves : Evolves may graph later) {link : LinkId}
    (known : link < graph.heap.links) :
    (later.heap.link link).target = (graph.heap.link link).target := by
  rw [evolves.link known]

theorem rejected (evolves : Evolves may graph later) {signal : SignalId}
    (known : signal < graph.heap.signals) (rejected : graph.heap.Rejected signal) :
    later.heap.Rejected signal := by
  obtain ⟨exception, held⟩ := rejected
  exact ⟨exception, evolves.frozen known held⟩

theorem trans (valid : graph.Valid base) (first : Evolves may graph later)
    (second : Evolves mayLater later last)
    (within : ∀ signal < graph.heap.signals, mayLater signal → may signal) :
    Evolves may graph last where
  signals := first.signals.trans second.signals
  links := first.links.trans second.links
  level known := (second.level (known.trans_le first.signals)).trans (first.level known)
  height known := (second.height (known.trans_le first.links)).trans (first.height known)
  const known := (second.const (known.trans_le first.signals)).trans (first.const known)
  link known := (second.link (known.trans_le first.links)).trans (first.link known)
  names found := second.names (first.names found)
  frozen known held := second.frozen (known.trans_le first.signals) (first.frozen known held)
  kept := by
    intro link known live plain
    have target := (valid.ends known).2
    rcases first.kept known live plain with still | rejected
    · have same := first.link known
      rcases second.kept (known.trans_le first.links) still (same ▸ plain) with here | rejected
      · exact Or.inl here
      · exact Or.inr (same ▸ rejected)
    · exact Or.inr (second.rejected (target.trans_le first.signals) rejected)
  revived known live :=
    first.revived known (second.revived (known.trans_le first.links) live)
  same := by
    intro signal known untouched
    obtain ⟨held, forwarding, into⟩ := first.same known untouched
    obtain ⟨heldLater, forwardingLater, intoLater⟩ := second.same
      (known.trans_le first.signals) fun touched => untouched (within signal known touched)
    exact ⟨heldLater.trans held, forwardingLater.trans forwarding, intoLater.trans into⟩
  longer known := (first.longer known).trans (second.longer (known.trans_le first.signals))
  outOld := by
    intro signal index link known there
    rcases second.outOld (known.trans_le first.signals) there with between | ⟨beyond, new⟩
    · exact first.outOld known between
    · exact Or.inr ⟨(first.longer known).trans beyond, first.links.trans new⟩
  stays := by
    intro signal index link known there live
    have old : link < graph.heap.links :=
      valid.live_lt (valid.out (List.mem_of_getElem? there)).1
    have between := second.revived (old.trans_le first.links) live
    exact second.stays (known.trans_le first.signals) (first.stays known there between) live

theorem built (evolves : Evolves may graph later) (valid : graph.Valid base)
    {formula : Formula V} : ∀ {scope : List SignalId} {signal : SignalId},
      signal < graph.heap.signals → graph.Built formula scope signal →
        later.Built formula scope signal := by
  induction formula with
  | signal name => exact fun _ found => evolves.names found
  | shared index => exact fun _ found => found
  | value value => exact fun known found => (evolves.const known).trans found
  | map base f ih =>
      rintro scope signal known (rejected | ⟨link, source, live, same, built⟩)
      · exact Or.inl (evolves.rejected known rejected)
      · have old := valid.live_lt live
        have record := (evolves.link old).trans same
        rcases evolves.kept old live (by simp [same]) with here | rejected
        · exact Or.inr ⟨link, source, here, record,
            ih (by simpa [same] using valid.source_lt live) built⟩
        · rw [same] at rejected
          exact Or.inl rejected
  | bind base f ih =>
      rintro scope signal known (rejected | ⟨link, source, live, same, built⟩)
      · exact Or.inl (evolves.rejected known rejected)
      · have old := valid.live_lt live
        have record := (evolves.link old).trans same
        rcases evolves.kept old live (by simp [same]) with here | rejected
        · exact Or.inr ⟨link, source, here, record,
            ih (by simpa [same] using valid.source_lt live) built⟩
        · rw [same] at rejected
          exact Or.inl rejected
  | share first body firstIH bodyIH =>
      rintro scope signal known ⟨shared, made, builtFirst, builtBody⟩
      exact ⟨shared, made.trans_le evolves.signals, firstIH made builtFirst,
        bodyIH known builtBody⟩

/-- A link into a signal that is not touched is dead or alive as before. -/
theorem live_iff (evolves : Evolves may graph later) (valid : graph.Valid base)
    {link : LinkId} (known : link < graph.heap.links)
    (target : ¬ may (graph.heap.link link).target) :
    later.heap.Live link ↔ graph.heap.Live link := by
  obtain ⟨-, -, into⟩ := evolves.same (valid.ends known).2 target
  rw [Heap.Live, Heap.Live, evolves.link known, into]

theorem rejected_iff (evolves : Evolves may graph later) {signal : SignalId}
    (known : signal < graph.heap.signals) (untouched : ¬ may signal) :
    later.heap.Rejected signal ↔ graph.heap.Rejected signal := by
  rw [Heap.Rejected, Heap.Rejected, (evolves.same known untouched).1]

theorem sound (evolves : Evolves may graph later) (valid : graph.Valid base)
    {link : LinkId} (live : graph.heap.Live link)
    (target : ¬ may (graph.heap.link link).target) (sound : graph.Sound link) :
    later.Sound link := by
  have old := valid.live_lt live
  refine ⟨?_, fun boundSignal forward => ?_⟩
  · rw [evolves.target old, evolves.rejected_iff (valid.target_lt live) target]
    exact sound.1
  · rw [evolves.link old] at forward
    have into : (graph.heap.link link).target = boundSignal := by rw [Link.target, forward]; rfl
    obtain ⟨-, forwarding, -⟩ := evolves.same (valid.target_lt live) target
    rw [into] at forwarding
    rw [forwarding]
    exact sound.2 boundSignal forward

theorem brought_bind (evolves : Evolves may graph later) (valid : graph.Valid base) {value : V}
    {f : V → Formula V} {scope : List SignalId} {boundSignal : SignalId}
    (forwarding : later.heap.forwardingLink boundSignal = graph.heap.forwardingLink boundSignal)
    (into : later.heap.linksIn boundSignal = graph.heap.linksIn boundSignal)
    (brought : graph.Brought value (.bind f scope boundSignal)) :
    later.Brought value (.bind f scope boundSignal) := by
  obtain ⟨link, found, live, built⟩ := brought
  obtain ⟨old, record⟩ := valid.forwarding found
  have target : (graph.heap.link link).target = boundSignal := by
    rw [Link.target, record]
    rfl
  refine ⟨link, forwarding.trans found, ?_, ?_⟩
  · rw [Heap.Live, evolves.link old, target, into, ← target]
    exact live
  · rw [evolves.link old]
    exact evolves.built valid (valid.source_lt live) built

theorem brought (evolves : Evolves may graph later) (valid : graph.Valid base) {value : V}
    {update : Update V} (known : update.target < graph.heap.signals)
    (target : ¬ may update.target) (brought : graph.Brought value update) :
    later.Brought value update := by
  obtain ⟨held, forwarding, into⟩ := evolves.same known target
  cases update with
  | map f mappedSignal => exact held.trans brought
  | forward boundSignal => exact held.trans brought
  | bind f scope boundSignal => exact evolves.brought_bind valid forwarding into brought

/-- A good link stays good when its target is not touched and its source holds the same. -/
theorem good_of_held (evolves : Evolves may graph later) (valid : graph.Valid base)
    {link : LinkId} (live : graph.heap.Live link)
    (source : later.heap.held (graph.heap.link link).source =
      graph.heap.held (graph.heap.link link).source)
    (target : ¬ may (graph.heap.link link).target) (good : graph.Good link) :
    later.Good link := by
  obtain ⟨value, held, brought⟩ := good
  refine ⟨value, ?_, ?_⟩
  · rw [evolves.link (valid.live_lt live), source, held]
  · rw [evolves.link (valid.live_lt live)]
    exact evolves.brought valid (valid.target_lt live) target brought

theorem good (evolves : Evolves may graph later) (valid : graph.Valid base)
    {link : LinkId} (live : graph.heap.Live link)
    (source : ¬ may (graph.heap.link link).source)
    (target : ¬ may (graph.heap.link link).target) (good : graph.Good link) :
    later.Good link :=
  evolves.good_of_held valid live (evolves.same (valid.source_lt live) source).1 target good

end Evolves

end Graph

end Smmboss.Signals
