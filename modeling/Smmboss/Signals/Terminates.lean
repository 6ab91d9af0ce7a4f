import Mathlib.Data.Multiset.DershowitzManna
import Smmboss.Signals.Closures

namespace Smmboss.Signals

/-! # Termination

A propagation comes to an end: a closure calls others at lower heights only, and a loop
over links that grows under way grows by lower links than the one it calls.
-/

variable {V E : Type} {values : Values V}

namespace Heap

variable {call : Call V E} {heap : Heap V E} {signal : SignalId} {rounds : Nat}

/-- A loop over empty entries ends. -/
theorem bumpFrom_quiet_ends (quiet : ∀ link, some link ∉ heap.linksOut signal) :
    ∀ {index : Nat}, (heap.linksOut signal).length - index < rounds →
      bumpFrom call signal rounds index heap = some heap := by
  induction rounds with
  | zero => exact fun enough => absurd enough (Nat.not_lt_zero _)
  | succ rounds ih =>
      intro index enough
      rw [bumpFrom]
      cases here : (heap.linksOut signal)[index]? with
      | none => rfl
      | some entry =>
          have inside := (List.getElem?_eq_some_iff.mp here).1
          cases entry with
          | none => exact ih (by omega)
          | some link => exact absurd (List.mem_of_getElem? here) (quiet link)

theorem set_quiet_ends {old value : V} (alive : heap.held signal = .value old)
    (quiet : ∀ link, some link ∉ heap.linksOut signal)
    (enough : (heap.linksOut signal).length < rounds) :
    ∃ later, set values call rounds signal value heap = some later := by
  rw [set, alive]
  by_cases same : values.strictEquals old value = true
  · exact ⟨heap, if_pos same⟩
  · exact ⟨heap.assign signal (.value value), (if_neg same).trans
      (@bumpFrom_quiet_ends _ _ _ (heap.assign signal (.value value)) signal rounds quiet 0 enough)⟩

theorem reject_quiet_ends {old : V} {exception : E} (alive : heap.held signal = .value old)
    (quiet : ∀ link, some link ∉ heap.linksOut signal)
    (enough : (heap.linksOut signal).length < rounds) :
    ∃ later, reject call rounds signal exception heap = some later := by
  have ran := @bumpFrom_quiet_ends _ _ call (heap.assign signal (.exception exception)) signal
    rounds quiet 0 enough
  rw [reject, alive]
  exact ⟨_, Option.bind_eq_some_iff.mpr ⟨_, ran, rfl⟩⟩

end Heap

namespace Graph

variable {base : Nat → Ordinal.{0}} {graph later : Graph V E} {height : Ordinal.{0}}
  {pending : LinkId → Prop} {signal : SignalId} {index : Nat} {held : Held V E}

/-- Every signal of the network that formulas may read is there. -/
def Named (base : Nat → Ordinal.{0}) (graph : Graph V E) : Prop :=
  ∀ name, 0 < base name → ∃ signal, graph.heap.names[name]? = some signal

theorem Named.evolve {may : SignalId → Prop} (named : graph.Named base)
    (evolves : Evolves may graph later) : later.Named base := by
  intro name above
  obtain ⟨signal, found⟩ := named name above
  exact ⟨signal, evolves.names found⟩

/-! ## The links ahead -/

/-- The heights of the links of a set. -/
def heights (height : LinkId → Ordinal.{0}) (links : LinkSet) : Multiset Ordinal.{0} :=
  links.filterMap fun entry => entry.map height

theorem heights_none (links : LinkSet) (height : LinkId → Ordinal.{0}) :
    heights height (none :: links) = heights height links := rfl

theorem heights_some (link : LinkId) (links : LinkSet) (height : LinkId → Ordinal.{0}) :
    heights height (some link :: links) = height link ::ₘ heights height links := rfl

/-- What stays of a set, and what has been added to it. -/
theorem heights_parts {height other : LinkId → Ordinal.{0}} {top : Ordinal.{0}} {old : LinkSet} :
    ∀ {new : LinkSet},
      (∀ (place : Nat) (link : LinkId), place < old.length → new[place]? = some (some link) →
        old[place]? = some (some link) ∧ other link = height link) →
      (∀ (place : Nat) (link : LinkId), old.length ≤ place → new[place]? = some (some link) →
        other link < top) →
      ∃ kept added gone : Multiset Ordinal.{0}, heights other new = kept + added ∧
        heights height old = kept + gone ∧ ∀ height ∈ added, height < top := by
  induction old with
  | nil =>
      intro new _ low
      refine ⟨0, heights other new, 0, (zero_add _).symm, rfl, ?_⟩
      intro height member
      obtain ⟨entry, there, same⟩ := List.mem_filterMap.mp (Multiset.mem_coe.mp member)
      obtain ⟨link, rfl, rfl⟩ := Option.map_eq_some_iff.mp same
      obtain ⟨place, found⟩ := List.mem_iff_getElem?.mp there
      exact low place link (Nat.zero_le _) found
  | cons entry old ih =>
      intro new stays low
      cases new with
      | nil => exact ⟨0, 0, heights height (entry :: old), rfl, (zero_add _).symm, nofun⟩
      | cons newEntry new =>
          obtain ⟨kept, added, gone, newParts, oldParts, below⟩ := @ih new
            (fun place link inside found => stays (place + 1) link (Nat.succ_lt_succ inside) found)
            (fun place link beyond found => low (place + 1) link (Nat.succ_le_succ beyond) found)
          cases newEntry with
          | none =>
              cases entry with
              | none => exact ⟨kept, added, gone, newParts, oldParts, below⟩
              | some link =>
                  refine ⟨kept, added, height link ::ₘ gone, newParts, ?_, below⟩
                  rw [heights_some, oldParts, Multiset.add_cons]
          | some link =>
              obtain ⟨found, same⟩ := stays 0 link (Nat.succ_pos _) rfl
              obtain rfl := Option.some_inj.mp found
              refine ⟨height link ::ₘ kept, added, gone, ?_, ?_, below⟩
              · rw [heights_some, newParts, same, Multiset.cons_add]
              · rw [heights_some, oldParts, Multiset.cons_add]

/-- The heights of the links that an iteration has before it. -/
def heightsAhead (graph : Graph V E) (signal : SignalId) (index : Nat) : Multiset Ordinal.{0} :=
  heights graph.height ((graph.heap.linksOut signal).drop index)

/-- A call over the link at hand leaves lower links ahead in its place. -/
theorem heightsAhead_next {before : LinkId → Prop} {link : LinkId} (valid : graph.Valid base)
    (known : signal < graph.heap.signals)
    (here : (graph.heap.linksOut signal)[index]? = some (some link))
    (called : Called base before (graph.height link) (graph.heap.link link).target graph later) :
    Multiset.IsDershowitzMannaLT (later.heightsAhead signal (index + 1))
      (graph.heightsAhead signal index) := by
  obtain ⟨inside, entry⟩ := List.getElem?_eq_some_iff.mp here
  have first : (graph.heap.linksOut signal).drop index =
      some link :: (graph.heap.linksOut signal).drop (index + 1) := by
    rw [List.drop_eq_getElem_cons inside, entry]
  obtain ⟨kept, added, gone, newParts, oldParts, below⟩ := @heights_parts graph.height later.height
    (graph.height link) ((graph.heap.linksOut signal).drop (index + 1))
    ((later.heap.linksOut signal).drop (index + 1))
    (by
      intro place other short found
      rw [List.length_drop] at short
      rw [List.getElem?_drop] at found ⊢
      rcases called.evolves.outOld known found with was | ⟨beyond, -⟩
      · have otherKnown := valid.live_lt (valid.out (List.mem_of_getElem? was)).1
        exact ⟨was, called.evolves.height otherKnown⟩
      · omega)
    (by
      intro place other long found
      rw [List.length_drop] at long
      rw [List.getElem?_drop] at found
      have otherKnown := called.valid.live_lt (called.valid.out (List.mem_of_getElem? found)).1
      rcases called.evolves.outOld known found with was | ⟨-, new⟩
      · have short := (List.getElem?_eq_some_iff.mp was).1
        omega
      · exact called.heights other new otherKnown)
  refine ⟨kept, added, graph.height link ::ₘ gone, Multiset.cons_ne_zero, newParts, ?_, ?_⟩
  · rw [heightsAhead, first, heights_some, oldParts, Multiset.add_cons]
  · exact fun height member => ⟨_, Multiset.mem_cons_self _ _, below height member⟩

/-! ## Calls and loops -/

/-- The call of the closure answers, with fuel enough. -/
def Answers (values : Values V) (update : Update V) (held : Held V E) (graph : Graph V E) :
    Prop :=
  ∃ fuel later, Heap.update values fuel update held graph.heap = some later

/-- The loop ends, when the call of the closure of each link it comes to answers. -/
theorem bumpFrom_ends (lawful : values.Lawful) {top : Ordinal.{0}}
    (answers : ∀ {graph : Graph V E} {index : Nat} {link : LinkId},
      Looping base pending signal held index graph → graph.Named base →
      graph.level signal = top → (graph.heap.linksOut signal)[index]? = some (some link) →
        graph.Answers values (graph.heap.link link).update held)
    (ahead : Multiset Ordinal.{0}) :
    ∀ {rest : Nat} {graph : Graph V E} {index : Nat},
      graph.heightsAhead signal index = ahead →
      (graph.heap.linksOut signal).length - index = rest →
      Looping base pending signal held index graph → graph.Named base →
      graph.level signal = top →
        ∃ fuel later, Heap.bumpFrom (Heap.update values fuel) signal fuel index graph.heap =
          some later := by
  have founded := @Multiset.wellFounded_isDershowitzMannaLT Ordinal.{0} _ _
  induction ahead using founded.induction with
  | _ ahead ih =>
      intro rest
      induction rest with
      | zero =>
          intro graph index _ length _ _ _
          have ended : (graph.heap.linksOut signal)[index]? = none :=
            List.getElem?_eq_none_iff.mpr (Nat.sub_eq_zero_iff_le.mp length)
          exact ⟨1, graph.heap, by rw [Heap.bumpFrom, ended]⟩
      | succ rest restIH =>
          intro graph index same length looping named level
          cases here : (graph.heap.linksOut signal)[index]? with
          | none => exact ⟨1, graph.heap, by rw [Heap.bumpFrom, here]⟩
          | some entry =>
              cases entry with
              | none =>
                  have shorter : graph.heightsAhead signal (index + 1) = ahead := by
                    obtain ⟨inside, empty⟩ := List.getElem?_eq_some_iff.mp here
                    rw [← same, heightsAhead, heightsAhead, List.drop_eq_getElem_cons inside,
                      empty, heights_none]
                  obtain ⟨fuel, later, ran⟩ :=
                    restIH shorter (by omega) (looping.skip here) named level
                  refine ⟨fuel + 1, later, ?_⟩
                  rw [Heap.bumpFrom, here]
                  exact Heap.bumpFrom_within (Heap.update_within (Nat.le_succ fuel)) le_rfl ran
              | some link =>
                  obtain ⟨fuel, between, called⟩ := answers looping named level here
                  obtain ⟨later, rfl, call, next⟩ :=
                    looping.step (update_correct lawful) here called
                  obtain ⟨more, last, ran⟩ := ih _
                    (same ▸ heightsAhead_next looping.valid looping.known here call) rfl rfl next
                    (named.evolve call.evolves)
                    ((call.evolves.level looping.known).trans level)
                  refine ⟨max fuel more + 1, last, ?_⟩
                  rw [Heap.bumpFrom, here, looping.holds]
                  exact Option.bind_eq_some_iff.mpr ⟨later.heap,
                    Heap.update_within (by omega) called,
                    Heap.bumpFrom_within (Heap.update_within (by omega)) (by omega) ran⟩

section Methods

variable {target : SignalId} {old : V}

/-- What `set` and `reject` need of the calls in their loops. -/
def LoopAnswers (values : Values V) (base : Nat → Ordinal.{0}) (pending : LinkId → Prop)
    (target : SignalId) (held : Held V E) (top : Ordinal.{0}) : Prop :=
  ∀ {graph : Graph V E} {index : Nat} {link : LinkId},
    Looping base pending target held index graph → graph.Named base → graph.level target = top →
      (graph.heap.linksOut target)[index]? = some (some link) →
        graph.Answers values (graph.heap.link link).update held

theorem set_ends (lawful : values.Lawful) {value : V} (valid : graph.Valid base)
    (known : target < graph.heap.signals) (alive : graph.heap.held target = .value old)
    (plain : graph.const target = none)
    (settled : graph.Settled (graph.level target) pending)
    (older : ∀ link, pending link → link < graph.heap.links) (named : graph.Named base)
    (answers : @LoopAnswers _ E values base pending target (.value value) (graph.level target)) :
    ∃ fuel later, Heap.set values (Heap.update values fuel) fuel target value graph.heap =
      some later := by
  by_cases same : values.strictEquals old value = true
  · exact ⟨0, graph.heap, by rw [Heap.set, alive]; exact if_pos same⟩
  · have start : Looping base pending target (.value value) 0
        (graph.assign target (.value value)) :=
      looping_assign valid known alive (Or.inl plain) settled older
    obtain ⟨fuel, later, ran⟩ := bumpFrom_ends lawful answers _ rfl rfl start named rfl
    refine ⟨fuel, later, ?_⟩
    rw [Heap.set, alive]
    exact (if_neg same).trans ran

theorem reject_ends (lawful : values.Lawful) {exception : E} (valid : graph.Valid base)
    (known : target < graph.heap.signals) (alive : graph.heap.held target = .value old)
    (settled : graph.Settled (graph.level target) pending)
    (older : ∀ link, pending link → link < graph.heap.links) (named : graph.Named base)
    (answers : LoopAnswers values base pending target (.exception exception)
      (graph.level target)) :
    ∃ fuel later, Heap.reject (Heap.update values fuel) fuel target exception graph.heap =
      some later := by
  have start : Looping base pending target (.exception exception) 0
      (graph.assign target (.exception exception)) :=
    looping_assign valid known alive (Or.inr ⟨exception, rfl⟩) settled older
  obtain ⟨fuel, between, ran⟩ := bumpFrom_ends lawful answers _ rfl rfl start named rfl
  refine ⟨fuel, (between.killAll (between.linksIn target)).killAll
    ((between.killAll (between.linksIn target)).linksOut target), ?_⟩
  rw [Heap.reject, alive]
  exact Option.bind_eq_some_iff.mpr ⟨between, ran, rfl⟩

/-- The links of a signal call closures lower than it. -/
theorem Looping.height_le (looping : Looping base pending target held index graph) {link : LinkId}
    (here : (graph.heap.linksOut target)[index]? = some (some link)) :
    graph.height link ≤ graph.level target := by
  obtain ⟨live, source⟩ := looping.valid.out (List.mem_of_getElem? here)
  exact source ▸ (looping.valid.heights live).1

theorem exception_answers (lawful : values.Lawful) {exception : E} (height : Ordinal.{0}) :
    ∀ {pending : LinkId → Prop} {update : Update V} {graph : Graph V E},
      Ready base pending height update graph → graph.Named base →
        graph.Answers values update (.exception exception) := by
  induction height using WellFoundedLT.induction with
  | ind height ih =>
      have rejects : ∀ {pending : LinkId → Prop} {update : Update V} {graph : Graph V E},
          Ready base pending height update graph → graph.Named base →
            ∃ fuel later, Heap.reject (Heap.update values fuel) fuel update.target exception
              graph.heap = some later := by
        intro pending update graph ready named
        obtain ⟨old, alive⟩ := ready.alive
        refine reject_ends lawful ready.valid ready.known alive ready.settled ready.old named ?_
        intro graph index link looping named level here
        have low := (looping.height_le here).trans_lt (level.trans_lt ready.admissible.1)
        exact ih _ low (looping.ready here) named
      intro pending update graph ready named
      cases update with
      | map f mappedSignal =>
          obtain ⟨fuel, later, ran⟩ := rejects ready named
          exact ⟨fuel + 1, later, ran⟩
      | forward boundSignal =>
          obtain ⟨fuel, later, ran⟩ := rejects ready named
          exact ⟨fuel + 1, later, ran⟩
      | bind f scope boundSignal =>
          obtain ⟨-, evolves, -⟩ := killForwardingLink_spec ready.valid boundSignal
          obtain ⟨fuel, later, ran⟩ := rejects ready.killed (named.evolve evolves)
          exact ⟨fuel + 1, later, ran⟩

end Methods

/-! ## Deriving -/

section Derive

variable {level : Ordinal.{0}} {scope : List SignalId} {source : SignalId}

theorem create_mapped_ends (known : source < graph.heap.signals) (f : V → V) :
    ∃ fuel result, Heap.create (Heap.update values fuel) source (.map f graph.heap.signals)
      (graph.heap.newSignal values.undefined) = some result := by
  have alive : (graph.heap.newSignal values.undefined).held graph.heap.signals =
      .value values.undefined := Function.update_self ..
  have same : (graph.heap.newSignal values.undefined).held source = graph.heap.held source :=
    Function.update_of_ne known.ne ..
  cases holds : graph.heap.held source with
  | exception exception =>
      have out : (graph.heap.newSignal values.undefined).linksOut graph.heap.signals = [] :=
        Function.update_self ..
      obtain ⟨later, ran⟩ := @Heap.reject_quiet_ends _ _ (Heap.update values 1) _ _ 1 _ exception
        alive (by rw [out]; exact fun _ found => by cases found) (by rw [out]; exact Nat.one_pos)
      refine ⟨2, (none, later), ?_⟩
      rw [Heap.create_exception alive (same.trans holds)]
      exact Option.map_eq_some_iff.mpr ⟨later, ran, rfl⟩
  | value value =>
      have out : ((graph.heap.newSignal values.undefined).addLink source
          (.map f graph.heap.signals)).linksOut graph.heap.signals = [] :=
        @linksOut_linked _ _ graph values.undefined 0 0 source (.map f graph.heap.signals) known
      obtain ⟨later, ran⟩ := @Heap.set_quiet_ends _ _ values (Heap.update values 1)
        ((graph.heap.newSignal values.undefined).addLink source (.map f graph.heap.signals))
        graph.heap.signals 1 _ (f value) alive (by rw [out]; exact fun _ found => by cases found)
        (by rw [out]; exact Nat.one_pos)
      refine ⟨2, (some graph.heap.links, later), ?_⟩
      rw [Heap.create_value alive (same.trans holds)]
      exact Option.map_eq_some_iff.mpr ⟨later, ran, rfl⟩

theorem create_bound_ends (lawful : values.Lawful) (valid : graph.Valid base)
    (known : source < graph.heap.signals) {f : V → Formula V}
    (below : bindHeight level f ≤ graph.level source)
    (fits : ∀ value, graph.Fits base (level + 1) (f value) scope) (named : graph.Named base)
    (inner : ∀ {value : V} {graph : Graph V E}, graph.Valid base →
      graph.Fits base (level + 1) (f value) scope → graph.Named base →
        ∃ fuel result, Heap.derive values (Heap.update values fuel) (f value) scope graph.heap =
          some result) :
    ∃ fuel result, Heap.create (Heap.update values fuel) source (.bind f scope graph.heap.signals)
      (graph.heap.newSignal values.undefined) = some result := by
  have alive : (graph.heap.newSignal values.undefined).held graph.heap.signals =
      .value values.undefined := Function.update_self ..
  have same : (graph.heap.newSignal values.undefined).held source = graph.heap.held source :=
    Function.update_of_ne known.ne ..
  cases holds : graph.heap.held source with
  | exception exception =>
      have out : (graph.heap.newSignal values.undefined).linksOut graph.heap.signals = [] :=
        Function.update_self ..
      have bare : (graph.heap.newSignal values.undefined).killForwardingLink graph.heap.signals =
          graph.heap.newSignal values.undefined := by
        rw [Heap.killForwardingLink, show (graph.heap.newSignal values.undefined).forwardingLink
          graph.heap.signals = none from Function.update_self ..]
      obtain ⟨later, ran⟩ := @Heap.reject_quiet_ends _ _ (Heap.update values 1) _ _ 1 _ exception
        alive (by rw [out]; exact fun _ found => by cases found) (by rw [out]; exact Nat.one_pos)
      refine ⟨2, (none, later), ?_⟩
      rw [Heap.create_exception alive (same.trans holds)]
      exact Option.map_eq_some_iff.mpr ⟨later,
        (congrArg (Heap.reject _ 1 graph.heap.signals exception) bare).trans ran, rfl⟩
  | value value =>
      have linkedValid : (graph.linked values.undefined level source
          (.bind f scope graph.heap.signals) (bindHeight level f)).Valid base :=
        valid_linked valid known below rfl (admissible_new valid fits)
      have evolves : Evolves (fun _ => False) graph (graph.linked values.undefined level source
          (.bind f scope graph.heap.signals) (bindHeight level f)) := evolves_linked valid rfl
      obtain ⟨fuel, ⟨forwarder, heap⟩, derives⟩ :=
        inner linkedValid ((fits value).newer evolves) (named.evolve evolves)
      obtain ⟨between, rfl, made⟩ :=
        derive_derived lawful linkedValid ((fits value).newer evolves) derives
      have binds : Binds base level (bindHeight level f) (bindHeight level f) values.undefined f
          scope source graph between := Binds.start valid known below le_rfl fits made.grown
      suffices ∃ more result, Heap.create (Heap.update values more) forwarder
          (.forward graph.heap.signals) between.heap = some result by
        obtain ⟨more, ⟨link, later⟩, creates⟩ := this
        refine ⟨max fuel more + 1, (some graph.heap.links,
          later.setForwardingLink graph.heap.signals link), ?_⟩
        rw [Heap.create_value alive (same.trans holds)]
        refine Option.map_eq_some_iff.mpr ⟨_, ?_, rfl⟩
        refine Option.bind_eq_some_iff.mpr ⟨(forwarder, between.heap), ?_, ?_⟩
        · have started := @killForwardingLink_linked _ _ graph values.undefined level source
            (.bind f scope graph.heap.signals) (bindHeight level f)
          exact Heap.derive_within (Heap.update_within (Nat.le_max_left ..))
            (started.symm ▸ derives)
        · exact Option.bind_eq_some_iff.mpr ⟨(link, later),
            Heap.create_within (Heap.update_within (Nat.le_max_right ..)) creates, rfl⟩
      cases held : between.heap.held forwarder with
      | exception exception =>
          obtain ⟨later, ran⟩ := @Heap.reject_quiet_ends _ _
            (Heap.update values ((between.heap.linksOut graph.heap.signals).length + 1)) _ _ _ _
            exception binds.boundHeld binds.quiet (Nat.lt_succ_self _)
          refine ⟨(between.heap.linksOut graph.heap.signals).length + 2, (none, later), ?_⟩
          rw [@Heap.create_exception _ _ _ _ _ (.forward graph.heap.signals) _ _ binds.boundHeld
            held]
          exact Option.map_eq_some_iff.mpr ⟨later, ran, rfl⟩
      | value holding =>
          let rounds := ((between.heap.addLink forwarder
            (.forward graph.heap.signals)).linksOut graph.heap.signals).length + 1
          obtain ⟨later, ran⟩ := @Heap.set_quiet_ends _ _ values (Heap.update values rounds)
            (between.heap.addLink forwarder (.forward graph.heap.signals)) graph.heap.signals
            rounds _ holding binds.boundHeld (binds.quiet_addLink made.above)
            (Nat.lt_succ_self _)
          refine ⟨rounds + 1, (some between.heap.links, later), ?_⟩
          rw [@Heap.create_value _ _ _ _ _ (.forward graph.heap.signals) _ _ binds.boundHeld held]
          exact Option.map_eq_some_iff.mpr ⟨later, ran, rfl⟩

theorem derive_ends (lawful : values.Lawful) {formula : Formula V} :
    ∀ {level : Ordinal.{0}} {scope : List SignalId} {graph : Graph V E}, graph.Valid base →
      graph.Fits base level formula scope → graph.Named base →
      ∃ fuel result, Heap.derive values (Heap.update values fuel) formula scope graph.heap =
        some result := by
  induction formula with
  | signal name =>
      intro level scope graph valid fits named
      obtain ⟨signal, found⟩ := named name (zero_le.trans_lt fits.1)
      exact ⟨0, (signal, graph.heap), by rw [Heap.derive, found]; rfl⟩
  | shared index =>
      intro level scope graph valid fits named
      obtain ⟨signal, found⟩ : ∃ signal, scope[index]? = some signal :=
        ⟨_, List.getElem?_eq_getElem fits.1⟩
      exact ⟨0, (signal, graph.heap), by rw [Heap.derive, found]; rfl⟩
  | value value => exact fun _ _ _ => ⟨0, _, rfl⟩
  | map source f ih =>
      intro level scope graph valid fits named
      obtain ⟨fuel, ⟨signal, heap⟩, derives⟩ := ih valid fits.map named
      obtain ⟨inner, rfl, made⟩ := derive_derived lawful valid fits.map derives
      obtain ⟨more, created, creates⟩ := @create_mapped_ends _ _ values inner signal made.known f
      refine ⟨max fuel more, (inner.heap.signals, created.2), ?_⟩
      exact Option.bind_eq_some_iff.mpr ⟨(signal, inner.heap),
        Heap.derive_within (Heap.update_within (Nat.le_max_left ..)) derives,
        Option.bind_eq_some_iff.mpr ⟨created,
          Heap.create_within (Heap.update_within (Nat.le_max_right ..)) creates, rfl⟩⟩
  | bind source f baseIH fIH =>
      intro level scope graph valid fits named
      obtain ⟨fuel, ⟨signal, heap⟩, derives⟩ := baseIH valid fits.bindBase named
      obtain ⟨inner, rfl, made⟩ := derive_derived lawful valid fits.bindBase derives
      obtain ⟨more, created, creates⟩ := create_bound_ends lawful made.grown.valid made.known
        made.above (fun value => (fits.bindInner value).newer made.grown.evolves)
        (named.evolve made.grown.evolves) (fun {value _} => fIH value)
      refine ⟨max fuel more, (inner.heap.signals, created.2), ?_⟩
      exact Option.bind_eq_some_iff.mpr ⟨(signal, inner.heap),
        Heap.derive_within (Heap.update_within (Nat.le_max_left ..)) derives,
        Option.bind_eq_some_iff.mpr ⟨created,
          Heap.create_within (Heap.update_within (Nat.le_max_right ..)) creates, rfl⟩⟩
  | share first body firstIH bodyIH =>
      intro level scope graph valid fits named
      obtain ⟨fuel, ⟨signal, heap⟩, derives⟩ := firstIH valid fits.start named
      obtain ⟨inner, rfl, made⟩ := derive_derived lawful valid fits.start derives
      obtain ⟨more, result, rest⟩ := bodyIH made.grown.valid
        (fits.rest made.grown.evolves made.known made.above) (named.evolve made.grown.evolves)
      refine ⟨max fuel more, result, Option.bind_eq_some_iff.mpr ⟨(signal, inner.heap),
        Heap.derive_within (Heap.update_within (Nat.le_max_left ..)) derives,
        Heap.derive_within (Heap.update_within (Nat.le_max_right ..)) rest⟩⟩

end Derive

/-! ## Calls with a value -/

theorem bind_answers (lawful : values.Lawful) {f : V → Formula V} {scope : List SignalId}
    {bound : SignalId} {value : V} (ready : Ready base pending height (.bind f scope bound) graph)
    (recorded : ∃ link, link < graph.heap.links ∧
      (graph.heap.link link).update = .bind f scope bound)
    (named : graph.Named base)
    (lower : ∀ {middle : Graph V E} {holding : V},
      Ready base pending (middle.level bound + 1) (.forward bound) middle →
        middle.level bound + 1 < height →
        (∃ link, link < middle.heap.links ∧ (middle.heap.link link).update = .forward bound) →
        middle.Named base → middle.Answers values (.forward bound) (.value holding)) :
    graph.Answers values (.bind f scope bound) (.value value) := by
  obtain ⟨valid, killing, -⟩ := killForwardingLink_spec ready.valid bound
  obtain ⟨-, fits⟩ := ready.killed.admissible.2 f scope bound rfl value
  obtain ⟨fuel, ⟨forwarder, heap⟩, derives⟩ :=
    derive_ends lawful valid fits (named.evolve killing)
  obtain ⟨middle, rfl, rebinds⟩ := ready.derived lawful derives
  have namedMiddle := named.evolve rebinds.evolves
  obtain ⟨old, alive⟩ := rebinds.alive
  suffices ∃ more result, Heap.create (Heap.update values more) forwarder (.forward bound)
      middle.heap = some result by
    obtain ⟨more, ⟨link, later⟩, creates⟩ := this
    refine ⟨max fuel more + 1, later.setForwardingLink bound link, ?_⟩
    exact Option.bind_eq_some_iff.mpr ⟨(forwarder, middle.heap),
      Heap.derive_within (Heap.update_within (Nat.le_max_left ..)) derives,
      Option.bind_eq_some_iff.mpr ⟨(link, later),
        Heap.create_within (Heap.update_within (Nat.le_max_right ..)) creates, rfl⟩⟩
  cases held : middle.heap.held forwarder with
  | exception exception =>
      obtain ⟨more, later, ran⟩ :=
        @exception_answers _ _ values _ lawful exception _ _ _ _ rebinds.refuseReady namedMiddle
      refine ⟨more, (none, later), ?_⟩
      rw [@Heap.create_exception _ _ _ _ _ (.forward bound) _ _ alive held]
      exact Option.map_eq_some_iff.mpr ⟨later, ran, rfl⟩
  | value holding =>
      obtain ⟨link, known, record⟩ := recorded
      have adding : Evolves (· = bound) middle
          (middle.addLink forwarder (.forward bound) (middle.level bound + 1)) :=
        @evolves_addLink _ _ middle forwarder (.forward bound) _
      obtain ⟨more, later, ran⟩ := @lower
        (middle.addLink forwarder (.forward bound) (middle.level bound + 1)) holding
        (rebinds.forwardReady ⟨link, known.trans_le rebinds.evolves.links,
          by rw [rebinds.evolves.link known, record]⟩)
        rebinds.forwardLower ⟨middle.heap.links, Nat.lt_succ_self _, by rw [link_addLink]⟩
        (namedMiddle.evolve adding)
      refine ⟨more, (some middle.heap.links, later), ?_⟩
      rw [@Heap.create_value _ _ _ _ _ (.forward bound) _ _ alive held]
      exact Option.map_eq_some_iff.mpr ⟨later, ran, rfl⟩

theorem value_answers (lawful : values.Lawful) (height : Ordinal.{0}) :
    ∀ {pending : LinkId → Prop} {update : Update V} {graph : Graph V E} {value : V},
      Ready base pending height update graph →
      (∃ link, link < graph.heap.links ∧ (graph.heap.link link).update = update) →
      graph.Named base → graph.Answers values update (.value value) := by
  induction height using WellFoundedLT.induction with
  | ind height ih =>
      have sets : ∀ {pending : LinkId → Prop} {update : Update V} {graph : Graph V E} {value : V},
          Ready base pending height update graph →
          (∃ link, link < graph.heap.links ∧ (graph.heap.link link).update = update) →
          graph.Named base → ∃ fuel later, Heap.set values (Heap.update values fuel) fuel
            update.target value graph.heap = some later := by
        rintro pending update graph value ready ⟨link, linkKnown, rfl⟩ named
        obtain ⟨old, alive⟩ := ready.alive
        refine set_ends lawful ready.valid ready.known alive (ready.valid.plain_of_record linkKnown)
          ready.settled ready.old named ?_
        intro graph index link looping named level here
        have low := (looping.height_le here).trans_lt (level.trans_lt ready.admissible.1)
        have live := (looping.valid.out (List.mem_of_getElem? here)).1
        exact ih _ low (looping.ready here) ⟨link, looping.valid.live_lt live, rfl⟩ named
      intro pending update graph value ready recorded named
      cases update with
      | map f mappedSignal =>
          obtain ⟨fuel, later, ran⟩ := @sets _ _ _ (f value) ready recorded named
          exact ⟨fuel + 1, later, ran⟩
      | forward boundSignal =>
          obtain ⟨fuel, later, ran⟩ := @sets _ _ _ value ready recorded named
          exact ⟨fuel + 1, later, ran⟩
      | bind f scope boundSignal =>
          exact bind_answers lawful ready recorded named
            fun ready low recorded named => ih _ low ready recorded named

end Graph

end Smmboss.Signals
