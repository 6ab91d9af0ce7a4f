import Smmboss.Signals.Network

namespace Smmboss.Signals

/-! # Runs of a network

What building a network brings about, what each operation on it keeps, and that each
operation comes to an end.
-/

variable {V E : Type} {values : Values V} {network : Network V} {sources : Nat → V}

namespace Graph

variable {rank : Nat → Nat} {graph later : Graph V E} {signal : SignalId}

/-! ## Operations -/

/-- A call that sets a signal without links into it leaves every link as it should be. -/
theorem Called.quiet {base : Nat → Ordinal.{0}} {height : Ordinal.{0}} {target : SignalId}
    (called : Called base (fun _ => False) height target graph later) (valid : graph.Valid base)
    (quiet : graph.Quiet)
    (into : ∀ link, link < graph.heap.links → later.heap.Live link →
      (graph.heap.link link).target ≠ target) : later.Quiet := by
  refine quiet_of_settled fun level =>
    settled_after valid (quiet.settled level) called ?_ fun _ _ _ => id
  exact fun link old live same => absurd same (into link old live)

theorem Standing.after {may : SignalId → Prop} (standing : graph.Standing network rank)
    (complete : graph.Complete network) (evolves : Evolves may graph later)
    (valid : later.Valid (network.base rank)) (quiet : later.Quiet)
    (bare : ∀ {name : Nat} {initial : V} {signal : SignalId},
      network[name]? = some (.source initial) → graph.heap.names[name]? = some signal →
        ∀ link, graph.heap.links ≤ link → later.heap.Live link →
          (later.heap.link link).target ≠ signal) :
    later.Standing network rank := by
  have before : ∀ {name : Nat} {definition : Definition V} {signal : SignalId},
      network[name]? = some definition → later.heap.names[name]? = some signal →
        graph.heap.names[name]? = some signal := fun defined =>
    complete.names evolves (List.getElem?_eq_some_iff.mp defined).1
  refine ⟨valid, quiet, ?_, ?_, ?_⟩
  · intro name formula signal defined found
    have was := before defined found
    exact evolves.built standing.valid (standing.valid.names was).1 (standing.built defined was)
  · intro name initial signal defined found
    have was := before defined found
    have known := (standing.valid.names was).1
    obtain ⟨plain, level, into⟩ := standing.source defined was
    refine ⟨(evolves.const known).trans plain, (evolves.level known).trans level, ?_⟩
    intro link live
    rcases Nat.lt_or_ge link graph.heap.links with old | new
    · rw [evolves.target old]
      exact into link (evolves.revived old live)
    · exact bare defined was link new live
  · intro name other initial otherInitial signal defined otherDefined found otherFound
    exact standing.apart defined otherDefined (before defined found)
      (before otherDefined otherFound)

/-- Sources are above all that is touched when another source is set. -/
theorem Standing.untouched (standing : graph.Standing network rank) {name other : Nat}
    {initial otherInitial : V} {source : SignalId}
    (defined : network[name]? = some (.source initial))
    (found : graph.heap.names[name]? = some signal)
    (otherDefined : network[other]? = some (.source otherInitial))
    (otherFound : graph.heap.names[other]? = some source) (different : other ≠ name) :
    ¬ graph.Under signal source := by
  obtain ⟨-, level, -⟩ := standing.source defined found
  obtain ⟨-, otherLevel, -⟩ := standing.source otherDefined otherFound
  rintro (below | rfl)
  · rw [level, otherLevel, Network.base_source defined, Network.base_source otherDefined] at below
    exact lt_irrefl _ below
  · exact different (standing.apart otherDefined defined otherFound found)

theorem Standing.set (lawful : values.Lawful) (standing : graph.Standing network rank)
    (complete : graph.Complete network) {fuel rounds name : Nat} {initial value : V}
    {heap : Heap V E} (defined : network[name]? = some (.source initial))
    (found : graph.heap.names[name]? = some signal)
    (ran : Heap.set values (Heap.update values fuel) rounds signal value graph.heap =
      some heap) :
    ∃ later : Graph V E, later.heap = heap ∧ later.Standing network rank ∧
      Evolves (graph.Under signal) graph later ∧
      (graph.Unbroken network sources →
        later.Unbroken network (Function.update sources name value)) := by
  have valid := standing.valid
  obtain ⟨known, -⟩ := valid.names found
  cases held : graph.heap.held signal with
  | exception exception =>
      rw [Heap.set, held] at ran
      refine ⟨graph, Option.some_inj.mp ran, standing, Evolves.refl graph, ?_⟩
      exact fun unbroken => absurd ⟨exception, held⟩ (unbroken.alive signal)
  | value old =>
      obtain ⟨plain, level, into⟩ := standing.source defined found
      obtain ⟨later, rfl, called, noNew, holds, -⟩ := set_called lawful (update_correct lawful)
        valid known held plain (standing.quiet.settled _) (fun _ => False.elim) (lt_add_one _) ran
      have quiet := called.quiet valid standing.quiet fun link old live =>
        into link (called.evolves.revived old live)
      refine ⟨later, rfl, standing.after complete called.evolves called.valid quiet ?_,
        called.evolves, fun unbroken => ⟨?_, ?_⟩⟩
      · rintro other otherInitial source otherDefined otherFound link new live rfl
        obtain ⟨otherKnown, -⟩ := valid.names otherFound
        obtain ⟨-, otherLevel, -⟩ := standing.source otherDefined otherFound
        have low : later.level (later.heap.link link).target < graph.level signal :=
          (called.valid.heights live).2.1.trans_le
            (Order.lt_add_one_iff.mp (called.heights link new (called.valid.live_lt live)))
        rw [called.evolves.level otherKnown, otherLevel, level, Network.base_source defined,
          Network.base_source otherDefined] at low
        exact lt_irrefl _ low
      · rintro other ⟨exception, raised⟩
        obtain ⟨before, was⟩ := noNew other exception raised
        exact unbroken.alive before ⟨exception, was⟩
      · intro other otherInitial source otherDefined otherFound
        have was := complete.names called.evolves
          (List.getElem?_eq_some_iff.mp otherDefined).1 otherFound
        by_cases same : other = name
        · subst same
          obtain rfl := Option.some_inj.mp (found.symm.trans was)
          rw [Function.update_self, holds]
        · rw [Function.update_of_ne same, ← unbroken.holds otherDefined was]
          exact (called.evolves.same (valid.names was).1
            (standing.untouched defined found otherDefined was same)).1

theorem Standing.reject (lawful : values.Lawful) (standing : graph.Standing network rank)
    (complete : graph.Complete network) {fuel rounds : Nat} {exception : E} {heap : Heap V E}
    (known : signal < graph.heap.signals)
    (ran : Heap.reject (Heap.update values fuel) rounds signal exception graph.heap =
      some heap) :
    ∃ later : Graph V E, later.heap = heap ∧ later.Standing network rank ∧
      Evolves (graph.Under signal) graph later ∧
      (¬ graph.heap.Rejected signal → ∀ other, graph.heap.Depends other signal →
        later.heap.held other = .exception exception) := by
  have valid := standing.valid
  cases held : graph.heap.held signal with
  | exception raised =>
      rw [Heap.reject, held] at ran
      exact ⟨graph, Option.some_inj.mp ran, standing, Evolves.refl graph,
        fun alive => absurd ⟨raised, held⟩ alive⟩
  | value old =>
      obtain ⟨later, rfl, called, refused⟩ := reject_called (update_correct lawful) valid known
        held (standing.quiet.settled _) (fun _ => False.elim) (lt_add_one _) ran
      have quiet := called.quiet valid standing.quiet fun link old live same =>
        refused.into link live ((called.evolves.target old).trans same)
      refine ⟨later, rfl, standing.after complete called.evolves called.valid quiet ?_,
        called.evolves, fun _ other depends => ?_⟩
      · intro name initial source _ _ link new live
        have old := called.valid.live_lt live
        rw [refused.links] at old
        exact absurd old new.not_gt
      · induction depends with
        | refl => exact refused.held
        | tail _ feeds ih =>
            obtain ⟨link, live, rfl, rfl⟩ := feeds
            have old := valid.live_lt live
            rcases refused.kept link old live with still | ⟨raised, rejected⟩
            · refine absurd ⟨exception, ?_⟩ (quiet.alive still).1
              rw [called.evolves.link old, ih]
            · rcases refused.exceptions _ raised rejected with rfl | was
              · exact rejected
              · exact absurd ⟨raised, was⟩ (standing.quiet.alive live).2

/-! ## Building -/

/-- A newly made signal gets the next name. -/
theorem Standing.addName (standing : graph.Standing network rank)
    (evolves : Evolves (fun _ => False) graph later) (names : later.heap.names = graph.heap.names)
    (valid : later.Valid (network.base rank)) (quiet : later.Quiet)
    (known : signal < later.heap.signals)
    (above : network.base rank graph.heap.names.length ≤ later.level signal)
    (built : ∀ formula, network[graph.heap.names.length]? = some (.derived formula) →
      later.Built formula [] signal)
    (source : ∀ initial, network[graph.heap.names.length]? = some (.source initial) →
      graph.heap.signals ≤ signal ∧ later.const signal = none ∧
        later.level signal = network.base rank graph.heap.names.length ∧
        ∀ link, later.heap.Live link → (later.heap.link link).target ≠ signal) :
    (later.addName signal).Standing network rank := by
  have adding : Evolves (fun _ => False) later (later.addName signal) := evolves_addName signal
  have cases : ∀ {name : Nat} {named : SignalId},
      (later.addName signal).heap.names[name]? = some named →
        graph.heap.names[name]? = some named ∨
          name = graph.heap.names.length ∧ named = signal := by
    intro name named found
    rw [← names]
    exact getElem?_addName found
  refine ⟨valid.addName known (names ▸ above), ?_, ?_, ?_, ?_⟩
  · intro link live
    obtain ⟨sound, good⟩ := quiet link live
    exact ⟨adding.sound valid live id sound, adding.good valid live id id good⟩
  · intro name formula named defined found
    rcases cases found with old | ⟨rfl, rfl⟩
    · have namedKnown := (standing.valid.names old).1
      exact adding.built valid (namedKnown.trans_le evolves.signals)
        (evolves.built standing.valid namedKnown (standing.built defined old))
    · exact adding.built valid known (built formula defined)
  · intro name initial named defined found
    rcases cases found with old | ⟨rfl, rfl⟩
    · have namedKnown := (standing.valid.names old).1
      obtain ⟨plain, level, into⟩ := standing.source defined old
      refine ⟨(evolves.const namedKnown).trans plain, (evolves.level namedKnown).trans level, ?_⟩
      intro link live same
      have member : some link ∈ later.heap.linksIn (later.heap.link link).target := live
      rw [show (later.heap.link link).target = named from same,
        (evolves.same namedKnown id).2.2] at member
      have target := (standing.valid.into member).2
      exact into link (show some link ∈ _ from target.symm ▸ member) target
    · exact (source initial defined).2
  · intro name other initial otherInitial named defined otherDefined found otherFound
    rcases cases found with old | ⟨rfl, rfl⟩ <;>
      rcases cases otherFound with otherOld | ⟨rfl, same⟩
    · exact standing.apart defined otherDefined old otherOld
    · subst same
      exact absurd (standing.valid.names old).1 (source otherInitial otherDefined).1.not_gt
    · exact absurd (standing.valid.names otherOld).1 (source initial defined).1.not_gt
    · rfl

theorem Unbroken.addName (unbroken : graph.Unbroken network sources)
    (valid : graph.Valid (network.base rank))
    (evolves : Evolves (fun _ => False) graph later) (names : later.heap.names = graph.heap.names)
    (alive : ∀ signal, ¬ later.heap.Rejected signal)
    (source : ∀ initial, network[graph.heap.names.length]? = some (.source initial) →
      later.heap.held signal = .value (sources graph.heap.names.length)) :
    (later.addName signal).Unbroken network sources := by
  refine ⟨alive, ?_⟩
  intro name initial named defined found
  rcases getElem?_addName found with old | ⟨rfl, rfl⟩
  · rw [names] at old
    exact ((evolves.same (valid.names old).1 id).1).trans (unbroken.holds defined old)
  · rw [names] at defined ⊢
    exact source initial defined

theorem Standing.define (lawful : values.Lawful) (ranked : network.Ranked rank)
    (standing : graph.Standing network rank) (unbroken : graph.Unbroken network sources)
    {fuel : Nat} {definition : Definition V} {heap : Heap V E}
    (defined : network[graph.heap.names.length]? = some definition)
    (holds : ∀ initial, definition = .source initial →
      sources graph.heap.names.length = initial)
    (ran : graph.heap.define values fuel definition = some heap) :
    ∃ later : Graph V E, later.heap = heap ∧ later.Standing network rank ∧
      later.Unbroken network sources ∧
      later.heap.names.length = graph.heap.names.length + 1 := by
  have valid := standing.valid
  cases definition with
  | source initial =>
      obtain rfl := Option.some_inj.mp ran
      let later := graph.newSignal initial (network.base rank graph.heap.names.length) none
      have newValid : later.Valid (network.base rank) := valid.newSignal nofun
      have evolves : Evolves (fun _ => False) graph later := evolves_newSignal valid
      have fromOld : ∀ {link : LinkId}, later.heap.Live link → graph.heap.Live link :=
        (live_newSignal valid).mp
      refine ⟨later.addName graph.heap.signals, rfl, standing.addName evolves rfl newValid ?_
        (Nat.lt_succ_self _) level_newSignal.ge ?_ ?_, unbroken.addName valid evolves rfl ?_ ?_,
        List.length_append⟩
      · intro link live
        obtain ⟨sound, good⟩ := standing.quiet link (fromOld live)
        exact ⟨evolves.sound valid (fromOld live) id sound,
          evolves.good valid (fromOld live) id id good⟩
      · intro formula otherwise
        cases defined.symm.trans otherwise
      · intro _ _
        refine ⟨le_rfl, const_newSignal, level_newSignal, fun link live same => ?_⟩
        exact (valid.target_lt (fromOld live)).ne same
      · rintro signal ⟨exception, raised⟩
        by_cases new : signal = graph.heap.signals
        · rw [new, held_newSignal] at raised
          cases raised
        · exact unbroken.alive signal
            ⟨exception, (Function.update_of_ne new ..).symm.trans raised⟩
      · intro _ _
        rw [held_newSignal, holds initial rfl]
  | derived formula =>
      obtain ⟨⟨signal, between⟩, derives, same⟩ := Option.bind_eq_some_iff.mp ran
      obtain rfl := Option.some_inj.mp same
      obtain ⟨later, rfl, made⟩ :=
        derive_derived lawful valid (ranked.fits defined graph) derives
      have grown := made.grown
      refine ⟨later.addName signal, rfl, standing.addName grown.evolves grown.names grown.valid ?_
        made.known made.above ?_ ?_, unbroken.addName valid grown.evolves grown.names ?_ ?_,
        List.length_append.trans (congrArg (·.length + 1) grown.names)⟩
      · intro link live
        rcases Nat.lt_or_ge link graph.heap.links with old | new
        · have before := grown.evolves.revived old live
          obtain ⟨sound, good⟩ := standing.quiet link before
          exact ⟨grown.evolves.sound valid before id sound,
            grown.evolves.good valid before id id good⟩
        · exact grown.fresh link new live
      · intro other again
        cases defined.symm.trans again
        exact made.built
      · intro initial otherwise
        cases defined.symm.trans otherwise
      · rintro signal ⟨exception, raised⟩
        obtain ⟨other, was⟩ := grown.exceptions signal exception raised
        exact unbroken.alive other ⟨exception, was⟩
      · intro initial otherwise
        cases defined.symm.trans otherwise

end Graph

/-- The values that the sources start with. -/
def Network.initial (network : Network V) (values : Values V) (name : Nat) : V :=
  match network[name]? with
  | some (.source value) => value
  | _ => values.undefined

namespace Graph

variable {rank : Nat → Nat} {graph later : Graph V E} {signal : SignalId}

theorem Standing.defineAll (lawful : values.Lawful) (ranked : network.Ranked rank) {fuel : Nat}
    {rest : Network V} :
    ∀ {graph : Graph V E} {heap : Heap V E}, graph.Standing network rank →
      graph.Unbroken network (network.initial values) →
      network.drop graph.heap.names.length = rest →
      graph.heap.defineAll values fuel rest = some heap →
        ∃ later : Graph V E, later.heap = heap ∧ later.Standing network rank ∧
          later.Unbroken network (network.initial values) ∧ later.Complete network := by
  induction rest with
  | nil =>
      intro graph heap standing unbroken ended ran
      refine ⟨graph, Option.some_inj.mp ran, standing, unbroken, fun name inside => ?_⟩
      have short := List.drop_eq_nil_iff.mp ended
      exact ⟨_, List.getElem?_eq_getElem (inside.trans_le short)⟩
  | cons definition rest ih =>
      intro graph heap standing unbroken parts ran
      obtain ⟨between, defines, more⟩ := Option.bind_eq_some_iff.mp ran
      have defined : network[graph.heap.names.length]? = some definition := by
        have first := congrArg (·[0]?) parts
        rwa [List.getElem?_drop] at first
      have holds : ∀ initial, definition = .source initial →
          network.initial values graph.heap.names.length = initial := by
        rintro initial rfl
        rw [Network.initial, defined]
      obtain ⟨later, rfl, laterStanding, laterUnbroken, count⟩ :=
        standing.define lawful ranked unbroken defined holds defines
      refine ih laterStanding laterUnbroken ?_ more
      rw [count, ← List.tail_drop, parts]
      rfl

def empty (values : Values V) : Graph V E where
  heap := Heap.empty values
  level _ := 0
  height _ := 0
  const _ := none

theorem empty_standing : (empty values : Graph V E).Standing network rank where
  valid :=
    { out := fun member => by cases member
      live := fun live => by cases live
      into := fun member => by cases member
      ends := fun known => absurd known (Nat.not_lt_zero _)
      sole := fun known => absurd known (Nat.not_lt_zero _)
      forwarding := fun found => by cases found
      names := fun found => by cases found
      heights := fun live => by cases live
      const := fun found => by cases found }
  quiet := fun _ live => by cases live
  built := fun _ found => by cases found
  source := fun _ found => by cases found
  apart := fun _ _ found => by cases found

theorem built_standing (lawful : values.Lawful) (ranked : network.Ranked rank) {fuel : Nat}
    {heap : Heap V E} (built : Heap.build values fuel network = some heap) :
    ∃ graph : Graph V E, graph.heap = heap ∧ graph.Standing network rank ∧
      graph.Unbroken network (network.initial values) ∧ graph.Complete network := by
  have unbroken : (empty values : Graph V E).Unbroken network (network.initial values) := by
    refine ⟨?_, fun _ found => by cases found⟩
    rintro signal ⟨exception, raised⟩
    cases raised
  exact empty_standing.defineAll lawful ranked unbroken rfl built

end Graph

/-! ## Running -/

/-- Sources of the network may be set, and any of its signals rejected. -/
def Network.Allows (network : Network V) : Op V E → Prop
  | .set name _ => ∃ initial, network[name]? = some (.source initial)
  | .reject name _ => name < network.length

/-- What the sources hold after an operation. -/
def Op.effect (op : Op V E) (sources : Nat → V) : Nat → V :=
  match op with
  | .set name value => Function.update sources name value
  | .reject _ _ => sources

def Op.Sets : Op V E → Prop
  | .set _ _ => True
  | .reject _ _ => False

def sourcesAfter (ops : List (Op V E)) (sources : Nat → V) : Nat → V :=
  ops.foldl (fun sources op => op.effect sources) sources

namespace Heap

theorem run_within {heap later : Heap V E} {op : Op V E} {fuel more : Nat} (enough : fuel ≤ more)
    (ran : heap.run values fuel op = some later) : heap.run values more op = some later := by
  cases op with
  | set name value =>
      obtain ⟨signal, found, sets⟩ := Option.bind_eq_some_iff.mp ran
      exact Option.bind_eq_some_iff.mpr
        ⟨signal, found, set_within (update_within enough) enough sets⟩
  | reject name exception =>
      obtain ⟨signal, found, rejects⟩ := Option.bind_eq_some_iff.mp ran
      exact Option.bind_eq_some_iff.mpr
        ⟨signal, found, reject_within (update_within enough) enough rejects⟩

theorem runAll_within {fuel more : Nat} (enough : fuel ≤ more) {ops : List (Op V E)} :
    ∀ {heap later : Heap V E}, heap.runAll values fuel ops = some later →
      heap.runAll values more ops = some later := by
  induction ops with
  | nil => exact id
  | cons op ops ih =>
      intro heap later ran
      obtain ⟨between, first, rest⟩ := Option.bind_eq_some_iff.mp ran
      exact Option.bind_eq_some_iff.mpr ⟨between, run_within enough first, ih rest⟩

end Heap

namespace Graph

variable {rank : Nat → Nat} {graph : Graph V E} {signal : SignalId} {op : Op V E}

theorem Standing.run (lawful : values.Lawful) (standing : graph.Standing network rank)
    (complete : graph.Complete network) (allowed : network.Allows op) {fuel : Nat}
    {heap : Heap V E} (ran : graph.heap.run values fuel op = some heap) :
    ∃ later : Graph V E, later.heap = heap ∧ later.Standing network rank ∧
      Evolves (fun _ => True) graph later ∧
      (op.Sets → graph.Unbroken network sources →
        later.Unbroken network (op.effect sources)) := by
  cases op with
  | set name value =>
      obtain ⟨signal, found, sets⟩ := Option.bind_eq_some_iff.mp ran
      obtain ⟨initial, defined⟩ := allowed
      obtain ⟨later, same, laterStanding, evolves, unbroken⟩ :=
        standing.set lawful complete defined found sets
      exact ⟨later, same, laterStanding, evolves.mono fun _ _ _ => trivial, fun _ => unbroken⟩
  | reject name exception =>
      obtain ⟨signal, found, rejects⟩ := Option.bind_eq_some_iff.mp ran
      obtain ⟨later, same, laterStanding, evolves, -⟩ :=
        standing.reject lawful complete (standing.valid.names found).1 rejects
      exact ⟨later, same, laterStanding, evolves.mono fun _ _ _ => trivial, False.elim⟩

/-- Every operation on a network comes to an end. -/
theorem Standing.run_ends (lawful : values.Lawful) (standing : graph.Standing network rank)
    (complete : graph.Complete network) (allowed : network.Allows op) :
    ∃ fuel later, graph.heap.run values fuel op = some later := by
  have valid := standing.valid
  cases op with
  | set name value =>
      obtain ⟨initial, defined⟩ := allowed
      obtain ⟨signal, found⟩ := complete name (List.getElem?_eq_some_iff.mp defined).1
      suffices ∃ fuel later, Heap.set values (Heap.update values fuel) fuel signal value
          graph.heap = some later by
        obtain ⟨fuel, later, ran⟩ := this
        exact ⟨fuel, later, Option.bind_eq_some_iff.mpr ⟨signal, found, ran⟩⟩
      cases held : graph.heap.held signal with
      | exception exception => exact ⟨0, graph.heap, by rw [Heap.set, held]⟩
      | value old =>
          refine set_ends lawful valid (valid.names found).1 held
            (standing.source defined found).1 (standing.quiet.settled _) (fun _ => False.elim)
            complete.named ?_
          intro between index link looping named _ here
          have live := (looping.valid.out (List.mem_of_getElem? here)).1
          exact value_answers lawful _ (looping.ready here)
            ⟨link, looping.valid.live_lt live, rfl⟩ named
  | reject name exception =>
      obtain ⟨signal, found⟩ := complete name allowed
      suffices ∃ fuel later, Heap.reject (Heap.update values fuel) fuel signal exception
          graph.heap = some later by
        obtain ⟨fuel, later, ran⟩ := this
        exact ⟨fuel, later, Option.bind_eq_some_iff.mpr ⟨signal, found, ran⟩⟩
      cases held : graph.heap.held signal with
      | exception raised => exact ⟨0, graph.heap, by rw [Heap.reject, held]⟩
      | value old =>
          refine reject_ends lawful valid (valid.names found).1 held (standing.quiet.settled _)
            (fun _ => False.elim) complete.named ?_
          intro between index link looping named _ here
          exact exception_answers lawful _ (looping.ready here) named

theorem Standing.runAll (lawful : values.Lawful) {fuel : Nat} {ops : List (Op V E)} :
    ∀ {graph : Graph V E} {heap : Heap V E} {sources : Nat → V}, graph.Standing network rank →
      graph.Complete network → (∀ op ∈ ops, network.Allows op) →
      graph.heap.runAll values fuel ops = some heap →
        ∃ later : Graph V E, later.heap = heap ∧ later.Standing network rank ∧
          Evolves (fun _ => True) graph later ∧
          ((∀ op ∈ ops, op.Sets) → graph.Unbroken network sources →
            later.Unbroken network (sourcesAfter ops sources)) := by
  induction ops with
  | nil =>
      intro graph heap sources standing _ _ ran
      exact ⟨graph, Option.some_inj.mp ran, standing, Evolves.refl graph, fun _ => id⟩
  | cons op ops ih =>
      intro graph heap sources standing complete allowed ran
      obtain ⟨between, first, rest⟩ := Option.bind_eq_some_iff.mp ran
      obtain ⟨middle, rfl, middleStanding, evolves, unbroken⟩ :=
        standing.run lawful complete (allowed op List.mem_cons_self) first
      obtain ⟨later, rfl, laterStanding, evolvesLater, unbrokenLater⟩ :=
        ih middleStanding (complete.evolve evolves)
          (fun op member => allowed op (List.mem_cons_of_mem _ member)) rest
      refine ⟨later, rfl, laterStanding,
        evolves.trans standing.valid evolvesLater fun _ _ => id, fun sets start => ?_⟩
      exact unbrokenLater (fun op member => sets op (List.mem_cons_of_mem _ member))
        (unbroken (sets op List.mem_cons_self) start)

theorem Standing.runAll_ends (lawful : values.Lawful) {ops : List (Op V E)} :
    ∀ {graph : Graph V E}, graph.Standing network rank → graph.Complete network →
      (∀ op ∈ ops, network.Allows op) →
        ∃ fuel later, graph.heap.runAll values fuel ops = some later := by
  induction ops with
  | nil => exact fun {graph} _ _ _ => ⟨0, graph.heap, rfl⟩
  | cons op ops ih =>
      intro graph standing complete allowed
      have first := allowed op List.mem_cons_self
      obtain ⟨fuel, between, ran⟩ := standing.run_ends lawful complete first
      obtain ⟨middle, rfl, middleStanding, evolves, -⟩ :=
        @Standing.run _ _ _ _ (network.initial values) _ _ _ lawful standing complete first _ _ ran
      obtain ⟨more, later, rest⟩ := ih middleStanding (complete.evolve evolves)
        fun op member => allowed op (List.mem_cons_of_mem _ member)
      exact ⟨max fuel more, later, Option.bind_eq_some_iff.mpr ⟨middle.heap,
        Heap.run_within (Nat.le_max_left ..) ran,
        Heap.runAll_within (Nat.le_max_right ..) rest⟩⟩

end Graph

end Smmboss.Signals
