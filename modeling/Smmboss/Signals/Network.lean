import Mathlib.Data.Set.Insert
import Mathlib.Logic.Relation
import Mathlib.SetTheory.Ordinal.Arithmetic
import Smmboss.Signals.Terminates

namespace Smmboss.Signals

/-! # Networks

What the signals of a network should hold: each is recomputed from the values of the
sources by its definition.  A network whose definitions do not refer to each other in a
circle has levels for its signals, and a graph that is up to date holds what
recomputation gives.
-/

variable {V E : Type}

/-- What a formula evaluates to from the values of the sources, and the signals of the
network that this reads.  The scope has the same of the signals derived before it. -/
inductive Evaluates (network : Network V) (sources : Nat → V) :
    Formula V → List (V × Set Nat) → V → Set Nat → Prop where
  | source {name : Nat} {initial : V} {scope : List (V × Set Nat)}
      (defined : network[name]? = some (.source initial)) :
      Evaluates network sources (.signal name) scope (sources name) {name}
  | derived {name : Nat} {formula : Formula V} {scope : List (V × Set Nat)} {value : V}
      {reads : Set Nat} (defined : network[name]? = some (.derived formula))
      (evaluates : Evaluates network sources formula [] value reads) :
      Evaluates network sources (.signal name) scope value (insert name reads)
  | shared {index : Nat} {scope : List (V × Set Nat)} {value : V} {reads : Set Nat}
      (found : scope[index]? = some (value, reads)) :
      Evaluates network sources (.shared index) scope value reads
  | value {value : V} {scope : List (V × Set Nat)} :
      Evaluates network sources (.value value) scope value ∅
  | map {base : Formula V} {f : V → V} {scope : List (V × Set Nat)} {value : V}
      {reads : Set Nat} (evaluates : Evaluates network sources base scope value reads) :
      Evaluates network sources (.map base f) scope (f value) reads
  | bind {base : Formula V} {f : V → Formula V} {scope : List (V × Set Nat)} {value result : V}
      {reads more : Set Nat} (evaluates : Evaluates network sources base scope value reads)
      (rest : Evaluates network sources (f value) scope result more) :
      Evaluates network sources (.bind base f) scope result (reads ∪ more)
  | share {first body : Formula V} {scope : List (V × Set Nat)} {shared value : V}
      {sharedReads reads : Set Nat}
      (evaluates : Evaluates network sources first scope shared sharedReads)
      (rest : Evaluates network sources body (scope ++ [(shared, sharedReads)]) value reads) :
      Evaluates network sources (.share first body) scope value reads

variable {network : Network V} {sources : Nat → V}

/-- Recomputation has one result. -/
theorem Evaluates.unique {formula : Formula V} {scope : List (V × Set Nat)} {value : V}
    {reads : Set Nat} (evaluates : Evaluates network sources formula scope value reads) :
    ∀ {other : V} {otherReads : Set Nat},
      Evaluates network sources formula scope other otherReads →
        other = value ∧ otherReads = reads := by
  induction evaluates with
  | source defined =>
      intro other otherReads again
      cases again with
      | source => exact ⟨rfl, rfl⟩
      | derived otherwise => cases defined.symm.trans otherwise
  | derived defined _ ih =>
      intro other otherReads again
      cases again with
      | source otherwise => cases defined.symm.trans otherwise
      | derived same evaluates =>
          cases defined.symm.trans same
          obtain ⟨rfl, rfl⟩ := ih evaluates
          exact ⟨rfl, rfl⟩
  | shared found =>
      intro other otherReads again
      cases again with
      | shared same =>
          cases found.symm.trans same
          exact ⟨rfl, rfl⟩
  | value =>
      intro other otherReads again
      cases again
      exact ⟨rfl, rfl⟩
  | map _ ih =>
      intro other otherReads again
      cases again with
      | map evaluates =>
          obtain ⟨rfl, rfl⟩ := ih evaluates
          exact ⟨rfl, rfl⟩
  | bind _ _ ih restIH =>
      intro other otherReads again
      cases again with
      | bind evaluates rest =>
          obtain ⟨rfl, rfl⟩ := ih evaluates
          obtain ⟨rfl, rfl⟩ := restIH rest
          exact ⟨rfl, rfl⟩
  | share _ _ ih restIH =>
      intro other otherReads again
      cases again with
      | share evaluates rest =>
          obtain ⟨rfl, rfl⟩ := ih evaluates
          exact restIH rest

namespace Heap

/-- There is a link from the one signal to the other. -/
def Feeds (heap : Heap V E) (source target : SignalId) : Prop :=
  ∃ link, heap.Live link ∧ (heap.link link).source = source ∧ (heap.link link).target = target

/-- The one signal depends on the other, over the links as they are. -/
def Depends (heap : Heap V E) (signal source : SignalId) : Prop :=
  Relation.ReflTransGen heap.Feeds source signal

/-- The signal holds the value, and depends on the signals of the network that it reads. -/
def Shows (heap : Heap V E) (signal : SignalId) (value : V) (reads : Set Nat) : Prop :=
  heap.held signal = .value value ∧
    ∀ name ∈ reads, ∃ source, heap.names[name]? = some source ∧ heap.Depends signal source

theorem Shows.along {heap : Heap V E} {source target : SignalId} {value result : V}
    {reads : Set Nat} (shows : heap.Shows source value reads) (feeds : heap.Feeds source target)
    (held : heap.held target = .value result) : heap.Shows target result reads := by
  refine ⟨held, fun name member => ?_⟩
  obtain ⟨read, found, depends⟩ := shows.2 name member
  exact ⟨read, found, depends.tail feeds⟩

end Heap

namespace Graph

variable {base : Nat → Ordinal.{0}} {graph : Graph V E}

/-- Every link is as it should be. -/
def Quiet (graph : Graph V E) : Prop :=
  ∀ link, graph.heap.Live link → graph.Sound link ∧ graph.Good link

theorem Quiet.alive (quiet : graph.Quiet) {link : LinkId} (live : graph.heap.Live link) :
    ¬ graph.heap.Rejected (graph.heap.link link).source ∧
      ¬ graph.heap.Rejected (graph.heap.link link).target := by
  obtain ⟨sound, value, held, -⟩ := quiet link live
  refine ⟨?_, sound.1⟩
  rintro ⟨exception, raised⟩
  rw [held] at raised
  cases raised

theorem Quiet.settled (quiet : graph.Quiet) (level : Ordinal.{0}) :
    graph.Settled level fun _ => False := by
  intro link live _
  obtain ⟨sound, good⟩ := quiet link live
  exact ⟨sound, fun _ => good⟩

theorem quiet_of_settled (settled : ∀ level, graph.Settled level fun _ => False) :
    graph.Quiet := by
  intro link live
  obtain ⟨sound, good⟩ := settled _ link live (lt_add_one _)
  exact ⟨sound, good id⟩

/-- A signal that is what a formula denotes holds what the formula evaluates to. -/
theorem Quiet.evaluates (quiet : graph.Quiet) (valid : graph.Valid base)
    (alive : ∀ signal, ¬ graph.heap.Rejected signal) {seen : Nat → Prop}
    (known : ∀ name signal, seen name → graph.heap.names[name]? = some signal →
      ∀ entries, ∃ value reads, Evaluates network sources (.signal name) entries value reads ∧
        graph.heap.Shows signal value reads) {formula : Formula V} :
    ∀ {scope : List SignalId} {entries : List (V × Set Nat)} {signal : SignalId},
      List.Forall₂ (fun signal entry => graph.heap.Shows signal entry.1 entry.2) scope entries →
      formula.Closed seen scope.length → graph.Built formula scope signal →
        ∃ value reads, Evaluates network sources formula entries value reads ∧
          graph.heap.Shows signal value reads := by
  induction formula with
  | signal name =>
      intro scope entries signal _ closed built
      exact known name signal closed built entries
  | shared index =>
      intro scope entries signal shows closed built
      obtain ⟨inside, rfl⟩ := List.getElem?_eq_some_iff.mp built
      have entryInside := shows.length_eq ▸ inside
      refine ⟨_, _, .shared (List.getElem?_eq_getElem entryInside), ?_⟩
      exact List.Forall₂.get shows inside entryInside
  | value value =>
      intro scope entries signal _ _ built
      refine ⟨value, ∅, .value, ?_, fun name member => absurd member (Set.notMem_empty name)⟩
      exact (valid.const built).2.2.resolve_right (alive signal)
  | map source f ih =>
      intro scope entries signal shows closed built
      obtain ⟨link, source, live, record, built⟩ := built.resolve_left (alive signal)
      obtain ⟨value, reads, evaluates, shown⟩ := ih shows closed built
      obtain ⟨-, current, held, brought⟩ := quiet link live
      rw [record] at held brought
      obtain rfl := Held.value.inj (held.symm.trans shown.1)
      exact ⟨f current, reads, .map evaluates,
        shown.along ⟨link, live, by rw [record], by rw [record]; rfl⟩ brought⟩
  | bind source f baseIH fIH =>
      intro scope entries signal shows closed built
      obtain ⟨link, source, live, record, built⟩ := built.resolve_left (alive signal)
      obtain ⟨value, reads, evaluates, shown⟩ := baseIH shows closed.1 built
      obtain ⟨-, current, held, brought⟩ := quiet link live
      rw [record] at held brought
      obtain ⟨forwardingLink, forwarding, forwardLive, inner⟩ := brought
      obtain rfl := Held.value.inj (held.symm.trans shown.1)
      obtain ⟨result, more, rest, innerShown⟩ := fIH current shows (closed.2 current) inner
      obtain ⟨-, forward⟩ := valid.forwarding forwarding
      obtain ⟨-, holding, forwarderHeld, brought⟩ := quiet forwardingLink forwardLive
      rw [forward] at brought
      obtain rfl := Held.value.inj (forwarderHeld.symm.trans innerShown.1)
      have first := shown.along ⟨link, live, by rw [record], by rw [record]; rfl⟩ brought
      have second := innerShown.along
        ⟨forwardingLink, forwardLive, rfl, by rw [Link.target, forward]; rfl⟩ brought
      refine ⟨holding, reads ∪ more, .bind evaluates rest, brought, ?_⟩
      rintro name (member | member)
      · exact first.2 name member
      · exact second.2 name member
  | share first body firstIH bodyIH =>
      intro scope entries signal shows closed built
      obtain ⟨shared, -, builtFirst, builtBody⟩ := built
      obtain ⟨value, reads, evaluates, shown⟩ := firstIH shows closed.1 builtFirst
      obtain ⟨result, more, rest, resultShown⟩ := bodyIH
        (List.rel_append shows (.cons (b := (value, reads)) shown .nil))
        (by rw [List.length_append]; exact closed.2) builtBody
      exact ⟨result, more, .share evaluates rest, resultShown⟩

end Graph

/-! ## Levels -/

namespace Network

/-- Whatever values its functions are given, a definition refers only to signals of the
network of lower rank. -/
def Ranked (network : Network V) (rank : Nat → Nat) : Prop :=
  ∀ (name : Nat) (formula : Formula V), network[name]? = some (.derived formula) →
    formula.Closed (fun other => other < network.length ∧ rank other < rank name) 0

/-- No signal can come to refer to itself. -/
def Acyclic (network : Network V) : Prop := ∃ rank, network.Ranked rank

noncomputable def definitionSize (network : Network V) (name : Nat) : Ordinal.{0} :=
  match network[name]? with
  | some (.derived formula) => formula.size
  | _ => 0

/-- Room enough for any definition. -/
noncomputable def span (network : Network V) : Ordinal.{0} :=
  (⨆ name, network.definitionSize name) + 1

/-- The highest rank of a signal of the network. -/
def depth (network : Network V) (rank : Nat → Nat) : Nat :=
  (List.range network.length).foldr (fun name deepest => Nat.max (rank name) deepest) 0

/-- The level of a signal of the network, the sources above all others. -/
noncomputable def base (network : Network V) (rank : Nat → Nat) (name : Nat) : Ordinal.{0} :=
  match network[name]? with
  | none => 0
  | some (.source _) => network.span * (network.depth rank + 2 : Nat)
  | some (.derived _) => network.span * (network.depth rank + 1 - rank name : Nat)

variable {rank : Nat → Nat} {name other : Nat} {formula : Formula V}

theorem size_lt_span (defined : network[name]? = some (.derived formula)) :
    formula.size < network.span := by
  have same : network.definitionSize name = formula.size := by
    rw [definitionSize, defined]
  rw [← same]
  exact Order.lt_add_one_iff.mpr (Ordinal.le_iSup network.definitionSize name)

theorem rank_le_foldr {names : List Nat} (member : name ∈ names) :
    rank name ≤ names.foldr (fun name deepest => Nat.max (rank name) deepest) 0 := by
  induction names with
  | nil => cases member
  | cons first names ih =>
      rcases List.mem_cons.mp member with rfl | member
      · exact Nat.le_max_left ..
      · exact (ih member).trans (Nat.le_max_right ..)

theorem rank_le_depth (inside : name < network.length) : rank name ≤ network.depth rank :=
  rank_le_foldr (List.mem_range.mpr inside)

theorem base_source {initial : V} (defined : network[name]? = some (.source initial)) :
    network.base rank name = network.span * (network.depth rank + 2 : Nat) := by
  rw [base, defined]

theorem base_derived (defined : network[name]? = some (.derived formula)) :
    network.base rank name = network.span * (network.depth rank + 1 - rank name : Nat) := by
  rw [base, defined]

theorem inside_of_base_pos (above : 0 < network.base rank name) : name < network.length := by
  cases defined : network[name]? with
  | none =>
      rw [base, defined] at above
      exact absurd above (lt_irrefl _)
  | some definition => exact (List.getElem?_eq_some_iff.mp defined).1

/-- Between a definition and a signal of lower rank there is room for it. -/
theorem base_room (defined : network[name]? = some (.derived formula))
    (inside : other < network.length) (lower : rank other < rank name) :
    network.base rank name + formula.size < network.base rank other := by
  have shallow := @rank_le_depth _ network rank name (List.getElem?_eq_some_iff.mp defined).1
  rw [base_derived defined]
  have next : network.span * (network.depth rank + 1 - rank name : Nat) + formula.size <
      network.span * (network.depth rank + 1 - rank name + 1 : Nat) := by
    rw [Nat.cast_succ, mul_add_one]
    exact (add_lt_add_iff_left _).mpr (size_lt_span defined)
  refine next.trans_le ?_
  cases otherDefined : network[other]? with
  | none => exact absurd (List.getElem?_eq_none_iff.mp otherDefined) inside.not_ge
  | some definition =>
      cases definition with
      | source initial =>
          rw [base_source otherDefined]
          exact mul_le_mul_right (Nat.cast_le.mpr (by omega)) _
      | derived otherFormula =>
          rw [base_derived otherDefined]
          exact mul_le_mul_right (Nat.cast_le.mpr (by omega)) _

theorem Ranked.fits (ranked : network.Ranked rank)
    (defined : network[name]? = some (.derived formula)) (graph : Graph V E) :
    graph.Fits (network.base rank) (network.base rank name) formula [] :=
  ⟨(ranked name formula defined).imp fun _ below => base_room defined below.1 below.2, nofun⟩

end Network

/-! ## Between operations -/

namespace Graph

variable {rank : Nat → Nat} {graph later : Graph V E}

/-- What holds of the graph of a network between operations. -/
structure Standing (network : Network V) (rank : Nat → Nat) (graph : Graph V E) : Prop where
  valid : graph.Valid (network.base rank)
  quiet : graph.Quiet
  built : ∀ {name : Nat} {formula : Formula V} {signal : SignalId},
    network[name]? = some (.derived formula) → graph.heap.names[name]? = some signal →
      graph.Built formula [] signal
  source : ∀ {name : Nat} {initial : V} {signal : SignalId},
    network[name]? = some (.source initial) → graph.heap.names[name]? = some signal →
      graph.const signal = none ∧ graph.level signal = network.base rank name ∧
        ∀ link, graph.heap.Live link → (graph.heap.link link).target ≠ signal
  apart : ∀ {name other : Nat} {initial otherInitial : V} {signal : SignalId},
    network[name]? = some (.source initial) → network[other]? = some (.source otherInitial) →
      graph.heap.names[name]? = some signal → graph.heap.names[other]? = some signal →
        name = other

/-- No signal has been rejected, and the sources hold their values. -/
structure Unbroken (network : Network V) (sources : Nat → V) (graph : Graph V E) : Prop where
  alive : ∀ signal, ¬ graph.heap.Rejected signal
  holds : ∀ {name : Nat} {initial : V} {signal : SignalId},
    network[name]? = some (.source initial) → graph.heap.names[name]? = some signal →
      graph.heap.held signal = .value (sources name)

/-- Every signal of the network is there. -/
def Complete (network : Network V) (graph : Graph V E) : Prop :=
  ∀ name, name < network.length → ∃ signal, graph.heap.names[name]? = some signal

theorem Complete.named (complete : graph.Complete network) :
    graph.Named (network.base rank) :=
  fun name above => complete name (Network.inside_of_base_pos above)

theorem Complete.evolve {may : SignalId → Prop} (complete : graph.Complete network)
    (evolves : Evolves may graph later) : later.Complete network := by
  intro name inside
  obtain ⟨signal, found⟩ := complete name inside
  exact ⟨signal, evolves.names found⟩

/-- The names of the network are as before. -/
theorem Complete.names {may : SignalId → Prop} (complete : graph.Complete network)
    (evolves : Evolves may graph later) {name : Nat} {signal : SignalId}
    (inside : name < network.length) (found : later.heap.names[name]? = some signal) :
    graph.heap.names[name]? = some signal := by
  obtain ⟨before, was⟩ := complete name inside
  rw [evolves.names was] at found
  rwa [← Option.some_inj.mp found]

/-- Every signal of the network holds what recomputation gives. -/
theorem Standing.evaluates (standing : graph.Standing network rank)
    (unbroken : graph.Unbroken network sources) (ranked : network.Ranked rank) (bound : Nat) :
    ∀ {name : Nat} {signal : SignalId}, rank name < bound → name < network.length →
      graph.heap.names[name]? = some signal → ∀ entries, ∃ value reads,
        Evaluates network sources (.signal name) entries value reads ∧
          graph.heap.Shows signal value reads := by
  induction bound with
  | zero => exact fun below => absurd below (Nat.not_lt_zero _)
  | succ bound ih =>
      intro name signal below inside found entries
      obtain ⟨definition, defined⟩ : ∃ definition, network[name]? = some definition :=
        ⟨_, List.getElem?_eq_getElem inside⟩
      cases definition with
      | source initial =>
          refine ⟨sources name, {name}, .source defined, unbroken.holds defined found, ?_⟩
          rintro _ rfl
          exact ⟨signal, found, .refl⟩
      | derived formula =>
          obtain ⟨value, reads, evaluates, shows⟩ := standing.quiet.evaluates standing.valid
            unbroken.alive (fun other otherSignal seen otherFound => ih
              (lt_of_lt_of_le seen.2 (Nat.lt_succ_iff.mp below)) seen.1 otherFound)
            (.nil : List.Forall₂ _ [] ([] : List (V × Set Nat)))
            (ranked name formula defined) (standing.built defined found)
          refine ⟨value, insert name reads, .derived defined evaluates, shows.1, ?_⟩
          rintro other (rfl | member)
          · exact ⟨signal, found, .refl⟩
          · exact shows.2 other member

end Graph

end Smmboss.Signals
