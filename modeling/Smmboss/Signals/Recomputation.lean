import Smmboss.Signals.Runs

namespace Smmboss.Signals

/-! # Derived signals and recomputation -/

variable {V E : Type} {values : Values V} {network : Network V}

/-- Every signal of the network holds what its definition evaluates to, and depends on the
signals of the network that this reads. -/
def Heap.Agrees (network : Network V) (sources : Nat → V) (heap : Heap V E) : Prop :=
  ∀ name, name < network.length → ∃ signal value reads, heap.names[name]? = some signal ∧
    Evaluates network sources (.signal name) [] value reads ∧ heap.Shows signal value reads

theorem Graph.Standing.agrees {rank : Nat → Nat} {sources : Nat → V} {graph : Graph V E}
    (standing : graph.Standing network rank) (unbroken : graph.Unbroken network sources)
    (complete : graph.Complete network) (ranked : network.Ranked rank) :
    graph.heap.Agrees network sources := by
  intro name inside
  obtain ⟨signal, found⟩ := complete name inside
  obtain ⟨value, reads, evaluates, shows⟩ :=
    standing.evaluates unbroken ranked _ (Nat.lt_succ_self _) inside found []
  exact ⟨signal, value, reads, found, evaluates, shows⟩

/-- Operations on a network without circles always come to an end.  While none rejects a
signal, every signal holds what recomputation gives.  Rejecting a signal rejects all that
depend on it, with the same exception, and they stay so. -/
theorem derived_recomputed (lawful : values.Lawful) (acyclic : network.Acyclic) {fuel : Nat}
    {start : Heap V E} (built : Heap.build values fuel network = some start)
    {ops : List (Op V E)} (allowed : ∀ op ∈ ops, network.Allows op) :
    (∃ fuel heap, start.runAll values fuel ops = some heap) ∧
      ∀ fuel heap, start.runAll values fuel ops = some heap →
        ((∀ op ∈ ops, op.Sets) →
          heap.Agrees network (sourcesAfter ops (network.initial values))) ∧
        (∀ link, heap.Live link → ¬ heap.Rejected (heap.link link).source ∧
          ¬ heap.Rejected (heap.link link).target) ∧
        (∀ name signal exception fuel later, heap.names[name]? = some signal →
          ¬ heap.Rejected signal →
          heap.run values fuel (.reject name exception) = some later →
            ∀ other, heap.Depends other signal → later.held other = .exception exception) ∧
        ∀ signal exception, signal < heap.signals → heap.held signal = .exception exception →
          ∀ more, (∀ op ∈ more, network.Allows op) → ∀ fuel later,
            heap.runAll values fuel more = some later →
              later.held signal = .exception exception := by
  obtain ⟨rank, ranked⟩ := acyclic
  obtain ⟨graph, rfl, standing, unbroken, complete⟩ :=
    Graph.built_standing (E := E) lawful ranked built
  refine ⟨standing.runAll_ends lawful complete allowed, fun fuel heap ran => ?_⟩
  obtain ⟨later, rfl, laterStanding, evolves, laterUnbroken⟩ :=
    standing.runAll lawful complete allowed ran
  have laterComplete := complete.evolve evolves
  refine ⟨fun sets => ?_, fun link live => laterStanding.quiet.alive live, ?_, ?_⟩
  · exact laterStanding.agrees (laterUnbroken sets unbroken) laterComplete ranked
  · intro name signal exception more last found alive rejects
    obtain ⟨same, sameFound, rejecting⟩ := Option.bind_eq_some_iff.mp rejects
    obtain rfl := Option.some_inj.mp (found.symm.trans sameFound)
    obtain ⟨last, rfl, -, -, spread⟩ := laterStanding.reject lawful laterComplete
      (laterStanding.valid.names found).1 rejecting
    exact spread alive
  · intro signal exception known held more allowed fuel last ranMore
    obtain ⟨last, rfl, -, evolvesMore, -⟩ := @Graph.Standing.runAll _ _ _ network rank lawful _
      more _ _ (network.initial values) laterStanding laterComplete allowed ranMore
    exact evolvesMore.frozen known held

/-! ## The signals of `testSignals` -/

/-- Numbers and `undefined`. -/
def optionalValues : Values (Option Nat) where
  undefined := none
  strictEquals first second := decide (first = second)

def testNetwork : Network (Option Nat) :=
  [.source none, .source none, .source none,
    .derived (.map (.bind (.signal 0) fun
      | some 0 => .signal 1
      | some 1 => .signal 2
      | _ => .value none) (Option.map (· * 2)))]

def testOps : List (Op (Option Nat) String) :=
  [.set 0 (some 0), .set 1 (some 42), .set 1 (some 43), .set 0 (some 1), .set 1 (some 7),
    .set 2 (some 44)]

theorem testNetwork_acyclic : testNetwork.Acyclic := by
  refine ⟨id, fun name formula defined => ?_⟩
  match name, defined with
  | 3, rfl =>
      refine ⟨⟨by decide, by decide⟩, fun value => ?_⟩
      match value with
      | some 0 => exact ⟨by decide, by decide⟩
      | some 1 => exact ⟨by decide, by decide⟩
      | some (_ + 2) => trivial
      | none => trivial

theorem testSignals_recomputed : ∃ start heap : Heap (Option Nat) String,
    Heap.build optionalValues 9 testNetwork = some start ∧
      start.runAll optionalValues 9 testOps = some heap ∧
      heap.Agrees testNetwork (sourcesAfter testOps (testNetwork.initial optionalValues)) ∧
      heap.names[3]?.map heap.held = some (.value (some 88)) := by
  have shown : ((Heap.build optionalValues 9 testNetwork).bind fun start =>
      (start.runAll optionalValues 9 testOps).bind fun heap =>
        heap.names[3]?.map heap.held) = some (.value (some 88)) := rfl
  obtain ⟨start, built, rest⟩ := Option.bind_eq_some_iff.mp shown
  obtain ⟨heap, ran, holds⟩ := Option.bind_eq_some_iff.mp rest
  have lawful : optionalValues.Lawful := fun _ _ => of_decide_eq_true
  have allowed : ∀ op ∈ testOps, testNetwork.Allows op := by
    simp [testOps, Network.Allows, testNetwork]
  obtain ⟨-, runs⟩ := derived_recomputed lawful testNetwork_acyclic built allowed
  exact ⟨start, heap, built, ran, (runs 9 heap ran).1 (by simp [testOps, Op.Sets]), holds⟩

/-! ## Where recomputation fails -/

/-- The numbers that `0 * x` and `1 / x` make of 1 and -1. -/
inductive Number where
  | undefined
  | nan
  | zero
  | negativeZero
  | one
  | negativeOne
  | infinity
  | negativeInfinity
deriving DecidableEq

namespace Number

/-- `0 * x` -/
def timesZero : Number → Number
  | zero | one => zero
  | negativeZero | negativeOne => negativeZero
  | undefined | nan | infinity | negativeInfinity => nan

/-- `1 / x` -/
def reciprocal : Number → Number
  | zero => infinity
  | negativeZero => negativeInfinity
  | one => one
  | negativeOne => negativeOne
  | infinity => zero
  | negativeInfinity => negativeZero
  | undefined | nan => nan

/-- `===` takes the two zeros for equal, and NaN for different from itself. -/
def strictEquals : Number → Number → Bool
  | nan, _ | _, nan => false
  | zero, negativeZero | negativeZero, zero => true
  | first, second => decide (first = second)

def numbers : Values Number := ⟨undefined, strictEquals⟩

def zeroNetwork : Network Number :=
  [.source one, .derived (.map (.signal 0) timesZero), .derived (.map (.signal 1) reciprocal)]

end Number

def naturals : Values Nat := ⟨0, fun first second => decide (first = second)⟩

/-- Links that lead from each of three signals to the next, and count on the way. -/
structure Circle (heap : Heap Nat E) (first second third : SignalId) : Prop where
  different : first ≠ second ∧ first ≠ third ∧ second ≠ third
  firstOut : ∃ link, heap.linksOut first = [some link] ∧
    (heap.link link).update = .forward second
  secondOut : ∃ link, heap.linksOut second = [some link] ∧
    (heap.link link).update = .map (· + 1) third
  thirdOut : ∃ link, heap.linksOut third = [some link] ∧
    (heap.link link).update = .forward first

theorem Circle.assign {heap : Heap Nat E} {first second third : SignalId}
    (circle : Circle heap first second third) (signal : SignalId) (held : Held Nat E) :
    Circle (heap.assign signal held) first second third :=
  ⟨circle.different, circle.firstOut, circle.secondOut, circle.thirdOut⟩

/-- Setting a signal never answers when the closure of its one link does not. -/
theorem Heap.set_none {heap : Heap V E} {call : Call V E} {rounds : Nat} {signal : SignalId}
    {link : LinkId} {old value : V} {update : Update V} (alive : heap.held signal = .value old)
    (changed : values.strictEquals old value = false)
    (out : heap.linksOut signal = [some link] ∧ (heap.link link).update = update)
    (called : call update (.value value) (heap.assign signal (.value value)) = none) :
    Heap.set values call rounds signal value heap = none := by
  obtain ⟨out, rfl⟩ := out
  rw [Heap.set, alive]
  refine (if_neg (by rw [changed]; exact Bool.false_ne_true)).trans ?_
  cases rounds with
  | zero => rfl
  | succ rounds =>
      rw [Heap.bumpFrom, show (heap.assign signal (.value value)).linksOut signal = _ from out]
      show (call (heap.link link).update
        ((heap.assign signal (.value value)).held signal) _).bind _ = none
      rw [show (heap.assign signal (.value value)).held signal = .value value from
        Function.update_self .., called]
      rfl

theorem Heap.bind_none {heap inner : Heap V E} {call : Call V E} {rounds : Nat}
    {f : V → Formula V} {scope : List SignalId} {bound forwarder : SignalId} {value : V}
    (derives : Heap.derive values call (f value) scope (heap.killForwardingLink bound) =
      some (forwarder, inner))
    (creates : Heap.create call forwarder (.forward bound) inner = none) :
    Heap.runUpdate values call rounds (.bind f scope bound) (.value value) heap = none := by
  refine Option.bind_eq_none_iff.mpr fun derived same => ?_
  obtain rfl := Option.some_inj.mp (derives.symm.trans same)
  exact Option.bind_eq_none_iff.mpr fun created found => by cases creates.symm.trans found

theorem Heap.runAll_none {start middle : Heap V E} {op next : Op V E} {enough : Nat}
    (ran : start.run values enough op = some middle)
    (never : ∀ fuel, middle.run values (fuel + enough) next = none) (fuel : Nat) :
    start.runAll values fuel [op, next] = none := by
  cases runs : start.runAll values fuel [op, next] with
  | none => rfl
  | some heap =>
      obtain ⟨between, first, rest⟩ := Option.bind_eq_some_iff.mp
        (runAll_within (Nat.le_add_right fuel enough) runs)
      have same := run_within (Nat.le_add_left enough fuel) ran
      obtain ⟨last, second, -⟩ := Option.bind_eq_some_iff.mp rest
      rw [← Option.some_inj.mp (same.symm.trans first), never] at second
      cases second

/-- A value that is greater than those before it goes round for ever. -/
theorem Circle.diverges {first second third : SignalId} (fuel : Nat) :
    ∀ {heap : Heap Nat E} {value low middle high : Nat}, Circle heap first second third →
      heap.held first = .value low → heap.held second = .value middle →
      heap.held third = .value high → high ≤ value →
        (low < value → middle < value →
          Heap.update naturals fuel (.forward first) (.value value) heap = none) ∧
        (low = value → middle < value →
          Heap.update naturals fuel (.forward second) (.value value) heap = none) ∧
        (low = value → middle = value →
          Heap.update naturals fuel (.map (· + 1) third) (.value value) heap = none) := by
  induction fuel with
  | zero => exact fun _ _ _ _ _ => ⟨fun _ _ => rfl, fun _ _ => rfl, fun _ _ => rfl⟩
  | succ fuel ih =>
      intro heap value low middle high circle firstHeld secondHeld thirdHeld lowest
      obtain ⟨firstLink, firstOut⟩ := circle.firstOut
      obtain ⟨secondLink, secondOut⟩ := circle.secondOut
      obtain ⟨thirdLink, thirdOut⟩ := circle.thirdOut
      obtain ⟨notSecond, notThird, apart⟩ := circle.different
      refine ⟨fun less lower => ?_, fun same lower => ?_, fun same middleSame => ?_⟩
      · refine Heap.set_none firstHeld (decide_eq_false less.ne) firstOut ?_
        exact (ih (circle.assign ..) (Function.update_self ..)
          ((Function.update_of_ne notSecond.symm ..).trans secondHeld)
          ((Function.update_of_ne notThird.symm ..).trans thirdHeld) lowest).2.1 rfl lower
      · refine Heap.set_none secondHeld (decide_eq_false lower.ne) secondOut ?_
        exact (ih (circle.assign ..) ((Function.update_of_ne notSecond ..).trans firstHeld)
          (Function.update_self ..)
          ((Function.update_of_ne apart.symm ..).trans thirdHeld) lowest).2.2 same rfl
      · have more : high ≠ value + 1 := (Nat.lt_succ_of_le lowest).ne
        refine Heap.set_none thirdHeld (decide_eq_false more) thirdOut ?_
        exact (ih (circle.assign ..) ((Function.update_of_ne notThird ..).trans firstHeld)
          ((Function.update_of_ne apart ..).trans secondHeld) (Function.update_self ..)
          le_rfl).1 (same ▸ Nat.lt_succ_self _) (middleSame ▸ Nat.lt_succ_self _)

/-- Two signals that are bound to each other, but never both at once. -/
def circleNetwork : Network Nat :=
  [.source 2,
    .derived (.bind (.signal 0) fun value =>
      if value = 1 then .map (.signal 2) (· + 1) else .value 0),
    .derived (.bind (.signal 0) fun value => if value = 0 then .signal 1 else .value 0)]

def circleStart : Heap Nat Unit := (Heap.build naturals 9 circleNetwork).get rfl

theorem circleStart_built : Heap.build naturals 9 circleNetwork = some circleStart :=
  Option.eq_some_of_isSome rfl

/-- The second signal forwards the first. -/
def circleMiddle : Heap Nat Unit := (circleStart.run naturals 9 (.set 0 0)).get rfl

theorem circleMiddle_ran : circleStart.run naturals 9 (.set 0 0) = some circleMiddle :=
  Option.eq_some_of_isSome rfl

/-- The closure of the first signal has derived its signal from the second. -/
def circleInner : Heap Nat Unit :=
  ((Heap.derive naturals (Heap.update naturals 8) (.map (.signal 2) (· + 1)) []
    ((circleMiddle.assign 0 (.value 1)).killForwardingLink 1)).map Prod.snd).getD
      (Heap.empty naturals)

theorem circleInner_circle : Circle (circleInner.addLink 6 (.forward 1)) 1 3 6 :=
  ⟨by decide, ⟨5, rfl, rfl⟩, ⟨6, rfl, rfl⟩, ⟨7, rfl, rfl⟩⟩

theorem circleMiddle_never (fuel : Nat) :
    circleMiddle.run naturals (fuel + 9) (.set 0 1) = none := by
  have derives : Heap.derive naturals (Heap.update naturals 8) (.map (.signal 2) (· + 1)) []
      ((circleMiddle.assign 0 (.value 1)).killForwardingLink 1) = some (6, circleInner) := rfl
  have never := (@Circle.diverges Unit 1 3 6 (fuel + 8) _ 1 0 0 1 circleInner_circle rfl rfl rfl
    le_rfl).1 Nat.one_pos Nat.one_pos
  have record : (circleMiddle.link 0).update = .bind (fun value =>
      if value = 1 then .map (.signal 2) (· + 1) else .value 0) [] 1 := rfl
  have called : Heap.update naturals (fuel + 9) (circleMiddle.link 0).update (.value 1)
      (circleMiddle.assign 0 (.value 1)) = none := by
    rw [record]
    refine Heap.bind_none (Heap.derive_within (Heap.update_within (Nat.le_add_left 8 fuel))
      derives) ?_
    rw [@Heap.create_value _ _ _ circleInner 6 (.forward 1) 0 1 rfl rfl, never]
    rfl
  show Heap.set naturals (Heap.update naturals (fuel + 9)) (fuel + 9) 0 1 circleMiddle = none
  rw [Heap.set, show circleMiddle.held 0 = .value 0 from rfl]
  show Heap.bumpFrom (Heap.update naturals (fuel + 9)) 0 (fuel + 8 + 1) 0
    (circleMiddle.assign 0 (.value 1)) = none
  rw [Heap.bumpFrom, show ((circleMiddle.assign 0 (.value 1)).linksOut 0)[0]? = some (some 0) from
    rfl]
  exact Option.bind_eq_none_iff.mpr fun between ran => by cases called.symm.trans ran

/-- With every value of the source, the definitions have results. -/
theorem circleNetwork_evaluates (sources : Nat → Nat) {name : Nat}
    (inside : name < circleNetwork.length) :
    ∃ value reads, Evaluates circleNetwork sources (.signal name) [] value reads := by
  have source : Evaluates circleNetwork sources (.signal 0) [] (sources 0) {0} :=
    .source (show circleNetwork[0]? = some (.source 2) from rfl)
  have first : sources 0 ≠ 1 → ∃ reads, Evaluates circleNetwork sources (.signal 1) [] 0 reads := by
    intro different
    refine ⟨insert 1 ({0} ∪ ∅), .derived rfl (.bind source ?_)⟩
    rw [if_neg different]
    exact .value
  have second : sources 0 ≠ 0 → ∃ reads, Evaluates circleNetwork sources (.signal 2) [] 0 reads := by
    intro different
    refine ⟨insert 2 ({0} ∪ ∅), .derived rfl (.bind source ?_)⟩
    rw [if_neg different]
    exact .value
  match name, inside with
  | 0, _ => exact ⟨sources 0, {0}, source⟩
  | 1, _ =>
      by_cases same : sources 0 = 1
      · obtain ⟨reads, evaluates⟩ := second (by rw [same]; exact Nat.one_ne_zero)
        refine ⟨1, insert 1 ({0} ∪ reads), .derived rfl (.bind source ?_)⟩
        rw [if_pos same]
        exact .map evaluates
      · exact ⟨0, first same⟩
  | 2, _ =>
      by_cases same : sources 0 = 0
      · obtain ⟨reads, evaluates⟩ := first (by rw [same]; exact Nat.zero_ne_one)
        refine ⟨0, insert 2 ({0} ∪ reads), .derived rfl (.bind source ?_)⟩
        rw [if_pos same]
        exact evaluates
      · exact ⟨0, second same⟩

/-- Without these conditions: two zeros that `===` takes for equal stop a change on its way,
and a circle that is there only while a source is being set never ends. -/
theorem recomputation_fails :
    (∃ start heap : Heap Number Unit, ∃ reads,
      Heap.build Number.numbers 9 Number.zeroNetwork = some start ∧
        start.runAll Number.numbers 9 [.set 0 .negativeOne] = some heap ∧
        heap.names[2]?.map heap.held = some (.value .infinity) ∧
        Evaluates Number.zeroNetwork
          (sourcesAfter [(.set 0 .negativeOne : Op Number Unit)]
            (Number.zeroNetwork.initial Number.numbers)) (.signal 2) [] .negativeInfinity reads) ∧
    (∀ sources name, name < circleNetwork.length →
      ∃ value reads, Evaluates circleNetwork sources (.signal name) [] value reads) ∧
    ∃ start : Heap Nat Unit, Heap.build naturals 9 circleNetwork = some start ∧
      ∀ fuel, start.runAll naturals fuel [.set 0 0, .set 0 1] = none := by
  refine ⟨?_, fun sources name => circleNetwork_evaluates sources, circleStart,
    circleStart_built, fun fuel => ?_⟩
  · have shown : ((Heap.build (E := Unit) Number.numbers 9 Number.zeroNetwork).bind fun start =>
        (start.runAll Number.numbers 9 [.set 0 .negativeOne]).bind fun heap =>
          heap.names[2]?.map heap.held) = some (.value .infinity) := rfl
    obtain ⟨start, built, rest⟩ := Option.bind_eq_some_iff.mp shown
    obtain ⟨heap, ran, holds⟩ := Option.bind_eq_some_iff.mp rest
    let sources := sourcesAfter [(.set 0 .negativeOne : Op Number Unit)]
      (Number.zeroNetwork.initial Number.numbers)
    have evaluates : Evaluates Number.zeroNetwork sources (.signal 2) []
        (Number.reciprocal (Number.timesZero (sources 0))) (insert 2 (insert 1 {0})) :=
      .derived rfl (.map (.derived rfl (.map (.source rfl))))
    exact ⟨start, heap, _, built, ran, holds, evaluates⟩
  · exact Heap.runAll_none circleMiddle_ran circleMiddle_never fuel

end Smmboss.Signals
