import Mathlib.Logic.Function.Basic
import Mathlib.Data.List.Basic

/-! # Signals

`Signal` and `SignalLink`: a signal pushes its value over its links to the signals
derived from it by `map` and `bind`.  The functions given to these are pure; what a
function given to `bind` returns is a `Formula`, which says what it derives from the
signals that it can see.

The heap holds the signals and links made so far under their numbers.  The closure of
a link is called through a parameter, `Call`, which `update` ties to itself with fuel.
-/

namespace Smmboss.Signals

abbrev SignalId := Nat

abbrev LinkId := Nat

/-- What a function given to `bind` returns: a signal of the network, one that it has
derived before and uses again, a plain value, or one newly derived. -/
inductive Formula (V : Type) where
  | signal (name : Nat)
  | shared (index : Nat)
  | value (value : V)
  | map (base : Formula V) (f : V → V)
  | bind (base : Formula V) (f : V → Formula V)
  | share (first body : Formula V)

/-- `hasException` and `valueOrException` of a signal that has a value or an exception;
only `withoutInitialValue` makes one with neither. -/
inductive Held (V E : Type) where
  | value (value : V)
  | exception (exception : E)
deriving DecidableEq

/-- The closure of a link, by the method that makes it. -/
inductive Update (V : Type) where
  | map (f : V → V) (mappedSignal : SignalId)
  | bind (f : V → Formula V) (scope : List SignalId) (boundSignal : SignalId)
  | forward (boundSignal : SignalId)

/-- The signal that the closure sets, which is the link's `target`. -/
def Update.target {V : Type} : Update V → SignalId
  | .map _ mappedSignal => mappedSignal
  | .bind _ _ boundSignal => boundSignal
  | .forward boundSignal => boundSignal

structure Link (V : Type) where
  source : SignalId
  update : Update V

def Link.target {V : Type} (link : Link V) : SignalId := link.update.target

/-- The entries of a JavaScript `Set`.  A deleted entry leaves its place empty, so an
iteration under way skips it; an added one goes to the end and is still reached. -/
abbrev LinkSet := List (Option LinkId)

def LinkSet.delete (links : LinkSet) (link : LinkId) : LinkSet :=
  links.map fun entry => if entry = some link then none else entry

/-- `undefined` and `===`. -/
structure Values (V : Type) where
  undefined : V
  strictEquals : V → V → Bool

/-- `forwardingLink` is the variable of the call of `bind` that made the signal, and
`names` are the variables that hold the signals of the network. -/
structure Heap (V E : Type) where
  signals : Nat
  links : Nat
  held : SignalId → Held V E
  linksIn : SignalId → LinkSet
  linksOut : SignalId → LinkSet
  link : LinkId → Link V
  forwardingLink : SignalId → Option LinkId
  names : List SignalId

abbrev Call (V E : Type) := Update V → Held V E → Heap V E → Option (Heap V E)

namespace Heap

variable {V E : Type}

def assign (heap : Heap V E) (signal : SignalId) (held : Held V E) : Heap V E :=
  { heap with held := Function.update heap.held signal held }

def setForwardingLink (heap : Heap V E) (signal : SignalId) (link : Option LinkId) : Heap V E :=
  { heap with forwardingLink := Function.update heap.forwardingLink signal link }

/-- `new Signal(value)`. -/
def newSignal (heap : Heap V E) (value : V) : Heap V E :=
  { heap with
    signals := heap.signals + 1
    held := Function.update heap.held heap.signals (.value value)
    linksIn := Function.update heap.linksIn heap.signals []
    linksOut := Function.update heap.linksOut heap.signals []
    forwardingLink := Function.update heap.forwardingLink heap.signals none }

/-- The new link, in both of its sets. -/
def addLink (heap : Heap V E) (source : SignalId) (update : Update V) : Heap V E :=
  { heap with
    links := heap.links + 1
    link := Function.update heap.link heap.links ⟨source, update⟩
    linksIn := Function.update heap.linksIn update.target
      (heap.linksIn update.target ++ [some heap.links])
    linksOut := Function.update heap.linksOut source
      (heap.linksOut source ++ [some heap.links]) }

/-- `SignalLink.kill` -/
def kill (heap : Heap V E) (link : LinkId) : Heap V E :=
  let source := (heap.link link).source
  let target := (heap.link link).target
  { heap with
    linksOut := Function.update heap.linksOut source ((heap.linksOut source).delete link)
    linksIn := Function.update heap.linksIn target ((heap.linksIn target).delete link) }

/-- `for (let link of links) link.kill()`, which adds no entry to the set. -/
def killAll (heap : Heap V E) : LinkSet → Heap V E
  | [] => heap
  | none :: links => heap.killAll links
  | some link :: links => (heap.kill link).killAll links

section Methods

variable (values : Values V) (call : Call V E)

/-- `Signal.bump` from an entry of `linksOut` on, for at most so many entries. -/
def bumpFrom (signal : SignalId) : Nat → Nat → Heap V E → Option (Heap V E)
  | 0, _, _ => none
  | rounds + 1, index, heap =>
      match (heap.linksOut signal)[index]? with
      | none => some heap
      | some none => bumpFrom signal rounds (index + 1) heap
      | some (some link) =>
          (call (heap.link link).update (heap.held signal) heap).bind
            (bumpFrom signal rounds (index + 1))

/-- `Signal.set` -/
def set (rounds : Nat) (signal : SignalId) (value : V) (heap : Heap V E) : Option (Heap V E) :=
  match heap.held signal with
  | .exception _ => some heap
  | .value old =>
      if values.strictEquals old value then some heap
      else bumpFrom call signal rounds 0 (heap.assign signal (.value value))

/-- `Signal.reject` -/
def reject (rounds : Nat) (signal : SignalId) (exception : E) (heap : Heap V E) :
    Option (Heap V E) :=
  match heap.held signal with
  | .exception _ => some heap
  | .value _ => do
      let heap ← bumpFrom call signal rounds 0 (heap.assign signal (.exception exception))
      let heap := heap.killAll (heap.linksIn signal)
      return heap.killAll (heap.linksOut signal)

/-- `SignalLink.create` -/
def create (source : SignalId) (update : Update V) (heap : Heap V E) :
    Option (Option LinkId × Heap V E) :=
  match heap.held update.target, heap.held source with
  | .exception _, _ => some (none, heap)
  | .value _, .exception exception =>
      (call update (.exception exception) heap).map fun heap => (none, heap)
  | .value _, .value value =>
      (call update (.value value) (heap.addLink source update)).map
        fun later => (some heap.links, later)

/-- The signal that a formula denotes, its new signals made by `map` and `bind`. -/
def derive : Formula V → List SignalId → Heap V E → Option (SignalId × Heap V E)
  | .signal name, _, heap => heap.names[name]?.map fun signal => (signal, heap)
  | .shared index, scope, heap => scope[index]?.map fun signal => (signal, heap)
  | .value value, _, heap => some (heap.signals, heap.newSignal value)
  | .map base f, scope, heap => do
      let (source, heap) ← derive base scope heap
      let mappedSignal := heap.signals
      let (_, heap) ←
        create call source (.map f mappedSignal) (heap.newSignal values.undefined)
      return (mappedSignal, heap)
  | .bind base f, scope, heap => do
      let (source, heap) ← derive base scope heap
      let boundSignal := heap.signals
      let (_, heap) ←
        create call source (.bind f scope boundSignal) (heap.newSignal values.undefined)
      return (boundSignal, heap)
  | .share first body, scope, heap => do
      let (signal, heap) ← derive first scope heap
      derive body (scope ++ [signal]) heap

def killForwardingLink (heap : Heap V E) (boundSignal : SignalId) : Heap V E :=
  match heap.forwardingLink boundSignal with
  | some link => heap.kill link
  | none => heap

/-- The closures, which run the methods and through them call each other. -/
def runUpdate (rounds : Nat) : Call V E
  | .map f mappedSignal, .value value, heap => set values call rounds mappedSignal (f value) heap
  | .forward boundSignal, .value value, heap => set values call rounds boundSignal value heap
  | .map _ mappedSignal, .exception exception, heap =>
      reject call rounds mappedSignal exception heap
  | .forward boundSignal, .exception exception, heap =>
      reject call rounds boundSignal exception heap
  | .bind _ _ boundSignal, .exception exception, heap =>
      reject call rounds boundSignal exception (heap.killForwardingLink boundSignal)
  | .bind f scope boundSignal, .value value, heap => do
      let (forwarderSignal, heap) ←
        derive values call (f value) scope (heap.killForwardingLink boundSignal)
      let (link, heap) ← create call forwarderSignal (.forward boundSignal) heap
      return heap.setForwardingLink boundSignal link

end Methods

/-- The call of a closure, at most `fuel` calls deep. -/
def update (values : Values V) : Nat → Call V E
  | 0 => fun _ _ _ => none
  | fuel + 1 => runUpdate values (update values fuel) fuel

end Heap

/-! ## Networks -/

inductive Definition (V : Type) where
  | source (value : V)
  | derived (formula : Formula V)

/-- The signals of a network in the order in which they are made. -/
abbrev Network (V : Type) := List (Definition V)

inductive Op (V E : Type) where
  | set (name : Nat) (value : V)
  | reject (name : Nat) (exception : E)

namespace Heap

variable {V E : Type}

/-- The heap before any signal, the number 0 standing for each that there is none of. -/
def empty (values : Values V) : Heap V E where
  signals := 0
  links := 0
  held _ := .value values.undefined
  linksIn _ := []
  linksOut _ := []
  link _ := ⟨0, .forward 0⟩
  forwardingLink _ := none
  names := []

def define (values : Values V) (fuel : Nat) (heap : Heap V E) :
    Definition V → Option (Heap V E)
  | .source value =>
      some { heap.newSignal value with names := heap.names ++ [heap.signals] }
  | .derived formula => do
      let (signal, heap) ← derive values (update values fuel) formula [] heap
      return { heap with names := heap.names ++ [signal] }

def defineAll (values : Values V) (fuel : Nat) (heap : Heap V E) :
    Network V → Option (Heap V E)
  | [] => some heap
  | definition :: network => do
      let heap ← heap.define values fuel definition
      heap.defineAll values fuel network

def build (values : Values V) (fuel : Nat) (network : Network V) : Option (Heap V E) :=
  (empty values).defineAll values fuel network

def run (values : Values V) (fuel : Nat) (heap : Heap V E) : Op V E → Option (Heap V E)
  | .set name value =>
      heap.names[name]?.bind fun signal =>
        set values (update values fuel) fuel signal value heap
  | .reject name exception =>
      heap.names[name]?.bind fun signal =>
        reject (update values fuel) fuel signal exception heap

def runAll (values : Values V) (fuel : Nat) (heap : Heap V E) :
    List (Op V E) → Option (Heap V E)
  | [] => some heap
  | op :: ops => do
      let heap ← heap.run values fuel op
      heap.runAll values fuel ops

end Heap

/-! ## More fuel -/

/-- What the one call answers, the other answers too. -/
def Call.Within {V E : Type} (call other : Call V E) : Prop :=
  ∀ {update held heap later}, call update held heap = some later →
    other update held heap = some later

namespace Heap

variable {V E : Type} {values : Values V} {call other : Call V E}

theorem bumpFrom_within (within : call.Within other) {signal : SignalId} {rounds : Nat} :
    ∀ {more index : Nat} {heap later : Heap V E}, rounds ≤ more →
      bumpFrom call signal rounds index heap = some later →
        bumpFrom other signal more index heap = some later := by
  induction rounds with
  | zero =>
      intro more index heap later _ ran
      cases ran
  | succ rounds ih =>
      intro more index heap later enough ran
      obtain ⟨more, rfl⟩ := Nat.exists_eq_add_of_le' (Nat.le_of_add_left_le enough)
      have fewer : rounds ≤ more := by omega
      rw [bumpFrom] at ran ⊢
      split at ran
      · exact ran
      · exact ih fewer ran
      · obtain ⟨between, called, rest⟩ := Option.bind_eq_some_iff.mp ran
        rw [within called, Option.bind_some]
        exact ih fewer rest

theorem set_within (within : call.Within other) {rounds more : Nat} (enough : rounds ≤ more)
    {signal : SignalId} {value : V} {heap later : Heap V E}
    (ran : set values call rounds signal value heap = some later) :
    set values other more signal value heap = some later := by
  unfold set at ran ⊢
  split at ran
  · exact ran
  · rename_i old _
    by_cases same : values.strictEquals old value = true
    · rwa [if_pos same] at ran ⊢
    · rw [if_neg same] at ran ⊢
      exact bumpFrom_within within enough ran

theorem reject_within (within : call.Within other) {rounds more : Nat} (enough : rounds ≤ more)
    {signal : SignalId} {exception : E} {heap later : Heap V E}
    (ran : reject call rounds signal exception heap = some later) :
    reject other more signal exception heap = some later := by
  unfold reject at ran ⊢
  split at ran
  · exact ran
  · obtain ⟨between, bumped, killed⟩ := Option.bind_eq_some_iff.mp ran
    exact Option.bind_eq_some_iff.mpr ⟨between, bumpFrom_within within enough bumped, killed⟩

theorem create_within (within : call.Within other) {source : SignalId} {update : Update V}
    {heap : Heap V E} {result : Option LinkId × Heap V E}
    (ran : create call source update heap = some result) :
    create other source update heap = some result := by
  unfold create at ran ⊢
  split at ran
  · exact ran
  · obtain ⟨later, called, same⟩ := Option.map_eq_some_iff.mp ran
    exact Option.map_eq_some_iff.mpr ⟨later, within called, same⟩
  · obtain ⟨later, called, same⟩ := Option.map_eq_some_iff.mp ran
    exact Option.map_eq_some_iff.mpr ⟨later, within called, same⟩

theorem derive_within (within : call.Within other) {formula : Formula V} :
    ∀ {scope : List SignalId} {heap : Heap V E} {result : SignalId × Heap V E},
      derive values call formula scope heap = some result →
        derive values other formula scope heap = some result := by
  induction formula with
  | signal | shared | value => exact id
  | map base f ih | bind base f ih =>
      intro scope heap result ran
      obtain ⟨derived, first, rest⟩ := Option.bind_eq_some_iff.mp ran
      obtain ⟨created, second, same⟩ := Option.bind_eq_some_iff.mp rest
      exact Option.bind_eq_some_iff.mpr ⟨derived, ih first,
        Option.bind_eq_some_iff.mpr ⟨created, create_within within second, same⟩⟩
  | share first body firstIH bodyIH =>
      intro scope heap result ran
      obtain ⟨derived, ranFirst, rest⟩ := Option.bind_eq_some_iff.mp ran
      exact Option.bind_eq_some_iff.mpr ⟨derived, firstIH ranFirst, bodyIH rest⟩

theorem runUpdate_within (within : call.Within other) {rounds more : Nat}
    (enough : rounds ≤ more) :
    (runUpdate values call rounds).Within (runUpdate values other more) := by
  intro update held heap later ran
  cases update with
  | map f mappedSignal | forward boundSignal =>
      cases held with
      | value value => exact set_within within enough ran
      | exception exception => exact reject_within within enough ran
  | bind f scope boundSignal =>
      cases held with
      | value value =>
          obtain ⟨derived, first, rest⟩ := Option.bind_eq_some_iff.mp ran
          obtain ⟨created, second, same⟩ := Option.bind_eq_some_iff.mp rest
          exact Option.bind_eq_some_iff.mpr ⟨derived, derive_within within first,
            Option.bind_eq_some_iff.mpr ⟨created, create_within within second, same⟩⟩
      | exception exception => exact reject_within within enough ran

theorem update_within {fuel : Nat} : ∀ {more : Nat}, fuel ≤ more →
    Call.Within (update values fuel : Call V E) (update values more) := by
  induction fuel with
  | zero =>
      intro more _ action held heap later ran
      cases ran
  | succ fuel ih =>
      intro more enough
      obtain ⟨more, rfl⟩ := Nat.exists_eq_add_of_le' (Nat.le_of_add_left_le enough)
      exact runUpdate_within (ih (by omega)) (by omega)

end Heap

end Smmboss.Signals
