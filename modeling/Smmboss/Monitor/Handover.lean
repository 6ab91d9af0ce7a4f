import Smmboss.Foundation.AtomicUpdate
import Smmboss.Foundation.Machine
import Smmboss.Monitor.Config
import Smmboss.Monitor.TripleBuffer

namespace Smmboss.Monitor

open AtomicUpdate (attempt)

/-! # Handing configurations over

The mongoose thread runs `set_config`, the game thread runs `do_reads`.  Each
access to the atomic state is a step, and a slot is filled byte by byte.
-/

/-- Where the mongoose thread is in `set_config`.  In `posting`, `expected` is
what `atomic_update` has loaded. -/
inductive Writer where
  | idle
  | preparing (data : List UInt8)
  | filling (slot : Fin 4) (data : List UInt8) (stores : List ByteStore)
  | posting (slot : Fin 4) (data : List UInt8) (expected : Option AtomicState)
  | aborted

/-- The slot `prep_write` has handed out. -/
def Writer.slot : Writer → Option (Fin 4)
  | .filling slot _ _ | .posting slot _ _ => some slot
  | .idle | .preparing _ | .aborted => none

/-- Where the game thread is in `do_reads`.  `config` is history: what had been
accepted when `prep_read` took the slot. -/
inductive Reader where
  | idle
  | preparing (expected : Option AtomicState)
  | reading (slot : Fin 4) (config : Config)

/-- `accepted` and `results` are history: the configuration accepted last, and
what `set_config` has returned. -/
structure State where
  configs : Fin 4 → Config
  atomic : AtomicState
  writer : Writer
  reader : Reader
  accepted : Config
  results : List (Option String)

def initial : State where
  configs := fun _ _ => 0
  atomic := ⟨0, 0⟩
  writer := .idle
  reader := .idle
  accepted := fun _ => 0
  results := []

inductive Label where
  | setConfig (data : List UInt8)
  | prepWrite
  | storeByte
  | validate (accessible : Nat → Nat → Nat)
  | postLoad
  | postAttempt (spurious : Bool)
  | doReads
  | readLoad
  | readAttempt (spurious : Bool)
  | finishReads

def step (state : State) : Label → Option State
  | .setConfig data =>
      match state.writer with
      | .idle =>
          match checkSize data with
          | some error => some { state with results := state.results ++ [some error] }
          | none => some { state with writer := .preparing data }
      | _ => none
  | .prepWrite =>
      match state.writer with
      | .preparing data =>
          match prepWrite state.atomic with
          | some slot => some { state with writer := .filling slot data (fillStores data) }
          | none => some { state with writer := .aborted }
      | _ => none
  | .storeByte =>
      match state.writer with
      | .filling slot data (store :: stores) =>
          some { state with
            configs := Function.update state.configs slot (applyStores (state.configs slot) [store])
            writer := .filling slot data stores }
      | _ => none
  | .validate accessible =>
      match state.writer with
      | .filling slot data [] =>
          match checkFilled data (state.configs slot) accessible with
          | some error =>
              some { state with writer := .idle, results := state.results ++ [some error] }
          | none => some { state with writer := .posting slot data none }
      | _ => none
  | .postLoad =>
      match state.writer with
      | .posting slot data none =>
          some { state with writer := .posting slot data (some state.atomic) }
      | _ => none
  | .postAttempt spurious =>
      match state.writer with
      | .posting slot data (some expected) =>
          match attempt (postWrite slot) state.atomic expected spurious with
          | .stored atomic =>
              some { state with
                atomic
                writer := .idle
                accepted := configOf data
                results := state.results ++ [none] }
          | .retry expected => some { state with writer := .posting slot data (some expected) }
          | .failed => some { state with writer := .aborted }
      | _ => none
  | .doReads =>
      match state.reader with
      | .idle => some { state with reader := .preparing none }
      | _ => none
  | .readLoad =>
      match state.reader with
      | .preparing none => some { state with reader := .preparing (some state.atomic) }
      | _ => none
  | .readAttempt spurious =>
      match state.reader with
      | .preparing (some expected) =>
          match attempt prepRead state.atomic expected spurious with
          | .stored atomic =>
              some { state with atomic, reader := .reading expected.nextBufIdx state.accepted }
          | .retry expected => some { state with reader := .preparing (some expected) }
          | .failed => none
      | _ => none
  | .finishReads =>
      match state.reader with
      | .reading _ _ => some { state with reader := .idle }
      | _ => none

/-- The mongoose thread may use the slot. -/
structure Free (slot : Fin 4) (atomic : AtomicState) : Prop where
  inuse : slot ≠ atomic.inuseBufIdx
  next : slot ≠ atomic.nextBufIdx

def WriterOk (state : State) : Prop :=
  match state.writer with
  | .idle | .preparing _ => True
  | .filling slot data stores =>
      slot < 3 ∧ Free slot state.atomic ∧ applyStores (state.configs slot) stores = configOf data
  | .posting slot data expected =>
      slot < 3 ∧ Free slot state.atomic ∧ state.configs slot = configOf data ∧
        ∀ loaded, expected = some loaded → Free slot loaded
  | .aborted => False

def ReaderOk (state : State) : Prop :=
  match state.reader with
  | .idle | .preparing _ => True
  | .reading slot config => slot = state.atomic.inuseBufIdx ∧ state.configs slot = config

structure Invariant (state : State) : Prop where
  valid : state.atomic.Valid
  next : state.configs state.atomic.nextBufIdx = state.accepted
  writer : WriterOk state
  reader : ReaderOk state

theorem initial_invariant : Invariant initial :=
  ⟨⟨by decide, by decide⟩, rfl, trivial, trivial⟩

/-- `prep_write` is not run while slot 1 is both in use and published as next. -/
def Allowed (state : State) : Label → Prop
  | .prepWrite => ¬ (state.atomic.inuseBufIdx = 1 ∧ state.atomic.nextBufIdx = 1)
  | _ => True

theorem postWrite_some {slot : Fin 4} {before after : AtomicState}
    (made : postWrite slot before = some after) :
    after = { before with nextBufIdx := slot } := by
  rw [postWrite] at made
  split at made
  · exact (Option.some.inj made).symm
  · contradiction

/-- What the mongoose thread knows survives an exchange by the game thread:
what becomes in use was next. -/
theorem WriterOk.read {state : State} (known : WriterOk state) (reader : Reader) :
    WriterOk { state with
      atomic := { state.atomic with inuseBufIdx := state.atomic.nextBufIdx }, reader } := by
  simp only [WriterOk] at known ⊢
  cases writer : state.writer with
  | idle | preparing => trivial
  | aborted => simp only [writer] at known
  | filling slot data stores =>
      simp only [writer] at known
      obtain ⟨bound, free, filled⟩ := known
      exact ⟨bound, ⟨free.next, free.next⟩, filled⟩
  | posting slot data expected =>
      simp only [writer] at known
      obtain ⟨bound, free, filled, loaded⟩ := known
      exact ⟨bound, ⟨free.next, free.next⟩, filled, loaded⟩

/-- Storing a byte leaves the slots in use and next alone. -/
theorem storeByte_invariant {state : State} {slot : Fin 4} {data : List UInt8}
    {store : ByteStore} {stores : List ByteStore} (invariant : Invariant state)
    (at_filling : state.writer = .filling slot data (store :: stores)) :
    Invariant { state with
      configs := Function.update state.configs slot (applyStores (state.configs slot) [store])
      writer := .filling slot data stores } := by
  have known := invariant.writer
  simp only [WriterOk, at_filling] at known
  obtain ⟨bound, free, filled⟩ := known
  refine ⟨invariant.valid, ?_, ⟨bound, free, ?_⟩, ?_⟩
  · exact (Function.update_of_ne free.next.symm _ _).trans invariant.next
  · change applyStores (Function.update state.configs slot _ slot) stores = configOf data
    rw [Function.update_self]
    exact filled
  · have reader := invariant.reader
    simp only [ReaderOk] at reader ⊢
    cases at_reader : state.reader with
    | idle | preparing => trivial
    | reading read config =>
        simp only [at_reader] at reader
        obtain ⟨rfl, same⟩ := reader
        exact ⟨rfl, (Function.update_of_ne free.inuse.symm _ _).trans same⟩

/-- `post_write` publishes a slot that holds all of the data. -/
theorem accept_invariant {state : State} {slot : Fin 4} {data : List UInt8}
    {expected : Option AtomicState} (invariant : Invariant state)
    (at_posting : state.writer = .posting slot data expected) (results : List (Option String)) :
    Invariant { state with
      atomic := { state.atomic with nextBufIdx := slot }
      writer := .idle
      accepted := configOf data
      results } := by
  have known := invariant.writer
  simp only [WriterOk, at_posting] at known
  obtain ⟨bound, _, filled, _⟩ := known
  refine ⟨⟨invariant.valid.inuse, bound⟩, filled, trivial, ?_⟩
  simpa only [ReaderOk] using invariant.reader

theorem step_invariant {before after : State} {label : Label} (invariant : Invariant before)
    (allowed : Allowed before label) (stepped : step before label = some after) :
    Invariant after := by
  have valid := invariant.valid
  have next := invariant.next
  have writer := invariant.writer
  have reader := invariant.reader
  have known := writer
  simp only [WriterOk] at known
  cases label with
  | setConfig data =>
      simp only [step] at stepped
      split at stepped
      · rename_i at_idle
        split at stepped <;> cases stepped
        · exact ⟨valid, next, writer, reader⟩
        · exact ⟨valid, next, trivial, reader⟩
      · contradiction
  | prepWrite =>
      simp only [step] at stepped
      obtain ⟨slot, handed, bound, inuse, published⟩ := prepWrite_free valid allowed
      rw [handed] at stepped
      split at stepped <;> cases stepped
      exact ⟨valid, next, ⟨bound, ⟨inuse, published⟩, applyStores_fill _ _⟩, reader⟩
  | storeByte =>
      simp only [step] at stepped
      split at stepped <;> cases stepped
      exact storeByte_invariant invariant ‹_›
  | validate accessible =>
      simp only [step] at stepped
      split at stepped
      · rename_i slot data at_filling
        simp only [at_filling] at known
        obtain ⟨bound, free, filled⟩ := known
        split at stepped <;> cases stepped
        · exact ⟨valid, next, trivial, reader⟩
        · exact ⟨valid, next, ⟨bound, free, filled, by simp⟩, reader⟩
      · contradiction
  | postLoad =>
      simp only [step] at stepped
      split at stepped <;> cases stepped
      rename_i slot data at_posting
      simp only [at_posting] at known
      obtain ⟨bound, free, filled, _⟩ := known
      refine ⟨valid, next, ⟨bound, free, filled, ?_⟩, reader⟩
      intro loaded same
      cases same
      exact free
  | postAttempt spurious =>
      simp only [step] at stepped
      split at stepped
      · rename_i slot data expected at_posting
        simp only [at_posting] at known
        obtain ⟨bound, free, filled, loaded⟩ := known
        split at stepped <;> cases stepped
        · rename_i atomic stored
          obtain rfl := postWrite_some (AtomicUpdate.attempt_stored stored).1
          exact accept_invariant invariant at_posting _
        · rename_i current retried
          obtain rfl := AtomicUpdate.attempt_retry retried
          refine ⟨valid, next, ⟨bound, free, filled, ?_⟩, reader⟩
          intro other same
          cases same
          exact free
        · rename_i failed
          have refused := AtomicUpdate.attempt_failed failed
          have apart := loaded expected rfl
          simp [postWrite, apart.inuse, apart.next] at refused
      · contradiction
  | doReads =>
      simp only [step] at stepped
      split at stepped <;> cases stepped
      exact ⟨valid, next, writer, trivial⟩
  | readLoad =>
      simp only [step] at stepped
      split at stepped <;> cases stepped
      exact ⟨valid, next, writer, trivial⟩
  | readAttempt spurious =>
      simp only [step] at stepped
      split at stepped
      · rename_i expected at_preparing
        split at stepped
        · rename_i atomic stored
          cases stepped
          obtain ⟨exchanged, rfl⟩ := AtomicUpdate.attempt_stored stored
          obtain rfl := Option.some.inj exchanged
          exact ⟨⟨valid.next, valid.next⟩, next, writer.read _, rfl, next⟩
        · cases stepped
          exact ⟨valid, next, writer, trivial⟩
        · contradiction
      · contradiction
  | finishReads =>
      simp only [step] at stepped
      split at stepped <;> cases stepped
      exact ⟨valid, next, writer, trivial⟩

/-- The slot handed out is neither in use nor next, no assertion has failed,
and the slot that is being read holds what had been accepted last when
`prep_read` took it. -/
structure HandoverOk (state : State) : Prop where
  apart : ∀ slot, state.writer.slot = some slot →
    slot ≠ state.atomic.inuseBufIdx ∧ slot ≠ state.atomic.nextBufIdx
  asserted : state.writer ≠ .aborted
  whole : ∀ slot config, state.reader = .reading slot config → state.configs slot = config

theorem Invariant.handoverOk {state : State} (invariant : Invariant state) : HandoverOk state := by
  have writer := invariant.writer
  have reader := invariant.reader
  simp only [WriterOk] at writer
  simp only [ReaderOk] at reader
  constructor
  · intro slot handed
    cases at_writer : state.writer with
    | idle | preparing | aborted => simp [at_writer, Writer.slot] at handed
    | filling held data stores =>
        simp only [at_writer, Writer.slot, Option.some.injEq] at handed writer
        obtain ⟨_, free, _⟩ := writer
        exact handed ▸ ⟨free.inuse, free.next⟩
    | posting held data expected =>
        simp only [at_writer, Writer.slot, Option.some.injEq] at handed writer
        obtain ⟨_, free, _⟩ := writer
        exact handed ▸ ⟨free.inuse, free.next⟩
  · intro aborted
    simp only [aborted] at writer
  · intro slot config at_reading
    simp only [at_reading] at reader
    exact reader.2

/-- Once slot 1 is in both places, `prep_write` hands out the slot in use. -/
theorem not_handoverOk_of_doubled {before after : State}
    (doubled : before.atomic.inuseBufIdx = 1 ∧ before.atomic.nextBufIdx = 1)
    (stepped : step before .prepWrite = some after) : ¬ HandoverOk after := by
  intro ok
  have atomic : before.atomic = ⟨1, 1⟩ := by
    obtain ⟨inuse, next⟩ := doubled
    calc before.atomic = ⟨before.atomic.inuseBufIdx, before.atomic.nextBufIdx⟩ := rfl
      _ = ⟨1, 1⟩ := by rw [inuse, next]
  simp only [step, atomic, prepWrite_doubled] at stepped
  split at stepped <;> cases stepped
  exact (ok.apart 1 rfl).1 rfl

theorem not_handoverOk_of_refused {before after : State} {label : Label}
    (refused : ¬ Allowed before label) (stepped : step before label = some after) :
    ¬ HandoverOk after := by
  cases label with
  | prepWrite => exact not_handoverOk_of_doubled (not_not.mp refused) stepped
  | setConfig | storeByte | validate | postLoad | postAttempt | doReads | readLoad |
      readAttempt | finishReads => exact absurd trivial refused

/-! ## Whole calls -/

/-- A run of allowed steps leads from one state to the other. -/
def Leads (before after : State) : Prop :=
  ∃ labels, Machine.run step before labels = some after ∧ Machine.Along step Allowed before labels

theorem Leads.trans {before middle after : State} (first : Leads before middle) (second : Leads middle after) :
    Leads before after := by
  obtain ⟨left, ranLeft, allowedLeft⟩ := first
  obtain ⟨right, ranRight, allowedRight⟩ := second
  exact ⟨left ++ right, Machine.run_trans ranLeft ranRight, allowedLeft.append ranLeft allowedRight⟩

theorem run_fill (state : State) {slot : Fin 4} {data : List UInt8} {stores : List ByteStore}
    (at_filling : state.writer = .filling slot data stores) :
    Machine.run step state (List.replicate stores.length .storeByte) = some { state with
      configs := Function.update state.configs slot (applyStores (state.configs slot) stores)
      writer := .filling slot data [] } := by
  induction stores generalizing state with
  | nil =>
      have same : applyStores (state.configs slot) [] = state.configs slot := rfl
      rw [same, Function.update_eq_self, ← at_filling]
      rfl
  | cons store stores ih =>
      have stored : step state .storeByte = some { state with
          configs := Function.update state.configs slot (applyStores (state.configs slot) [store])
          writer := .filling slot data stores } := by
        simp only [step, at_filling]
      rw [List.length_cons, List.replicate_succ, Machine.run_cons_iff]
      refine ⟨_, stored, (ih _ rfl).trans ?_⟩
      simp only [Function.update_idem, Function.update_self]
      rfl

theorem leads_fill (state : State) {slot : Fin 4} {data : List UInt8} {stores : List ByteStore}
    (at_filling : state.writer = .filling slot data stores) : Leads state { state with
      configs := Function.update state.configs slot (applyStores (state.configs slot) stores)
      writer := .filling slot data [] } := by
  refine ⟨_, run_fill state at_filling, .of_forall (fun _ label member => ?_) state⟩
  rw [List.eq_of_mem_replicate member]
  trivial

section Calls

variable (state : State) {data : List UInt8} {slot : Fin 4} (at_idle : state.writer = .idle)
  (sized : checkSize data = none) (handed : prepWrite state.atomic = some slot) (free : Free slot state.atomic)

include at_idle sized handed free

/-- A slot that is free is handed out and filled. -/
theorem leads_filled : Leads state { state with
    configs := Function.update state.configs slot (configOf data)
    writer := .filling slot data [] } := by
  have single : ¬ (state.atomic.inuseBufIdx = 1 ∧ state.atomic.nextBufIdx = 1) := by
    intro doubled
    have atomic : state.atomic = ⟨1, 1⟩ := by
      calc state.atomic = ⟨state.atomic.inuseBufIdx, state.atomic.nextBufIdx⟩ := rfl
        _ = ⟨1, 1⟩ := by rw [doubled.1, doubled.2]
    rw [atomic, prepWrite_doubled, Option.some.injEq] at handed
    exact free.inuse (handed.symm.trans doubled.1.symm)
  have started : Machine.run step state [.setConfig data, .prepWrite] =
      some { state with writer := .filling slot data (fillStores data) } := by
    simp [Machine.run, step, at_idle, sized, handed]
  have opened : Leads state { state with writer := .filling slot data (fillStores data) } := by
    refine ⟨_, started, trivial, fun next stepped => ⟨?_, fun _ _ => trivial⟩⟩
    simp only [step, at_idle, sized, Option.some.injEq] at stepped
    rw [← stepped]
    exact single
  have filled := leads_fill { state with writer := .filling slot data (fillStores data) } rfl
  rw [applyStores_fill] at filled
  exact opened.trans filled

/-- A configuration that passes its checks is accepted. -/
theorem leads_accept (checked : checkFilled data (configOf data) (fun _ _ => 0) = none) : Leads state { state with
    configs := Function.update state.configs slot (configOf data)
    atomic := { state.atomic with nextBufIdx := slot }
    writer := .idle
    accepted := configOf data
    results := state.results ++ [none] } := by
  have posted : Machine.run step { state with
      configs := Function.update state.configs slot (configOf data)
      writer := .filling slot data [] }
      [.validate (fun _ _ => 0), .postLoad, .postAttempt false] = some { state with
        configs := Function.update state.configs slot (configOf data)
        atomic := { state.atomic with nextBufIdx := slot }
        writer := .idle
        accepted := configOf data
        results := state.results ++ [none] } := by
    simp [Machine.run, step, checked, attempt, postWrite, free.inuse, free.next]
  exact (leads_filled state at_idle sized handed free).trans ⟨_, posted, by simp [Machine.Along, Allowed]⟩

/-- One that does not leaves the slot filled. -/
theorem leads_reject {error : String} (checked : checkFilled data (configOf data) (fun _ _ => 0) = some error) :
    Leads state { state with
      configs := Function.update state.configs slot (configOf data)
      writer := .idle
      results := state.results ++ [some error] } := by
  have refused : Machine.run step { state with
      configs := Function.update state.configs slot (configOf data)
      writer := .filling slot data [] } [.validate (fun _ _ => 0)] = some { state with
        configs := Function.update state.configs slot (configOf data)
        writer := .idle
        results := state.results ++ [some error] } := by
    simp [Machine.run, step, checked]
  exact (leads_filled state at_idle sized handed free).trans ⟨_, refused, by simp [Machine.Along, Allowed]⟩

end Calls

/-- `do_reads` takes the slot that is next. -/
theorem leads_read (state : State) (at_idle : state.reader = .idle) : Leads state { state with
    atomic := { state.atomic with inuseBufIdx := state.atomic.nextBufIdx }
    reader := .reading state.atomic.nextBufIdx state.accepted } := by
  refine ⟨[.doReads, .readLoad, .readAttempt false], ?_, by simp [Machine.Along, Allowed]⟩
  simp [Machine.run, step, at_idle, attempt, prepRead]

theorem leads_finish (state : State) {slot : Fin 4} {config : Config} (reading : state.reader = .reading slot config) :
    Leads state { state with reader := .idle } := by
  refine ⟨[.finishReads], ?_, by simp [Machine.Along, Allowed]⟩
  simp [Machine.run, step, reading]

/-- The hand-over is right at every point of a run exactly if `prep_write` is
never run while slot 1 is both in use and next. -/
theorem handover_ok_iff {labels : List Label} {state : State}
    (ran : Machine.run step initial labels = some state) :
    (∀ taken rest middle, labels = taken ++ rest →
        Machine.run step initial taken = some middle → HandoverOk middle) ↔
      Machine.Along step Allowed initial labels :=
  Machine.good_throughout_iff step_invariant Invariant.handoverOk
    (fun _ refused stepped => not_handoverOk_of_refused refused stepped) initial_invariant ran

/-- A configuration without entries, of `uniqid` 1. -/
def emptyConfigData : List UInt8 := 1 :: List.replicate 15 0

/-- One that is refused as its `uniqid` is zero. -/
def unnamedConfigData : List UInt8 := List.replicate 8 0 ++ 1 :: List.replicate 23 0

def secondConfigData : List UInt8 := 2 :: List.replicate 15 0

/-- While the game thread reads the first configuration, one is refused and one is
accepted; then it reads that one. -/
theorem handover_ok_accepted :
    ∃ labels state, Machine.run step initial labels = some state ∧
      state.reader = .reading 0 (configOf secondConfigData) ∧
      state.results = [none, some "uniqid must be nonzero", none] ∧ HandoverOk state := by
  have firstChecked : checkFilled emptyConfigData (configOf emptyConfigData) (fun _ _ => 0) = none := by
    decide +kernel
  have refused : checkFilled unnamedConfigData (configOf unnamedConfigData) (fun _ _ => 0) =
      some "uniqid must be nonzero" := by
    decide +kernel
  have secondChecked : checkFilled secondConfigData (configOf secondConfigData) (fun _ _ => 0) = none := by
    decide +kernel
  have sized : checkSize unnamedConfigData = none := by decide
  have handed : prepWrite ⟨2, 2⟩ = some 0 := by decide
  have free : Free 0 ⟨2, 2⟩ := ⟨by decide, by decide⟩
  have one := (leads_accept initial rfl rfl rfl ⟨by decide, by decide⟩ firstChecked).trans (leads_read _ rfl)
  have two := one.trans (leads_reject _ rfl sized handed free refused)
  have three := two.trans (leads_accept _ rfl rfl handed free secondChecked)
  obtain ⟨labels, ran, guarded⟩ := (three.trans (leads_finish _ rfl)).trans (leads_read _ rfl)
  exact ⟨labels, _, ran, rfl, rfl, (handover_ok_iff ran).mpr guarded labels [] _ (List.append_nil _).symm ran⟩

/-! ## Reaching slot 1 twice -/

/-- Two configurations are accepted, the game thread takes the second one, and
the next call of `set_config` starts to zero it. -/
theorem handover_overwrites :
    ∃ labels state, Machine.run step initial labels = some state ∧
      state.reader = .reading 1 (configOf emptyConfigData) ∧ state.writer.slot = some 1 ∧
      state.configs 1 ≠ configOf emptyConfigData ∧ ¬ HandoverOk state := by
  have checked : checkFilled emptyConfigData (configOf emptyConfigData) (fun _ _ => 0) = none := by
    decide +kernel
  obtain ⟨first, ranFirst, _⟩ := leads_accept initial rfl rfl rfl ⟨by decide, by decide⟩ checked
  obtain ⟨second, ranSecond, _⟩ := leads_accept { initial with
      configs := Function.update initial.configs 2 (configOf emptyConfigData)
      atomic := ⟨0, 2⟩
      accepted := configOf emptyConfigData
      results := [none] } rfl rfl rfl ⟨by decide, by decide⟩ checked
  obtain ⟨rest, stores⟩ : ∃ rest, fillStores emptyConfigData = (⟨0, by decide⟩, 0) :: rest := by
    have offsets : List.finRange configSize = (0 : Fin (527 + 1)) :: (List.finRange 527).map Fin.succ :=
      List.finRange_succ
    rw [fillStores, memsetStores, offsets]
    exact ⟨_, rfl⟩
  obtain ⟨state, ranThird, at_reading, handed, zeroed⟩ : ∃ state, Machine.run step { initial with
      configs := Function.update (Function.update initial.configs 2 (configOf emptyConfigData)) 1
        (configOf emptyConfigData)
      atomic := ⟨0, 1⟩
      accepted := configOf emptyConfigData
      results := [none, none] }
      [.doReads, .readLoad, .readAttempt false, .setConfig emptyConfigData, .prepWrite,
        .storeByte] = some state ∧
      state.reader = .reading 1 (configOf emptyConfigData) ∧ state.writer.slot = some 1 ∧
      state.configs 1 ⟨0, by decide⟩ = 0 := by
    have sized : checkSize emptyConfigData = none := rfl
    simp only [Machine.run, step, initial, attempt, prepRead, Option.bind_some, and_self, if_pos,
      sized, prepWrite_doubled, stores]
    refine ⟨_, rfl, rfl, rfl, ?_⟩
    simp [applyStores]
  have ran := Machine.run_trans (Machine.run_trans ranFirst ranSecond) ranThird
  have differ : state.configs 1 ≠ configOf emptyConfigData := by
    intro same
    rw [same] at zeroed
    exact absurd zeroed (by decide)
  exact ⟨_, state, ran, at_reading, handed, differ, fun ok => differ (ok.whole _ _ at_reading)⟩

end Smmboss.Monitor
