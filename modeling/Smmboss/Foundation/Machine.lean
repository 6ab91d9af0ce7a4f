import Mathlib.Data.List.Basic

namespace Smmboss.Machine

/-! # Runs of partial labelled steps

A system is its step function: `step state label` is the state after the
labelled step, or `none` where the label is not enabled.  All nondeterminism
(scheduling, outside input, spurious failure) lives in the labels, so a run is
a list of labels and can be evaluated.
-/

variable {State : Type u} {Label : Type v}

abbrev Step (State : Type u) (Label : Type v) := State → Label → Option State

def run (step : Step State Label) : State → List Label → Option State
  | state, [] => some state
  | state, label :: labels => (step state label).bind fun next => run step next labels

@[simp] theorem run_nil (step : Step State Label) (state : State) :
    run step state [] = some state := rfl

theorem run_cons_iff {step : Step State Label} {before after : State} :
    run step before (label :: labels) = some after ↔
      ∃ middle, step before label = some middle ∧ run step middle labels = some after := by
  simp [run, Option.bind_eq_some_iff]

theorem run_append_iff {step : Step State Label} {before after : State} :
    run step before (first ++ second) = some after ↔
      ∃ middle, run step before first = some middle ∧ run step middle second = some after := by
  induction first generalizing before with
  | nil => simp
  | cons label labels ih =>
      simp only [List.cons_append, run_cons_iff, ih]
      constructor
      · intro ⟨next, stepped, middle, left, right⟩
        exact ⟨middle, ⟨next, stepped, left⟩, right⟩
      · intro ⟨middle, ⟨next, stepped, left⟩, right⟩
        exact ⟨next, stepped, middle, left, right⟩

theorem run_snoc_iff {step : Step State Label} {before after : State} :
    run step before (labels ++ [label]) = some after ↔
      ∃ middle, run step before labels = some middle ∧ step middle label = some after := by
  rw [run_append_iff]
  simp [run]

theorem run_trans {step : Step State Label} {before middle after : State}
    (first : run step before left = some middle) (second : run step middle right = some after) :
    run step before (left ++ right) = some after :=
  run_append_iff.mpr ⟨middle, first, second⟩

theorem run_one {step : Step State Label} {before after : State}
    (stepped : step before label = some after) : run step before [label] = some after := by
  simp [run, stepped]

theorem foldlM_eq_run (step : Step State Label) (before : State) :
    labels.foldlM step before = run step before labels := by
  induction labels generalizing before with
  | nil => rfl
  | cons label labels ih =>
      rw [List.foldlM_cons, run]
      exact congrArg _ (funext ih)

/-- What every step preserves holds at the end of every run. -/
theorem run_preserves {step : Step State Label} {Invariant : State → Prop}
    (preserved : ∀ {before label after}, Invariant before →
      step before label = some after → Invariant after)
    (initial : Invariant before) (ran : run step before labels = some after) :
    Invariant after := by
  induction labels generalizing before with
  | nil => cases ran; exact initial
  | cons label labels ih =>
      obtain ⟨middle, stepped, rest⟩ := run_cons_iff.mp ran
      exact ih (preserved initial stepped) rest

/-- Every step of the run is taken from a state in which `allowed` holds of it. -/
def Along (step : Step State Label) (allowed : State → Label → Prop) :
    State → List Label → Prop
  | _, [] => True
  | state, label :: labels =>
      allowed state label ∧
        ∀ next, step state label = some next → Along step allowed next labels

theorem along_cons_iff {step : Step State Label} {allowed : State → Label → Prop}
    {before after : State} (stepped : step before label = some after) :
    Along step allowed before (label :: labels) ↔
      allowed before label ∧ Along step allowed after labels := by
  simp [Along, stepped]

instance Along.decidable (step : Step State Label) (allowed : State → Label → Prop)
    [∀ state label, Decidable (allowed state label)] :
    (state : State) → (labels : List Label) → Decidable (Along step allowed state labels)
  | _, [] => isTrue trivial
  | state, label :: labels =>
      match stepped : step state label with
      | none => decidable_of_iff (allowed state label) (by simp [Along, stepped])
      | some next =>
          have := Along.decidable step allowed next labels
          decidable_of_iff _ (along_cons_iff stepped).symm

theorem Along.of_forall {step : Step State Label} {allowed : State → Label → Prop}
    (every : ∀ state label, label ∈ labels → allowed state label) (start : State) :
    Along step allowed start labels := by
  induction labels generalizing start with
  | nil => trivial
  | cons label labels ih =>
      exact ⟨every start label (by simp),
        fun next _ => ih (fun state other member => every state other (by simp [member])) next⟩

/-- `Along` speaks of the state before each step of the run. -/
theorem along_iff {step : Step State Label} {allowed : State → Label → Prop} {before : State} :
    Along step allowed before labels ↔
      ∀ taken label rest middle, labels = taken ++ label :: rest →
        run step before taken = some middle → allowed middle label := by
  induction labels generalizing before with
  | nil =>
      refine ⟨?_, fun _ => trivial⟩
      intro _ taken label rest middle split
      simp at split
  | cons first labels ih =>
      constructor
      · intro ⟨now, later⟩ taken label rest middle split ran
        cases taken with
        | nil =>
            cases ran
            cases split
            exact now
        | cons head taken =>
            obtain ⟨rfl, tail⟩ := List.cons.inj split
            obtain ⟨next, stepped, ran⟩ := run_cons_iff.mp ran
            exact ih.mp (later next stepped) taken label rest middle tail ran
      · intro every
        refine ⟨every [] first labels before rfl rfl, ?_⟩
        intro next stepped
        apply ih.mpr
        intro taken label rest middle split ran
        apply every (first :: taken) label rest middle (by rw [split, List.cons_append])
        exact run_cons_iff.mpr ⟨next, stepped, ran⟩

theorem Along.and {step : Step State Label} {first second : State → Label → Prop} {before : State}
    (left : Along step first before labels) (right : Along step second before labels) :
    Along step (fun state label => first state label ∧ second state label) before labels := by
  rw [along_iff] at left right ⊢
  intro taken label rest middle split ran
  exact ⟨left taken label rest middle split ran, right taken label rest middle split ran⟩

/-- Under an invariant that is kept as long as one of them holds, equivalent
conditions on a step are equivalent along a run. -/
theorem along_congr {step : Step State Label} {first second : State → Label → Prop}
    {Invariant : State → Prop}
    (preserved : ∀ {before label after}, Invariant before → first before label →
      step before label = some after → Invariant after)
    (same : ∀ {state label}, Invariant state → (first state label ↔ second state label))
    (initial : Invariant before) :
    Along step first before labels ↔ Along step second before labels := by
  induction labels generalizing before with
  | nil => exact Iff.rfl
  | cons label labels ih =>
      constructor
      · intro ⟨now, later⟩
        refine ⟨(same initial).mp now, fun next stepped => ?_⟩
        exact (ih (preserved initial now stepped)).mp (later next stepped)
      · intro ⟨now, later⟩
        have allowed := (same initial).mpr now
        refine ⟨allowed, fun next stepped => ?_⟩
        exact (ih (preserved initial allowed stepped)).mpr (later next stepped)

theorem Along.prefix {step : Step State Label} {allowed : State → Label → Prop} {before : State}
    (guarded : Along step allowed before (taken ++ rest)) : Along step allowed before taken := by
  rw [along_iff] at guarded ⊢
  intro first label others middle split ran
  exact guarded first label (others ++ rest) middle (by simp [split]) ran

theorem Along.append {step : Step State Label} {allowed : State → Label → Prop} {before middle : State}
    (first : Along step allowed before left) (ran : run step before left = some middle)
    (second : Along step allowed middle right) : Along step allowed before (left ++ right) := by
  induction left generalizing before with
  | nil =>
      cases ran
      exact second
  | cons label left ih =>
      obtain ⟨next, stepped, rest⟩ := run_cons_iff.mp ran
      rw [List.cons_append, along_cons_iff stepped]
      rw [along_cons_iff stepped] at first
      exact ⟨first.1, ih first.2 rest⟩

/-- The guarded form of `run_preserves`: an invariant that only the allowed
steps preserve holds at the end of every run made of allowed steps. -/
theorem run_preserves_along {step : Step State Label} {allowed : State → Label → Prop}
    {Invariant : State → Prop}
    (preserved : ∀ {before label after}, Invariant before → allowed before label →
      step before label = some after → Invariant after)
    (initial : Invariant before) (guarded : Along step allowed before labels)
    (ran : run step before labels = some after) : Invariant after := by
  induction labels generalizing before with
  | nil => cases ran; exact initial
  | cons label labels ih =>
      obtain ⟨middle, stepped, rest⟩ := run_cons_iff.mp ran
      exact ih (preserved initial guarded.1 stepped) (guarded.2 middle stepped) rest

/-- If the allowed steps keep an invariant under which all is good, and the
others lead to what is not, then all is good at every point of a run exactly if
every step of it is allowed. -/
theorem good_throughout_iff {step : Step State Label} {allowed : State → Label → Prop}
    {Invariant Good : State → Prop}
    (preserved : ∀ {before label after}, Invariant before → allowed before label →
      step before label = some after → Invariant after)
    (good : ∀ {state}, Invariant state → Good state)
    (bad : ∀ {before label after}, Invariant before → ¬ allowed before label →
      step before label = some after → ¬ Good after)
    (initial : Invariant before) (ran : run step before labels = some after) :
    (∀ taken rest reached, labels = taken ++ rest → run step before taken = some reached →
        Good reached) ↔ Along step allowed before labels := by
  constructor
  · intro throughout
    induction labels generalizing before with
    | nil => trivial
    | cons label labels ih =>
        obtain ⟨next, stepped, remaining⟩ := run_cons_iff.mp ran
        have now : allowed before label := by
          by_contra refused
          exact bad initial refused stepped (throughout [label] labels next rfl (run_one stepped))
        rw [along_cons_iff stepped]
        refine ⟨now, ih (preserved initial now stepped) remaining ?_⟩
        intro taken rest reached split ran
        apply throughout (label :: taken) rest reached (by rw [split, List.cons_append])
        exact run_cons_iff.mpr ⟨next, stepped, ran⟩
  · intro guarded taken rest reached split ran
    rw [split] at guarded
    exact good (run_preserves_along preserved initial guarded.prefix ran)

end Smmboss.Machine
