import Mathlib.Logic.Function.Iterate
import Mathlib.Logic.Relation

namespace Smmboss.Region

/-! # Standing in for a region of another program

A source machine runs inside a region until it leaves.  A target machine follows
it, with any number of its own steps for each, and leaves as the source does.
-/

variable {S T : Type}

structure StandsIn (step : S → S) (inside proper : S → Prop) (next : T → T → Prop)
    (Tracks Left : S → T → Prop) : Prop where
  turn : ∀ {source target}, Tracks source target → inside source → proper source →
    ∃ after, Relation.ReflTransGen next target after ∧
      (Tracks (step source) after ∨ (¬ inside (step source) ∧ Left (step source) after))
  finish : ∀ {source target}, Tracks source target → ¬ inside source →
    ∃ after, Relation.ReflTransGen next target after ∧ Left source after

variable {step : S → S} {inside proper : S → Prop} {next : T → T → Prop} {Tracks Left : S → T → Prop}

/-- However long the source stays inside, the target leaves as it does. -/
theorem StandsIn.leaves (stands : StandsIn step inside proper next Tracks Left) {n : Nat} {source : S} {target : T}
    (tracked : Tracks source target) (stays : ∀ i < n, inside (step^[i] source))
    (properly : ∀ i < n, proper (step^[i] source)) (outside : ¬ inside (step^[n] source)) :
    ∃ after, Relation.ReflTransGen next target after ∧ Left (step^[n] source) after := by
  induction n generalizing source target with
  | zero => exact stands.finish tracked outside
  | succ n ih =>
      obtain ⟨middle, run, tracked | ⟨outside', left⟩⟩ :=
        stands.turn tracked (stays 0 (Nat.succ_pos n)) (properly 0 (Nat.succ_pos n))
      · obtain ⟨after, rest, left⟩ := ih tracked (fun i below => stays (i + 1) (Nat.succ_lt_succ below))
          (fun i below => properly (i + 1) (Nat.succ_lt_succ below)) outside
        exact ⟨after, run.trans rest, left⟩
      · cases n with
        | zero => exact ⟨middle, run, left⟩
        | succ n => exact absurd (stays 1 (by omega)) outside'

end Smmboss.Region
