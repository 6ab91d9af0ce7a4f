import Mathlib.Algebra.Order.Ring.Nat
import Mathlib.Tactic.SplitIfs

namespace Smmboss.Search

/-! # Halving search

`std::lower_bound` over positions: it halves the range `[first, first + length)`
and asks `before` of the middle position only.  Nothing makes it look at the
other positions, so its answer is the partition point when `before` is
partitioned, and what it is otherwise depends on which positions get probed.
-/

def halving (before : Nat → Bool) (first length : Nat) : Nat :=
  if length = 0 then first
  else
    let half := length / 2
    if before (first + half) then halving before (first + half + 1) (length - half - 1)
    else halving before first half
termination_by length

def lowerBound (before : α → Bool) (entries : List α) : Nat :=
  halving (fun place => (entries[place]?).any before) 0 entries.length

variable {before : Nat → Bool} {first length point : Nat}

@[simp] theorem halving_zero : halving before first 0 = first := by
  rw [halving]
  simp

theorem halving_right (nonempty : length ≠ 0) (probed : before (first + length / 2) = true) :
    halving before first length =
      halving before (first + length / 2 + 1) (length - length / 2 - 1) := by
  rw [halving, if_neg nonempty]
  simp only [probed, if_true]

theorem halving_left (nonempty : length ≠ 0) (probed : before (first + length / 2) = false) :
    halving before first length = halving before first (length / 2) := by
  rw [halving, if_neg nonempty]
  simp only [probed, Bool.false_eq_true, if_false]

/-- Over a partitioned range the search ends at the partition point. -/
theorem halving_partitioned
    (partitioned : ∀ place, first ≤ place → place < first + length →
      (before place = true ↔ place < point))
    (lower : first ≤ point) (upper : point ≤ first + length) :
    halving before first length = point := by
  induction first, length using halving.induct before with
  | case1 first =>
      rw [halving_zero]
      omega
  | case2 first length nonempty half probed ih =>
      have smaller : half < length := Nat.div_lt_self (by omega) (by decide)
      have passed := (partitioned (first + half) (by omega) (by omega)).mp probed
      rw [halving_right nonempty probed]
      refine ih ?_ (by omega) (by omega)
      intro place above below
      exact partitioned place (by omega) (by omega)
  | case3 first length nonempty half probed ih =>
      have smaller : half < length := Nat.div_lt_self (by omega) (by decide)
      have notPassed := mt (partitioned (first + half) (by omega) (by omega)).mpr probed
      rw [halving_left nonempty (by simpa using probed)]
      refine ih ?_ lower (by omega)
      intro place above below
      exact partitioned place above (by omega)

/-! ## A last position that is before everything -/

/-- The binary digits of the number begin with `11`. -/
def LeadingThree (number : Nat) : Prop := ∃ shift, number / 2 ^ shift = 3

theorem leadingThree_half {number : Nat} (large : 4 ≤ number) :
    LeadingThree number ↔ LeadingThree (number / 2) := by
  constructor
  · intro ⟨shift, leading⟩
    cases shift with
    | zero =>
        rw [Nat.pow_zero, Nat.div_one] at leading
        omega
    | succ shift =>
        refine ⟨shift, ?_⟩
        rwa [Nat.div_div_eq_div_mul, ← Nat.pow_succ']
  · intro ⟨shift, leading⟩
    refine ⟨shift + 1, ?_⟩
    rwa [Nat.pow_succ', ← Nat.div_div_eq_div_mul]

theorem leadingThree_iff_of_lt {number : Nat} (small : number < 6) :
    LeadingThree number ↔ number = 3 := by
  constructor
  · intro ⟨shift, leading⟩
    have bound : number / 2 ^ shift * 2 ^ shift ≤ number := Nat.div_mul_le_self _ _
    cases shift with
    | zero => rwa [Nat.pow_zero, Nat.div_one] at leading
    | succ shift =>
        have positive : 0 < 2 ^ shift := Nat.pow_pos (by decide)
        rw [leading, Nat.pow_succ] at bound
        omega
  · rintro rfl
    exact ⟨0, rfl⟩

/-- Where the search misses when the last position of the range always claims
to be before: it runs off the end for the last position, and for the one before
it when the halving comes down to exactly these two. -/
def Missed (length fromEnd : Nat) : Prop :=
  fromEnd = 1 ∨ (fromEnd = 2 ∧ LeadingThree (length + 1))

theorem missed_half {length fromEnd : Nat} (large : 3 ≤ length) :
    Missed (length - length / 2 - 1) fromEnd ↔ Missed length fromEnd := by
  have halved : length - length / 2 - 1 + 1 = (length + 1) / 2 := by omega
  rw [Missed, Missed, halved, ← leadingThree_half (by omega)]

theorem not_missed_left {length fromEnd : Nat} (large : 3 ≤ length)
    (beyond : length - length / 2 ≤ fromEnd) : ¬ Missed length fromEnd := by
  rintro (rfl | ⟨rfl, leading⟩)
  · omega
  · have three := (leadingThree_iff_of_lt (by omega)).mp leading
    omega

theorem halving_last_always
    (partitioned : ∀ place, first ≤ place → place + 1 < first + length →
      (before place = true ↔ place < point))
    (last : before (first + length - 1) = true)
    (lower : first ≤ point) (upper : point < first + length) :
    (Missed length (first + length - point) → halving before first length = first + length) ∧
      (¬ Missed length (first + length - point) → halving before first length = point) := by
  induction first, length using halving.induct before with
  | case1 first => omega
  | case2 first length nonempty half probed ih =>
      have smaller : half < length := Nat.div_lt_self (by omega) (by decide)
      rw [halving_right nonempty probed]
      by_cases atLast : length ≤ 2
      · have stop : length - length / 2 - 1 = 0 := by omega
        have missed : Missed length (first + length - point) := by
          by_cases final : first + length - point = 1
          · exact .inl final
          · refine .inr ⟨by omega, (leadingThree_iff_of_lt (by omega)).mpr (by omega)⟩
        rw [stop, halving_zero]
        exact ⟨fun _ => by omega, fun found => absurd missed found⟩
      · have passed := (partitioned (first + half) (by omega) (by omega)).mp probed
        have ending : first + half + 1 + (length - half - 1) = first + length := by omega
        rw [← missed_half (by omega), ← ending]
        refine ih ?_ (by rw [ending]; exact last) (by omega) (by omega)
        intro place above below
        exact partitioned place (by omega) (by omega)
  | case3 first length nonempty half probed ih =>
      have smaller : half < length := Nat.div_lt_self (by omega) (by decide)
      have inner : first + half + 1 < first + length := by
        by_contra outer
        have atLast : first + half = first + length - 1 := by omega
        exact probed (atLast ▸ last)
      have notPassed := mt (partitioned (first + half) (by omega) inner).mpr probed
      have found : halving before first half = point := by
        refine halving_partitioned ?_ lower (by omega)
        intro place above below
        exact partitioned place above (by omega)
      have notMissed : ¬ Missed length (first + length - point) :=
        not_missed_left (by omega) (by omega)
      rw [halving_left nonempty (by simpa using probed)]
      exact ⟨fun missed => absurd missed notMissed, fun _ => found⟩

end Smmboss.Search
