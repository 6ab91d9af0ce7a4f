import Mathlib.Data.List.Basic

namespace Smmboss.Prefix

/-! # Longest allowed prefixes -/

/-- `count` is the length of the longest prefix of `size` places that are all allowed. -/
structure LongestPrefix (allowed : Nat → Prop) (size count : Nat) : Prop where
  within : count ≤ size
  all : ∀ place < count, allowed place
  stops : count < size → ¬ allowed count

theorem LongestPrefix.empty {allowed : Nat → Prop} {size : Nat} (denied : ¬ allowed 0) :
    LongestPrefix allowed size 0 :=
  ⟨Nat.zero_le size, by simp, fun _ => denied⟩

theorem LongestPrefix.append {allowed : Nat → Prop} {size first rest : Nat}
    (start : ∀ place < first, allowed place) (inside : first ≤ size)
    (longest : LongestPrefix (fun place => allowed (first + place)) (size - first) rest) :
    LongestPrefix allowed size (first + rest) where
  within := by
    have within := longest.within
    omega
  all := by
    intro place below
    rcases Nat.lt_or_ge place first with early | late
    · exact start place early
    · have allowedLate := longest.all (place - first) (by omega)
      rwa [Nat.add_sub_of_le late] at allowedLate
  stops := fun short => longest.stops (by omega)

/-- The longest prefix is unique. -/
theorem LongestPrefix.unique {allowed : Nat → Prop} {size first second : Nat}
    (left : LongestPrefix allowed size first) (right : LongestPrefix allowed size second) :
    first = second := by
  have leftWithin := left.within
  have rightWithin := right.within
  rcases Nat.lt_trichotomy first second with less | same | more
  · exact absurd (right.all first less) (left.stops (by omega))
  · exact same
  · exact absurd (left.all second more) (right.stops (by omega))

def longest (allowed : Nat → Bool) : Nat → Nat
  | 0 => 0
  | size + 1 => if allowed 0 then 1 + longest (fun place => allowed (1 + place)) size else 0

theorem longest_spec (allowed : Nat → Bool) (size : Nat) :
    LongestPrefix (fun place => allowed place = true) size (longest allowed size) := by
  induction size generalizing allowed with
  | zero => exact ⟨Nat.le_refl 0, by simp [longest], by simp [longest]⟩
  | succ size ih =>
      rw [longest]
      split
      · rename_i first
        refine .append ?_ (by omega) (ih fun place => allowed (1 + place))
        intro place below
        obtain rfl : place = 0 := by omega
        exact first
      · rename_i first
        exact .empty first

end Smmboss.Prefix
