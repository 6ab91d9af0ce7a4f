import Smmboss.Foundation.Machine
import Smmboss.Space.Virtmem

namespace Smmboss.Space

open Tiling Linked

/-! # Writable windows onto code

An `RwPages` maps the pages of a range a second time, writable, and unmaps them
in the end.
-/

def alignDown (address : Nat) : Nat := 0x1000 * (address / 0x1000)

structure Claim where
  m_Ro : Nat
  m_Rw : Nat
  m_Size : Nat
  m_RwReserve : Nat
deriving DecidableEq

namespace Claim

def GetAlignedRo (claim : Claim) : Nat := alignDown claim.m_Ro

def GetAlignedRw (claim : Claim) : Nat := alignDown claim.m_Rw

def GetAlignedSize (claim : Claim) : Nat := pageAlign claim.m_Size

end Claim

/-- The process, with the `RwPages` there are. -/
structure World (K : Type) where
  k : K
  reservations : Reservations
  claims : List Claim

inductive Op where
  /-- `malloc` gives `rv` for the reservation. -/
  | create (ro size rv : Nat) (rng : Nat → Nat)
  | destroy (index : Nat)

/-- What is read at an address.  One that mirrors another has its byte, and one
that is not mapped has none. -/
def load (view : View) (memory : Nat → UInt8) (address : Nat) : Option UInt8 :=
  if (view address).Mapped then some (memory ((view address).mirrors.getD address)) else none

/-- `memcmp` finds the bytes equal. -/
def sameBytes (view : View) (memory : Nat → UInt8) (ro rw size : Nat) : Bool :=
  (List.range size).all fun i =>
    (load view memory (rw + i)).isSome && load view memory (ro + i) == load view memory (rw + i)

/-- A failure or an endless loop ends the process. -/
def andThen {α β : Type} (result : Option (Except Failure α)) (next : α → Option (Except Failure β)) :
    Option (Except Failure β) :=
  match result with
  | none => none
  | some (.error failure) => some (.error failure)
  | some (.ok value) => next value

/-- Neither the address nor the reservation may be `NULL`. -/
def windowAt (rv : Nat) : Option Nat → Option (Except Failure Nat)
  | none => none
  | some alignedRw => if alignedRw = 0 then some (.error .assert) else if rv = 0 then some (.error .assert) else some (.ok alignedRw)

section Operations

variable {K : Type} (kernel : Kernel K) (view : K → View) (memory : Nat → UInt8) (regions : Regions) (fuel : Nat)

/-- The callbacks, for a window at an address. -/
def mapPiece (alignedRw : Nat) (k : K) (address size offset : Nat) : Option K :=
  kernel.svcMapProcessMemory k ((alignedRw + offset) % 2 ^ 64) address size

def unmapPiece (alignedRw : Nat) (k : K) (address size offset : Nat) : Option K :=
  kernel.svcUnmapProcessMemory k ((alignedRw + offset) % 2 ^ 64) address size

def RwPages (world : World K) (ro size rv : Nat) (rng : Nat → Nat) : Option (Except Failure (World K)) :=
  andThen (windowAt rv (virtmemFindAslr kernel world.k regions world.reservations rng fuel (pageAlign size) 0))
    fun alignedRw =>
      andThen (ForEachMemRange kernel (mapPiece kernel alignedRw) (alignDown ro) (pageAlign size) fuel world.k)
        fun k =>
          if sameBytes (view k) memory ro ((alignedRw + (ro - alignDown ro)) % 2 ^ 64) size then
            some (.ok
              { k, reservations := virtmemAddReservation world.reservations rv alignedRw (pageAlign size)
                claims := ⟨ro, (alignedRw + (ro - alignDown ro)) % 2 ^ 64, size, rv⟩ :: world.claims })
          else some (.error .assert)

/-- The destructor of the owner. -/
def RwPages.destroy (world : World K) (index : Nat) (claim : Claim) : Option (Except Failure (World K)) :=
  andThen (ForEachMemRange kernel (unmapPiece kernel claim.GetAlignedRw) claim.GetAlignedRo claim.GetAlignedSize fuel
    world.k) fun k =>
      some (.ok
        { k, reservations := virtmemRemoveReservation world.reservations claim.m_RwReserve
          claims := world.claims.eraseIdx index })

/-- What is left after a step that neither aborts nor hangs. -/
def completed {α : Type} : Option (Except Failure α) → Option α
  | some (.ok value) => some value
  | _ => none

def step : Machine.Step (World K) Op := fun world op =>
  match op with
  | .create ro size rv rng => completed (RwPages kernel view memory regions fuel world ro size rv rng)
  | .destroy index =>
      match world.claims[index]? with
      | none => none
      | some claim => completed (RwPages.destroy kernel fuel world index claim)

end Operations

theorem completed_eq_some {α : Type} {result : Option (Except Failure α)} {value : α} :
    completed result = some value ↔ result = some (.ok value) := by
  unfold completed
  split <;> simp_all

theorem andThen_eq_ok {α β : Type} {result : Option (Except Failure α)} {next : α → Option (Except Failure β)}
    {value : β} : andThen result next = some (.ok value) ↔
      ∃ middle, result = some (.ok middle) ∧ next middle = some (.ok value) := by
  unfold andThen
  split <;> simp

theorem windowAt_eq_ok {rv alignedRw : Nat} {found : Option Nat} :
    windowAt rv found = some (.ok alignedRw) ↔ found = some alignedRw ∧ alignedRw ≠ 0 ∧ rv ≠ 0 := by
  cases found with
  | none => simp [windowAt]
  | some address =>
      rw [windowAt]
      split_ifs with null noReserve
      · simp only [Option.some.injEq, reduceCtorEq, false_iff]
        rintro ⟨rfl, some_, _⟩
        exact some_ null
      · simp [noReserve]
      · simp only [Option.some.injEq, Except.ok.injEq]
        constructor
        · rintro rfl
          exact ⟨rfl, null, noReserve⟩
        · exact fun same => same.1

/-! ### Windows -/

namespace Claim

/-- The addresses of the window. -/
def Window (claim : Claim) (address : Nat) : Prop :=
  claim.GetAlignedRw ≤ address ∧ address < claim.GetAlignedRw + claim.GetAlignedSize

/-- The addresses it is onto. -/
def Source (claim : Claim) (address : Nat) : Prop :=
  claim.GetAlignedRo ≤ address ∧ address < claim.GetAlignedRo + claim.GetAlignedSize

end Claim

/-- The memory map with the windows in it. -/
def windows (initial : View) (claims : List Claim) : View :=
  claims.foldr (fun claim view => view.map claim.GetAlignedRw claim.GetAlignedRo claim.GetAlignedSize) initial

/-- No two windows meet. -/
def Apart (first second : Claim) : Prop := ∀ address, first.Window address → ¬ second.Window address

variable {initial view : View} {claims left right : List Claim} {claim : Claim} {address : Nat}

theorem windows_cons_of (inside : claim.Window address) :
    windows initial (claim :: claims) address =
      ⟨MemType.ProcessMem, Perm.Rw, 0, some (claim.GetAlignedRo + (address - claim.GetAlignedRw))⟩ := if_pos inside

theorem windows_cons_of_not (outside : ¬ claim.Window address) :
    windows initial (claim :: claims) address = windows initial claims address := if_neg outside

theorem windows_none (outside : ∀ claim ∈ claims, ¬ claim.Window address) :
    windows initial claims address = initial address := by
  induction claims with
  | nil => rfl
  | cons claim claims ih =>
      rw [windows_cons_of_not (outside claim (List.mem_cons_self ..))]
      exact ih fun other member => outside other (List.mem_cons_of_mem _ member)

theorem windows_some (apart : claims.Pairwise Apart) (member : claim ∈ claims) (inside : claim.Window address) :
    windows initial claims address =
      ⟨MemType.ProcessMem, Perm.Rw, 0, some (claim.GetAlignedRo + (address - claim.GetAlignedRw))⟩ := by
  induction claims with
  | nil => simp at member
  | cons first claims ih =>
      obtain ⟨ahead, later⟩ := List.pairwise_cons.mp apart
      rcases List.mem_cons.mp member with rfl | member
      · exact windows_cons_of inside
      · rw [windows_cons_of_not fun also => ahead claim member address also inside]
        exact ih later member

/-- Unmapping a window leaves the others. -/
theorem windows_unmap (apart : (left ++ claim :: right).Pairwise Apart)
    (free : ∀ address, claim.Window address → initial address = .unmapped) :
    (windows initial (left ++ claim :: right)).unmap claim.GetAlignedRw claim.GetAlignedSize =
      windows initial (left ++ right) := by
  have symmetric : ∀ {first second}, Apart first second → Apart second first :=
    fun apart address inside also => apart address also inside
  obtain ⟨_, rightApart, across⟩ := List.pairwise_append.mp apart
  obtain ⟨ahead, _⟩ := List.pairwise_cons.mp rightApart
  have others : ∀ other ∈ left ++ right, Apart claim other := by
    intro other member
    rcases List.mem_append.mp member with before | behind
    · exact symmetric (across other before claim (List.mem_cons_self ..))
    · exact ahead other behind
  funext address
  by_cases inside : claim.Window address
  · rw [windows_none fun other member also => others other member address inside also, free address inside]
    exact if_pos inside
  · refine (if_neg inside).trans ?_
    have rest : (left ++ right).Pairwise Apart := apart.sublist ((List.sublist_cons_self claim right).append_left left)
    by_cases some_ : ∃ other ∈ left ++ right, other.Window address
    · obtain ⟨other, member, within⟩ := some_
      have also : other ∈ left ++ claim :: right :=
        ((List.sublist_cons_self claim right).append_left left).subset member
      rw [windows_some apart also within, windows_some rest member within]
    · have nowhere : ∀ other ∈ left ++ claim :: right, ¬ other.Window address := by
        intro other member within
        rw [List.mem_append, List.mem_cons] at member
        rcases member with before | rfl | behind
        · exact some_ ⟨other, List.mem_append_left _ before, within⟩
        · exact inside within
        · exact some_ ⟨other, List.mem_append_right _ behind, within⟩
      rw [windows_none nowhere, windows_none fun other member within => some_ ⟨other, member, within⟩]

namespace View

/-- Mapping a piece behind what is mapped. -/
theorem map_extend {rw ro done size : Nat} :
    (view.map rw ro done).map (rw + done) (ro + done) size = view.map rw ro (done + size) := by
  funext address
  simp only [View.map]
  by_cases first : rw ≤ address ∧ address < rw + done
  · rw [if_neg (by omega), if_pos first, if_pos (by omega)]
  · by_cases second : rw + done ≤ address ∧ address < rw + done + size
    · rw [if_pos second, if_pos (by omega), show ro + done + (address - (rw + done)) = ro + (address - rw) by omega]
    · rw [if_neg second, if_neg first, if_neg (by omega)]

theorem unmap_extend {rw done size : Nat} :
    (view.unmap rw done).unmap (rw + done) size = view.unmap rw (done + size) := by
  funext address
  simp only [View.unmap]
  by_cases first : rw ≤ address ∧ address < rw + done
  · rw [if_neg (by omega), if_pos first, if_pos (by omega)]
  · by_cases second : rw + done ≤ address ∧ address < rw + done + size
    · rw [if_pos second, if_pos (by omega)]
    · rw [if_neg second, if_neg first, if_neg (by omega)]

@[simp] theorem map_zero {rw ro : Nat} : view.map rw ro 0 = view := by
  funext address
  exact if_neg (by omega)

@[simp] theorem unmap_zero {rw : Nat} : view.unmap rw 0 = view := by
  funext address
  exact if_neg (by omega)

end View

end Smmboss.Space
