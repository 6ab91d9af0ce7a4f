import Smmboss.Space.FindModules

namespace Smmboss.Space

/-! # Mapping process memory

What the kernel keeps of an address is its type, its permission, its attributes
and, for an address that mirrors another, which.  The kernel itself is not
modelled: its calls are parameters, and `Kernel.Lawful` says what is known of
them.
-/

namespace MemType

def Unmapped : Nat := 0

def ProcessMem : Nat := 15

def Reserved : Nat := 16

end MemType

structure Attr where
  type : Nat
  perm : Nat
  attr : Nat
  mirrors : Option Nat
deriving DecidableEq

namespace Attr

def unmapped : Attr := ⟨MemType.Unmapped, 0, 0, none⟩

/-- What the kernel tells ranges apart by. -/
def kind (attr : Attr) : Nat × Nat × Nat := (attr.type, attr.perm, attr.attr)

/-- The address can be used. -/
def Mapped (attr : Attr) : Prop := attr.type ≠ MemType.Unmapped ∧ attr.type ≠ MemType.Reserved

instance (attr : Attr) : Decidable attr.Mapped := inferInstanceAs (Decidable (_ ∧ _))

end Attr

abbrev View := Nat → Attr

namespace View

/-- The addresses from `rw` on mirror those from `ro` on. -/
def map (view : View) (rw ro size : Nat) : View := fun address =>
  if rw ≤ address ∧ address < rw + size then ⟨MemType.ProcessMem, Perm.Rw, 0, some (ro + (address - rw))⟩
  else view address

def unmap (view : View) (rw size : Nat) : View := fun address =>
  if rw ≤ address ∧ address < rw + size then .unmapped else view address

end View

structure Kernel (K : Type) where
  svcQueryMemory : K → Nat → MemoryInfo
  /-- The state after a call that succeeds. -/
  svcMapProcessMemory : K → (rw ro size : Nat) → Option K
  svcUnmapProcessMemory : K → (rw ro size : Nat) → Option K

/-- A query tells the largest range around an address all of one kind, and what
is behind the memory of the process is reserved. -/
structure Kernel.Lawful {K : Type} (kernel : Kernel K) (view : K → View) : Prop where
  holds : ∀ k address, address < 2 ^ 64 →
    (kernel.svcQueryMemory k address).addr ≤ address ∧
      address < (kernel.svcQueryMemory k address).addr + (kernel.svcQueryMemory k address).size ∧
      (kernel.svcQueryMemory k address).addr + (kernel.svcQueryMemory k address).size ≤ 2 ^ 64
  tells : ∀ k address, address < 2 ^ 64 → (kernel.svcQueryMemory k address).type = (view k address).type ∧
    (kernel.svcQueryMemory k address).perm = (view k address).perm
  uniform : ∀ k address other, address < 2 ^ 64 → (kernel.svcQueryMemory k address).addr ≤ other →
    other < (kernel.svcQueryMemory k address).addr + (kernel.svcQueryMemory k address).size →
    (view k other).kind = (view k address).kind
  largest : ∀ k address, address < 2 ^ 64 →
    (kernel.svcQueryMemory k address).addr + (kernel.svcQueryMemory k address).size < 2 ^ 64 →
    (view k ((kernel.svcQueryMemory k address).addr + (kernel.svcQueryMemory k address).size)).kind ≠
      (view k address).kind
  reserved : ∀ k, (view k (2 ^ 64 - 1)).type = MemType.Reserved
  unmapped : ∀ k address, (view k address).type = MemType.Unmapped → view k address = .unmapped
  map : ∀ k rw ro size after, kernel.svcMapProcessMemory k rw ro size = some after →
    view after = (view k).map rw ro size
  unmap : ∀ k rw ro size after, kernel.svcUnmapProcessMemory k rw ro size = some after →
    view after = (view k).unmap rw size

/-- Why a window is not there. -/
inductive Failure where
  | result
  | assert
deriving DecidableEq

section ForEachMemRange

variable {K : Type} (kernel : Kernel K) (callback : K → (address size offset : Nat) → Option K)
  (start_address length : Nat)

/-- The state is what the callback changes. -/
def ForEachMemRange.loop : Nat → K → MemoryInfo → Option (Except Failure K)
  | 0, _, _ => none
  | fuel + 1, k, meminfo =>
      let end_ := (start_address + length) % 2 ^ 64
      let meminfo := kernel.svcQueryMemory k meminfo.next
      let offset := max meminfo.addr start_address - start_address
      let current_address := (start_address + offset) % 2 ^ 64
      let current_length := (min end_ meminfo.next + 2 ^ 64 - current_address) % 2 ^ 64
      match callback k current_address current_length offset with
      | none => some (.error .result)
      | some k => if meminfo.next < end_ then loop fuel k meminfo else some (.ok k)

def ForEachMemRange (fuel : Nat) (k : K) : Option (Except Failure K) :=
  ForEachMemRange.loop kernel callback start_address length fuel k ⟨start_address, 0, 0, 0⟩

end ForEachMemRange

section Rule

variable {K : Type} {kernel : Kernel K} {view : K → View} {callback : K → (address size offset : Nat) → Option K}
  {start_address length : Nat} {Done : Nat → K → Prop}

/-- What the callback does of a piece, all of one kind and behind what is done. -/
def Extends (view : K → View) (callback : K → (address size offset : Nat) → Option K) (start_address length : Nat)
    (Done : Nat → K → Prop) : Prop :=
  ∀ k piece size after, Done piece k → start_address ≤ piece → 0 < size → piece + size ≤ start_address + length →
    (∀ other, piece ≤ other → other < piece + size → (view k other).kind = (view k piece).kind) →
    callback k piece size (piece - start_address) = some after → Done (piece + size) after

/-- The callback leaves the kinds of the addresses gone through alone. -/
def Keeps (view : K → View) (given : View) (start_address length : Nat) (Done : Nat → K → Prop) : Prop :=
  ∀ piece k, Done piece k → ∀ other, start_address ≤ other → other < start_address + length →
    (view k other).kind = (given other).kind

variable {given : View}

/-- One turn: the piece that comes next, up to the end of its range or of all. -/
theorem piece_eq (lawful : kernel.Lawful view) (keeps : Keeps view given start_address length Done)
    (mapped : ∀ other, start_address ≤ other → other < start_address + length → (given other).Mapped)
    {k : K} {piece : Nat} (done : Done piece k) (above : start_address ≤ piece)
    (below : piece < start_address + length) (small : piece < 2 ^ 64)
    (fresh : start_address < piece → (given (piece - 1)).kind ≠ (given piece).kind) :
    ∃ stop, piece < stop ∧ (kernel.svcQueryMemory k piece).next = stop ∧
      max (kernel.svcQueryMemory k piece).addr start_address = piece ∧
      (kernel.svcQueryMemory k piece).addr + (kernel.svcQueryMemory k piece).size = stop ∧ stop < 2 ^ 64 ∧
      (stop < start_address + length → (given (stop - 1)).kind ≠ (given stop).kind) ∧
      ∀ other, piece ≤ other → other < stop → (view k other).kind = (view k piece).kind := by
  obtain ⟨from_, inside, top⟩ := lawful.holds k piece small
  have uniform := lawful.uniform k piece
  have largest := lawful.largest k piece small
  have kinds := keeps piece k done
  generalize kernel.svcQueryMemory k piece = info at from_ inside top uniform largest ⊢
  have short : info.addr + info.size < 2 ^ 64 := by
    rcases Nat.lt_or_ge (info.addr + info.size) (2 ^ 64) with short | whole
    · exact short
    · have same : (view k piece).kind = (view k (2 ^ 64 - 1)).kind :=
        (uniform (2 ^ 64 - 1) small (by omega) (by omega)).symm
      rw [kinds piece above below] at same
      have reserved : (given piece).type = MemType.Reserved := (congrArg Prod.fst same).trans (lawful.reserved k)
      exact absurd reserved (mapped piece above below).2
  have start : max info.addr start_address = piece := by
    rcases Nat.lt_or_ge start_address piece with later | first
    · have begins : info.addr = piece := by
        by_contra earlier
        have back : (view k (piece - 1)).kind = (view k piece).kind := uniform (piece - 1) small (by omega) (by omega)
        apply fresh later
        rw [← kinds (piece - 1) (by omega) (by omega), ← kinds piece above below, back]
      omega
    · omega
  refine ⟨info.addr + info.size, inside, Nat.mod_eq_of_lt short, start, rfl, short, ?_, ?_⟩
  · intro within same
    have back : (view k (info.addr + info.size - 1)).kind = (view k piece).kind :=
      uniform _ small (by omega) (by omega)
    apply largest short
    rw [kinds _ (by omega) within, ← same, ← kinds _ (by omega) (by omega), back]
  · intro other first last
    exact uniform other small (Nat.le_trans from_ first) last

theorem loop_rule (lawful : kernel.Lawful view) (keeps : Keeps view given start_address length Done)
    (mapped : ∀ other, start_address ≤ other → other < start_address + length → (given other).Mapped)
    (fits : start_address + length < 2 ^ 64) (extends_ : Extends view callback start_address length Done)
    {fuel : Nat} {k : K} {meminfo : MemoryInfo} {piece : Nat} (next : meminfo.next = piece) (done : Done piece k)
    (above : start_address ≤ piece) (below : piece < start_address + length)
    (fresh : start_address < piece → (given (piece - 1)).kind ≠ (given piece).kind)
    (enough : start_address + length - piece ≤ fuel) :
    ∃ result, ForEachMemRange.loop kernel callback start_address length fuel k meminfo = some result ∧
      ∀ after, result = .ok after → Done (start_address + length) after := by
  induction fuel generalizing k meminfo piece with
  | zero => omega
  | succ fuel ih =>
      obtain ⟨stop, longer, next', start, whole, short, fresh', uniform⟩ :=
        piece_eq lawful keeps mapped done above below (by omega) fresh
      have offset : max (kernel.svcQueryMemory k meminfo.next).addr start_address - start_address = piece - start_address := by
        rw [next, start]
      have current : (start_address + (piece - start_address)) % 2 ^ 64 = piece := by
        rw [Nat.add_sub_cancel' above, Nat.mod_eq_of_lt (by omega)]
      have end_ : (start_address + length) % 2 ^ 64 = start_address + length := Nat.mod_eq_of_lt fits
      have size : (min (start_address + length) stop + 2 ^ 64 - piece) % 2 ^ 64 = min (start_address + length) stop - piece := by
        rw [show min (start_address + length) stop + 2 ^ 64 - piece = min (start_address + length) stop - piece + 2 ^ 64 by omega,
          Nat.add_mod_right, Nat.mod_eq_of_lt (by omega)]
      simp only [ForEachMemRange.loop, offset, current, end_]
      rw [next, next', size]
      cases called : callback k piece (min (start_address + length) stop - piece) (piece - start_address) with
      | none => exact ⟨_, rfl, by simp⟩
      | some after =>
          have progress := extends_ k piece _ after done above (by omega) (by omega)
            (fun other first last => uniform other first (by omega)) called
          dsimp only
          by_cases more : stop < start_address + length
          · have reached : piece + (min (start_address + length) stop - piece) = stop := by omega
            rw [reached] at progress
            rw [if_pos more]
            exact ih next' progress (by omega) more (fun _ => fresh' more) (by omega)
          · have reached : piece + (min (start_address + length) stop - piece) = start_address + length := by omega
            rw [reached] at progress
            rw [if_neg more]
            exact ⟨_, rfl, fun after same => Except.ok.inj same ▸ progress⟩

variable (kernel callback) in
/-- The callback is called for pieces of one kind, one behind the other, until
all addresses are gone through. -/
theorem ForEachMemRange_rule (lawful : kernel.Lawful view) (keeps : Keeps view given start_address length Done)
    (mapped : ∀ other, start_address ≤ other → other < start_address + length → (given other).Mapped)
    (fits : start_address + length < 2 ^ 64) (extends_ : Extends view callback start_address length Done) {fuel : Nat} {k : K}
    (done : Done start_address k) (some_ : 0 < length) (enough : length ≤ fuel) :
    ∃ result, ForEachMemRange kernel callback start_address length fuel k = some result ∧
      ∀ after, result = .ok after → Done (start_address + length) after := by
  have next : MemoryInfo.next ⟨start_address, 0, 0, 0⟩ = start_address := Nat.mod_eq_of_lt (by simp only; omega)
  exact loop_rule lawful keeps mapped fits extends_ next done (Nat.le_refl _) (by omega)
    (fun later => absurd later (Nat.lt_irrefl _)) (by omega)

end Rule

end Smmboss.Space
