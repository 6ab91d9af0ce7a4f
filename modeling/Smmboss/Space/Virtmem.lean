import Smmboss.Foundation.Linked
import Smmboss.Space.Kernel

namespace Smmboss.Space

open Linked

/-! # Free address space

`virtmem.c` finds addresses that nothing uses by drawing random ones, and keeps
a doubly linked list of those that are given away.
-/

structure MemRegion where
  start : Nat
  end_ : Nat
deriving DecidableEq

def pageAlign (size : Nat) : Nat := 0x1000 * ((size + 0xFFF) % 2 ^ 64 / 0x1000)

def memregionOverlaps (r : MemRegion) (start end_ : Nat) : Prop := start < r.end_ ∧ r.start < end_

instance (r : MemRegion) (start end_ : Nat) : Decidable (memregionOverlaps r start end_) :=
  inferInstanceAs (Decidable (_ ∧ _))

structure Regions where
  alias_ : MemRegion
  heap : MemRegion
  aslr : MemRegion

/-- The list of reservations. -/
structure Reservations where
  links : Links
  region : Nat → MemRegion

/-- Where `g_Reservations` is. -/
def g_Reservations : Place := .head 0

def RANDOM_MAX_ATTEMPTS : Nat := 0x200

section Find

variable {K : Type} (kernel : Kernel K) (k : K) (regions : Regions) (reservations : Reservations)

def memregionIsMapped (start end_ guard : Nat) : Bool :=
  let start := (start + 2 ^ 64 - guard) % 2 ^ 64
  let end_ := (end_ + guard) % 2 ^ 64
  let meminfo := kernel.svcQueryMemory k start
  decide (meminfo.type ≠ MemType.Unmapped ∨ end_ > meminfo.next)

/-- Goes through the reservations from one on. -/
def anyReserved (start end_ : Nat) : Nat → Nat → Option Bool
  | 0, _ => none
  | fuel + 1, rv =>
      if rv = 0 then some false
      else if memregionOverlaps (reservations.region rv) start end_ then some true
      else anyReserved start end_ fuel (reservations.links.next rv)

def memregionIsReserved (fuel start end_ guard : Nat) : Option Bool :=
  anyReserved reservations ((start + 2 ^ 64 - guard) % 2 ^ 64) ((end_ + guard) % 2 ^ 64) fuel
    (reservations.links.read g_Reservations)

/-- The inner loop, with the number of draws before and after it. -/
def drawAddress (rng : Nat → Nat) (r : MemRegion) (size aslr_max_page_offset : Nat) : Nat → Nat → Option (Nat × Nat)
  | 0, _ => none
  | fuel + 1, drawn =>
      let page_offset := rng drawn % (aslr_max_page_offset + 1)
      let cur_addr := (r.start + 0x1000 * page_offset) % 2 ^ 64
      if memregionOverlaps regions.alias_ cur_addr ((cur_addr + size) % 2 ^ 64) then
        drawAddress rng r size aslr_max_page_offset fuel (drawn + 1)
      else if memregionOverlaps regions.heap cur_addr ((cur_addr + size) % 2 ^ 64) then
        drawAddress rng r size aslr_max_page_offset fuel (drawn + 1)
      else some (cur_addr, drawn + 1)

/-- The outer loop.  Zero is `NULL`. -/
def attempts (rng : Nat → Nat) (r : MemRegion) (size guard_size aslr_max_page_offset fuel : Nat) :
    Nat → Nat → Option Nat
  | 0, _ => some 0
  | left + 1, drawn =>
      match drawAddress regions rng r size aslr_max_page_offset fuel drawn with
      | none => none
      | some (cur_addr, drawn) =>
          if memregionIsMapped kernel k cur_addr ((cur_addr + size) % 2 ^ 64) guard_size then
            attempts rng r size guard_size aslr_max_page_offset fuel left drawn
          else
            match memregionIsReserved reservations fuel cur_addr ((cur_addr + size) % 2 ^ 64) guard_size with
            | none => none
            | some true => attempts rng r size guard_size aslr_max_page_offset fuel left drawn
            | some false => some cur_addr

def memregionFindRandom (rng : Nat → Nat) (fuel : Nat) (r : MemRegion) (size guard_size : Nat) : Option Nat :=
  let size := pageAlign size
  let guard_size := pageAlign guard_size
  let region_size := (r.end_ + 2 ^ 64 - r.start) % 2 ^ 64
  if size > region_size then some 0
  else attempts kernel k regions reservations rng r size guard_size ((region_size - size) / 0x1000) fuel RANDOM_MAX_ATTEMPTS 0

def virtmemFindAslr (rng : Nat → Nat) (fuel size guard_size : Nat) : Option Nat :=
  memregionFindRandom kernel k regions reservations rng fuel regions.aslr size guard_size

end Find

/-- Puts a node in front of the chain that hangs from a head. -/
def pushFront (links : Links) (slot new : Nat) : Links :=
  { head := Function.update links.head slot new
    next := Function.update links.next new (links.head slot)
    prev := Function.update links.prev new 0 : Links }.setPrev (links.head slot) new

/-- `rv` is what `malloc` gave. -/
def virtmemAddReservation (reservations : Reservations) (rv mem size : Nat) : Reservations :=
  if rv = 0 then reservations
  else
    { region := Function.update reservations.region rv ⟨mem, (mem + size) % 2 ^ 64⟩
      links := pushFront reservations.links 0 rv }

def virtmemRemoveReservation (reservations : Reservations) (rv : Nat) : Reservations :=
  let place := if reservations.links.prev rv = 0 then g_Reservations else .next (reservations.links.prev rv)
  { reservations with links := reservations.links.unlink place rv }

/-! ### The list -/

section PushFront

variable {links : Links} {slot new node : Nat} {nodes : List Nat}

theorem pushFront_head : (pushFront links slot new).read (.head slot) = new :=
  (Links.read_setPrev _ _ _ (.head slot)).trans (Function.update_self ..)

theorem pushFront_next_new : (pushFront links slot new).next new = links.head slot :=
  (Links.read_setPrev _ _ _ (.next new)).trans (Function.update_self ..)

theorem pushFront_next (apart : node ≠ new) : (pushFront links slot new).next node = links.next node :=
  (Links.read_setPrev _ _ _ (.next node)).trans (Function.update_of_ne apart ..)

theorem pushFront_prev (apart : node ≠ new) (later : node ≠ links.head slot) :
    (pushFront links slot new).prev node = links.prev node :=
  (Links.prev_setPrev_ne _ _ later).trans (Function.update_of_ne apart ..)

theorem pushFront_prev_new (apart : new ≠ links.head slot) : (pushFront links slot new).prev new = 0 :=
  (Links.prev_setPrev_ne _ _ apart).trans (Function.update_self ..)

theorem chain_pushFront (chain : Chain links (.head slot) 0 nodes) (nodup : nodes.Nodup) (some_ : new ≠ 0)
    (fresh : new ∉ nodes) : Chain (pushFront links slot new) (.head slot) 0 (new :: nodes) := by
  have apart : new ≠ links.head slot := by
    rcases chain.read_mem with empty | member
    · exact fun same => some_ (same.trans empty)
    · exact fun same => fresh (same ▸ member)
  refine ⟨pushFront_head, some_, pushFront_prev_new apart, ?_⟩
  cases nodes with
  | nil => exact pushFront_next_new.trans chain
  | cons second rest =>
      obtain ⟨pointed, nonzero, _, later⟩ := chain
      have head : links.head slot = second := pointed
      have unique := (List.nodup_cons.mp nodup).1
      have others : ∀ node ∈ second :: rest, node ≠ new := fun node member same => fresh (same ▸ member)
      refine ⟨pushFront_next_new.trans head, nonzero, ?_, later.frame ⟨?_, ?_, ?_⟩⟩
      · rw [pushFront, head, Links.prev_setPrev_self _ _ nonzero]
      · exact pushFront_next (others second (List.mem_cons_self ..))
      · exact fun node member => pushFront_next (others node (List.mem_cons_of_mem _ member))
      · intro node member
        refine pushFront_prev (others node (List.mem_cons_of_mem _ member)) fun same => unique ?_
        rw [← head, ← same]
        exact member

end PushFront

/-- The list has these reservations. -/
structure Lists (reservations : Reservations) (reserved : List Nat) : Prop where
  chain : Chain reservations.links g_Reservations 0 reserved
  nodup : reserved.Nodup

variable {reservations : Reservations} {reserved left right : List Nat} {rv mem size : Nat}

theorem Lists.add (lists : Lists reservations reserved) (some_ : rv ≠ 0) (fresh : rv ∉ reserved) :
    Lists (virtmemAddReservation reservations rv mem size) (rv :: reserved) := by
  refine ⟨?_, List.nodup_cons.mpr ⟨fresh, lists.nodup⟩⟩
  rw [virtmemAddReservation, if_neg some_]
  exact chain_pushFront lists.chain lists.nodup some_ fresh

theorem Lists.remove (lists : Lists reservations (left ++ rv :: right)) :
    Lists (virtmemRemoveReservation reservations rv) (left ++ right) := by
  have place : (if reservations.links.prev rv = 0 then g_Reservations else .next (reservations.links.prev rv)) =
      endPlace g_Reservations left := by
    rw [lists.chain.read_endPlace.2, g_Reservations,
      endPlace_head fun node member => lists.chain.nonzero node (List.mem_append_left _ member)]
  refine ⟨?_, lists.nodup.sublist ((List.sublist_cons_self rv right).append_left left)⟩
  rw [virtmemRemoveReservation, place]
  exact lists.chain.unlink (Distinct.head lists.nodup)

@[simp] theorem virtmemRemoveReservation_region :
    (virtmemRemoveReservation reservations rv).region = reservations.region := rfl

theorem virtmemAddReservation_region (some_ : rv ≠ 0) :
    (virtmemAddReservation reservations rv mem size).region =
      Function.update reservations.region rv ⟨mem, (mem + size) % 2 ^ 64⟩ := by
  rw [virtmemAddReservation, if_neg some_]

variable {start end_ fuel : Nat}

/-- Going through the list asks every reservation. -/
theorem anyReserved_eq {place : Place} {before : Nat} (chain : Chain reservations.links place before reserved)
    (enough : reserved.length < fuel) :
    anyReserved reservations start end_ fuel (reservations.links.read place) =
      some (reserved.any fun rv => decide (memregionOverlaps (reservations.region rv) start end_)) := by
  induction reserved generalizing place before fuel with
  | nil =>
      obtain ⟨fuel, rfl⟩ := Nat.exists_eq_succ_of_ne_zero (Nat.ne_of_gt enough)
      have empty : reservations.links.read place = 0 := chain
      rw [anyReserved, if_pos empty, List.any_nil]
  | cons first rest ih =>
      obtain ⟨fuel, rfl⟩ := Nat.exists_eq_succ_of_ne_zero (Nat.ne_of_gt (Nat.zero_lt_of_lt enough))
      obtain ⟨pointed, nonzero, _, later⟩ := chain
      rw [anyReserved, pointed, if_neg nonzero, List.any_cons]
      by_cases overlaps : memregionOverlaps (reservations.region first) start end_
      · rw [if_pos overlaps, decide_eq_true overlaps, Bool.true_or]
      · rw [if_neg overlaps, decide_eq_false overlaps, Bool.false_or]
        exact ih later (Nat.lt_of_succ_lt_succ enough)

/-! ### What is found -/

/-- Nothing is at the addresses from `cur_addr` on. -/
structure Free (view : View) (regions : Regions) (r : MemRegion) (reservations : Reservations) (reserved : List Nat)
    (cur_addr size : Nat) : Prop where
  aligned : 0x1000 ∣ cur_addr
  inside : r.start ≤ cur_addr ∧ cur_addr + size ≤ r.end_
  alias_ : ¬ memregionOverlaps regions.alias_ cur_addr (cur_addr + size)
  heap : ¬ memregionOverlaps regions.heap cur_addr (cur_addr + size)
  unmapped : ∀ address, cur_addr ≤ address → address < cur_addr + size → (view address).type = MemType.Unmapped
  unreserved : ∀ rv ∈ reserved, ¬ memregionOverlaps (reservations.region rv) cur_addr (cur_addr + size)

/-- A region of whole pages. -/
structure MemRegion.Proper (r : MemRegion) : Prop where
  aligned : 0x1000 ∣ r.start
  ordered : r.start ≤ r.end_
  below : r.end_ < 2 ^ 64

section Sound

variable {K : Type} {kernel : Kernel K} {view : K → View} {k : K} {regions : Regions} {r : MemRegion} {rng : Nat → Nat}
  {aslr_max_page_offset cur_addr drawn next left_ : Nat}

theorem memregionIsMapped_false (lawful : kernel.Lawful view) (below : cur_addr + size < 2 ^ 64)
    (free : memregionIsMapped kernel k cur_addr ((cur_addr + size) % 2 ^ 64) 0 = false) {address : Nat}
    (above : cur_addr ≤ address) (inside : address < cur_addr + size) :
    (view k address).type = MemType.Unmapped := by
  have start : (cur_addr + 2 ^ 64 - 0) % 2 ^ 64 = cur_addr := by
    rw [Nat.sub_zero, Nat.add_mod_right, Nat.mod_eq_of_lt (by omega)]
  have end_ : ((cur_addr + size) % 2 ^ 64 + 0) % 2 ^ 64 = cur_addr + size := by
    rw [Nat.add_zero, Nat.mod_mod, Nat.mod_eq_of_lt below]
  simp only [memregionIsMapped, start, end_, decide_eq_false_iff_not, not_or, not_not, gt_iff_lt, Nat.not_lt] at free
  obtain ⟨type_, reaches⟩ := free
  obtain ⟨from_, _, top⟩ := lawful.holds k cur_addr (by omega)
  have far : cur_addr + size ≤ (kernel.svcQueryMemory k cur_addr).addr + (kernel.svcQueryMemory k cur_addr).size :=
    Nat.le_trans reaches (Nat.mod_le _ _)
  have same := congrArg Prod.fst (lawful.uniform k cur_addr address (by omega) (by omega) (by omega))
  have tells := (lawful.tells k cur_addr (by omega)).1
  exact same.trans (tells.symm.trans type_)

theorem memregionIsReserved_false (lists : Lists reservations reserved) (below : cur_addr + size < 2 ^ 64)
    (free : memregionIsReserved reservations fuel cur_addr ((cur_addr + size) % 2 ^ 64) 0 = some false)
    (enough : reserved.length < fuel) :
    ∀ rv ∈ reserved, ¬ memregionOverlaps (reservations.region rv) cur_addr (cur_addr + size) := by
  have start : (cur_addr + 2 ^ 64 - 0) % 2 ^ 64 = cur_addr := by
    rw [Nat.sub_zero, Nat.add_mod_right, Nat.mod_eq_of_lt (by omega)]
  have end_ : ((cur_addr + size) % 2 ^ 64 + 0) % 2 ^ 64 = cur_addr + size := by
    rw [Nat.add_zero, Nat.mod_mod, Nat.mod_eq_of_lt below]
  rw [memregionIsReserved, start, end_, anyReserved_eq lists.chain enough, Option.some.injEq] at free
  intro rv member
  simpa using List.any_eq_false.mp free rv member

theorem drawAddress_sound (proper : r.Proper) (fits : 0x1000 * aslr_max_page_offset + size ≤ r.end_ - r.start)
    (found : drawAddress regions rng r size aslr_max_page_offset fuel drawn = some (cur_addr, next)) :
    0x1000 ∣ cur_addr ∧ (r.start ≤ cur_addr ∧ cur_addr + size ≤ r.end_) ∧
      ¬ memregionOverlaps regions.alias_ cur_addr (cur_addr + size) ∧
      ¬ memregionOverlaps regions.heap cur_addr (cur_addr + size) := by
  induction fuel generalizing drawn with
  | zero => simp [drawAddress] at found
  | succ fuel ih =>
      have least : rng drawn % (aslr_max_page_offset + 1) ≤ aslr_max_page_offset :=
        Nat.le_of_lt_succ (Nat.mod_lt _ (Nat.succ_pos _))
      have ordered := proper.ordered
      have below := proper.below
      have exact_ : (r.start + 0x1000 * (rng drawn % (aslr_max_page_offset + 1))) % 2 ^ 64 =
          r.start + 0x1000 * (rng drawn % (aslr_max_page_offset + 1)) := Nat.mod_eq_of_lt (by omega)
      have end_ : (r.start + 0x1000 * (rng drawn % (aslr_max_page_offset + 1)) + size) % 2 ^ 64 =
          r.start + 0x1000 * (rng drawn % (aslr_max_page_offset + 1)) + size := Nat.mod_eq_of_lt (by omega)
      simp only [drawAddress, exact_, end_] at found
      by_cases inAlias : memregionOverlaps regions.alias_ (r.start + 0x1000 * (rng drawn % (aslr_max_page_offset + 1)))
          (r.start + 0x1000 * (rng drawn % (aslr_max_page_offset + 1)) + size)
      · rw [if_pos inAlias] at found
        exact ih found
      · rw [if_neg inAlias] at found
        by_cases inHeap : memregionOverlaps regions.heap (r.start + 0x1000 * (rng drawn % (aslr_max_page_offset + 1)))
            (r.start + 0x1000 * (rng drawn % (aslr_max_page_offset + 1)) + size)
        · rw [if_pos inHeap] at found
          exact ih found
        · rw [if_neg inHeap] at found
          obtain ⟨rfl, _⟩ := Prod.mk.inj (Option.some.inj found)
          exact ⟨Nat.dvd_add proper.aligned (Nat.dvd_mul_right ..), ⟨by omega, by omega⟩, inAlias, inHeap⟩

theorem attempts_sound (lawful : kernel.Lawful view) (lists : Lists reservations reserved) (proper : r.Proper)
    (fits : 0x1000 * aslr_max_page_offset + size ≤ r.end_ - r.start) (enough : reserved.length < fuel)
    (found : attempts kernel k regions reservations rng r size 0 aslr_max_page_offset fuel left_ drawn = some cur_addr)
    (some_ : cur_addr ≠ 0) : Free (view k) regions r reservations reserved cur_addr size := by
  induction left_ generalizing drawn with
  | zero =>
      rw [attempts, Option.some.injEq] at found
      exact absurd found.symm some_
  | succ left_ ih =>
      rw [attempts] at found
      cases draw : drawAddress regions rng r size aslr_max_page_offset fuel drawn with
      | none => simp [draw] at found
      | some pair =>
          obtain ⟨candidate, next⟩ := pair
          obtain ⟨aligned, inside, inAlias, inHeap⟩ := drawAddress_sound proper fits draw
          have below : candidate + size < 2 ^ 64 := Nat.lt_of_le_of_lt inside.2 proper.below
          simp only [draw] at found
          cases mapped : memregionIsMapped kernel k candidate ((candidate + size) % 2 ^ 64) 0 with
          | true =>
              rw [mapped, if_pos rfl] at found
              exact ih found
          | false =>
              cases taken : memregionIsReserved reservations fuel candidate ((candidate + size) % 2 ^ 64) 0 with
              | none => simp only [mapped, Bool.false_eq_true, if_false, taken, reduceCtorEq] at found
              | some taken_ =>
                  cases taken_ with
                  | true =>
                      simp only [mapped, Bool.false_eq_true, if_false, taken] at found
                      exact ih found
                  | false =>
                      simp only [mapped, Bool.false_eq_true, if_false, taken, Option.some.injEq] at found
                      subst found
                      exact ⟨aligned, inside, inAlias, inHeap,
                        fun address above inside => memregionIsMapped_false lawful below mapped above inside,
                        memregionIsReserved_false lists below taken enough⟩

/-- An address that is found is free, for as many pages as were asked for. -/
theorem virtmemFindAslr_sound (lawful : kernel.Lawful view) (lists : Lists reservations reserved)
    (proper : regions.aslr.Proper) (enough : reserved.length < fuel)
    (found : virtmemFindAslr kernel k regions reservations rng fuel size 0 = some cur_addr) (some_ : cur_addr ≠ 0) :
    Free (view k) regions regions.aslr reservations reserved cur_addr (pageAlign size) := by
  have region_size : (regions.aslr.end_ + 2 ^ 64 - regions.aslr.start) % 2 ^ 64 =
      regions.aslr.end_ - regions.aslr.start := by
    have ordered := proper.ordered
    have below := proper.below
    rw [show regions.aslr.end_ + 2 ^ 64 - regions.aslr.start =
      regions.aslr.end_ - regions.aslr.start + 2 ^ 64 by omega, Nat.add_mod_right, Nat.mod_eq_of_lt (by omega)]
  have guard : pageAlign 0 = 0 := by decide
  simp only [virtmemFindAslr, memregionFindRandom, region_size, guard] at found
  by_cases large : pageAlign size > regions.aslr.end_ - regions.aslr.start
  · rw [if_pos large, Option.some.injEq] at found
    exact absurd found.symm some_
  · rw [if_neg large] at found
    refine attempts_sound lawful lists proper ?_ enough found some_
    exact Nat.add_le_of_le_sub (Nat.not_lt.mp large) (Nat.mul_div_le _ _)

end Sound

end Smmboss.Space
