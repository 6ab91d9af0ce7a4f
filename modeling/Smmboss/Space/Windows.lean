import Smmboss.Space.RwPages

namespace Smmboss.Space

open Linked

/-! # Windows over whole runs -/

/-- A window that can be written through: onto memory that was there from the
start, at addresses that were not. -/
structure Sound (initial : View) (regions : Regions) (claim : Claim) : Prop where
  place : claim.m_Rw = claim.GetAlignedRw + (claim.m_Ro - claim.GetAlignedRo)
  sized : 0 < claim.GetAlignedSize
  fits : claim.GetAlignedRo + claim.GetAlignedSize < 2 ^ 64
  inside : regions.aslr.start ≤ claim.GetAlignedRw ∧ claim.GetAlignedRw + claim.GetAlignedSize ≤ regions.aslr.end_
  alias_ : ¬ memregionOverlaps regions.alias_ claim.GetAlignedRw (claim.GetAlignedRw + claim.GetAlignedSize)
  heap : ¬ memregionOverlaps regions.heap claim.GetAlignedRw (claim.GetAlignedRw + claim.GetAlignedSize)
  free : ∀ address, claim.Window address → initial address = .unmapped
  source : ∀ address, claim.Source address → (initial address).Mapped

structure Inv {K : Type} (view : K → View) (initial : View) (regions : Regions) (world : World K) : Prop where
  lists : Lists world.reservations (world.claims.map Claim.m_RwReserve)
  reserved : ∀ claim ∈ world.claims, world.reservations.region claim.m_RwReserve =
    ⟨claim.GetAlignedRw, claim.GetAlignedRw + claim.GetAlignedSize⟩
  sound : ∀ claim ∈ world.claims, Sound initial regions claim
  apart : world.claims.Pairwise Apart
  view : view world.k = windows initial world.claims

/-- What the program and `malloc` see to: what is asked for is mapped from the
start, and reservations are fresh.  The fuel is that of the loops. -/
def Allowed {K : Type} (initial : View) (fuel : Nat) (world : World K) : Op → Prop
  | .create ro size rv _ =>
      rv ∉ world.claims.map Claim.m_RwReserve ∧ 0 < pageAlign size ∧ alignDown ro + pageAlign size < 2 ^ 64 ∧
        (∀ address, alignDown ro ≤ address → address < alignDown ro + pageAlign size → (initial address).Mapped) ∧
        world.claims.length < fuel ∧ pageAlign size ≤ fuel
  | .destroy index => ∀ claim ∈ world.claims[index]?, claim.GetAlignedSize ≤ fuel

theorem pageAlign_pageAlign (size : Nat) : pageAlign (pageAlign size) = pageAlign size := by
  simp only [pageAlign]
  omega

theorem pageAlign_ge {size : Nat} (some_ : 0 < pageAlign size) : 0x1000 ≤ pageAlign size := by
  unfold pageAlign at some_ ⊢
  exact Nat.le_mul_of_pos_right _ (Nat.pos_of_mul_pos_left some_)

section Steps

variable {K : Type} {kernel : Kernel K} {view : K → View} {memory : Nat → UInt8} {regions : Regions} {fuel : Nat}
  {initial : View} {world after : World K} {ro size rv index : Nat} {rng : Nat → Nat} {claim : Claim}

/-- What a constructor that returns has done. -/
theorem RwPages_ok (made : RwPages kernel view memory regions fuel world ro size rv rng = some (.ok after)) :
    ∃ alignedRw k,
      virtmemFindAslr kernel world.k regions world.reservations rng fuel (pageAlign size) 0 = some alignedRw ∧
      alignedRw ≠ 0 ∧ rv ≠ 0 ∧
      ForEachMemRange kernel (mapPiece kernel alignedRw) (alignDown ro) (pageAlign size) fuel world.k = some (.ok k) ∧
      after = ⟨k, virtmemAddReservation world.reservations rv alignedRw (pageAlign size),
        ⟨ro, (alignedRw + (ro - alignDown ro)) % 2 ^ 64, size, rv⟩ :: world.claims⟩ := by
  obtain ⟨alignedRw, found, rest⟩ := andThen_eq_ok.mp made
  obtain ⟨k, mapped, rest⟩ := andThen_eq_ok.mp rest
  obtain ⟨found, null, noReserve⟩ := windowAt_eq_ok.mp found
  split at rest
  · simp only [Option.some.injEq, Except.ok.injEq] at rest
    exact ⟨alignedRw, k, found, null, noReserve, mapped, rest.symm⟩
  · simp at rest

theorem destroy_ok (done : RwPages.destroy kernel fuel world index claim = some (.ok after)) :
    ∃ k,
      ForEachMemRange kernel (unmapPiece kernel claim.GetAlignedRw) claim.GetAlignedRo claim.GetAlignedSize fuel world.k =
        some (.ok k) ∧
      after = ⟨k, virtmemRemoveReservation world.reservations claim.m_RwReserve, world.claims.eraseIdx index⟩ := by
  obtain ⟨k, unmapped, rest⟩ := andThen_eq_ok.mp done
  simp only [Option.some.injEq, Except.ok.injEq] at rest
  exact ⟨k, unmapped, rest.symm⟩

/-- Memory that was there from the start is in no window. -/
theorem Inv.view_eq (inv : Inv view initial regions world) {address : Nat} (mapped : (initial address).Mapped) :
    view world.k address = initial address := by
  rw [inv.view]
  refine windows_none fun claim member inside => ?_
  rw [(inv.sound claim member).free address inside] at mapped
  exact mapped.1 rfl

/-- Addresses free now were free from the start. -/
theorem Inv.initial_eq (inv : Inv view initial regions world) {address : Nat}
    (free : (view world.k address).type = MemType.Unmapped) : view world.k address = initial address := by
  rw [inv.view] at free ⊢
  by_cases some_ : ∃ claim ∈ world.claims, claim.Window address
  · obtain ⟨claim, member, inside⟩ := some_
    rw [windows_some inv.apart member inside] at free
    exact absurd free (show MemType.ProcessMem ≠ MemType.Unmapped by decide)
  · exact windows_none fun claim member inside => some_ ⟨claim, member, inside⟩

/-- A change made piece by piece is made to all of the range. -/
theorem change_all (lawful : kernel.Lawful view) {change : Nat → View} {callback : K → (address size offset : Nat) → Option K}
    {k after : K} {start length : Nat}
    (mapped : ∀ other, start ≤ other → other < start + length → (view k other).Mapped)
    (kept : ∀ behind ≤ length, ∀ other, start ≤ other → other < start + length → change behind other = view k other)
    (zero : change 0 = view k)
    (turn : ∀ now behind size next, view now = change behind → behind + size ≤ length →
      callback now (start + behind) size behind = some next → view next = change (behind + size))
    (fits : start + length < 2 ^ 64) (some_ : 0 < length) (enough : length ≤ fuel)
    (done : ForEachMemRange kernel callback start length fuel k = some (.ok after)) : view after = change length := by
  have keeps : Keeps view (view k) start length
      (fun piece now => piece ≤ start + length ∧ view now = change (piece - start)) := by
    rintro piece now ⟨within, eq⟩ other above below
    rw [eq, kept _ (by omega) other above below]
  have extends_ : Extends view callback start length
      (fun piece now => piece ≤ start + length ∧ view now = change (piece - start)) := by
    rintro now piece size next ⟨_, eq⟩ above _ inside _ called
    have place : start + (piece - start) = piece := Nat.add_sub_cancel' above
    refine ⟨inside, ?_⟩
    rw [show piece + size - start = piece - start + size by omega]
    exact turn now (piece - start) size next eq (by omega) (by rwa [place])
  have begins : start ≤ start + length ∧ view k = change (start - start) :=
    ⟨Nat.le_add_right _ _, by rw [Nat.sub_self, zero]⟩
  obtain ⟨result, ran, rule⟩ :=
    ForEachMemRange_rule kernel callback lawful keeps mapped fits extends_ begins some_ enough
  rw [done, Option.some.injEq] at ran
  have all := (rule after ran.symm).2
  rwa [Nat.add_sub_cancel_left] at all

theorem map_all (lawful : kernel.Lawful view) {k after : K} {rw start length : Nat}
    (mapped : ∀ other, start ≤ other → other < start + length → (view k other).Mapped)
    (free : ∀ other, rw ≤ other → other < rw + length → (view k other).type = MemType.Unmapped)
    (fits : start + length < 2 ^ 64) (room : rw + length < 2 ^ 64) (some_ : 0 < length) (enough : length ≤ fuel)
    (done : ForEachMemRange kernel (mapPiece kernel rw) start length fuel k = some (.ok after)) :
    view after = (view k).map rw start length := by
  have kept : ∀ behind ≤ length, ∀ other, start ≤ other → other < start + length →
      (view k).map rw start behind other = view k other := by
    intro behind within other above below
    refine if_neg ?_
    rintro ⟨first, last⟩
    exact (mapped other above below).1 (free other first (by omega))
  refine change_all lawful mapped kept View.map_zero ?_ fits some_ enough done
  intro now behind size next eq within called
  rw [mapPiece, Nat.mod_eq_of_lt (by omega)] at called
  rw [lawful.map _ _ _ _ _ called, eq, View.map_extend]

theorem unmap_all (lawful : kernel.Lawful view) {k after : K} {rw start length : Nat}
    (mapped : ∀ other, start ≤ other → other < start + length → (view k other).Mapped)
    (apart : ∀ other, start ≤ other → other < start + length → ¬ (rw ≤ other ∧ other < rw + length))
    (fits : start + length < 2 ^ 64) (room : rw + length < 2 ^ 64) (some_ : 0 < length) (enough : length ≤ fuel)
    (done : ForEachMemRange kernel (unmapPiece kernel rw) start length fuel k = some (.ok after)) :
    view after = (view k).unmap rw length := by
  have kept : ∀ behind ≤ length, ∀ other, start ≤ other → other < start + length →
      (view k).unmap rw behind other = view k other := by
    intro behind within other above below
    exact if_neg fun inside => apart other above below ⟨inside.1, by omega⟩
  refine change_all lawful mapped kept View.unmap_zero ?_ fits some_ enough done
  intro now behind size next eq within called
  rw [unmapPiece, Nat.mod_eq_of_lt (by omega)] at called
  rw [lawful.unmap _ _ _ _ _ called, eq, View.unmap_extend]

theorem alignDown_add {page rest : Nat} (aligned : 0x1000 ∣ page) (small : rest < 0x1000) :
    alignDown (page + rest) = page := by
  obtain ⟨pages, rfl⟩ := aligned
  rw [alignDown, Nat.mul_add_div (by decide), Nat.div_eq_of_lt small, Nat.add_zero]

theorem sub_alignDown_lt (address : Nat) : address - alignDown address < 0x1000 := by
  have whole := Nat.div_add_mod address 0x1000
  have small := Nat.mod_lt address (show 0x1000 > 0 by decide)
  rw [alignDown]
  omega

theorem create_inv (lawful : kernel.Lawful view) (proper : regions.aslr.Proper)
    (unmapped : ∀ address, (initial address).type = MemType.Unmapped → initial address = .unmapped)
    (inv : Inv view initial regions world) (allowed : Allowed initial fuel world (.create ro size rv rng))
    (made : RwPages kernel view memory regions fuel world ro size rv rng = some (.ok after)) :
    Inv view initial regions after := by
  obtain ⟨fresh, sized, fits, mapped, few, enough⟩ := allowed
  obtain ⟨alignedRw, k, found, _, some_, done, rfl⟩ := RwPages_ok made
  have free := virtmemFindAslr_sound lawful inv.lists proper (by rwa [List.length_map]) found ‹_›
  rw [pageAlign_pageAlign] at free
  have room : alignedRw + pageAlign size < 2 ^ 64 := Nat.lt_of_le_of_lt free.inside.2 proper.below
  have page := pageAlign_ge sized
  have short := sub_alignDown_lt ro
  have place : (alignedRw + (ro - alignDown ro)) % 2 ^ 64 = alignedRw + (ro - alignDown ro) :=
    Nat.mod_eq_of_lt (by omega)
  have aligned : alignDown (alignedRw + (ro - alignDown ro)) = alignedRw := alignDown_add free.aligned short
  have end_ : (alignedRw + pageAlign size) % 2 ^ 64 = alignedRw + pageAlign size := Nat.mod_eq_of_lt room
  have mappedNow : ∀ other, alignDown ro ≤ other → other < alignDown ro + pageAlign size → (view world.k other).Mapped :=
    fun other above below => inv.view_eq (mapped other above below) ▸ mapped other above below
  have result := map_all lawful mappedNow free.unmapped fits room sized enough done
  rw [place]
  have apartNew : ∀ other ∈ world.claims,
      Apart ⟨ro, alignedRw + (ro - alignDown ro), size, rv⟩ other := by
    intro other member address inside also
    have clear := free.unreserved other.m_RwReserve (List.mem_map_of_mem member)
    rw [inv.reserved other member] at clear
    simp only [Claim.Window, Claim.GetAlignedRw, Claim.GetAlignedSize, aligned] at inside
    exact clear ⟨Nat.lt_of_le_of_lt inside.1 also.2, Nat.lt_of_le_of_lt also.1 inside.2⟩
  refine ⟨?_, ?_, ?_, ?_, ?_⟩
  · exact inv.lists.add some_ fresh
  · intro claim member
    rw [virtmemAddReservation_region some_]
    rcases List.mem_cons.mp member with rfl | old
    · simp only [Function.update_self, Claim.GetAlignedRw, Claim.GetAlignedSize, aligned, end_]
    · have differs : claim.m_RwReserve ≠ rv := fun same => fresh (same ▸ List.mem_map_of_mem old)
      rw [Function.update_of_ne differs]
      exact inv.reserved claim old
  · intro claim member
    rcases List.mem_cons.mp member with rfl | old
    · constructor <;>
        simp only [Claim.GetAlignedRw, Claim.GetAlignedRo, Claim.GetAlignedSize, Claim.Window, Claim.Source, aligned]
      · exact sized
      · exact fits
      · exact free.inside
      · exact free.alias_
      · exact free.heap
      · rintro address ⟨above, below⟩
        have now := free.unmapped address above below
        exact unmapped address (inv.initial_eq now ▸ now)
      · exact fun address inside => mapped address inside.1 inside.2
    · exact inv.sound claim old
  · exact List.Pairwise.cons apartNew inv.apart
  · rw [result, inv.view]
    show _ = View.map _ _ _ _
    simp only [Claim.GetAlignedRw, Claim.GetAlignedRo, Claim.GetAlignedSize, aligned]
    rfl

theorem destroy_inv (lawful : kernel.Lawful view) (proper : regions.aslr.Proper) (inv : Inv view initial regions world)
    (present : world.claims[index]? = some claim) (enough : claim.GetAlignedSize ≤ fuel)
    (done : RwPages.destroy kernel fuel world index claim = some (.ok after)) : Inv view initial regions after := by
  obtain ⟨k, ran, rfl⟩ := destroy_ok done
  obtain ⟨within, here⟩ := List.getElem?_eq_some_iff.mp present
  have split : world.claims = world.claims.take index ++ claim :: world.claims.drop (index + 1) := by
    rw [← here, ← List.drop_eq_getElem_cons within, List.take_append_drop]
  have member : claim ∈ world.claims := List.mem_of_getElem? present
  have sound := inv.sound claim member
  have less : ∀ other ∈ world.claims.take index ++ world.claims.drop (index + 1), other ∈ world.claims := by
    intro other kept
    rw [split]
    exact ((List.sublist_cons_self claim _).append_left _).subset kept
  have mapped : ∀ other, claim.GetAlignedRo ≤ other → other < claim.GetAlignedRo + claim.GetAlignedSize →
      (view world.k other).Mapped := fun other above below =>
    inv.view_eq (sound.source other ⟨above, below⟩) ▸ sound.source other ⟨above, below⟩
  have apart : ∀ other, claim.GetAlignedRo ≤ other → other < claim.GetAlignedRo + claim.GetAlignedSize →
      ¬ (claim.GetAlignedRw ≤ other ∧ other < claim.GetAlignedRw + claim.GetAlignedSize) := by
    intro other above below inside
    have both := sound.source other ⟨above, below⟩
    rw [sound.free other inside] at both
    exact both.1 rfl
  have room := Nat.lt_of_le_of_lt sound.inside.2 proper.below
  have result := unmap_all lawful mapped apart sound.fits room sound.sized enough ran
  rw [List.eraseIdx_eq_take_drop_succ]
  refine ⟨?_, ?_, ?_, ?_, ?_⟩
  · have lists := inv.lists
    rw [split, List.map_append, List.map_cons] at lists
    rw [List.map_append]
    exact lists.remove
  · exact fun other kept => inv.reserved other (less other kept)
  · exact fun other kept => inv.sound other (less other kept)
  · have all := inv.apart
    rw [split] at all
    exact all.sublist ((List.sublist_cons_self claim _).append_left _)
  · have all := inv.apart
    rw [split] at all
    rw [result, inv.view, split, windows_unmap all sound.free, ← split]

theorem step_inv {op : Op} (lawful : kernel.Lawful view) (proper : regions.aslr.Proper)
    (unmapped : ∀ address, (initial address).type = MemType.Unmapped → initial address = .unmapped)
    (inv : Inv view initial regions world) (allowed : Allowed initial fuel world op)
    (stepped : step kernel view memory regions fuel world op = some after) : Inv view initial regions after := by
  cases op with
  | create ro size rv rng => exact create_inv lawful proper unmapped inv allowed (completed_eq_some.mp stepped)
  | destroy index =>
      cases present : world.claims[index]? with
      | none => simp [step, present] at stepped
      | some claim =>
          have done : completed (RwPages.destroy kernel fuel world index claim) = some after := by
            simpa only [step, present] using stepped
          exact destroy_inv lawful proper inv present (allowed claim present) (completed_eq_some.mp done)

end Steps

/-! ### What the windows are good for -/

structure WindowsOk {K : Type} (view : K → View) (initial : View) (regions : Regions) (world : World K) : Prop where
  /-- A byte of the window is the byte of the code. -/
  written : ∀ claim ∈ world.claims, ∀ i, claim.m_Ro - claim.GetAlignedRo + i < claim.GetAlignedSize →
    view world.k (claim.m_Rw + i) = ⟨MemType.ProcessMem, Perm.Rw, 0, some (claim.m_Ro + i)⟩
  /-- The window has all that was asked for unless that goes on into one page more
  than its size has. -/
  covers : ∀ claim ∈ world.claims, (∀ i < claim.m_Size, claim.Window (claim.m_Rw + i)) ↔
    claim.m_Ro - claim.GetAlignedRo + claim.m_Size ≤ claim.GetAlignedSize
  apart : world.claims.Pairwise Apart
  clear : ∀ claim ∈ world.claims,
    (regions.aslr.start ≤ claim.GetAlignedRw ∧ claim.GetAlignedRw + claim.GetAlignedSize ≤ regions.aslr.end_) ∧
      ¬ memregionOverlaps regions.alias_ claim.GetAlignedRw (claim.GetAlignedRw + claim.GetAlignedSize) ∧
      ¬ memregionOverlaps regions.heap claim.GetAlignedRw (claim.GetAlignedRw + claim.GetAlignedSize)
  rest : ∀ address, (∀ claim ∈ world.claims, ¬ claim.Window address) → view world.k address = initial address
  reserved : Lists world.reservations (world.claims.map Claim.m_RwReserve)

section Runs

variable {K : Type} {kernel : Kernel K} {view : K → View} {memory : Nat → UInt8} {regions : Regions} {fuel : Nat}
  {initial : View} {world : World K}

theorem Inv.windowsOk (inv : Inv view initial regions world) : WindowsOk view initial regions world where
  written := by
    intro claim member i short
    have place := (inv.sound claim member).place
    have below : claim.GetAlignedRo ≤ claim.m_Ro := Nat.mul_div_le _ _
    have inside : claim.Window (claim.m_Rw + i) := by
      rw [Claim.Window, place]
      omega
    rw [inv.view, windows_some inv.apart member inside, place,
      show claim.GetAlignedRo + (claim.GetAlignedRw + (claim.m_Ro - claim.GetAlignedRo) + i - claim.GetAlignedRw) =
        claim.m_Ro + i by omega]
  covers := by
    intro claim member
    have place := (inv.sound claim member).place
    have sized := (inv.sound claim member).sized
    constructor
    · intro all
      rcases Nat.eq_zero_or_pos claim.m_Size with none | some_
      · rw [Claim.GetAlignedSize, none] at sized
        exact absurd sized (by decide)
      · have last := (all (claim.m_Size - 1) (by omega)).2
        rw [place] at last
        omega
    · intro short i less
      rw [Claim.Window, place]
      omega
  apart := inv.apart
  clear claim member :=
    ⟨(inv.sound claim member).inside, (inv.sound claim member).alias_, (inv.sound claim member).heap⟩
  rest address outside := by rw [inv.view, windows_none outside]
  reserved := inv.lists

/-- However windows are opened and closed, each is onto its code, they keep clear
of each other and of all else, and nothing else of the memory map changes. -/
theorem rw_windows {k : K} {reservations : Reservations} {ops : List Op} (lawful : kernel.Lawful view)
    (proper : regions.aslr.Proper) (empty : Lists reservations [])
    (along : Machine.Along (step kernel view memory regions fuel) (Allowed (view k) fuel) ⟨k, reservations, []⟩ ops)
    (ran : Machine.run (step kernel view memory regions fuel) ⟨k, reservations, []⟩ ops = some world) :
    WindowsOk view (view k) regions world := by
  have start : Inv view (view k) regions ⟨k, reservations, []⟩ :=
    ⟨empty, by simp, by simp, List.Pairwise.nil, rfl⟩
  refine (Machine.run_preserves_along ?_ start along ran).windowsOk
  exact fun inv allowed stepped => step_inv lawful proper (lawful.unmapped k) inv allowed stepped

end Runs

/-! ### A window onto code -/

/-- Two pages of code. -/
def codePages : View := fun address =>
  if address < 0x8000000 then .unmapped
  else if address < 0x8002000 then ⟨MemType.CodeStatic, Perm.Rx, 0, none⟩
  else if address < 0xFFFFFFFFFFFFF000 then .unmapped
  else ⟨MemType.Reserved, 0, 0, none⟩

def oneWindowView : Bool → View
  | false => codePages
  | true => codePages.map 0x8003000 0x8000000 0x1000

/-- A kernel that can open one window and close it. -/
def oneWindow : Kernel Bool where
  svcQueryMemory
    | false, address =>
        if address < 0x8000000 then ⟨0, 0x8000000, 0, 0⟩
        else if address < 0x8002000 then ⟨0x8000000, 0x2000, 3, 5⟩
        else if address < 0xFFFFFFFFFFFFF000 then ⟨0x8002000, 0xFFFFFFFFF7FFD000, 0, 0⟩
        else ⟨0xFFFFFFFFFFFFF000, 0x1000, 16, 0⟩
    | true, address =>
        if address < 0x8000000 then ⟨0, 0x8000000, 0, 0⟩
        else if address < 0x8002000 then ⟨0x8000000, 0x2000, 3, 5⟩
        else if address < 0x8003000 then ⟨0x8002000, 0x1000, 0, 0⟩
        else if address < 0x8004000 then ⟨0x8003000, 0x1000, 15, 3⟩
        else if address < 0xFFFFFFFFFFFFF000 then ⟨0x8004000, 0xFFFFFFFFF7FFB000, 0, 0⟩
        else ⟨0xFFFFFFFFFFFFF000, 0x1000, 16, 0⟩
  svcMapProcessMemory opened rw ro size :=
    if opened = false ∧ rw = 0x8003000 ∧ ro = 0x8000000 ∧ size = 0x1000 then some true else none
  svcUnmapProcessMemory opened rw ro size :=
    if opened = true ∧ rw = 0x8003000 ∧ ro = 0x8000000 ∧ size = 0x1000 then some false else none

theorem codePages_kind (address : Nat) : (codePages address).kind =
    if address < 0x8000000 then (0, 0, 0) else if address < 0x8002000 then (3, 5, 0)
    else if address < 0xFFFFFFFFFFFFF000 then (0, 0, 0) else (16, 0, 0) := by
  unfold codePages
  split_ifs <;> rfl

theorem oneWindowView_kind (address : Nat) : (oneWindowView true address).kind =
    if 0x8003000 ≤ address ∧ address < 0x8004000 then (15, 3, 0) else (codePages address).kind := by
  show ((codePages.map 0x8003000 0x8000000 0x1000) address).kind = _
  unfold View.map
  split_ifs <;> rfl

theorem oneWindow_kind (k : Bool) (address : Nat) : (oneWindowView k address).kind =
    ((oneWindow.svcQueryMemory k address).type, (oneWindow.svcQueryMemory k address).perm, 0) := by
  cases k
  · rw [show oneWindowView false address = codePages address from rfl, codePages_kind]
    dsimp only [oneWindow]
    split_ifs <;> rfl
  · rw [oneWindowView_kind, codePages_kind]
    dsimp only [oneWindow]
    split_ifs <;> first | rfl | omega

theorem oneWindow_lawful : oneWindow.Lawful oneWindowView where
  holds k address small := by
    cases k <;> dsimp only [oneWindow] <;> split_ifs <;> dsimp only <;> omega
  tells k address _ := by
    have kind := oneWindow_kind k address
    exact ⟨(congrArg Prod.fst kind).symm, (congrArg (fun kind => kind.2.1) kind).symm⟩
  uniform k address other small := by
    rw [oneWindow_kind k address]
    cases k
    · dsimp only [oneWindow, oneWindowView]
      rw [codePages_kind]
      split_ifs <;> dsimp only <;> intros <;> first | rfl | omega
    · rw [oneWindowView_kind, codePages_kind]
      dsimp only [oneWindow]
      split_ifs <;> dsimp only <;> intros <;> first | rfl | omega
  largest k address _ := by
    rw [oneWindow_kind k address]
    cases k <;> dsimp only [oneWindow] <;> split_ifs <;> decide
  reserved k := by cases k <;> decide
  unmapped k address free := by
    cases k
    · revert free
      dsimp only [oneWindowView]
      unfold codePages
      split_ifs <;> intro free <;> first | rfl | exact absurd free (by decide)
    · revert free
      dsimp only [oneWindowView]
      unfold View.map codePages
      split_ifs <;> intro free <;>
        first | rfl | exact absurd free (show MemType.ProcessMem ≠ MemType.Unmapped by decide) | exact absurd free (by decide)
  map k rw ro size after called := by
    dsimp only [oneWindow] at called
    split_ifs at called with same
    obtain ⟨rfl, rfl, rfl, rfl⟩ := same
    cases called
    rfl
  unmap k rw ro size after called := by
    dsimp only [oneWindow] at called
    split_ifs at called with same
    obtain ⟨rfl, rfl, rfl, rfl⟩ := same
    cases called
    funext address
    dsimp only [oneWindowView]
    unfold View.unmap View.map codePages
    split_ifs <;> first | rfl | omega

def pageRegions : Regions where
  alias_ := ⟨0, 0⟩
  heap := ⟨0, 0⟩
  aslr := ⟨0x8000000, 0x8004000⟩

def noReservations : Reservations where
  links := { head := fun _ => 0, next := fun _ => 0, prev := fun _ => 0 }
  region _ := ⟨0, 0⟩

/-- The twenty bytes of a hook. -/
def hookWindow : Op := .create 0x8000010 20 1 fun _ => 3

theorem noReservations_lists : Lists noReservations [] :=
  ⟨rfl, List.nodup_nil⟩

theorem pageRegions_proper : pageRegions.aslr.Proper := by
  refine ⟨⟨0x8000, rfl⟩, ?_, ?_⟩ <;> decide

theorem codePages_mapped {address : Nat} (above : 0x8000000 ≤ address) (below : address < 0x8001000) :
    (codePages address).Mapped := by
  unfold codePages
  rw [if_neg (by omega), if_pos (by omega)]
  decide

theorem hookWindow_allowed {K : Type} {world : World K} (none : world.claims = []) :
    Allowed codePages 0x1000 world hookWindow := by
  refine ⟨?_, ?_, ?_, fun address above below => codePages_mapped above below, ?_, ?_⟩
  · simp [none]
  · decide
  · decide
  · simp [none]
  · decide

theorem rw_windows_hook :
    ∃ world, Machine.run (step oneWindow oneWindowView (fun _ => 0) pageRegions 0x1000) ⟨false, noReservations, []⟩
        [hookWindow, .destroy 0, hookWindow] = some world ∧
      WindowsOk oneWindowView (oneWindowView false) pageRegions world := by
  have ends : (Machine.run (step oneWindow oneWindowView (fun _ => 0) pageRegions 0x1000) ⟨false, noReservations, []⟩
      [hookWindow, .destroy 0, hookWindow]).isSome := by
    decide +kernel
  obtain ⟨world, ran⟩ := Option.isSome_iff_exists.mp ends
  refine ⟨world, ran, rw_windows oneWindow_lawful pageRegions_proper noReservations_lists ?_ ran⟩
  refine ⟨hookWindow_allowed rfl, fun opened made => ?_⟩
  simp only [hookWindow, step] at made
  obtain ⟨_, _, _, _, _, _, rfl⟩ := RwPages_ok (completed_eq_some.mp made)
  refine ⟨?_, fun closed done => ?_⟩
  · rintro claim ⟨⟩
    show pageAlign 20 ≤ 0x1000
    decide
  · simp only [step, List.getElem?_cons_zero] at done
    obtain ⟨_, _, rfl⟩ := destroy_ok (completed_eq_some.mp done)
    exact ⟨hookWindow_allowed rfl, fun _ _ => trivial⟩

end Smmboss.Space
