import Smmboss.Rpc.SafeMemcpy

namespace Smmboss.Rpc

open Smmboss.Guest (GuestMemory MemoryMap MemRegions Granted Unfindable add64 memTypeUnmapped permR
  permRw)
open Smmboss.Guest.MemoryMap (accessibleBytesAt_chunk accessibleBytesAt_loaded)
open Smmboss.Prefix (LongestPrefix)

/-! # Copies between two addresses

What `safe_memcpy` does for every combination of its two checks.
-/

/-- There is such a byte, and `accessible_bytes_at` grants the access to it. -/
def Permitted (map : MemoryMap) (wantWrite : Bool) (addr : Nat) : Prop :=
  addr < 2 ^ 64 ∧ map.Allows addr wantWrite

/-- The byte at this place passes the checks that were asked for. -/
def Passes (map : MemoryMap) (dst : Nat) (checkDst : Bool) (src : Nat) (checkSrc : Bool)
    (place : Nat) : Prop :=
  (checkDst = true → Permitted map true (dst + place)) ∧
    (checkSrc = true → Permitted map false (src + place))

/-- The check that decides how far the loop goes: the one of the source, if both
are asked for. -/
def Governs (map : MemoryMap) (dst : Nat) (checkDst : Bool) (src : Nat) (checkSrc : Bool)
    (place : Nat) : Prop :=
  (checkSrc = true → Permitted map false (src + place)) ∧
    (checkSrc = false → checkDst = true → Permitted map true (dst + place))

/-- One call of `memcpy`. -/
structure Round where
  dst : Pointer
  src : Pointer
  count : Nat

/-- The calls of `memcpy` that `copyLoop` makes. -/
def copyRounds (map : MemoryMap) (world : World) (dst : Pointer) (checkDst : Bool) (src : Pointer)
    (checkSrc : Bool) (size : Nat) : List Round :=
  if size = 0 then []
  else
    match world.curSize map dst checkDst src checkSrc size with
    | none => []
    | some (current, world) =>
        if current = 0 then []
        else
          match world.memcpy dst src current with
          | none => []
          | some world =>
              ⟨dst, src, current⟩ ::
                copyRounds map world (dst.advance current) checkDst (src.advance current) checkSrc
                  (size - current)
termination_by size

/-- The call reads and writes within the first `count` bytes. -/
def Round.Within (dst src count : Nat) (round : Round) : Prop :=
  ∃ place, round.dst = .guest (dst + place) ∧ round.src = .guest (src + place) ∧
    place + round.count ≤ count

section Copy

variable {map : MemoryMap} {world : World} {dst src size : Nat} {checkDst checkSrc : Bool}

/-- One check limits the size to permitted bytes, which end below 2^64. -/
theorem check_guest (reached : map.Reached world.regions) {addr : Nat} (bound : addr < 2 ^ 64)
    (wantWrite : Bool) :
    ∃ bytes regions, world.accessibleBytesAt map wantWrite (.guest addr) =
        some (bytes, { world with regions }) ∧
      map.Reached regions ∧ addr + bytes < 2 ^ 64 ∧
      (∀ place < bytes, Permitted map wantWrite (addr + place)) ∧
      (bytes = 0 → ¬ Permitted map wantWrite addr) := by
  obtain ⟨bytes, regions, called, next, below, chunk, denied⟩ :=
    accessibleBytesAt_chunk reached bound wantWrite
  refine ⟨bytes, regions, ?_, next, below, ?_, ?_⟩
  · simp only [World.accessibleBytesAt, called, Option.map_some]
  · intro place inside
    exact ⟨by omega, chunk place inside⟩
  · intro none permitted
    exact denied none permitted.2

/-- One round: `current` bytes pass the check that governs. -/
structure RoundOk (map : MemoryMap) (dst : Nat) (checkDst : Bool) (src : Nat) (checkSrc : Bool)
    (size current : Nat) : Prop where
  within : current ≤ size
  pass : ∀ place < current, Governs map dst checkDst src checkSrc place
  stops : current = 0 → size ≠ 0 → ¬ Governs map dst checkDst src checkSrc 0
  srcBelow : checkSrc = true → src + current < 2 ^ 64
  dstBelow : checkSrc = false → checkDst = true → dst + current < 2 ^ 64
  whole : checkSrc = false → checkDst = false → current = size

theorem curSize_guest (size : Nat) (reached : map.Reached world.regions) (dstBound : dst < 2 ^ 64)
    (srcBound : src < 2 ^ 64) :
    ∃ current regions,
      world.curSize map (.guest dst) checkDst (.guest src) checkSrc size =
        some (current, { world with regions }) ∧
      map.Reached regions ∧ RoundOk map dst checkDst src checkSrc size current := by
  have first : ∃ current regions,
      (if checkDst then (world.accessibleBytesAt map true (.guest dst)).map fun answer =>
          (min size answer.1, answer.2)
        else some (size, world)) = some (current, { world with regions }) ∧
      map.Reached regions ∧ RoundOk map dst checkDst src false size current := by
    cases checkDst with
    | false =>
        exact ⟨size, world.regions, rfl, reached, Nat.le_refl size, fun _ _ => ⟨by simp, by simp⟩,
          fun none some => absurd none some, by simp, by simp, fun _ _ => rfl⟩
    | true =>
        obtain ⟨bytes, regions, called, next, below, chunk, denied⟩ :=
          check_guest reached dstBound true
        refine ⟨min size bytes, regions, ?_, next, Nat.min_le_left _ _, ?_, ?_, by simp, ?_, by simp⟩
        · rw [if_pos rfl, called, Option.map_some]
        · intro place inside
          exact ⟨by simp, fun _ _ => chunk place (by omega)⟩
        · intro none some governs
          exact denied (by omega) (governs.2 rfl rfl)
        · intro _ _
          omega
  obtain ⟨current, regions, checked, next, ok⟩ := first
  unfold World.curSize
  rw [checked, Option.bind_some]
  cases checkSrc with
  | false => exact ⟨current, regions, rfl, next, ok⟩
  | true =>
      obtain ⟨bytes, later, called, last, below, readable, unreadable⟩ :=
        @check_guest map { world with regions } next src srcBound false
      refine ⟨min size bytes, later, ?_, last, Nat.min_le_left _ _, ?_, ?_, ?_, by simp, by simp⟩
      · rw [if_pos rfl, called, Option.map_some]
      · intro place inside
        exact ⟨fun _ => readable place (by omega), by simp⟩
      · intro none some governs
        exact unreadable (by omega) (governs.1 rfl)
      · intro _
        omega

/-- The governing side of the next round starts where this one ended. -/
theorem RoundOk.shift {current : Nat} (ok : RoundOk map dst checkDst src checkSrc size current)
    (place : Nat) :
    Governs map (add64 dst current) checkDst (add64 src current) checkSrc place ↔
      Governs map dst checkDst src checkSrc (current + place) := by
  have srcBelow := ok.srcBelow
  have dstBelow := ok.dstBelow
  unfold Governs add64
  cases checkSrc with
  | true =>
      rw [Nat.mod_eq_of_lt (srcBelow rfl), Nat.add_assoc]
      simp
  | false =>
      cases checkDst with
      | true =>
          rw [Nat.mod_eq_of_lt (dstBelow rfl rfl), Nat.add_assoc dst]
          simp
      | false => simp

/-- As long as the governing check passes, both sides stay in the address space. -/
def InSpace (map : MemoryMap) (dst : Nat) (checkDst : Bool) (src : Nat) (checkSrc : Bool)
    (size : Nat) : Prop :=
  ∀ place < size, (∀ earlier < place, Governs map dst checkDst src checkSrc earlier) →
    dst + place < 2 ^ 64 ∧ src + place < 2 ^ 64

/-- The first `count` bytes have been copied, and no others read or written. -/
structure Copied (world after : World) (dst src count : Nat) (rounds : List Round) : Prop where
  memory : after.memory = world.memory.write dst (world.memory.read src count)
  rounds : ∀ round ∈ rounds, round.Within dst src count

theorem Copied.none (world : World) (regions : MemRegions) (dst src : Nat) :
    Copied world { world with regions } dst src 0 [] where
  memory := by
    funext other
    simp [GuestMemory.write]
  rounds := by simp

/-- One call of `memcpy` and what the later ones copied. -/
theorem Copied.cons (middle : World) {after : World} {current count : Nat} {rounds : List Round}
    (apart : dst + (current + count) ≤ src ∨ src + (current + count) ≤ dst)
    (memory : middle.memory = world.memory.write dst (world.memory.read src current))
    (rest : Copied middle after (dst + current) (src + current) count rounds) :
    Copied world after dst src (current + count) (⟨.guest dst, .guest src, current⟩ :: rounds) where
  memory := by
    have length : (world.memory.read src current).length = current := by simp
    have same : middle.memory.read (src + current) count =
        world.memory.read (src + current) count := by
      rw [memory]
      apply GuestMemory.read_congr
      intro offset inside
      rcases apart with before | after
      · apply GuestMemory.write_after
        rw [length]
        omega
      · apply GuestMemory.write_before
        omega
    have joined := world.memory.write_append dst (world.memory.read src current)
      (world.memory.read (src + current) count)
    rw [length] at joined
    rw [rest.memory, same, memory, joined, ← GuestMemory.read_add]
  rounds := by
    intro round member
    rcases List.mem_cons.mp member with rfl | later
    · exact ⟨0, rfl, rfl, by simp⟩
    · obtain ⟨place, target, source, within⟩ := rest.rounds round later
      exact ⟨current + place, by rw [target, Nat.add_assoc], by rw [source, Nat.add_assoc], by omega⟩

/-- The loop copies the longest prefix that passes the governing check. -/
theorem copyLoop_guest (reached : map.Reached world.regions) (dstBound : dst < 2 ^ 64)
    (srcBound : src < 2 ^ 64) :
    ∃ count after, copyLoop map world (.guest dst) checkDst (.guest src) checkSrc size =
        some (size - count, after) ∧
      LongestPrefix (Governs map dst checkDst src checkSrc) size count ∧
      after.send = world.send ∧
      (dst + size ≤ src ∨ src + size ≤ dst → InSpace map dst checkDst src checkSrc size →
        Copied world after dst src count
          (copyRounds map world (.guest dst) checkDst (.guest src) checkSrc size)) := by
  induction size using Nat.strongRecOn generalizing world dst src with
  | ind size ih =>
      rw [copyRounds]
      by_cases empty : size = 0
      · subst empty
        refine ⟨0, world, copyLoop_zero, ⟨Nat.le_refl 0, by simp, by simp⟩, rfl, fun _ _ => ?_⟩
        exact Copied.none world world.regions dst src
      obtain ⟨current, regions, sized, next, ok⟩ :=
        @curSize_guest map world dst src checkDst checkSrc size reached dstBound srcBound
      have within := ok.within
      rw [copyLoop, if_neg empty, if_neg empty, sized]
      simp only
      by_cases stopped : current = 0
      · rw [if_pos stopped, if_pos stopped]
        exact ⟨0, _, rfl, .empty (ok.stops stopped empty), rfl, fun _ _ =>
          Copied.none world regions dst src⟩
      have copied : ({ world with regions } : World).memcpy (.guest dst) (.guest src) current =
          some { world with
            regions, memory := world.memory.write dst (world.memory.read src current) } := rfl
      obtain ⟨count, after, rest, longest, send, memory⟩ :=
        @ih (size - current) (by omega) { world with
            regions, memory := world.memory.write dst (world.memory.read src current) }
          (add64 dst current) (add64 src current) next (Nat.mod_lt _ (by decide))
          (Nat.mod_lt _ (by decide))
      have shift : Governs map (add64 dst current) checkDst (add64 src current) checkSrc =
          fun place => Governs map dst checkDst src checkSrc (current + place) :=
        funext fun place => propext (ok.shift place)
      rw [shift] at longest
      rw [if_neg stopped, if_neg stopped, copied]
      simp only [Pointer.advance, rest]
      have fewer := longest.within
      refine ⟨current + count, after, ?_, .append ok.pass within longest, send, ?_⟩
      · congr 2
        omega
      · intro apart inSpace
        by_cases done : current = size
        · have none : count = 0 := by omega
          subst none
          have last : size - current = 0 := by omega
          rw [last, copyLoop_zero] at rest
          rw [last, copyRounds, if_pos rfl]
          cases rest
          exact .cons { world with
              regions, memory := world.memory.write dst (world.memory.read src current) }
            (by omega) rfl (Copied.none _ regions _ _)
        · obtain ⟨dstNext, srcNext⟩ := inSpace current (by omega) ok.pass
          have exact : add64 dst current = dst + current ∧ add64 src current = src + current :=
            ⟨Nat.mod_eq_of_lt dstNext, Nat.mod_eq_of_lt srcNext⟩
          rw [exact.1, exact.2] at memory ⊢
          apply Copied.cons { world with
              regions, memory := world.memory.write dst (world.memory.read src current) }
            (by omega) rfl
          apply memory (by omega)
          intro place inside passed
          have reached := inSpace (current + place) (by omega) (by
            intro earlier before
            by_cases early : earlier < current
            · exact ok.pass earlier early
            · have later := passed (earlier - current) (by omega)
              rw [← exact.1, ← exact.2, ok.shift] at later
              rwa [Nat.add_sub_of_le (by omega)] at later)
          omega

/-- The call ends with the length of the longest prefix that passes all checks,
and it has copied that prefix and touched nothing else. -/
def CopiesExactly (map : MemoryMap) (world : World) (dst : Nat) (checkDst : Bool) (src : Nat)
    (checkSrc : Bool) (size : Nat) : Prop :=
  ∃ count after, safeMemcpy map world (.guest dst) checkDst (.guest src) checkSrc size =
      some (count, after) ∧
    LongestPrefix (Passes map dst checkDst src checkSrc) size count ∧
    after.send = world.send ∧
    Copied world after dst src count
      (copyRounds map world (.guest dst) checkDst (.guest src) checkSrc size)

/-- With both checks, every byte of the readable prefix of the source has a
writable destination. -/
def SourceLimits (map : MemoryMap) (dst : Nat) (checkDst : Bool) (src : Nat) (checkSrc : Bool)
    (size : Nat) : Prop :=
  checkDst = true → checkSrc = true → ∀ place < size,
    (∀ earlier ≤ place, Permitted map false (src + earlier)) → Permitted map true (dst + place)

theorem Passes.governs {place : Nat} (passes : Passes map dst checkDst src checkSrc place) :
    Governs map dst checkDst src checkSrc place :=
  ⟨passes.2, fun _ => passes.1⟩

theorem SourceLimits.passes (limits : SourceLimits map dst checkDst src checkSrc size)
    {place : Nat} (inside : place < size)
    (governed : ∀ earlier ≤ place, Governs map dst checkDst src checkSrc earlier) :
    Passes map dst checkDst src checkSrc place := by
  refine ⟨?_, (governed place (Nat.le_refl place)).1⟩
  intro askedDst
  cases askedSrc : checkSrc with
  | false => exact (governed place (Nat.le_refl place)).2 askedSrc askedDst
  | true =>
      exact limits askedDst askedSrc place inside fun earlier before =>
        (governed earlier before).1 askedSrc

/-- The last byte of the address space is never permitted. -/
theorem Permitted.next {wantWrite : Bool} {addr : Nat} (permitted : Permitted map wantWrite addr) :
    addr + 1 < 2 ^ 64 := by
  obtain ⟨bound, bytes, after, called, some⟩ := permitted
  obtain ⟨others, later, same, -, below, -⟩ :=
    @accessibleBytesAt_chunk map {} addr (.inl rfl) bound wantWrite
  rw [called, Option.some.injEq, Prod.mk.injEq] at same
  omega

theorem SourceLimits.inSpace (limits : SourceLimits map dst checkDst src checkSrc size)
    (dstBound : dst < 2 ^ 64) (srcBound : src < 2 ^ 64)
    (dstRange : checkDst = false → dst + size ≤ 2 ^ 64)
    (srcRange : checkSrc = false → src + size ≤ 2 ^ 64) :
    InSpace map dst checkDst src checkSrc size := by
  intro place inside governed
  cases place with
  | zero => exact ⟨dstBound, srcBound⟩
  | succ place =>
      have passes := limits.passes (Nat.lt_of_succ_lt inside) fun earlier before =>
        governed earlier (Nat.lt_succ_of_le before)
      constructor
      · cases askedDst : checkDst with
        | false =>
            have range := dstRange askedDst
            omega
        | true => exact (passes.1 askedDst).next
      · cases askedSrc : checkSrc with
        | false =>
            have range := srcRange askedSrc
            omega
        | true => exact (passes.2 askedSrc).next

theorem copiesExactly_of_limits (reached : map.Reached world.regions) (dstBound : dst < 2 ^ 64)
    (srcBound : src < 2 ^ 64) (apart : dst + size ≤ src ∨ src + size ≤ dst)
    (dstRange : checkDst = false → dst + size ≤ 2 ^ 64)
    (srcRange : checkSrc = false → src + size ≤ 2 ^ 64)
    (limits : SourceLimits map dst checkDst src checkSrc size) :
    CopiesExactly map world dst checkDst src checkSrc size := by
  obtain ⟨count, after, copied, longest, send, memory⟩ :=
    @copyLoop_guest map world dst src size checkDst checkSrc reached dstBound srcBound
  have within := longest.within
  refine ⟨count, after, ?_, ?_, send, ?_⟩
  · rw [safeMemcpy, copied, Option.map_some, Nat.sub_sub_self within]
  · refine ⟨within, ?_, fun short passes => longest.stops short passes.governs⟩
    intro place inside
    exact limits.passes (by omega) fun earlier before => longest.all earlier (by omega)
  · exact memory apart (limits.inSpace dstBound srcBound dstRange srcRange)

theorem limits_of_copiesExactly (reached : map.Reached world.regions) (dstBound : dst < 2 ^ 64)
    (srcBound : src < 2 ^ 64) (exact : CopiesExactly map world dst checkDst src checkSrc size) :
    SourceLimits map dst checkDst src checkSrc size := by
  obtain ⟨count, after, copied, passes, -⟩ := exact
  obtain ⟨others, later, looped, longest, -⟩ :=
    @copyLoop_guest map world dst src size checkDst checkSrc reached dstBound srcBound
  have within := longest.within
  rw [safeMemcpy, looped, Option.map_some, Nat.sub_sub_self within, Option.some.injEq,
    Prod.mk.injEq] at copied
  obtain ⟨rfl, -⟩ := copied
  intro askedDst askedSrc place inside readable
  have reaches : place < others := by
    by_contra beyond
    apply longest.stops (by omega)
    refine ⟨fun _ => readable others (by omega), ?_⟩
    intro unasked
    rw [askedSrc] at unasked
    contradiction
  exact (passes.all place reaches).1 askedDst

/-- The call does what it should exactly if it is not asked for both checks, or
the source is the side that ends first. -/
theorem safeMemcpy_exact_iff (reached : map.Reached world.regions) (dstBound : dst < 2 ^ 64)
    (srcBound : src < 2 ^ 64) (apart : dst + size ≤ src ∨ src + size ≤ dst)
    (dstRange : checkDst = false → dst + size ≤ 2 ^ 64)
    (srcRange : checkSrc = false → src + size ≤ 2 ^ 64) :
    CopiesExactly map world dst checkDst src checkSrc size ↔
      SourceLimits map dst checkDst src checkSrc size :=
  ⟨limits_of_copiesExactly reached dstBound srcBound,
    copiesExactly_of_limits reached dstBound srcBound apart dstRange srcRange⟩

/-- Where the lookup is right, it goes by the permissions of the mapping. -/
theorem permitted_iff {wantWrite : Bool} {addr : Nat} (bound : addr < 2 ^ 64)
    (findable : ¬ Unfindable map addr) :
    Permitted map wantWrite addr ↔ Granted map addr wantWrite := by
  rw [Permitted, MemoryMap.allows_iff bound]
  simp only [bound, findable, true_and, not_false_eq_true, and_true]

end Copy

theorem page_positive : 0 < 0x1000 := by decide

/-- A writable page, a page that can only be read, and nothing else. -/
def readOnlyPage : MemoryMap where
  blocks := [
    { size := 0x1000, type := memTypeUnmapped, perm := 0, positive := page_positive },
    { size := 0x1000, type := 3, perm := permRw, positive := page_positive },
    { size := 0x1000, type := 3, perm := permR, positive := page_positive },
    { size := 2 ^ 64 - 0x3000, type := memTypeUnmapped, perm := 0, positive := by decide }]
  covers := by decide

theorem readOnlyPage_findable (addr : Nat) : ¬ Unfindable readOnlyPage addr := by
  intro unfindable
  exact unfindable.toTheEnd (by decide)

theorem nothing_within : 0 ≤ ([] : List UInt8).length := Nat.le_refl 0

def idleWorld : World where
  memory := fun _ => 0
  regions := {}
  send := { buf := [], len := 0, within := nothing_within }

theorem safeMemcpy_exact_iff_oneCheck :
    CopiesExactly readOnlyPage idleWorld 0x1000 true 0x5000 false 16 :=
  (@safeMemcpy_exact_iff readOnlyPage idleWorld 0x1000 0x5000 16 true false (.inl rfl) (by decide)
    (by decide) (by decide) (by decide) (by decide)).mpr (fun _ unasked => by contradiction)

/-- With both checks, one byte is copied to a page that cannot be written. -/
theorem bothChecks_overwrite :
    ¬ Granted readOnlyPage 0x2000 true ∧
    (∃ after, safeMemcpy readOnlyPage idleWorld (.guest 0x2000) true (.guest 0x1000) true 1 =
      some (1, after)) ∧
    ¬ CopiesExactly readOnlyPage idleWorld 0x2000 true 0x1000 true 1 := by
  have denied : ¬ Granted readOnlyPage 0x2000 true := by
    intro ⟨perm, mapped, writable⟩
    have page : readOnlyPage.mapping 0x2000 = some permR := by decide
    rw [page, Option.some.injEq] at mapped
    subst mapped
    revert writable
    decide
  have readable : Permitted readOnlyPage false 0x1000 :=
    (permitted_iff (by decide) (readOnlyPage_findable _)).mpr ⟨permRw, by decide, by decide⟩
  refine ⟨denied, ?_, ?_⟩
  · obtain ⟨count, after, copied, longest, -⟩ :=
      @copyLoop_guest readOnlyPage idleWorld 0x2000 0x1000 1 true true (.inl rfl) (by decide)
        (by decide)
    have within := longest.within
    have one : count = 1 := by
      by_contra less
      obtain rfl : count = 0 := by omega
      exact longest.stops (by decide) ⟨fun _ => readable, by simp⟩
    subst one
    refine ⟨after, ?_⟩
    rw [safeMemcpy, copied]
    rfl
  · intro exact
    have limits := limits_of_copiesExactly (.inl rfl) (by decide) (by decide) exact rfl rfl 0
      (by decide) (by
        intro earlier first
        obtain rfl : earlier = 0 := by omega
        exact readable)
    exact denied ((permitted_iff (by decide) (readOnlyPage_findable _)).mp limits)

end Smmboss.Rpc
