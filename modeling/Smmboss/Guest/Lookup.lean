import Smmboss.Guest.Regions

namespace Smmboss.Guest

open Smmboss.Search

/-! # The lookup finds the run of an address

The cached regions are the maximal runs of the map.  Only the run that ends at
2^64 breaks the order the search relies on: its end wraps to 0, so it always
claims to lie before the address.
-/

/-! ## Blocks from the end -/

section Blocks

variable {blocks : List Block} {block : Block} {addr : Nat}

@[simp] theorem extent_nil : extent [] = 0 := rfl

@[simp] theorem extent_append (first second : List Block) :
    extent (first ++ second) = extent first + extent second := by
  simp [extent]

@[simp] theorem extent_singleton (block : Block) : extent [block] = block.size := by
  simp [extent]

theorem blockAt_append {base : Nat} (second : List Block) (above : base ≤ addr) :
    blockAt base (blocks ++ second) addr =
      if addr < base + extent blocks then blockAt base blocks addr
      else blockAt (base + extent blocks) second addr := by
  induction blocks generalizing base with
  | nil => rw [List.nil_append, extent_nil, Nat.add_zero, if_neg (by omega)]
  | cons block blocks ih =>
      have size : extent (block :: blocks) = block.size + extent blocks := by simp [extent]
      rw [List.cons_append, blockAt, blockAt, size, ← Nat.add_assoc]
      split_ifs with inside below
      · rfl
      · omega
      · rw [ih (by omega), if_pos ‹_›]
      · rw [ih (by omega), if_neg ‹_›]

theorem blockAt_beyond {base : Nat} (beyond : base + extent blocks ≤ addr) :
    blockAt base blocks addr = none := by
  induction blocks generalizing base with
  | nil => rfl
  | cons block blocks ih =>
      have size : extent (block :: blocks) = block.size + extent blocks := by simp [extent]
      rw [blockAt, if_neg (by omega)]
      exact ih (by omega)

theorem mappingIn_snoc :
    mappingIn (blocks ++ [block]) addr =
      if addr < extent blocks then mappingIn blocks addr
      else if addr < extent blocks + block.size then block.mapping else none := by
  rw [mappingIn, blockAt_append [block] (Nat.zero_le addr)]
  simp only [Nat.zero_add, blockAt]
  split_ifs with inside last
  · rfl
  · rfl
  · rfl

theorem mappingIn_beyond (beyond : extent blocks ≤ addr) : mappingIn blocks addr = none := by
  rw [mappingIn, blockAt_beyond (by omega)]
  rfl

theorem runStarts_snoc (base : Nat) (previous : Option Nat) (blocks : List Block) (block : Block) :
    runStarts base previous (blocks ++ [block]) =
      runStarts base previous blocks ++
        if block.mapping ≠ none ∧
            block.mapping ≠ (blocks.getLast?.map Block.mapping).getD previous then
          [base + extent blocks]
        else [] := by
  induction blocks generalizing base previous with
  | nil => simp [runStarts]
  | cons first blocks ih =>
      have size : extent (first :: blocks) = first.size + extent blocks := by simp [extent]
      have final : ((first :: blocks).getLast?.map Block.mapping).getD previous =
          (blocks.getLast?.map Block.mapping).getD first.mapping := by
        rw [List.getLast?_cons]
        cases blocks.getLast? <;> rfl
      simp only [List.cons_append, runStarts, ih, final, size, Nat.add_assoc]
      split_ifs <;> simp

end Blocks

/-! ## Runs -/

structure Run where
  start : Nat
  stop : Nat
  perm : Nat

structure Run.Holds (run : Run) (addr : Nat) : Prop where
  lower : run.start ≤ addr
  upper : addr < run.stop

/-- The cached region of a run; only a run of 2^64 bytes has its size wrapped. -/
def Run.region (run : Run) : Region :=
  { start := run.start, size := (run.stop - run.start) % 2 ^ 64, perm := run.perm }

/-- The runs are the maximal runs of mapped blocks with equal permissions. -/
structure RunsOf (blocks : List Block) (runs : List Run) : Prop where
  ordered : runs.Pairwise fun left right =>
    left.stop ≤ right.start ∧ (left.stop = right.start → left.perm ≠ right.perm)
  bounds : ∀ run ∈ runs, run.start < run.stop ∧ run.stop ≤ extent blocks
  exact : ∀ addr perm, mappingIn blocks addr = some perm ↔
    ∃ run ∈ runs, run.Holds addr ∧ run.perm = perm
  starts : runs.map Run.start = runStarts 0 none blocks
  final : ∀ perm, blocks.getLast?.bind Block.mapping = some perm ↔
    ∃ last, runs.getLast? = some last ∧ last.stop = extent blocks ∧ last.perm = perm

namespace RunsOf

variable {blocks : List Block} {block : Block} {runs front : List Run} {last : Run} {perm : Nat}

theorem nil : RunsOf [] [] where
  ordered := .nil
  bounds := by simp
  exact := by simp [mappingIn, blockAt]
  starts := rfl
  final := by simp

theorem skip (of : RunsOf blocks runs) (unmapped : block.mapping = none) :
    RunsOf (blocks ++ [block]) runs where
  ordered := of.ordered
  bounds := by
    intro run member
    have inside := of.bounds run member
    rw [extent_append, extent_singleton]
    omega
  exact := by
    intro addr perm
    rw [← of.exact, mappingIn_snoc, unmapped, ite_self]
    split_ifs with inside
    · rfl
    · simp [mappingIn_beyond (Nat.le_of_not_lt inside)]
  starts := by
    rw [runStarts_snoc, of.starts]
    simp [unmapped]
  final := by
    intro perm
    simp only [List.getLast?_append, List.getLast?_singleton, Option.some_or, Option.bind_some,
      unmapped, extent_append, extent_singleton]
    constructor
    · intro absurd
      cases absurd
    · intro ⟨last, ends, stop, _⟩
      have inside := of.bounds last (List.mem_of_getLast? ends)
      have positive := block.positive
      omega

/-- Behind the blocks seen so far there is only the run that ends with the next
one. -/
theorem holds_beyond (below : ∀ run ∈ front, run.stop ≤ extent blocks) {lower addr other : Nat}
    (starts : lower ≤ extent blocks) (outside : ¬ addr < extent blocks) :
    (if addr < extent blocks + block.size then some perm else none) = some other ↔
      ∃ run ∈ front ++ [{ start := lower, stop := extent blocks + block.size, perm }],
        run.Holds addr ∧ run.perm = other := by
  constructor
  · intro found
    split_ifs at found with within
    cases found
    refine ⟨_, List.mem_append_right _ (List.mem_singleton_self _), ⟨?_, within⟩, rfl⟩
    exact Nat.le_trans starts (Nat.le_of_not_lt outside)
  · intro ⟨run, member, holds, same⟩
    have upper := holds.upper
    rcases List.mem_append.mp member with old | new
    · have inside := below run old
      omega
    · obtain rfl := List.mem_singleton.mp new
      rw [if_pos upper, ← same]

theorem start (of : RunsOf blocks runs) (mapped : block.mapping = some perm)
    (fresh : blocks.getLast?.bind Block.mapping ≠ some perm) :
    RunsOf (blocks ++ [block])
      (runs ++ [{ start := extent blocks, stop := extent blocks + block.size, perm }]) where
  ordered := by
    rw [List.pairwise_append]
    refine ⟨of.ordered, List.pairwise_singleton _ _, ?_⟩
    intro left member right same
    obtain rfl := List.mem_singleton.mp same
    have inside := of.bounds left member
    refine ⟨inside.2, ?_⟩
    intro touching equal
    refine fresh ((of.final perm).mpr ?_)
    obtain ⟨front, back, split⟩ := List.append_of_mem member
    cases back with
    | nil => exact ⟨left, by simp [split], touching, equal⟩
    | cons next back =>
        have order := of.ordered
        rw [split, List.pairwise_append, List.pairwise_cons] at order
        have after := (order.2.1.1 next (by simp)).1
        have beyond := of.bounds next (by simp [split])
        change left.stop = extent blocks at touching
        omega
  bounds := by
    intro run member
    rw [extent_append, extent_singleton]
    rcases List.mem_append.mp member with old | new
    · have inside := of.bounds run old
      omega
    · obtain rfl := List.mem_singleton.mp new
      have positive := block.positive
      exact ⟨by simp only; omega, Nat.le_refl _⟩
  exact := by
    intro addr other
    rw [mappingIn_snoc]
    by_cases inside : addr < extent blocks
    · rw [if_pos inside, of.exact]
      constructor
      · intro ⟨run, member, holds, same⟩
        exact ⟨run, List.mem_append_left _ member, holds, same⟩
      · intro ⟨run, member, holds, same⟩
        rcases List.mem_append.mp member with old | new
        · exact ⟨run, old, holds, same⟩
        · obtain rfl := List.mem_singleton.mp new
          exact absurd holds.lower (by simp only; omega)
    · rw [if_neg inside, mapped]
      exact holds_beyond (fun run member => (of.bounds run member).2) (Nat.le_refl _) inside
  starts := by
    have differs : block.mapping ≠ (blocks.getLast?.map Block.mapping).getD none := by
      rw [mapped]
      cases ends : blocks.getLast? with
      | none => simp
      | some final =>
          rw [ends] at fresh
          exact fun same => fresh same.symm
    rw [runStarts_snoc, List.map_append, of.starts, if_pos ⟨by simp [mapped], differs⟩]
    simp
  final := by
    intro other
    simp [mapped]

theorem extend (of : RunsOf blocks (front ++ [last])) (mapped : block.mapping = some last.perm)
    (touching : last.stop = extent blocks) :
    RunsOf (blocks ++ [block])
      (front ++ [{ last with stop := extent blocks + block.size }]) where
  ordered := by
    have order := of.ordered
    rw [List.pairwise_append] at order ⊢
    refine ⟨order.1, List.pairwise_singleton _ _, ?_⟩
    intro left member right same
    obtain rfl := List.mem_singleton.mp same
    exact order.2.2 left member last (by simp)
  bounds := by
    intro run member
    rw [extent_append, extent_singleton]
    rcases List.mem_append.mp member with old | new
    · have inside := of.bounds run (List.mem_append_left _ old)
      omega
    · obtain rfl := List.mem_singleton.mp new
      have inside := of.bounds last (by simp)
      exact ⟨by simp only; omega, Nat.le_refl _⟩
  exact := by
    intro addr other
    have positive := block.positive
    rw [mappingIn_snoc]
    by_cases inside : addr < extent blocks
    · rw [if_pos inside, of.exact]
      constructor
      · intro ⟨run, member, holds, same⟩
        rcases List.mem_append.mp member with old | new
        · exact ⟨run, List.mem_append_left _ old, holds, same⟩
        · obtain rfl := List.mem_singleton.mp new
          refine ⟨_, List.mem_append_right _ (List.mem_singleton_self _), ⟨holds.lower, ?_⟩, same⟩
          simp only
          omega
      · intro ⟨run, member, holds, same⟩
        rcases List.mem_append.mp member with old | new
        · exact ⟨run, List.mem_append_left _ old, holds, same⟩
        · obtain rfl := List.mem_singleton.mp new
          exact ⟨last, by simp, ⟨holds.lower, by omega⟩, same⟩
    · have below := of.bounds last (by simp)
      rw [if_neg inside, mapped]
      have others : ∀ run ∈ front, run.stop ≤ extent blocks :=
        fun run member => (of.bounds run (List.mem_append_left _ member)).2
      exact holds_beyond others (by omega) inside
  starts := by
    have ends : blocks.getLast?.bind Block.mapping = some last.perm :=
      (of.final last.perm).mpr ⟨last, by simp, touching, rfl⟩
    have same : (blocks.getLast?.map Block.mapping).getD none = some last.perm := by
      cases final : blocks.getLast? with
      | none => simp [final] at ends
      | some final' => simpa [final] using ends
    have starts := of.starts
    rw [runStarts_snoc, ← starts, same, mapped]
    simp
  final := by
    intro other
    simp [mapped]

/-- One step of `load_cached_regions` keeps the cached regions the runs of the
blocks seen so far. -/
theorem absorb (of : RunsOf blocks runs) (fits : extent (blocks ++ [block]) ≤ 2 ^ 64) :
    ∃ after, RunsOf (blocks ++ [block]) after ∧
      Guest.absorb (runs.map Run.region) (block.info (extent blocks)) = after.map Run.region := by
  rw [extent_append, extent_singleton] at fits
  have positive := block.positive
  unfold Guest.absorb Block.info
  by_cases unmapped : block.type = memTypeUnmapped
  · exact ⟨runs, of.skip (if_pos unmapped), if_pos unmapped⟩
  have mapped : block.mapping = some block.perm := if_neg unmapped
  simp only [if_neg unmapped]
  rcases List.eq_nil_or_concat runs with rfl | ⟨front, last, rfl⟩
  · refine ⟨_, of.start mapped ?_, ?_⟩
    · intro same
      obtain ⟨last, ends, -⟩ := (of.final _).mp same
      cases ends
    · simp [Run.region]
  · rw [List.concat_eq_append] at of ⊢
    have inside := of.bounds last (by simp)
    have wrapped : add64 last.start ((last.stop - last.start) % 2 ^ 64) = last.stop := by
      unfold add64
      omega
    simp only [List.map_append, List.map_singleton, List.getLast?_append, List.getLast?_singleton,
      Option.some_or, List.dropLast_concat]
    simp only [Run.region, wrapped]
    split_ifs with joined
    · refine ⟨_, of.extend (mapped.trans (congrArg some joined.1.symm)) joined.2, ?_⟩
      have size : add64 ((last.stop - last.start) % 2 ^ 64) (block.size % 2 ^ 64) =
          (extent blocks + block.size - last.start) % 2 ^ 64 := by
        rw [← joined.2]
        unfold add64
        omega
      simp [Run.region, size, -Nat.reducePow]
    · refine ⟨_, of.start mapped ?_, ?_⟩
      · intro same
        obtain ⟨final, ends, stop, perm⟩ := (of.final _).mp same
        rw [List.getLast?_concat, Option.some.injEq] at ends
        subst final
        exact joined ⟨perm, stop⟩
      · simp [Run.region]

end RunsOf

namespace MemoryMap

variable {map : MemoryMap} {runs : List Run} {addr : Nat}

theorem svcQueryMemory_at {before after : List Block} {block : Block}
    (split : map.blocks = before ++ block :: after) :
    map.svcQueryMemory (extent before) = some (block.info (extent before)) := by
  have positive := block.positive
  rw [svcQueryMemory, split, blockAt_append _ (Nat.zero_le _), if_neg (by omega), Nat.zero_add,
    blockAt, if_pos (by omega)]
  rfl

theorem loadFrom_runs {before after : List Block} (split : map.blocks = before ++ after)
    (nonempty : after ≠ []) (of : RunsOf before runs) :
    ∃ loaded, RunsOf map.blocks loaded ∧
      map.loadFrom after.length (extent before) (runs.map Run.region) =
        some (loaded.map Run.region) := by
  induction after generalizing before runs with
  | nil => exact absurd rfl nonempty
  | cons block after ih =>
      have resplit : map.blocks = before ++ [block] ++ after := by simp [split]
      have covers : extent (before ++ [block]) + extent after = 2 ^ 64 := by
        rw [← extent_append, ← resplit]
        exact map.covers
      obtain ⟨middle, ofMiddle, absorbed⟩ := of.absorb (show extent (before ++ [block]) ≤ 2 ^ 64 by omega)
      have next : add64 (extent before) (block.size % 2 ^ 64) =
          extent (before ++ [block]) % 2 ^ 64 := by
        rw [extent_append, extent_singleton, add64]
        omega
      rw [List.length_cons, loadFrom, svcQueryMemory_at split, Option.bind_some]
      simp only [absorbed]
      change ∃ loaded, _ ∧ (if add64 (extent before) (block.size % 2 ^ 64) ≠ 0 then
        map.loadFrom after.length (add64 (extent before) (block.size % 2 ^ 64)) _ else _) = _
      rw [next]
      cases after with
      | nil =>
          rw [extent_nil, Nat.add_zero] at covers
          rw [covers, Nat.mod_self, if_neg (by simp)]
          exact ⟨middle, by simpa [split] using ofMiddle, rfl⟩
      | cons following after =>
          have positive := following.positive
          have size : extent (following :: after) = following.size + extent after := by simp [extent]
          have more : extent (before ++ [block]) % 2 ^ 64 = extent (before ++ [block]) := by omega
          have started : extent (before ++ [block]) ≠ 0 := by
            have first := block.positive
            rw [extent_append, extent_singleton]
            omega
          rw [more, if_pos started]
          exact ih resplit (by simp) ofMiddle

/-- `load_cached_regions` ends, with the maximal runs of the map. -/
theorem loadCachedRegions_runs (map : MemoryMap) :
    ∃ runs, RunsOf map.blocks runs ∧
      map.loadCachedRegions = some (runs.map Run.region) := by
  have nonempty : map.blocks ≠ [] := by
    intro empty
    have covers := map.covers
    rw [empty] at covers
    cases covers
  exact loadFrom_runs (List.nil_append map.blocks).symm nonempty .nil

end MemoryMap

/-! ## Searching the runs -/

section Runs

variable {map : MemoryMap} {runs : List Run} {addr place : Nat}

theorem RunsOf.inside (of : RunsOf map.blocks runs) (inside : place < runs.length) :
    runs[place].start < runs[place].stop ∧ runs[place].stop ≤ 2 ^ 64 := by
  have bounds := of.bounds runs[place] (List.getElem_mem inside)
  rwa [map.covers] at bounds

theorem RunsOf.before (of : RunsOf map.blocks runs) {earlier later : Nat}
    (inside : later < runs.length) (order : earlier < later) :
    runs[earlier].stop ≤ runs[later].start :=
  (List.pairwise_iff_getElem.mp of.ordered earlier later (by omega) inside order).1

theorem RunsOf.mapping_iff (of : RunsOf map.blocks runs) {perm : Nat} :
    map.mapping addr = some perm ↔
      ∃ place, ∃ inside : place < runs.length,
        runs[place].Holds addr ∧ runs[place].perm = perm := by
  rw [MemoryMap.mapping, of.exact]
  constructor
  · intro ⟨run, member, found⟩
    obtain ⟨place, inside, rfl⟩ := List.getElem_of_mem member
    exact ⟨place, inside, found⟩
  · intro ⟨place, inside, found⟩
    exact ⟨runs[place], List.getElem_mem inside, found⟩

theorem RunsOf.mapping (of : RunsOf map.blocks runs) (inside : place < runs.length)
    (holds : runs[place].Holds addr) : map.mapping addr = some runs[place].perm :=
  of.mapping_iff.mpr ⟨place, inside, holds, rfl⟩

theorem RunsOf.runEnd (of : RunsOf map.blocks runs) (inside : place < runs.length)
    (holds : runs[place].Holds addr) : RunEnd map addr runs[place].stop where
  above := holds.upper
  below := (of.inside inside).2
  same := by
    intro other lower upper
    rw [of.mapping inside holds]
    exact of.mapping inside ⟨Nat.le_trans holds.lower lower, upper⟩
  maximal := by
    intro _ same
    rw [of.mapping inside holds] at same
    obtain ⟨next, within, nextHolds, perm⟩ := of.mapping_iff.mp same
    have lower := nextHolds.lower
    have upper := nextHolds.upper
    rcases Nat.lt_trichotomy next place with earlier | rfl | later
    · have before := of.before inside earlier
      have bounds := of.inside inside
      omega
    · omega
    · have order := List.pairwise_iff_getElem.mp of.ordered place next inside within later
      exact order.2 (by omega) perm.symm

/-- A region whose extent check passes stands for a run that holds the address. -/
theorem RunsOf.holds_of_within (of : RunsOf map.blocks runs) (inside : place < runs.length)
    (bound : addr < 2 ^ 64)
    (within : sub64 addr runs[place].region.start < runs[place].region.size) :
    runs[place].Holds addr := by
  have bounds := of.inside inside
  unfold sub64 Run.region at within
  simp only at within
  constructor <;> omega

theorem RunsOf.count_after (of : RunsOf map.blocks runs) (inside : place < runs.length)
    (holds : runs[place].Holds addr) :
    (map.runStarts.filter fun start => addr < start).length + 1 = runs.length - place := by
  have lower := holds.lower
  have upper := holds.upper
  have early : ∀ start ∈ (runs.take (place + 1)).map Run.start, ¬ addr < start := by
    intro start member
    obtain ⟨run, taken, rfl⟩ := List.mem_map.mp member
    obtain ⟨other, within, rfl⟩ := List.mem_take_iff_getElem.mp taken
    rcases Nat.lt_or_ge other place with earlier | last
    · have before := of.before inside earlier
      have bounds := of.inside (show other < runs.length by omega)
      omega
    · obtain rfl : other = place := by omega
      omega
  have late : ∀ start ∈ (runs.drop (place + 1)).map Run.start, addr < start := by
    intro start member
    obtain ⟨run, dropped, rfl⟩ := List.mem_map.mp member
    obtain ⟨other, within, rfl⟩ := List.mem_drop_iff_getElem.mp dropped
    have before := of.before (show place + 1 + other < runs.length by omega) (by omega : place < _)
    omega
  have split : map.runStarts =
      (runs.take (place + 1)).map Run.start ++ (runs.drop (place + 1)).map Run.start := by
    rw [MemoryMap.runStarts, ← of.starts, ← List.map_append, List.take_append_drop]
  rw [split, List.filter_append, List.filter_eq_nil_iff.mpr (by simpa using early),
    List.filter_eq_self.mpr (by simpa using late)]
  simp only [List.nil_append, List.length_map, List.length_drop]
  omega

theorem RunsOf.toTheEnd_iff (of : RunsOf map.blocks runs) :
    map.mapping (2 ^ 64 - 1) ≠ none ↔
      ∃ place, ∃ inside : place < runs.length, runs[place].stop = 2 ^ 64 := by
  constructor
  · intro mapped
    obtain ⟨perm, found⟩ := Option.ne_none_iff_exists'.mp mapped
    obtain ⟨place, inside, holds, -⟩ := of.mapping_iff.mp found
    have upper := holds.upper
    have bounds := of.inside inside
    exact ⟨place, inside, by omega⟩
  · intro ⟨place, inside, stop⟩
    have bounds := of.inside inside
    rw [of.mapping inside ⟨by omega, by omega⟩]
    simp

/-- The predicate of the search compares the wrapped end of the run. -/
def endsBefore (addr : Nat) (region : Region) : Bool :=
  decide (add64 region.start region.size ≤ addr)

theorem RunsOf.endsBefore_iff (of : RunsOf map.blocks runs) (inside : place < runs.length) :
    ((runs.map Run.region)[place]?).any (endsBefore addr) = true ↔
      runs[place].stop % 2 ^ 64 ≤ addr := by
  have bounds := of.inside inside
  have wrapped : add64 runs[place].start ((runs[place].stop - runs[place].start) % 2 ^ 64) =
      runs[place].stop % 2 ^ 64 := by
    unfold add64
    omega
  rw [List.getElem?_map, List.getElem?_eq_getElem inside]
  simp only [Option.map_some, Option.any_some, endsBefore, decide_eq_true_eq, Run.region, wrapped]

theorem RunsOf.partitioned (of : RunsOf map.blocks runs) (inside : place < runs.length)
    (holds : runs[place].Holds addr) {other : Nat} (within : other < runs.length)
    (early : runs[other].stop < 2 ^ 64) :
    ((runs.map Run.region)[other]?).any (endsBefore addr) = true ↔ other < place := by
  have lower := holds.lower
  have upper := holds.upper
  rw [of.endsBefore_iff within, Nat.mod_eq_of_lt early]
  rcases Nat.lt_trichotomy other place with earlier | rfl | later
  · have before := of.before inside earlier
    omega
  · omega
  · have before := of.before within later
    have bounds := of.inside within
    omega

theorem RunsOf.lowerBound_eq (of : RunsOf map.blocks runs) (inside : place < runs.length)
    (holds : runs[place].Holds addr) :
    (Unfindable map addr → lowerBound (endsBefore addr) (runs.map Run.region) = runs.length) ∧
      (¬ Unfindable map addr → lowerBound (endsBefore addr) (runs.map Run.region) = place) := by
  have mapped : map.mapping addr ≠ none := by simp [of.mapping inside holds]
  have starts : map.runStarts.length = runs.length := by
    rw [MemoryMap.runStarts, ← of.starts, List.length_map]
  have after := of.count_after inside holds
  unfold lowerBound
  rw [List.length_map]
  by_cases ended : map.mapping (2 ^ 64 - 1) ≠ none
  · -- the run that reaches 2^64 is the last one, and its wrapped end is 0
    obtain ⟨final, within, stop⟩ := of.toTheEnd_iff.mp ended
    have last : final = runs.length - 1 := by
      by_contra notLast
      have before := of.before (show runs.length - 1 < runs.length by omega) (by omega : final < _)
      have bounds := of.inside (show runs.length - 1 < runs.length by omega)
      omega
    subst last
    have found := @halving_last_always
      (fun other => ((runs.map Run.region)[other]?).any (endsBefore addr)) 0 runs.length place
      (by
        intro other _ notLast
        have before := of.before (show runs.length - 1 < runs.length by omega) (by omega : other < _)
        have bounds := of.inside (show runs.length - 1 < runs.length by omega)
        exact of.partitioned inside holds (by omega) (by omega))
      (by
        rw [Nat.zero_add]
        exact (of.endsBefore_iff within).mpr (by rw [stop]; omega))
      (Nat.zero_le _) (by omega)
    simp only [Nat.zero_add] at found
    constructor
    · intro unfindable
      apply found.1
      rw [← after, ← starts]
      exact unfindable.place
    · intro findable
      refine found.2 fun missed => findable ⟨mapped, ended, ?_⟩
      rwa [after, starts]
  · constructor
    · intro unfindable
      exact absurd unfindable.toTheEnd ended
    · intro _
      refine halving_partitioned ?_ (Nat.zero_le _) (by omega)
      intro other _ within
      have notEnded := mt of.toTheEnd_iff.mpr ended
      have bounds := of.inside (show other < runs.length by omega)
      have early : runs[other].stop ≠ 2 ^ 64 := fun stop => notEnded ⟨other, by omega, stop⟩
      exact of.partitioned inside holds (by omega) (by omega)

theorem RunsOf.missed_of_whole (of : RunsOf map.blocks runs) (inside : place < runs.length)
    (holds : runs[place].Holds addr)
    (whole : runs[place].stop - runs[place].start = 2 ^ 64) : Unfindable map addr where
  mapped := by simp [of.mapping inside holds]
  toTheEnd := by
    have bounds := of.inside inside
    exact of.toTheEnd_iff.mpr ⟨place, inside, by omega⟩
  place := by
    have bounds := of.inside inside
    apply Or.inl
    rw [of.count_after inside holds]
    by_contra more
    have later := of.before (show place + 1 < runs.length by omega) (Nat.lt_succ_self place)
    have beyond := of.inside (show place + 1 < runs.length by omega)
    omega

theorem RunsOf.findCachedRegion_eq (of : RunsOf map.blocks runs) (inside : place < runs.length)
    (holds : runs[place].Holds addr) :
    (Unfindable map addr → findCachedRegion (runs.map Run.region) addr = none) ∧
      (¬ Unfindable map addr →
        findCachedRegion (runs.map Run.region) addr = some runs[place].region) := by
  have searched := of.lowerBound_eq inside holds
  change (_ → ((runs.map Run.region)[lowerBound (endsBefore addr) _]?).filter _ = _) ∧
    (_ → ((runs.map Run.region)[lowerBound (endsBefore addr) _]?).filter _ = _)
  constructor
  · intro unfindable
    rw [searched.1 unfindable]
    simp
  · intro findable
    have bounds := of.inside inside
    have lower := holds.lower
    have upper := holds.upper
    have part : runs[place].stop - runs[place].start ≠ 2 ^ 64 :=
      fun whole => findable (of.missed_of_whole inside holds whole)
    have within : sub64 addr runs[place].start < runs[place].region.size := by
      unfold sub64 Run.region
      simp only
      omega
    rw [searched.2 findable, List.getElem?_map, List.getElem?_eq_getElem inside]
    simpa [Run.region, -Nat.reducePow] using within

theorem RunsOf.findCachedRegion_unmapped (of : RunsOf map.blocks runs) (bound : addr < 2 ^ 64)
    (unmapped : map.mapping addr = none) :
    findCachedRegion (runs.map Run.region) addr = none := by
  unfold findCachedRegion
  generalize lowerBound _ _ = place
  rw [Option.filter_eq_none_iff]
  intro region found within
  obtain ⟨inside, rfl⟩ := List.getElem?_eq_some_iff.mp found
  rw [List.length_map] at inside
  rw [List.getElem_map] at within
  have holds := of.holds_of_within inside bound (by simpa using within)
  rw [of.mapping inside holds] at unmapped
  cases unmapped

theorem RunsOf.bytesFrom_region (of : RunsOf map.blocks runs) (inside : place < runs.length)
    (holds : runs[place].Holds addr) (findable : ¬ Unfindable map addr) (wantWrite : Bool) :
    bytesFrom (some runs[place].region) addr wantWrite =
      if runs[place].perm &&& (if wantWrite then permRw else permR) =
        if wantWrite then permRw else permR then runs[place].stop - addr else 0 := by
  have bounds := of.inside inside
  have lower := holds.lower
  have upper := holds.upper
  have part : runs[place].stop - runs[place].start ≠ 2 ^ 64 :=
    fun whole => findable (of.missed_of_whole inside holds whole)
  have rest : sub64 ((runs[place].stop - runs[place].start) % 2 ^ 64)
      (sub64 addr runs[place].start) = runs[place].stop - addr := by
    unfold sub64
    omega
  simp only [bytesFrom, Run.region, rest]

end Runs

/-! ## Calls of `accessible_bytes_at` -/

namespace MemoryMap

variable {map : MemoryMap} {regions after : MemRegions} {addr stop bytes : Nat}

/-- One call with its answer dropped. -/
def query (map : MemoryMap) (regions : MemRegions) (call : Nat × Bool) : Option MemRegions :=
  (map.accessibleBytesAt regions call.1 call.2).map Prod.snd

/-- The cache is still empty or holds what the map loads to. -/
def Reached (map : MemoryMap) (regions : MemRegions) : Prop :=
  regions.cachedRegions = [] ∨ map.loadCachedRegions = some regions.cachedRegions

/-- Whatever was asked before, the answer is that of a search in the loaded regions. -/
theorem accessibleBytesAt_loaded {loaded : List Region} (reached : map.Reached regions)
    (load : map.loadCachedRegions = some loaded) (addr : Nat) (wantWrite : Bool) :
    map.accessibleBytesAt regions addr wantWrite =
      some (bytesFrom (findCachedRegion loaded addr) addr wantWrite, { cachedRegions := loaded }) := by
  unfold accessibleBytesAt
  rcases reached with empty | same
  · have missing : findCachedRegion [] addr = none := by
      simp [findCachedRegion]
    simp only [empty, missing, load, Option.map_some]
  · obtain rfl : regions.cachedRegions = loaded := Option.some.inj (same.symm.trans load)
    cases found : findCachedRegion regions.cachedRegions addr with
    | none => simp only [load, Option.map_some, found]
    | some region => rfl

theorem reached_step (reached : map.Reached regions) {call : Nat × Bool}
    (asked : map.query regions call = some after) : map.Reached after := by
  obtain ⟨runs, -, load⟩ := map.loadCachedRegions_runs
  rw [query, accessibleBytesAt_loaded reached load, Option.map_some, Option.some.injEq] at asked
  subst after
  exact .inr load

theorem reached_run {calls : List (Nat × Bool)}
    (ran : Machine.run map.query {} calls = some regions) : map.Reached regions :=
  Machine.run_preserves (fun kept asked => reached_step kept asked) (.inl rfl) ran

/-- What one call answers: nothing where the access is not granted or the search
misses the run of the address, else what is left of that run. -/
structure Answer (map : MemoryMap) (addr : Nat) (wantWrite : Bool) (bytes : Nat) : Prop where
  allowed : Granted map addr wantWrite → ¬ Unfindable map addr → RunEnd map addr (addr + bytes)
  missed : Unfindable map addr → bytes = 0
  denied : ¬ Granted map addr wantWrite → bytes = 0

theorem accessibleBytesAt_answer (reached : map.Reached regions) (bound : addr < 2 ^ 64)
    (wantWrite : Bool) :
    ∃ bytes after, map.accessibleBytesAt regions addr wantWrite = some (bytes, after) ∧
      map.loadCachedRegions = some after.cachedRegions ∧ map.Answer addr wantWrite bytes := by
  obtain ⟨runs, of, load⟩ := map.loadCachedRegions_runs
  refine ⟨_, _, accessibleBytesAt_loaded reached load addr wantWrite, load, ?_⟩
  cases mapped : map.mapping addr with
  | none =>
      have missing := of.findCachedRegion_unmapped bound mapped
      have denied : ¬ Granted map addr wantWrite := by
        intro ⟨perm, found, _⟩
        rw [mapped] at found
        cases found
      rw [missing]
      exact ⟨fun granted => absurd granted denied, fun _ => rfl, fun _ => rfl⟩
  | some perm =>
      obtain ⟨place, inside, holds, rfl⟩ := of.mapping_iff.mp mapped
      have find := of.findCachedRegion_eq inside holds
      by_cases unfindable : Unfindable map addr
      · rw [find.1 unfindable]
        exact ⟨fun _ findable => absurd unfindable findable, fun _ => rfl, fun _ => rfl⟩
      · rw [find.2 unfindable, of.bytesFrom_region inside holds unfindable]
        have lower := holds.upper
        refine ⟨?_, fun missed => absurd missed unfindable, ?_⟩
        · intro ⟨perm, found, granted⟩ _
          rw [mapped, Option.some.injEq] at found
          subst found
          rw [if_pos granted, Nat.add_sub_of_le (Nat.le_of_lt lower)]
          exact of.runEnd inside holds
        · intro denied
          exact if_neg fun granted => denied ⟨_, mapped, granted⟩

/-- The answer goes as far as the mapping stays the same. -/
theorem Answer.reaches (answer : map.Answer addr wantWrite bytes) (granted : Granted map addr wantWrite)
    (findable : ¬ Unfindable map addr) (limit : stop ≤ 2 ^ 64)
    (same : ∀ other, addr ≤ other → other < stop → map.mapping other = map.mapping addr) :
    stop ≤ addr + bytes := by
  by_contra short
  have runEnd := answer.allowed granted findable
  exact runEnd.maximal (by omega) (same _ (Nat.le_add_right addr bytes) (by omega))

/-- The length alone is wrong only where the missed run grants the access. -/
theorem accessibleBytesAt_accessible_iff (reached : map.Reached regions) (bound : addr < 2 ^ 64)
    (wantWrite : Bool) :
    (∃ bytes after, map.accessibleBytesAt regions addr wantWrite = some (bytes, after) ∧
        Accessible map addr wantWrite bytes) ↔
      ¬ (Granted map addr wantWrite ∧ Unfindable map addr) := by
  obtain ⟨bytes, after, called, -, answer⟩ := accessibleBytesAt_answer reached bound wantWrite
  constructor
  · intro ⟨others, later, same, allowed, _⟩ ⟨granted, unfindable⟩
    rw [called, Option.some.injEq, Prod.mk.injEq] at same
    obtain ⟨rfl, -⟩ := same
    have above := (allowed granted).above
    rw [answer.missed unfindable] at above
    omega
  · intro fine
    refine ⟨bytes, after, called, ?_, answer.denied⟩
    intro granted
    exact answer.allowed granted fun unfindable => fine ⟨granted, unfindable⟩

/-- The call answers with the rest of the run of the address, and the search
finds the region of a mapped address. -/
def LookupExact (map : MemoryMap) (regions : MemRegions) (addr : Nat) (wantWrite : Bool) : Prop :=
  ∃ bytes after, map.accessibleBytesAt regions addr wantWrite = some (bytes, after) ∧
    Accessible map addr wantWrite bytes ∧
    (map.mapping addr ≠ none →
      ∃ region, findCachedRegion after.cachedRegions addr = some region ∧
        region.start ≤ addr ∧ addr - region.start < region.size)

/-- After any calls, the lookup of an address is exact unless the search misses
its run. -/
theorem lookupExact_iff (map : MemoryMap) {calls : List (Nat × Bool)}
    (ran : Machine.run map.query {} calls = some regions) (bound : addr < 2 ^ 64)
    (wantWrite : Bool) :
    map.LookupExact regions addr wantWrite ↔ ¬ Unfindable map addr := by
  have reached := reached_run ran
  obtain ⟨runs, of, load⟩ := map.loadCachedRegions_runs
  constructor
  · intro ⟨bytes, after, called, _, finds⟩ unfindable
    rw [accessibleBytesAt_loaded reached load, Option.some.injEq, Prod.mk.injEq] at called
    obtain ⟨-, rfl⟩ := called
    obtain ⟨region, found, -, -⟩ := finds unfindable.mapped
    obtain ⟨perm, mapped⟩ := Option.ne_none_iff_exists'.mp unfindable.mapped
    obtain ⟨place, inside, holds, -⟩ := of.mapping_iff.mp mapped
    rw [(of.findCachedRegion_eq inside holds).1 unfindable] at found
    cases found
  · intro findable
    obtain ⟨bytes, after, called, accessible⟩ :=
      (accessibleBytesAt_accessible_iff reached bound wantWrite).mpr fun missed => findable missed.2
    refine ⟨bytes, after, called, accessible, ?_⟩
    intro mapped
    rw [accessibleBytesAt_loaded reached load, Option.some.injEq, Prod.mk.injEq] at called
    obtain ⟨-, rfl⟩ := called
    obtain ⟨perm, mapped⟩ := Option.ne_none_iff_exists'.mp mapped
    obtain ⟨place, inside, holds, -⟩ := of.mapping_iff.mp mapped
    refine ⟨runs[place].region, (of.findCachedRegion_eq inside holds).2 findable, holds.lower, ?_⟩
    have bounds := of.inside inside
    have lower := holds.lower
    have upper := holds.upper
    have part : runs[place].stop - runs[place].start ≠ 2 ^ 64 :=
      fun whole => findable (of.missed_of_whole inside holds whole)
    unfold Run.region
    simp only
    omega

/-- Every history of calls goes through. -/
theorem run_exists (reached : map.Reached regions) (calls : List (Nat × Bool)) :
    ∃ after, Machine.run map.query regions calls = some after := by
  induction calls generalizing regions with
  | nil => exact ⟨regions, Machine.run_nil map.query regions⟩
  | cons call calls ih =>
      obtain ⟨runs, -, load⟩ := map.loadCachedRegions_runs
      have asked : map.query regions call = some { cachedRegions := _ } :=
        congrArg (Option.map Prod.snd) (accessibleBytesAt_loaded reached load call.1 call.2)
      obtain ⟨after, ran⟩ := ih (reached_step reached asked)
      exact ⟨after, Machine.run_cons_iff.mpr ⟨_, asked, ran⟩⟩

theorem reserved_positive : 0 < 2 ^ 64 - 0x3000 := by decide

/-- A writable page, a page that can only be read, and reserved space from there
to 2^64. -/
def threeRuns : MemoryMap where
  blocks := [
    { size := 0x1000, type := memTypeUnmapped, perm := 0, positive := by decide },
    { size := 0x1000, type := 3, perm := permRw, positive := by decide },
    { size := 0x1000, type := 3, perm := permR, positive := by decide },
    { size := 2 ^ 64 - 0x3000, type := 0x10, perm := 0, positive := reserved_positive }]
  covers := by decide

theorem threeRuns_findable (low : addr < 0x3000) : ¬ Unfindable threeRuns addr := by
  intro missed
  have behind : 2 ≤ (threeRuns.runStarts.filter fun start => addr < start).length + 1 := by
    have last : 0x3000 ∈ threeRuns.runStarts.filter fun start => addr < start := by
      rw [List.mem_filter]
      exact ⟨by decide, decide_eq_true low⟩
    have some := List.length_pos_of_mem last
    omega
  exact not_missed_left (by decide) behind missed.place

/-- After two calls the pages are found, and the reserved space is not. -/
theorem lookupExact_iff_threeRuns : ∃ regions,
    Machine.run threeRuns.query {} [(0x500, false), (0x1800, true)] = some regions ∧
    threeRuns.LookupExact regions 0x1004 true ∧ threeRuns.LookupExact regions 0x2004 false ∧
    ¬ threeRuns.LookupExact regions 0x3004 false := by
  obtain ⟨regions, ran⟩ := @run_exists threeRuns {} (.inl rfl) [(0x500, false), (0x1800, true)]
  have last : Unfindable threeRuns 0x3004 := ⟨by decide, by decide, .inl (by decide)⟩
  exact ⟨regions, ran, (lookupExact_iff threeRuns ran (by decide) true).mpr (threeRuns_findable (by decide)),
    (lookupExact_iff threeRuns ran (by decide) false).mpr (threeRuns_findable (by decide)),
    fun exact => (lookupExact_iff threeRuns ran (by decide) false).mp exact last⟩

/-- Two runs: a readable page, and reserved space from there to 2^64. -/
def twoRuns : MemoryMap where
  blocks := [
    { size := 0x1000, type := memTypeUnmapped, perm := 0, positive := by decide },
    { size := 0x1000, type := 3, perm := permRw, positive := by decide },
    { size := 2 ^ 64 - 0x2000, type := 0x10, perm := 0, positive := by decide }]
  covers := by decide

theorem twoRuns_mapping : twoRuns.mapping addr =
    if addr < 0x1000 then none else if addr < 0x2000 then some permRw
    else if addr < 2 ^ 64 then some 0 else none := by
  simp only [mapping, mappingIn, twoRuns, blockAt]
  split_ifs <;> first | rfl | omega

theorem twoRuns_unfindable : Unfindable twoRuns 0x1000 where
  mapped := by decide
  toTheEnd := by decide
  place := .inr ⟨by decide, 0, by decide⟩

/-- The search compares the last two runs, takes the reserved one for a run that
lies before the address, and goes off the end: a readable page counts as having
no accessible byte. -/
theorem twoRuns_missed : Accessible twoRuns 0x1000 false 0x1000 ∧
    (twoRuns.accessibleBytesAt {} 0x1000 false).map Prod.fst = some 0 ∧
    ¬ twoRuns.LookupExact {} 0x1000 false := by
  have granted : Granted twoRuns 0x1000 false := ⟨permRw, by decide, by decide⟩
  have missed := mt (accessibleBytesAt_accessible_iff (.inl rfl) (by decide) false).mp
    (not_not.mpr ⟨granted, twoRuns_unfindable⟩)
  refine ⟨⟨fun _ => ?_, fun denied => absurd granted denied⟩, ?_, ?_⟩
  · refine ⟨by decide, by decide, ?_, fun _ => by decide⟩
    intro other lower upper
    rw [twoRuns_mapping, if_neg (by omega), if_pos upper]
    decide
  · obtain ⟨bytes, after, called, -, answer⟩ :=
      @accessibleBytesAt_answer twoRuns {} 0x1000 (.inl rfl) (by decide) false
    rw [called, Option.map_some, answer.missed twoRuns_unfindable]
  · intro ⟨bytes, after, called, accessible, _⟩
    exact missed ⟨bytes, after, called, accessible⟩

/-! ## Bytes the lookup allows -/

/-- `accessible_bytes_at` answers with at least one byte. -/
def Allows (map : MemoryMap) (addr : Nat) (wantWrite : Bool) : Prop :=
  ∃ bytes after, map.accessibleBytesAt {} addr wantWrite = some (bytes, after) ∧ 0 < bytes

theorem allows_iff (bound : addr < 2 ^ 64) (wantWrite : Bool) :
    map.Allows addr wantWrite ↔ Granted map addr wantWrite ∧ ¬ Unfindable map addr := by
  obtain ⟨bytes, after, called, -, answer⟩ :=
    @accessibleBytesAt_answer map {} addr (.inl rfl) bound wantWrite
  constructor
  · intro ⟨others, later, same, positive⟩
    rw [called, Option.some.injEq, Prod.mk.injEq] at same
    obtain ⟨rfl, -⟩ := same
    refine ⟨?_, fun unfindable => ?_⟩
    · by_contra denied
      exact absurd (answer.denied denied) (by omega)
    · exact absurd (answer.missed unfindable) (by omega)
  · intro ⟨granted, findable⟩
    have above := (answer.allowed granted findable).above
    exact ⟨bytes, after, called, by omega⟩

theorem unfindable_of_run (runEnd : RunEnd map addr stop) (mapped : map.mapping addr ≠ none)
    {other : Nat} (lower : addr ≤ other) (upper : other < stop)
    (unfindable : Unfindable map other) : Unfindable map addr := by
  obtain ⟨runs, of, -⟩ := map.loadCachedRegions_runs
  obtain ⟨perm, found⟩ := Option.ne_none_iff_exists'.mp mapped
  obtain ⟨place, inside, holds, -⟩ := of.mapping_iff.mp found
  have last := of.runEnd inside holds
  have within : other < runs[place].stop := by
    by_contra beyond
    have bounds := of.inside inside
    have limit := runEnd.below
    have step := runEnd.same runs[place].stop (Nat.le_of_lt last.above) (by omega)
    exact last.maximal (by omega) step
  have count := of.count_after inside holds
  have otherCount := of.count_after inside ⟨Nat.le_trans holds.lower lower, within⟩
  refine ⟨mapped, unfindable.toTheEnd, ?_⟩
  rw [count, ← otherCount]
  exact unfindable.place

/-- A run that reaches 2^64 is the last one. -/
theorem unfindable_of_end (runEnd : RunEnd map addr (2 ^ 64)) (mapped : map.mapping addr ≠ none) :
    Unfindable map addr := by
  obtain ⟨runs, of, -⟩ := map.loadCachedRegions_runs
  obtain ⟨perm, found⟩ := Option.ne_none_iff_exists'.mp mapped
  obtain ⟨place, inside, holds, -⟩ := of.mapping_iff.mp found
  have bounds := of.inside inside
  have last := of.runEnd inside holds
  have above := runEnd.above
  have stop : runs[place].stop = 2 ^ 64 := by
    by_contra short
    have step := runEnd.same runs[place].stop (Nat.le_of_lt last.above) (by omega)
    exact last.maximal (by omega) step
  refine ⟨mapped, ?_, .inl ?_⟩
  · exact of.toTheEnd_iff.mpr ⟨place, inside, stop⟩
  · rw [of.count_after inside holds]
    by_contra more
    have later := of.before (show place + 1 < runs.length by omega) (Nat.lt_succ_self place)
    have beyond := of.inside (show place + 1 < runs.length by omega)
    omega

/-- One call as the copying loop sees it: the bytes it answers with are all
allowed and end below 2^64, and it answers none where the first is not allowed. -/
theorem accessibleBytesAt_chunk (reached : map.Reached regions) (bound : addr < 2 ^ 64)
    (wantWrite : Bool) :
    ∃ bytes after, map.accessibleBytesAt regions addr wantWrite = some (bytes, after) ∧
      map.Reached after ∧ addr + bytes < 2 ^ 64 ∧
      (∀ offset < bytes, map.Allows (addr + offset) wantWrite) ∧
      (bytes = 0 → ¬ map.Allows addr wantWrite) := by
  obtain ⟨bytes, after, called, loaded, answer⟩ :=
    accessibleBytesAt_answer reached bound wantWrite
  refine ⟨bytes, after, called, .inr loaded, ?_⟩
  by_cases allowed : Granted map addr wantWrite ∧ ¬ Unfindable map addr
  · obtain ⟨granted, findable⟩ := allowed
    have runEnd := answer.allowed granted findable
    have below := runEnd.below
    have above := runEnd.above
    have mapped : map.mapping addr ≠ none := by
      obtain ⟨perm, found, -⟩ := granted
      simp [found]
    have short : addr + bytes ≠ 2 ^ 64 := by
      intro reachesEnd
      rw [reachesEnd] at runEnd
      exact findable (unfindable_of_end runEnd mapped)
    refine ⟨by omega, ?_, fun none => by omega⟩
    intro offset inside
    rw [allows_iff (by omega)]
    refine ⟨?_, fun unfindable => findable ?_⟩
    · unfold Granted at granted ⊢
      rwa [runEnd.same (addr + offset) (by omega) (by omega)]
    · exact unfindable_of_run runEnd mapped (by omega) (by omega) unfindable
  · have none : bytes = 0 := by
      by_cases granted : Granted map addr wantWrite
      · exact answer.missed (by_contra fun findable => allowed ⟨granted, findable⟩)
      · exact answer.denied granted
    subst none
    refine ⟨bound, by simp, fun _ => ?_⟩
    rwa [allows_iff bound]

end MemoryMap

end Smmboss.Guest
