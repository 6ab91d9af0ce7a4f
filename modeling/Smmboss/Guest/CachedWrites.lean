import Smmboss.Foundation.Machine
import Smmboss.Guest.Caching

namespace Smmboss.Guest

/-! # Writes through the cache

The backing guest may serve a read in part and may store only a prefix of a
write; what it does is part of the call.
-/

structure System where
  guest : CachingGuest := {}
  memory : GuestMemory

/-- `served` is how much the backing guest reads at most; `stored` is what
`backing.try_write` returns. -/
inductive Call where
  | enter
  | exit
  | read (addr size : Nat) (served : Nat → Nat → Nat)
  | write (addr : Nat) (data : List UInt8) (stored : Nat)

namespace System

def backingRead (system : System) (served : Nat → Nat → Nat) : BackingRead := fun addr size =>
  system.memory.read addr (min (served addr size) size)

def step (system : System) : Call → Option System
  | .enter => some { system with guest := system.guest.enter }
  | .exit => system.guest.exit.map fun guest => { system with guest }
  | .read addr size served =>
      (system.guest.tryRead (system.backingRead served) addr size).map fun done =>
        { system with guest := done.2 }
  | .write addr data stored =>
      if stored ≤ data.length then
        (system.guest.tryWrite system.memory.read stored addr data).map fun done =>
          { guest := done.2, memory := system.memory.write addr (data.take stored) }
      else none

/-- After the call the cache agrees with the memory, and a write has returned
the stored length. -/
def CallOk (before : System) (call : Call) : Prop :=
  ∀ after, before.step call = some after →
    Coherent after.memory after.guest.cache ∧
      ∀ addr data stored, call = .write addr data stored →
        (before.guest.tryWrite before.memory.read stored addr data).map Prod.fst = some stored

/-- Where the backing guest does not store a byte, the byte is not cached or was
there already. -/
def Kept (before : System) : Call → Prop
  | .enter | .exit | .read _ _ _ => True
  | .write addr data stored =>
      ∀ offset, stored ≤ offset → offset < data.length →
        before.guest.cache ((addr + offset) / chunkSize * chunkSize) ≠ none →
        data[offset]? = some (before.memory (addr + offset))

end System

/-! ## Reads -/

theorem Coherent.readLoop {memory : GuestMemory} {backing : BackingRead} {stop chunkAddr : Nat}
    {cache : Cache} {ret : List UInt8} (coherent : Coherent memory cache)
    (aligned : chunkAddr % chunkSize = 0)
    (reads : ∀ addr size, backing addr size = memory.read addr (backing addr size).length) :
    Coherent memory (Guest.readLoop backing stop cache chunkAddr ret).2 := by
  induction cache, chunkAddr, ret using readLoop.induct backing stop with
  | case1 cache chunkAddr ret inside uncached short =>
      rw [Guest.readLoop, if_pos inside]
      simp only [uncached, if_pos short]
      exact coherent
  | case2 cache chunkAddr ret inside uncached full ih =>
      obtain ⟨count, size, -, -⟩ := runSize_spec cache stop chunkAddr chunkSize
      have whole : runSize cache stop chunkAddr chunkSize = (count + 1) * chunkSize := by
        rw [size, Nat.add_mul, Nat.one_mul, Nat.add_comm]
      have data := reads chunkAddr (runSize cache stop chunkAddr chunkSize)
      rw [not_not.mp full] at data
      rw [Guest.readLoop, if_pos inside]
      simp only [uncached, if_neg full]
      apply ih
      · rw [data, whole]
        exact coherent.fill aligned (Nat.le_refl _)
      · rw [whole, Nat.add_mul_mod_self_right, aligned]
  | case3 cache chunkAddr ret inside chunkData cached ih =>
      rw [Guest.readLoop, if_pos inside]
      simp only [cached]
      apply ih coherent
      rw [Nat.add_mod_right, aligned]
  | case4 cache chunkAddr ret outside =>
      rw [Guest.readLoop, if_neg outside]
      exact coherent

/-! ## Writes -/

namespace GuestMemory

variable (memory : GuestMemory) {addr start count : Nat} {data : List UInt8}

theorem read_write (within : start + count ≤ data.length) :
    (memory.write addr data).read (addr + start) count = slice data start (start + count) := by
  apply List.ext_getElem
  · simp only [length_read, slice, List.length_drop, List.length_take]
    omega
  · intro place left right
    rw [length_read] at left
    simp only [read, List.getElem_map, List.getElem_range, slice, List.getElem_drop,
      List.getElem_take]
    rw [Nat.add_assoc, memory.write_inside (by omega)]

/-- The chunk with the part of the data that falls into it. -/
theorem read_chunk {key lo hi : Nat} (low : lo = max addr key)
    (high : hi = min (addr + data.length) (key + chunkSize)) (order : lo ≤ hi) :
    (memory.write addr data).read key chunkSize =
      (memory.read key chunkSize).take (lo - key) ++ slice data (lo - addr) (hi - addr) ++
        (memory.read key chunkSize).drop (hi - key) := by
  have parts : chunkSize = lo - key + (hi - lo) + (key + chunkSize - hi) := by omega
  have first : (memory.write addr data).read key (lo - key) = memory.read key (lo - key) := by
    apply read_congr
    intro offset inside
    exact memory.write_before (by omega)
  have last : (memory.write addr data).read hi (key + chunkSize - hi) =
      memory.read hi (key + chunkSize - hi) := by
    apply read_congr
    intro offset inside
    exact memory.write_after (by omega)
  have middle : (memory.write addr data).read lo (hi - lo) = slice data (lo - addr) (hi - addr) := by
    have inside := @read_write memory addr (lo - addr) (hi - lo) data (by omega)
    rwa [Nat.add_sub_of_le (by omega), show lo - addr + (hi - lo) = hi - addr by omega] at inside
  have rest : (memory.read key chunkSize).drop (hi - key) = memory.read hi (key + chunkSize - hi) := by
    rw [memory.drop_read, Nat.add_sub_of_le (by omega), show chunkSize - (hi - key) =
      key + chunkSize - hi by omega]
  rw [memory.take_read, Nat.min_eq_left (by omega), rest, ← first, ← middle, ← last]
  conv_lhs => rw [parts]
  rw [read_add, read_add, Nat.add_sub_of_le (by omega), show key + (lo - key + (hi - lo)) = hi by omega]

end GuestMemory

/-- Chunks below the boundary hold the written memory, the others still the old one. -/
def Mixed (old new : GuestMemory) (cache : Cache) (boundary : Nat) : Prop :=
  ∀ key chunk, cache key = some chunk → key % chunkSize = 0 ∧
    chunk = (if key < boundary then new else old).read key chunkSize

section WriteLoop

variable {memory : GuestMemory} {addr chunkAddr : Nat} {data : List UInt8} {cache after : Cache}

theorem aligned_cases {key : Nat} (aligned : key % chunkSize = 0)
    (start : chunkAddr % chunkSize = 0) (below : key < chunkAddr + chunkSize) :
    key < chunkAddr ∨ key = chunkAddr := by
  unfold chunkSize at aligned start below
  omega

theorem Mixed.skip {old new : GuestMemory} (mixed : Mixed old new cache chunkAddr)
    (start : chunkAddr % chunkSize = 0) (uncached : cache chunkAddr = none) :
    Mixed old new cache (chunkAddr + chunkSize) := by
  intro key chunk cached
  obtain ⟨aligned, content⟩ := mixed key chunk cached
  refine ⟨aligned, content.trans ?_⟩
  by_cases below : key < chunkAddr + chunkSize
  · rcases aligned_cases aligned start below with before | rfl
    · rw [if_pos before, if_pos below]
    · rw [uncached] at cached
      cases cached
  · rw [if_neg below, if_neg (by omega)]

theorem Mixed.store {old new : GuestMemory} {written : List UInt8}
    (mixed : Mixed old new cache chunkAddr) (start : chunkAddr % chunkSize = 0)
    (content : written = new.read chunkAddr chunkSize) :
    Mixed old new (Function.update cache chunkAddr (some written)) (chunkAddr + chunkSize) := by
  intro key chunk cached
  have positive := chunkSize_pos
  by_cases same : key = chunkAddr
  · subst same
    rw [Function.update_self, Option.some.injEq] at cached
    subst cached
    rw [if_pos (by omega)]
    exact ⟨start, content⟩
  · rw [Function.update_of_ne same] at cached
    obtain ⟨aligned, held⟩ := mixed key chunk cached
    refine ⟨aligned, held.trans ?_⟩
    by_cases below : key < chunkAddr + chunkSize
    · have before := (aligned_cases aligned start below).resolve_right same
      rw [if_pos before, if_pos below]
    · rw [if_neg below, if_neg (by omega)]

/-- The loop brings every cached chunk of the range to the written memory, and
caches no other one. -/
theorem writeLoop_spec (mixed : Mixed memory (memory.write addr data) cache chunkAddr)
    (start : chunkAddr % chunkSize = 0) (reaches : addr < chunkAddr + chunkSize) :
    ∃ after boundary, writeLoop false addr data cache chunkAddr = some after ∧
      addr + data.length ≤ boundary ∧ Mixed memory (memory.write addr data) after boundary ∧
      ∀ key, after key = none ↔ cache key = none := by
  induction cache, chunkAddr using writeLoop.induct false addr data with
  | case1 cache chunkAddr inside uncached imaginary => cases imaginary
  | case2 cache chunkAddr inside uncached normal ih =>
      rw [writeLoop, if_pos inside]
      simp only [uncached, Bool.false_eq_true, if_false]
      exact ih (mixed.skip start uncached) (by rw [Nat.add_mod_right, start]) (by omega)
  | case3 cache chunkAddr inside chunk cached lo hi written ih =>
      have content : written = (memory.write addr data).read chunkAddr chunkSize := by
        have held := (mixed chunkAddr chunk cached).2
        rw [if_neg (Nat.lt_irrefl _)] at held
        have whole := memory.read_chunk (rfl : lo = max addr chunkAddr)
          (rfl : hi = min (addr + data.length) (chunkAddr + chunkSize)) (by omega)
        rw [whole, ← held]
      obtain ⟨after, boundary, done, beyond, mixedAfter, keys⟩ := ih
        (mixed.store start content) (by rw [Nat.add_mod_right, start]) (by omega)
      refine ⟨after, boundary, ?_, beyond, mixedAfter, ?_⟩
      · rw [writeLoop, if_pos inside]
        simp only [cached]
        exact done
      · intro key
        rw [keys]
        by_cases same : key = chunkAddr
        · subst same
          simp [cached]
        · rw [Function.update_of_ne same]
  | case4 cache chunkAddr outside =>
      refine ⟨cache, chunkAddr, ?_, Nat.le_of_not_lt outside, mixed, fun _ => Iff.rfl⟩
      rw [writeLoop, if_neg outside]

/-- Whatever the backing guest stores, the cache takes all of the data. -/
theorem writeLoop_coherent (coherent : Coherent memory cache) :
    ∃ after, writeLoop false addr data cache (addr - addr % chunkSize) = some after ∧
      Coherent (memory.write addr data) after ∧ ∀ key, after key = none ↔ cache key = none := by
  have below := Nat.mod_lt addr chunkSize_pos
  have split := Nat.div_add_mod' addr chunkSize
  have chunkStart : addr - addr % chunkSize = addr / chunkSize * chunkSize := by omega
  have mixed : Mixed memory (memory.write addr data) cache (addr - addr % chunkSize) := by
    intro key chunk cached
    obtain ⟨aligned, content⟩ := coherent key chunk cached
    refine ⟨aligned, content.trans ?_⟩
    split
    · rename_i before
      apply GuestMemory.read_congr
      intro offset inside
      refine (memory.write_before ?_).symm
      unfold chunkSize at aligned inside before split
      omega
    · rfl
  obtain ⟨after, boundary, done, beyond, mixedAfter, keys⟩ := writeLoop_spec mixed
    (by rw [chunkStart, Nat.mul_mod_left]) (by omega)
  refine ⟨after, done, ?_, keys⟩
  intro key chunk cached
  obtain ⟨aligned, content⟩ := mixedAfter key chunk cached
  refine ⟨aligned, content.trans ?_⟩
  split
  · rfl
  · apply GuestMemory.read_congr
    intro offset inside
    exact (memory.write_after (by omega)).symm

/-- The chunk that holds an address. -/
theorem key_eq {key place : Nat} (aligned : key % chunkSize = 0) (lower : key ≤ place)
    (upper : place < key + chunkSize) : place / chunkSize * chunkSize = key := by
  unfold chunkSize at *
  omega

/-- A cache that took all of the data agrees with a memory that took only a
prefix of it exactly where no cached byte differs. -/
theorem coherent_stored_iff {stored : Nat} (taken : Coherent (memory.write addr data) after)
    (keys : ∀ key, after key = none ↔ cache key = none) (fits : stored ≤ data.length) :
    Coherent (memory.write addr (data.take stored)) after ↔
      ∀ offset, stored ≤ offset → offset < data.length →
        cache ((addr + offset) / chunkSize * chunkSize) ≠ none →
        data[offset]? = some (memory (addr + offset)) := by
  have length : (data.take stored).length = stored := by
    rw [List.length_take, Nat.min_eq_left fits]
  have missing : ∀ offset, stored ≤ offset →
      memory.write addr (data.take stored) (addr + offset) = memory (addr + offset) :=
    fun offset beyond => memory.write_after (by omega)
  constructor
  · intro coherent offset beyond inside cached
    obtain ⟨chunk, held⟩ := Option.ne_none_iff_exists'.mp (mt (keys _).mp cached)
    have same := (coherent _ chunk held).2.symm.trans (taken _ chunk held).2
    have below : addr + offset - (addr + offset) / chunkSize * chunkSize < chunkSize := by
      have rest := Nat.mod_lt (addr + offset) chunkSize_pos
      have split := Nat.div_add_mod' (addr + offset) chunkSize
      omega
    have equal := GuestMemory.read_apply same below
    rw [Nat.add_sub_of_le (Nat.div_mul_le_self _ _), missing offset beyond,
      memory.write_inside inside] at equal
    rw [List.getElem?_eq_getElem inside, equal]
  · intro kept key chunk held
    obtain ⟨aligned, content⟩ := taken key chunk held
    refine ⟨aligned, content.trans ?_⟩
    apply GuestMemory.read_congr
    intro place within
    rcases Nat.lt_or_ge (key + place) addr with before | inside
    · rw [memory.write_before before, memory.write_before before]
    · obtain ⟨offset, position⟩ := Nat.exists_eq_add_of_le inside
      rw [position]
      rcases Nat.lt_or_ge offset stored with early | late
      · rw [memory.write_inside (by omega), memory.write_inside (by omega), List.getElem_take]
      · rw [missing offset late]
        rcases Nat.lt_or_ge offset data.length with short | long
        · have page := key_eq aligned (Nat.le_add_right key place) (by omega)
          rw [position] at page
          have byte := kept offset late short (by
            rw [page]
            exact mt (keys key).mpr (by simp [held]))
          rw [List.getElem?_eq_getElem short, Option.some.injEq] at byte
          rw [memory.write_inside short, byte]
        · exact memory.write_after (by omega)

end WriteLoop

/-! ## Sequences of calls -/

namespace System

variable {before after : System} {call : Call}

/-- What every call of a guest in normal mode keeps, as long as it goes right. -/
structure Invariant (system : System) : Prop where
  coherent : Coherent system.memory system.guest.cache
  normal : system.guest.imaginaryMode = false

theorem tryRead_coherent {served : Nat → Nat → Nat} {addr size : Nat} {done : List UInt8 × CachingGuest}
    (coherent : Coherent before.memory before.guest.cache)
    (read : before.guest.tryRead (before.backingRead served) addr size = some done) :
    Coherent before.memory done.2.cache ∧ done.2.imaginaryMode = before.guest.imaginaryMode := by
  have aligned : (addr - addr % chunkSize) % chunkSize = 0 := by
    rw [← Nat.div_mul_self_eq_mod_sub_self, Nat.mul_mod_left]
  unfold CachingGuest.tryRead at read
  split_ifs at read
  · cases read
    exact ⟨coherent, rfl⟩
  · simp only [Option.some.injEq] at read
    subst done
    refine ⟨coherent.readLoop aligned ?_, rfl⟩
    intro addr size
    rw [backingRead, GuestMemory.length_read]

theorem exit_coherent {guest : CachingGuest} (coherent : Coherent before.memory before.guest.cache)
    (exited : before.guest.exit = some guest) :
    Coherent before.memory guest.cache ∧ guest.imaginaryMode = before.guest.imaginaryMode := by
  unfold CachingGuest.exit at exited
  split_ifs at exited
  · cases exited
    exact ⟨.empty before.memory, rfl⟩
  · cases exited
    exact ⟨coherent, rfl⟩

theorem tryWrite_normal {addr stored : Nat} {data : List UInt8} (invariant : Invariant before) :
    ∃ cache, before.guest.tryWrite before.memory.read stored addr data =
        some (stored, { before.guest with cache }) ∧
      Coherent (before.memory.write addr data) cache ∧
      ∀ key, cache key = none ↔ before.guest.cache key = none := by
  obtain ⟨cache, done, taken, keys⟩ := @writeLoop_coherent before.memory addr data _ invariant.coherent
  refine ⟨cache, ?_, taken, keys⟩
  unfold CachingGuest.tryWrite
  simp only [invariant.normal, Bool.false_eq_true, if_false, done, Option.map_some]

theorem callOk_iff (invariant : Invariant before) : before.CallOk call ↔ before.Kept call := by
  cases call with
  | enter =>
      refine ⟨fun _ => trivial, ?_⟩
      intro _ after stepped
      cases stepped
      exact ⟨invariant.coherent, by simp⟩
  | exit =>
      refine ⟨fun _ => trivial, ?_⟩
      intro _ after stepped
      obtain ⟨guest, exited, rfl⟩ := Option.map_eq_some_iff.mp stepped
      exact ⟨(exit_coherent invariant.coherent exited).1, by simp⟩
  | read addr size served =>
      refine ⟨fun _ => trivial, ?_⟩
      intro _ after stepped
      obtain ⟨done, read, rfl⟩ := Option.map_eq_some_iff.mp stepped
      exact ⟨(tryRead_coherent invariant.coherent read).1, by simp⟩
  | write addr data stored =>
      obtain ⟨cache, written, taken, keys⟩ := @tryWrite_normal before addr stored data invariant
      by_cases fits : stored ≤ data.length
      · have stepped : before.step (.write addr data stored) = some {
            guest := { before.guest with cache }
            memory := before.memory.write addr (data.take stored) } := by
          rw [step, if_pos fits, written]
          rfl
        refine Iff.trans ?_ (coherent_stored_iff taken keys fits)
        constructor
        · intro ok
          exact (ok _ stepped).1
        · intro coherent after same
          rw [stepped, Option.some.injEq] at same
          subst after
          refine ⟨coherent, ?_⟩
          intro others bytes count equal
          cases equal
          rw [written, Option.map_some]
      · refine ⟨fun _ offset beyond inside => absurd inside (by omega), ?_⟩
        intro _ after stepped
        rw [step, if_neg fits] at stepped
        cases stepped

theorem step_invariant (invariant : Invariant before) (ok : before.CallOk call)
    (stepped : before.step call = some after) : Invariant after := by
  refine ⟨(ok after stepped).1, ?_⟩
  cases call with
  | enter =>
      cases stepped
      exact invariant.normal
  | exit =>
      obtain ⟨guest, exited, rfl⟩ := Option.map_eq_some_iff.mp stepped
      exact (exit_coherent invariant.coherent exited).2.trans invariant.normal
  | read addr size served =>
      obtain ⟨done, read, rfl⟩ := Option.map_eq_some_iff.mp stepped
      exact (tryRead_coherent invariant.coherent read).2.trans invariant.normal
  | write addr data stored =>
      obtain ⟨cache, written, -, -⟩ := @tryWrite_normal before addr stored data invariant
      rw [step] at stepped
      split_ifs at stepped
      rw [written] at stepped
      cases stepped
      exact invariant.normal

end System

/-- In every sequence of calls through a guest in normal mode, each one leaves the
cache in agreement with the memory and returns what was stored, if and only if
no write leaves a cached byte behind that the backing guest did not take. -/
theorem cachedWrites_coherent_iff (memory : GuestMemory) (calls : List Call) :
    Machine.Along System.step System.CallOk { memory } calls ↔
      Machine.Along System.step System.Kept { memory } calls :=
  Machine.along_congr (fun invariant ok stepped => System.step_invariant invariant ok stepped)
    (fun invariant => System.callOk_iff invariant) ⟨.empty memory, rfl⟩

/-- A read that caches the chunk at 0x1000, and a write of a byte there that the
backing guest does not store. -/
def refusedWrite : List Call :=
  [.enter, .read 0x1000 1 fun _ size => size, .write 0x1000 [1] 0]

theorem read_caches (memory : GuestMemory) : ∃ after : System,
    (System.mk { activeCount := 1 } memory).step (.read 0x1000 1 fun _ size => size) = some after ∧
      after.memory = memory ∧ after.guest.cache 0x1000 ≠ none := by
  have size : runSize (fun _ => none) (0x1000 + 1) 0x1000 chunkSize = (0 + 1) * chunkSize := by
    rw [runSize, if_neg (by decide)]
    simp
  have length : (memory.read 0x1000 (min ((0 + 1) * chunkSize) ((0 + 1) * chunkSize))).length =
      (0 + 1) * chunkSize := by
    rw [GuestMemory.length_read, Nat.min_self]
  have cached : (readLoop ((System.mk { activeCount := 1 } memory).backingRead fun _ size => size)
      (0x1000 + 1) (fun _ => none) 0x1000 []).2 0x1000 ≠ none := by
    rw [readLoop, if_pos (by decide), size]
    simp only [System.backingRead, length, ne_eq, not_true_eq_false, if_false]
    rw [readLoop, if_neg (by decide), fillChunks_succ]
    simp
  exact ⟨_, rfl, rfl, cached⟩

/-- The cache takes the byte that the backing guest refused. -/
theorem refusedWrite_incoherent :
    ¬ Machine.Along System.step System.CallOk { memory := fun _ => 0 } refusedWrite := by
  intro ⟨_, entered⟩
  obtain ⟨afterRead, read, memory, cached⟩ := read_caches fun _ => 0
  have invariant : System.Invariant { guest := { activeCount := 1 }, memory := fun _ => 0 } :=
    ⟨.empty _, rfl⟩
  obtain ⟨ok, last⟩ := entered _ rfl
  obtain ⟨wrote, -⟩ := last afterRead read
  have kept := (System.callOk_iff (System.step_invariant invariant ok read)).mp wrote
  have byte := kept 0 (Nat.le_refl 0) (by decide) cached
  rw [memory] at byte
  cases byte

end Smmboss.Guest
