import Mathlib.Logic.Function.Basic
import Mathlib.Tactic.SplitIfs
import Smmboss.Guest.Memory

namespace Smmboss.Guest

/-! # `CachingGuest`

The backing guest is what its calls answer: `BackingRead` for `try_read`, and
the stored length for `try_write`.
-/

def chunkSize : Nat := 0x1000

theorem chunkSize_pos : 0 < chunkSize := by decide

/-- The dictionary from chunk addresses to chunks. -/
abbrev Cache := Nat → Option (List UInt8)

abbrev BackingRead := Nat → Nat → List UInt8

structure CachingGuest where
  cache : Cache := fun _ => none
  activeCount : Nat := 0
  imaginaryMode : Bool := false

/-- `bytes[start:stop]`. -/
def slice (bytes : List UInt8) (start stop : Nat) : List UInt8 := (bytes.take stop).drop start

/-- The inner loop of `try_read`: a run of chunks that are not cached. -/
def runSize (cache : Cache) (stop chunkAddr readSize : Nat) : Nat :=
  if chunkAddr + readSize < stop ∧ cache (chunkAddr + readSize) = none then
    runSize cache stop chunkAddr (readSize + chunkSize)
  else readSize
termination_by stop - (chunkAddr + readSize)
decreasing_by
  have positive := chunkSize_pos
  omega

theorem le_runSize (cache : Cache) (stop chunkAddr readSize : Nat) :
    readSize ≤ runSize cache stop chunkAddr readSize := by
  induction readSize using runSize.induct cache stop chunkAddr with
  | case1 readSize more ih =>
      rw [runSize, if_pos more]
      omega
  | case2 readSize done => exact Nat.le_of_eq (by rw [runSize, if_neg done])

/-- The chunks of one backing read. -/
def fillChunks (cache : Cache) (chunkAddr : Nat) (readData : List UInt8) (readSize : Nat) : Cache :=
  (List.range' 0 (readSize / chunkSize) chunkSize).foldl (fun cache off =>
    Function.update cache (chunkAddr + off) (some (slice readData off (off + chunkSize)))) cache

/-- The loop of `try_read`: `ret` and the cache at its end. -/
def readLoop (backing : BackingRead) (stop : Nat) (cache : Cache) (chunkAddr : Nat)
    (ret : List UInt8) : List UInt8 × Cache :=
  if chunkAddr < stop then
    match cache chunkAddr with
    | none =>
        if (backing chunkAddr (runSize cache stop chunkAddr chunkSize)).length ≠
            runSize cache stop chunkAddr chunkSize then
          (ret, cache)
        else
          readLoop backing stop
            (fillChunks cache chunkAddr
              (backing chunkAddr (runSize cache stop chunkAddr chunkSize))
              (runSize cache stop chunkAddr chunkSize))
            (chunkAddr + runSize cache stop chunkAddr chunkSize)
            (ret ++ backing chunkAddr (runSize cache stop chunkAddr chunkSize))
    | some chunkData => readLoop backing stop cache (chunkAddr + chunkSize) (ret ++ chunkData)
  else (ret, cache)
termination_by stop - chunkAddr
decreasing_by
  · have advances := le_runSize cache stop chunkAddr chunkSize
    have positive := chunkSize_pos
    omega
  · have positive := chunkSize_pos
    omega

/-- The loop of `try_write` over the chunks of the range. -/
def writeLoop (imaginaryMode : Bool) (addr : Nat) (data : List UInt8) (cache : Cache)
    (chunkAddr : Nat) : Option Cache :=
  if chunkAddr < addr + data.length then
    match cache chunkAddr with
    | none =>
        if imaginaryMode then none
        else writeLoop imaginaryMode addr data cache (chunkAddr + chunkSize)
    | some chunk =>
        let lo := max addr chunkAddr
        let hi := min (addr + data.length) (chunkAddr + chunkSize)
        let written := chunk.take (lo - chunkAddr) ++ slice data (lo - addr) (hi - addr) ++
          chunk.drop (hi - chunkAddr)
        writeLoop imaginaryMode addr data (Function.update cache chunkAddr (some written))
          (chunkAddr + chunkSize)
  else some cache
termination_by addr + data.length - chunkAddr
decreasing_by
  all_goals
    have positive := chunkSize_pos
    omega

namespace CachingGuest

/-- `none` is a failed assertion. -/
def tryRead (backing : BackingRead) (guest : CachingGuest) (addr size : Nat) :
    Option (List UInt8 × CachingGuest) :=
  if guest.activeCount = 0 then
    if guest.imaginaryMode then none else some (backing addr size, guest)
  else
    let off := addr % chunkSize
    let done := readLoop backing (addr + size) guest.cache (addr - off) []
    some (slice done.1 off (off + size), { guest with cache := done.2 })

/-- `stored` is what `backing.try_write` returns, where it is called. -/
def tryWrite (backing : BackingRead) (stored : Nat) (guest : CachingGuest) (addr : Nat)
    (data : List UInt8) : Option (Nat × CachingGuest) :=
  let chunkAddr := addr - addr % chunkSize
  if guest.imaginaryMode then
    (guest.tryRead backing addr data.length).bind fun readable =>
      let data := data.take readable.1.length
      (writeLoop true addr data readable.2.cache chunkAddr).map fun cache =>
        (data.length, { readable.2 with cache })
  else
    (writeLoop false addr data guest.cache chunkAddr).map fun cache =>
      (stored, { guest with cache })

def enter (guest : CachingGuest) : CachingGuest :=
  { guest with activeCount := guest.activeCount + 1 }

/-- `none` is an exit without an enter. -/
def exit (guest : CachingGuest) : Option CachingGuest :=
  if guest.activeCount = 0 then none
  else if guest.activeCount = 1 then some { guest with activeCount := 0, cache := fun _ => none }
  else some { guest with activeCount := guest.activeCount - 1 }

end CachingGuest

/-! ## What a cached chunk holds -/

/-- Every cached chunk holds the chunk of memory at its address. -/
def Coherent (memory : GuestMemory) (cache : Cache) : Prop :=
  ∀ key chunk, cache key = some chunk → key % chunkSize = 0 ∧ chunk = memory.read key chunkSize

theorem Coherent.empty (memory : GuestMemory) : Coherent memory fun _ => none := by
  intro key chunk cached
  cases cached

theorem Coherent.update {memory : GuestMemory} {cache : Cache} {key : Nat} {chunk : List UInt8}
    (coherent : Coherent memory cache) (aligned : key % chunkSize = 0)
    (content : chunk = memory.read key chunkSize) :
    Coherent memory (Function.update cache key (some chunk)) := by
  intro other held cached
  by_cases same : other = key
  · subst same
    rw [Function.update_self, Option.some.injEq] at cached
    subst cached
    exact ⟨aligned, content⟩
  · rw [Function.update_of_ne same] at cached
    exact coherent other held cached

/-! ## One backing read -/

section Run

variable {cache : Cache} {stop chunkAddr readSize : Nat}

/-- The run goes on over chunks of the range that are not cached, up to one that
is cached or out of the range. -/
theorem runSize_spec (cache : Cache) (stop chunkAddr readSize : Nat) :
    ∃ count, runSize cache stop chunkAddr readSize = readSize + count * chunkSize ∧
      (∀ place < count, chunkAddr + readSize + place * chunkSize < stop ∧
        cache (chunkAddr + readSize + place * chunkSize) = none) ∧
      ¬ (chunkAddr + readSize + count * chunkSize < stop ∧
        cache (chunkAddr + readSize + count * chunkSize) = none) := by
  induction readSize using runSize.induct cache stop chunkAddr with
  | case1 readSize more ih =>
      obtain ⟨count, size, inside, ends⟩ := ih
      have shift : ∀ place, chunkAddr + readSize + (place + 1) * chunkSize =
          chunkAddr + (readSize + chunkSize) + place * chunkSize := by
        intro place
        rw [Nat.add_mul]
        omega
      refine ⟨count + 1, ?_, ?_, ?_⟩
      · rw [runSize, if_pos more, size, Nat.add_mul]
        omega
      · intro place below
        cases place with
        | zero => simpa using more
        | succ place =>
            rw [shift]
            exact inside place (by omega)
      · rw [shift]
        exact ends
  | case2 readSize done =>
      exact ⟨0, by rw [runSize, if_neg done]; simp, by simp, by simpa using done⟩

theorem fillChunks_succ (cache : Cache) (chunkAddr : Nat) (readData : List UInt8) (count : Nat) :
    fillChunks cache chunkAddr readData ((count + 1) * chunkSize) =
      Function.update (fillChunks cache chunkAddr readData (count * chunkSize))
        (chunkAddr + count * chunkSize)
        (some (slice readData (count * chunkSize) (count * chunkSize + chunkSize))) := by
  unfold fillChunks
  rw [Nat.mul_div_cancel _ chunkSize_pos, Nat.mul_div_cancel _ chunkSize_pos, List.range'_concat,
    List.foldl_append, Nat.zero_add, Nat.mul_comm chunkSize]
  rfl

theorem fillChunks_zero (cache : Cache) (chunkAddr : Nat) (readData : List UInt8) :
    fillChunks cache chunkAddr readData (0 * chunkSize) = cache := by
  simp [fillChunks]

/-- Filling touches only the keys of the run. -/
theorem fillChunks_other {readData : List UInt8} {count key : Nat}
    (outside : key < chunkAddr ∨ chunkAddr + count * chunkSize ≤ key) :
    fillChunks cache chunkAddr readData (count * chunkSize) key = cache key := by
  induction count with
  | zero => rw [fillChunks_zero]
  | succ count ih =>
      rw [Nat.add_mul] at outside
      have positive := chunkSize_pos
      rw [fillChunks_succ, Function.update_of_ne (by omega)]
      exact ih (by omega)

theorem GuestMemory.slice_read (memory : GuestMemory) (addr start stop size : Nat) :
    slice (memory.read addr size) start stop =
      memory.read (addr + start) (min stop size - start) := by
  rw [slice, memory.take_read, memory.drop_read]

/-- Chunks read from the memory are coherent with it. -/
theorem Coherent.fill {memory : GuestMemory} {count : Nat} (coherent : Coherent memory cache)
    (aligned : chunkAddr % chunkSize = 0) {total : Nat} (within : count ≤ total) :
    Coherent memory
      (fillChunks cache chunkAddr (memory.read chunkAddr (total * chunkSize)) (count * chunkSize)) := by
  induction count with
  | zero =>
      rw [fillChunks_zero]
      exact coherent
  | succ count ih =>
      have room : count * chunkSize + chunkSize ≤ total * chunkSize := by
        rw [← Nat.succ_mul]
        exact Nat.mul_le_mul_right chunkSize within
      rw [fillChunks_succ]
      apply (ih (by omega)).update
      · rw [Nat.add_mul_mod_self_right, aligned]
      · rw [memory.slice_read, Nat.min_eq_left room, Nat.add_sub_cancel_left]

end Run

end Smmboss.Guest
