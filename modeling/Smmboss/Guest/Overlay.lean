import Smmboss.Guest.CachedReads
import Smmboss.Guest.CachedWrites

namespace Smmboss.Guest

open PageBacking (RunAt runAt_exists read_pages page_offset)

/-! # The imaginary mode

A guest in imaginary mode writes to its cache alone.  The overlay, the latest
byte written to each address, is history.
-/

abbrev Overlay := Nat → Option UInt8

def Overlay.write (overlay : Overlay) (addr : Nat) (bytes : List UInt8) : Overlay := fun other =>
  if addr ≤ other then (bytes[other - addr]?).or (overlay other) else overlay other

/-- The latest byte written to an address, else the backing guest's. -/
def view (memory : GuestMemory) (overlay : Overlay) : GuestMemory := fun place =>
  (overlay place).getD (memory place)

theorem view_write (memory : GuestMemory) (overlay : Overlay) (addr : Nat) (bytes : List UInt8) :
    view memory (overlay.write addr bytes) = (view memory overlay).write addr bytes := by
  funext place
  unfold view Overlay.write GuestMemory.write
  split_ifs
  · cases bytes[place - addr]? <;> rfl
  · rfl

/-- The cache holds the chunks of the view, and all that was written is in it. -/
structure Overlaid (memory : GuestMemory) (overlay : Overlay) (cache : Cache) : Prop where
  coherent : Coherent (view memory overlay) cache
  covered : ∀ place, overlay place ≠ none → cache (place / chunkSize * chunkSize) ≠ none

section Fill

variable {memory : GuestMemory} {overlay : Overlay} {cache : Cache} {page count : Nat}

theorem fillChunks_inside {data : List UInt8} {place : Nat} (lower : page ≤ place)
    (upper : place < page + count) :
    fillChunks cache (page * chunkSize) data (count * chunkSize) (place * chunkSize) ≠ none := by
  induction count with
  | zero => omega
  | succ count ih =>
      rw [fillChunks_succ, ← Nat.add_mul]
      by_cases last : place = page + count
      · rw [last, Function.update_self]
        simp
      · have apart : place * chunkSize ≠ (page + count) * chunkSize := by
          intro same
          exact last (Nat.eq_of_mul_eq_mul_right chunkSize_pos same)
        rw [Function.update_of_ne apart]
        exact ih (by omega)

theorem fillChunks_kept {data : List UInt8} {key : Nat} (cached : cache key ≠ none) :
    fillChunks cache (page * chunkSize) data (count * chunkSize) key ≠ none := by
  induction count with
  | zero => rwa [fillChunks_zero]
  | succ count ih =>
      rw [fillChunks_succ]
      by_cases same : key = page * chunkSize + count * chunkSize
      · rw [same, Function.update_self]
        simp
      · rwa [Function.update_of_ne same]

/-- Nothing was written to chunks that are not cached. -/
theorem Overlaid.read_uncached (overlaid : Overlaid memory overlay cache)
    (uncached : ∀ place, page ≤ place → place < page + count → cache (place * chunkSize) = none) :
    (view memory overlay).read (page * chunkSize) (count * chunkSize) =
      memory.read (page * chunkSize) (count * chunkSize) := by
  apply GuestMemory.read_congr
  intro offset inside
  have below : offset / chunkSize < count := (Nat.div_lt_iff_lt_mul chunkSize_pos).mpr inside
  have missing : overlay (page * chunkSize + offset) = none := by
    by_contra written
    have cached := overlaid.covered _ written
    rw [page_offset] at cached
    exact cached (uncached _ (Nat.le_add_right _ _) (by omega))
  rw [view, missing]
  rfl

theorem Overlaid.fill (overlaid : Overlaid memory overlay cache) :
    Overlaid memory overlay (fillChunks cache (page * chunkSize)
      ((view memory overlay).read (page * chunkSize) (count * chunkSize)) (count * chunkSize)) where
  coherent := overlaid.coherent.fill (Nat.mul_mod_left page chunkSize) (Nat.le_refl count)
  covered := fun place written => fillChunks_kept (overlaid.covered place written)

end Fill

/-! ## Reads -/

/-- The chunk is not cached, and the backing guest does not serve the run that
starts there in full. -/
def Refused (backing : BackingRead) (cache : Cache) (stop chunkAddr : Nat) : Prop :=
  cache chunkAddr = none ∧
    (backing chunkAddr (runSize cache stop chunkAddr chunkSize)).length ≠
      runSize cache stop chunkAddr chunkSize

theorem readLoop_refused {backing : BackingRead} {cache : Cache} {stop chunkAddr : Nat}
    {ret : List UInt8} (inside : chunkAddr < stop) (refused : Refused backing cache stop chunkAddr) :
    readLoop backing stop cache chunkAddr ret = (ret, cache) := by
  rw [readLoop, if_pos inside]
  simp only [refused.1, if_pos refused.2]

/-- What the loop has read when it ends: the pages of the view below `reach`,
which are all cached by then. -/
structure ReadTo (memory : GuestMemory) (overlay : Overlay) (cache : Cache) (page reach : Nat)
    (ret : List UInt8) (done : List UInt8 × Cache) : Prop where
  order : page ≤ reach
  read : done.1 = ret ++
    (view memory overlay).read (page * chunkSize) ((reach - page) * chunkSize)
  overlaid : Overlaid memory overlay done.2
  kept : ∀ key, cache key ≠ none → done.2 key ≠ none
  filled : ∀ place, page ≤ place → place < reach → done.2 (place * chunkSize) ≠ none

theorem readLoop_overlaid {memory : GuestMemory} {overlay : Overlay} {backing : BackingRead}
    {stop chunkAddr page : Nat} {cache : Cache} {ret : List UInt8}
    (overlaid : Overlaid memory overlay cache)
    (reads : ∀ addr size, backing addr size = memory.read addr (backing addr size).length)
    (start : chunkAddr = page * chunkSize) :
    ∃ reach, ReadTo memory overlay cache page reach ret
        (readLoop backing stop cache chunkAddr ret) ∧
      (chunkAddr < stop → ¬ Refused backing cache stop chunkAddr → page < reach) := by
  induction cache, chunkAddr, ret using readLoop.induct backing stop generalizing page with
  | case1 cache chunkAddr ret inside uncached short =>
      subst start
      rw [readLoop_refused inside ⟨uncached, short⟩]
      refine ⟨page, ⟨Nat.le_refl _, by simp, overlaid, fun _ cached => cached, ?_⟩, ?_⟩
      · intro place lower upper
        omega
      · intro _ served
        exact absurd ⟨uncached, short⟩ served
  | case2 cache chunkAddr ret inside uncached full ih =>
      subst start
      obtain ⟨count, run⟩ := runAt_exists inside uncached
      have data := reads (page * chunkSize) (runSize cache stop (page * chunkSize) chunkSize)
      rw [not_not.mp full, run.size, ← overlaid.read_uncached (fun place lower upper =>
        run.uncached place lower (by omega))] at data
      have next : page * chunkSize + (count + 1) * chunkSize = (page + count + 1) * chunkSize := by
        rw [← Nat.add_mul, Nat.add_assoc]
      rw [run.size, data] at ih
      obtain ⟨reach, done, -⟩ := ih overlaid.fill next
      have order := done.order
      refine ⟨reach, ?_, fun _ _ => by omega⟩
      rw [readLoop, if_pos inside]
      simp only [uncached, if_neg full]
      rw [run.size, data]
      refine ⟨by omega, ?_, done.overlaid, fun key cached => done.kept key (fillChunks_kept cached), ?_⟩
      · rw [done.read, List.append_assoc, read_pages _ (show page + (count + 1) ≤ reach from order),
          Nat.add_assoc]
      · intro place lower upper
        rcases Nat.lt_or_ge place (page + count + 1) with within | later
        · exact done.kept _ (fillChunks_inside lower within)
        · exact done.filled place later upper
  | case3 cache chunkAddr ret inside chunkData cached ih =>
      subst start
      have content := (overlaid.coherent (page * chunkSize) chunkData cached).2
      have next : page * chunkSize + chunkSize = (page + 1) * chunkSize := by
        rw [Nat.add_mul, Nat.one_mul]
      obtain ⟨reach, done, -⟩ := ih overlaid next
      have order := done.order
      refine ⟨reach, ?_, fun _ _ => by omega⟩
      rw [readLoop, if_pos inside]
      simp only [cached]
      refine ⟨by omega, ?_, done.overlaid, done.kept, ?_⟩
      · rw [done.read, List.append_assoc, read_pages _ order, Nat.one_mul, ← content]
      · intro place lower upper
        rcases Nat.eq_or_lt_of_le lower with rfl | later
        · exact done.kept _ (by simp [cached])
        · exact done.filled place later upper
  | case4 cache chunkAddr ret outside =>
      subst start
      rw [readLoop, if_neg outside]
      refine ⟨page, ⟨Nat.le_refl _, by simp, overlaid, fun _ cached => cached, ?_⟩, ?_⟩
      · intro place lower upper
        omega
      · intro inside
        exact absurd inside outside

section Calls

variable {memory : GuestMemory} {overlay : Overlay} {backing : BackingRead} {guest : CachingGuest}

/-- The read returns the view of its range up to `reach`. -/
theorem tryRead_overlaid (overlaid : Overlaid memory overlay guest.cache)
    (active : guest.activeCount ≠ 0)
    (reads : ∀ addr size, backing addr size = memory.read addr (backing addr size).length)
    (addr size : Nat) :
    ∃ reach cache, guest.tryRead backing addr size =
        some ((view memory overlay).read addr (min (addr + size) (reach * chunkSize) - addr),
          { guest with cache }) ∧
      addr / chunkSize ≤ reach ∧ Overlaid memory overlay cache ∧
      (∀ place, addr / chunkSize ≤ place → place < reach → cache (place * chunkSize) ≠ none) ∧
      (addr - addr % chunkSize < addr + size →
        ¬ Refused backing guest.cache (addr + size) (addr - addr % chunkSize) →
        addr / chunkSize < reach) := by
  have split : addr / chunkSize * chunkSize + addr % chunkSize = addr := Nat.div_add_mod' addr chunkSize
  obtain ⟨reach, done, first⟩ :=
    @readLoop_overlaid memory overlay backing (addr + size) (addr - addr % chunkSize)
      (addr / chunkSize) guest.cache [] overlaid reads (by omega)
  refine ⟨reach, _, ?_, done.order, done.overlaid, done.filled, first⟩
  have limit : addr / chunkSize * chunkSize ≤ reach * chunkSize :=
    Nat.mul_le_mul_right chunkSize done.order
  have length : min (addr % chunkSize + size) ((reach - addr / chunkSize) * chunkSize) -
      addr % chunkSize = min (addr + size) (reach * chunkSize) - addr := by
    rw [Nat.sub_mul]
    omega
  rw [CachingGuest.tryRead, if_neg active]
  simp only [done.read, List.nil_append, GuestMemory.slice_read, split, length]

/-- With all chunks of the range cached, the assertion holds and the loop writes
as in normal mode. -/
theorem writeLoop_imaginary {addr chunkAddr : Nat} {data : List UInt8} {cache : Cache}
    (cached : ∀ count, chunkAddr + count * chunkSize < addr + data.length →
      cache (chunkAddr + count * chunkSize) ≠ none) :
    writeLoop true addr data cache chunkAddr = writeLoop false addr data cache chunkAddr := by
  induction cache, chunkAddr using writeLoop.induct false addr data with
  | case1 cache chunkAddr inside uncached imaginary => cases imaginary
  | case2 cache chunkAddr inside uncached normal ih =>
      have held := cached 0 (by simpa using inside)
      rw [Nat.zero_mul, Nat.add_zero] at held
      exact absurd uncached held
  | case3 cache chunkAddr inside chunk held lo hi written ih =>
      conv_lhs => rw [writeLoop, if_pos inside]
      conv_rhs => rw [writeLoop, if_pos inside]
      simp only [held]
      apply ih
      intro count below
      have next : chunkAddr + chunkSize + count * chunkSize = chunkAddr + (count + 1) * chunkSize := by
        rw [Nat.add_mul]
        omega
      have positive := chunkSize_pos
      rw [Function.update_of_ne (by omega), next]
      exact cached (count + 1) (by omega)
  | case4 cache chunkAddr outside =>
      conv_lhs => rw [writeLoop, if_neg outside]
      conv_rhs => rw [writeLoop, if_neg outside]

/-- The write starts at a chunk boundary, or its first chunk can be cached. -/
def Accepts (backing : BackingRead) (cache : Cache) (addr size : Nat) : Prop :=
  addr % chunkSize = 0 ∨ ¬ Refused backing cache (addr + size) (addr - addr % chunkSize)

theorem tryWrite_refused {addr : Nat} {data : List UInt8} (imaginary : guest.imaginaryMode = true)
    (active : guest.activeCount ≠ 0) (stored : Nat)
    (refused : ¬ Accepts backing guest.cache addr data.length) :
    guest.tryWrite backing stored addr data = none := by
  rw [Accepts, not_or, not_not] at refused
  have offset := Nat.mod_le addr chunkSize
  have inside : addr - addr % chunkSize < addr + data.length := by omega
  have empty : guest.tryRead backing addr data.length = some ([], guest) := by
    rw [CachingGuest.tryRead, if_neg active]
    simp only [readLoop_refused inside refused.2]
    simp [slice]
  have uncached := refused.2.1
  have entered : addr - addr % chunkSize < addr + ([] : List UInt8).length := by
    rw [List.length_nil]
    omega
  rw [CachingGuest.tryWrite]
  simp only [imaginary, if_true, empty, Option.bind_some, List.length_nil, List.take_zero]
  rw [writeLoop, if_pos entered]
  simp only [uncached, if_true, Option.map_none]

theorem tryWrite_accepted {addr : Nat} {data : List UInt8}
    (overlaid : Overlaid memory overlay guest.cache) (imaginary : guest.imaginaryMode = true)
    (active : guest.activeCount ≠ 0)
    (reads : ∀ addr size, backing addr size = memory.read addr (backing addr size).length)
    (stored : Nat) (accepts : Accepts backing guest.cache addr data.length) :
    ∃ count cache, guest.tryWrite backing stored addr data = some (count, { guest with cache }) ∧
      count ≤ data.length ∧ Overlaid memory (overlay.write addr (data.take count)) cache := by
  obtain ⟨reach, cache, read, order, after, filled, first⟩ :=
    tryRead_overlaid overlaid active reads addr data.length
  have split : addr / chunkSize * chunkSize + addr % chunkSize = addr := Nat.div_add_mod' addr chunkSize
  have within : min (addr + data.length) (reach * chunkSize) - addr ≤ data.length := by omega
  generalize size : min (addr + data.length) (reach * chunkSize) - addr = count at read within
  have length : (data.take count).length = count := by
    rw [List.length_take, Nat.min_eq_left within]
  have cached : ∀ place, addr - addr % chunkSize + place * chunkSize < addr + count →
      cache (addr - addr % chunkSize + place * chunkSize) ≠ none := by
    intro place below
    have key : addr - addr % chunkSize + place * chunkSize =
        (addr / chunkSize + place) * chunkSize := by
      rw [Nat.add_mul]
      omega
    rw [key] at below ⊢
    apply filled _ (Nat.le_add_right _ _)
    by_cases none : count = 0
    · have unaligned : addr % chunkSize ≠ 0 := by
        intro aligned
        have least := Nat.mul_le_mul_right chunkSize (Nat.le_add_right (addr / chunkSize) place)
        omega
      have reached := first (by omega) (accepts.resolve_left unaligned)
      have zero : place = 0 := by
        by_contra later
        have next := Nat.mul_le_mul_right chunkSize (show addr / chunkSize + 1 ≤
          addr / chunkSize + place by omega)
        have offset := Nat.mod_lt addr chunkSize_pos
        rw [Nat.add_mul] at next
        omega
      omega
    · exact Nat.lt_of_mul_lt_mul_right (show (addr / chunkSize + place) * chunkSize <
        reach * chunkSize by omega)
  obtain ⟨written, done, coherent, keys⟩ :=
    @writeLoop_coherent (view memory overlay) addr (data.take count) cache after.coherent
  refine ⟨count, written, ?_, within, ?_, ?_⟩
  · rw [CachingGuest.tryWrite]
    simp only [imaginary, if_true, read, Option.bind_some, GuestMemory.length_read, length]
    rw [writeLoop_imaginary (by rw [length]; exact cached), done]
    rfl
  · rw [view_write]
    exact coherent
  · intro place touched
    rw [Ne, keys]
    by_cases old : overlay place = none
    · unfold Overlay.write at touched
      split_ifs at touched with above
      · have offset : place - addr < count := by
          by_contra beyond
          rw [List.getElem?_eq_none (by omega), old] at touched
          exact touched rfl
        have page : addr / chunkSize ≤ place / chunkSize := Nat.div_le_div_right above
        have key := cached (place / chunkSize - addr / chunkSize) (by
          have below := Nat.div_mul_le_self place chunkSize
          have order := Nat.mul_le_mul_right chunkSize page
          rw [Nat.sub_mul]
          omega)
        have order := Nat.mul_le_mul_right chunkSize page
        have same : addr - addr % chunkSize + (place / chunkSize - addr / chunkSize) * chunkSize =
            place / chunkSize * chunkSize := by
          rw [Nat.sub_mul]
          omega
        rwa [same] at key
      · exact absurd old touched
    · exact after.covered place old

end Calls

/-! ## Sequences of calls -/

/-- `CachingGuest(backing, imaginary_mode=True)`, whose initial count is not one
of a with-block, over a backing guest with this memory. -/
structure Overlaying where
  guest : CachingGuest := { activeCount := 1, imaginaryMode := true }
  memory : GuestMemory
  overlay : Overlay := fun _ => none

/-- `served` is how much the backing guest reads at most; `stored` is what its
`try_write` would return. -/
inductive OverlayCall where
  | enter
  | exit
  | read (addr size : Nat) (served : Nat → Nat → Nat)
  | write (addr : Nat) (data : List UInt8) (served : Nat → Nat → Nat) (stored : Nat)

namespace Overlaying

variable {before after : Overlaying} {call : OverlayCall}

def backingRead (system : Overlaying) (served : Nat → Nat → Nat) : BackingRead := fun addr size =>
  system.memory.read addr (min (served addr size) size)

/-- A with-block is left only after it was entered. -/
def step (system : Overlaying) : OverlayCall → Option Overlaying
  | .enter => some { system with guest := system.guest.enter }
  | .exit =>
      if system.guest.activeCount ≤ 1 then none
      else system.guest.exit.map fun guest => { system with guest }
  | .read addr size served =>
      (system.guest.tryRead (system.backingRead served) addr size).map fun done =>
        { system with guest := done.2 }
  | .write addr data served stored =>
      (system.guest.tryWrite (system.backingRead served) stored addr data).map fun done => {
        guest := done.2
        memory := if system.guest.imaginaryMode then system.memory
          else system.memory.write addr (data.take stored)
        overlay := system.overlay.write addr (data.take done.1) }

/-- No assertion fails, a read returns a prefix of the view of its range, and a
write no more than its length. -/
def Answers (before : Overlaying) : OverlayCall → Prop
  | .enter | .exit => True
  | .read addr size served =>
      ∃ count guest, count ≤ size ∧
        before.guest.tryRead (before.backingRead served) addr size =
          some ((view before.memory before.overlay).read addr count, guest)
  | .write addr data served stored =>
      ∃ count guest, count ≤ data.length ∧
        before.guest.tryWrite (before.backingRead served) stored addr data = some (count, guest)

/-- The call answers as it should, the backing guest is not written, and the
cache goes on holding the overlay. -/
def CallOk (before : Overlaying) (call : OverlayCall) : Prop :=
  before.Answers call ∧
    ∀ after, before.step call = some after →
      after.memory = before.memory ∧ Overlaid after.memory after.overlay after.guest.cache

/-- A write starts at a chunk boundary, or its first chunk is cached, or the
backing guest serves the run of chunks that starts there. -/
def Served (before : Overlaying) : OverlayCall → Prop
  | .enter | .exit | .read _ _ _ => True
  | .write addr data served _ =>
      Accepts (before.backingRead served) before.guest.cache addr data.length

structure Invariant (system : Overlaying) : Prop where
  overlaid : Overlaid system.memory system.overlay system.guest.cache
  imaginary : system.guest.imaginaryMode = true
  active : system.guest.activeCount ≠ 0

theorem initial_invariant (memory : GuestMemory) : Invariant { memory } where
  overlaid := ⟨.empty _, fun _ written => absurd rfl written⟩
  imaginary := rfl
  active := by simp

theorem backingRead_length (system : Overlaying) (served : Nat → Nat → Nat) (addr size : Nat) :
    system.backingRead served addr size =
      system.memory.read addr (system.backingRead served addr size).length := by
  rw [backingRead, GuestMemory.length_read]

/-- Inside a with-block the cache outlives an exit. -/
theorem exit_kept {guest : CachingGuest} (nested : ¬ before.guest.activeCount ≤ 1)
    (exited : before.guest.exit = some guest) :
    guest.cache = before.guest.cache ∧ guest.imaginaryMode = before.guest.imaginaryMode ∧
      guest.activeCount ≠ 0 := by
  rw [CachingGuest.exit, if_neg (by omega), if_neg (by omega), Option.some.injEq] at exited
  subst guest
  refine ⟨rfl, rfl, ?_⟩
  simp only
  omega

/-- What one call does when its condition holds. -/
theorem call_served (invariant : Invariant before) (served : before.Served call) :
    before.Answers call ∧ ∀ after, before.step call = some after →
      after.memory = before.memory ∧ Invariant after := by
  obtain ⟨overlaid, imaginary, active⟩ := invariant
  cases call with
  | enter =>
      refine ⟨trivial, ?_⟩
      intro after stepped
      cases stepped
      exact ⟨rfl, overlaid, imaginary, Nat.succ_ne_zero _⟩
  | exit =>
      refine ⟨trivial, ?_⟩
      intro after stepped
      rw [step] at stepped
      split_ifs at stepped with nested
      obtain ⟨guest, exited, rfl⟩ := Option.map_eq_some_iff.mp stepped
      obtain ⟨cache, mode, count⟩ := exit_kept nested exited
      refine ⟨rfl, ?_, mode.trans imaginary, count⟩
      simp only [cache]
      exact overlaid
  | read addr size serves =>
      obtain ⟨reach, cache, read, -, kept, -⟩ := tryRead_overlaid overlaid active
        (before.backingRead_length serves) addr size
      refine ⟨⟨min (addr + size) (reach * chunkSize) - addr, _, by omega, read⟩, ?_⟩
      intro after stepped
      rw [step, read, Option.map_some, Option.some.injEq] at stepped
      subst after
      exact ⟨rfl, kept, imaginary, active⟩
  | write addr data serves stored =>
      obtain ⟨count, cache, written, within, kept⟩ := tryWrite_accepted overlaid imaginary active
        (before.backingRead_length serves) stored served
      refine ⟨⟨count, _, within, written⟩, ?_⟩
      intro after stepped
      rw [step, written, Option.map_some, Option.some.injEq] at stepped
      subst after
      simp only [imaginary, if_true]
      exact ⟨trivial, kept, rfl, active⟩

theorem callOk_iff (invariant : Invariant before) : before.CallOk call ↔ before.Served call := by
  constructor
  · intro ⟨answers, _⟩
    cases call with
    | enter | exit | read => trivial
    | write addr data served stored =>
        by_contra refused
        obtain ⟨count, guest, -, written⟩ := answers
        rw [tryWrite_refused invariant.imaginary invariant.active stored refused] at written
        cases written
  · intro served
    obtain ⟨answers, kept⟩ := call_served invariant served
    refine ⟨answers, ?_⟩
    intro after stepped
    obtain ⟨memory, later⟩ := kept after stepped
    exact ⟨memory, later.overlaid⟩

theorem step_invariant (invariant : Invariant before) (ok : before.CallOk call)
    (stepped : before.step call = some after) : Invariant after :=
  ((call_served invariant ((callOk_iff invariant).mp ok)).2 after stepped).2

end Overlaying

/-- In every sequence of calls each one goes right if and only if the first chunk
of every write that does not start at one can be cached. -/
theorem overlay_ok_iff (memory : GuestMemory) (calls : List OverlayCall) :
    Machine.Along Overlaying.step Overlaying.CallOk { memory } calls ↔
      Machine.Along Overlaying.step Overlaying.Served { memory } calls :=
  Machine.along_congr (fun invariant ok stepped => Overlaying.step_invariant invariant ok stepped)
    (fun invariant => Overlaying.callOk_iff invariant) (Overlaying.initial_invariant memory)

/-- A byte written inside a chunk that the backing guest cannot read. -/
def unreadableWrite : OverlayCall := .write 0x1004 [1] (fun _ _ => 0) 0

def zeroes : Overlaying := { memory := fun _ => 0 }

/-- The assertion fails instead of the write being refused. -/
theorem unreadableWrite_asserts : zeroes.step unreadableWrite = none ∧
    ¬ Machine.Along Overlaying.step Overlaying.CallOk { memory := fun _ => 0 }
      [unreadableWrite] := by
  have refused : ¬ zeroes.Served unreadableWrite := by
    intro accepts
    have run : runSize (fun _ => none) (0x1004 + 1) 0x1000 chunkSize = chunkSize := by
      rw [runSize, if_neg (by decide)]
    rcases accepts with aligned | served
    · revert aligned
      decide
    · apply served
      refine ⟨rfl, ?_⟩
      change (zeroes.backingRead (fun _ _ => 0) 0x1000
        (runSize (fun _ => none) (0x1004 + 1) 0x1000 chunkSize)).length ≠
          runSize (fun _ => none) (0x1004 + 1) 0x1000 chunkSize
      rw [run, Overlaying.backingRead, GuestMemory.length_read]
      decide
  have fails := @tryWrite_refused _ zeroes.guest 0x1004 [1] rfl (by decide) 0 refused
  constructor
  · rw [unreadableWrite, Overlaying.step, fails]
    rfl
  · intro along
    exact refused ((Overlaying.callOk_iff (Overlaying.initial_invariant _)).mp along.1)

end Smmboss.Guest
