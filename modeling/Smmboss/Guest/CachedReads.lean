import Smmboss.Foundation.Machine
import Smmboss.Foundation.Prefix
import Smmboss.Guest.Caching

namespace Smmboss.Guest

open Smmboss.Prefix (LongestPrefix longest longest_spec)

/-! # Reads through the cache

The backing guest serves the longest readable prefix of a range, and pages are
readable or not as a whole.
-/

structure PageBacking where
  memory : GuestMemory
  readable : Nat → Bool

namespace PageBacking

def tryRead (backing : PageBacking) : BackingRead := fun addr size =>
  backing.memory.read addr
    (longest (fun place => backing.readable ((addr + place) / chunkSize)) size)

/-- Cached chunks hold the memory's readable pages. -/
structure Backed (backing : PageBacking) (cache : Cache) : Prop where
  coherent : Coherent backing.memory cache
  readable : ∀ page, cache (page * chunkSize) ≠ none → backing.readable page = true

/-- The loop stops at a run of uncached pages whose first unreadable one is `bad`. -/
structure Stuck (backing : PageBacking) (cache : Cache) (stop first reach bad : Nat) : Prop where
  order : reach ≤ bad
  inside : bad * chunkSize < stop
  unreadable : backing.readable bad = false
  readable : ∀ page, reach ≤ page → page < bad → backing.readable page = true
  uncached : ∀ page, reach ≤ page → page ≤ bad → cache (page * chunkSize) = none
  entered : reach = first ∨ cache ((reach - 1) * chunkSize) ≠ none

variable {backing : PageBacking} {cache : Cache} {stop chunkAddr page : Nat} {ret : List UInt8}

theorem longest_tryRead (addr size : Nat) : LongestPrefix
    (fun place => backing.readable ((addr + place) / chunkSize) = true) size
    (backing.tryRead addr size).length := by
  rw [tryRead, GuestMemory.length_read]
  exact longest_spec _ size

theorem tryRead_eq (addr size : Nat) : backing.tryRead addr size =
    backing.memory.read addr (backing.tryRead addr size).length := by
  rw [tryRead, GuestMemory.length_read]

theorem page_offset (page place : Nat) :
    (page * chunkSize + place) / chunkSize = page + place / chunkSize := by
  rw [Nat.add_comm, Nat.add_mul_div_right _ _ chunkSize_pos, Nat.add_comm]

/-- The run of uncached chunks at `page` has `count + 1` pages. -/
structure RunAt (cache : Cache) (stop page count : Nat) : Prop where
  size : runSize cache stop (page * chunkSize) chunkSize = (count + 1) * chunkSize
  inside : ∀ place, page ≤ place → place ≤ page + count → place * chunkSize < stop
  uncached : ∀ place, page ≤ place → place ≤ page + count → cache (place * chunkSize) = none
  ends : ¬ ((page + count + 1) * chunkSize < stop ∧ cache ((page + count + 1) * chunkSize) = none)

theorem runAt_exists (inside : page * chunkSize < stop)
    (uncached : cache (page * chunkSize) = none) : ∃ count, RunAt cache stop page count := by
  obtain ⟨count, size, run, ends⟩ := runSize_spec cache stop (page * chunkSize) chunkSize
  have key : ∀ place, page * chunkSize + chunkSize + place * chunkSize =
      (page + place + 1) * chunkSize := by
    intro place
    simp only [Nat.add_mul, Nat.one_mul]
    omega
  simp only [key] at run ends
  refine ⟨count, by rw [size, Nat.add_mul]; omega, ?_, ?_, ends⟩
  · intro place lower upper
    rcases Nat.eq_or_lt_of_le lower with rfl | later
    · exact inside
    · have found := (run (place - page - 1) (by omega)).1
      rwa [show page + (place - page - 1) + 1 = place by omega] at found
  · intro place lower upper
    rcases Nat.eq_or_lt_of_le lower with rfl | later
    · exact uncached
    · have found := (run (place - page - 1) (by omega)).2
      rwa [show page + (place - page - 1) + 1 = place by omega] at found

theorem stuck_of_short {count : Nat} (run : RunAt cache stop page count)
    (short : (backing.tryRead (page * chunkSize) ((count + 1) * chunkSize)).length ≠
      (count + 1) * chunkSize) :
    ∃ bad, Stuck backing cache stop page page bad := by
  have longest := @longest_tryRead backing (page * chunkSize) ((count + 1) * chunkSize)
  generalize (backing.tryRead (page * chunkSize) ((count + 1) * chunkSize)).length = reads
    at short longest
  have within := longest.within
  have position : reads / chunkSize ≤ count := by
    have below := Nat.div_lt_of_lt_mul (show reads < chunkSize * (count + 1) by
      rw [Nat.mul_comm]
      omega)
    omega
  refine ⟨page + reads / chunkSize, Nat.le_add_right _ _,
    run.inside _ (Nat.le_add_right _ _) (Nat.add_le_add_left position page), ?_, ?_, ?_, .inl rfl⟩
  · have unreadable := longest.stops (by omega)
    rw [page_offset] at unreadable
    simpa using unreadable
  · intro place lower upper
    have before : (place - page) * chunkSize < reads := by
      refine Nat.lt_of_lt_of_le ?_ (Nat.div_mul_le_self reads chunkSize)
      exact Nat.mul_lt_mul_of_pos_right (by omega) chunkSize_pos
    have readable := longest.all _ before
    rwa [page_offset, Nat.mul_div_cancel _ chunkSize_pos, Nat.add_sub_of_le lower] at readable
  · intro place lower upper
    exact run.uncached place lower (Nat.le_trans upper (Nat.add_le_add_left position page))

theorem Stuck.after_run {count reach bad : Nat} {data : List UInt8}
    (stuck : Stuck backing (fillChunks cache (page * chunkSize) data ((count + 1) * chunkSize))
      stop (page + count + 1) reach bad) (run : RunAt cache stop page count)
    (order : page + count + 1 ≤ reach) : Stuck backing cache stop page reach bad := by
  have same : ∀ place, page + count + 1 ≤ place →
      fillChunks cache (page * chunkSize) data ((count + 1) * chunkSize) (place * chunkSize) =
        cache (place * chunkSize) := by
    intro place beyond
    refine fillChunks_other (.inr ?_)
    rw [← Nat.add_mul]
    exact Nat.mul_le_mul_right chunkSize (by omega)
  have kept : ∀ place, reach ≤ place → place ≤ bad → cache (place * chunkSize) = none := by
    intro place lower upper
    rw [← same place (by omega)]
    exact stuck.uncached place lower upper
  have inside := stuck.inside
  refine { stuck with uncached := kept, entered := ?_ }
  by_cases atStart : reach = page + count + 1
  · have below : reach * chunkSize ≤ bad * chunkSize := Nat.mul_le_mul_right chunkSize stuck.order
    have first := kept reach (Nat.le_refl _) stuck.order
    rw [atStart] at below first
    exact absurd ⟨by omega, first⟩ run.ends
  · have cached := stuck.entered.resolve_left atStart
    rw [same (reach - 1) (by omega)] at cached
    exact .inr cached

theorem Backed.fill {count : Nat} (backed : Backed backing cache)
    (readable : ∀ place, page ≤ place → place < page + count + 1 → backing.readable place = true) :
    Backed backing (fillChunks cache (page * chunkSize)
      (backing.memory.read (page * chunkSize) ((count + 1) * chunkSize))
      ((count + 1) * chunkSize)) where
  coherent := backed.coherent.fill (Nat.mul_mod_left page chunkSize) (Nat.le_refl _)
  readable := by
    intro place filled
    by_cases inside : page ≤ place ∧ place < page + count + 1
    · exact readable place inside.1 inside.2
    · rw [fillChunks_other] at filled
      · exact backed.readable place filled
      · rcases Nat.lt_or_ge place page with before | after
        · exact .inl (Nat.mul_lt_mul_of_pos_right before chunkSize_pos)
        · apply Or.inr
          rw [← Nat.add_mul]
          exact Nat.mul_le_mul_right chunkSize (by omega)

/-- Pages up to `reach`, read as the first ones and the others. -/
theorem read_pages (memory : GuestMemory) {count reach : Nat} (order : page + count ≤ reach) :
    memory.read (page * chunkSize) ((reach - page) * chunkSize) =
      memory.read (page * chunkSize) (count * chunkSize) ++
        memory.read ((page + count) * chunkSize) ((reach - (page + count)) * chunkSize) := by
  have total : reach - page = count + (reach - (page + count)) := by omega
  rw [total, Nat.add_mul, GuestMemory.read_add, ← Nat.add_mul]

/-- Where the loop stops, and why: everything up to there is read, and either
the range is done or the next run is cut short by an unreadable page. -/
theorem readLoop_spec (backed : Backed backing cache) (start : chunkAddr = page * chunkSize) :
    ∃ reach, page ≤ reach ∧
      (readLoop backing.tryRead stop cache chunkAddr ret).1 =
        ret ++ backing.memory.read (page * chunkSize) ((reach - page) * chunkSize) ∧
      Backed backing (readLoop backing.tryRead stop cache chunkAddr ret).2 ∧
      (∀ place, page ≤ place → place < reach → backing.readable place = true) ∧
      (stop ≤ reach * chunkSize ∨ ∃ bad, Stuck backing cache stop page reach bad) := by
  induction cache, chunkAddr, ret using readLoop.induct backing.tryRead stop generalizing page with
  | case1 cache chunkAddr ret inside uncached short =>
      subst start
      obtain ⟨count, run⟩ := runAt_exists inside uncached
      have stops : readLoop backing.tryRead stop cache (page * chunkSize) ret = (ret, cache) := by
        rw [readLoop, if_pos inside]
        simp only [uncached, if_pos short]
      rw [run.size] at short
      rw [stops]
      exact ⟨page, Nat.le_refl _, by simp [GuestMemory.read], backed,
        fun place lower upper => by omega, .inr (stuck_of_short run short)⟩
  | case2 cache chunkAddr ret inside uncached full ih =>
      subst start
      obtain ⟨count, run⟩ := runAt_exists inside uncached
      have goes : readLoop backing.tryRead stop cache (page * chunkSize) ret =
          readLoop backing.tryRead stop
            (fillChunks cache (page * chunkSize)
              (backing.tryRead (page * chunkSize) ((count + 1) * chunkSize))
              ((count + 1) * chunkSize))
            ((page + count + 1) * chunkSize)
            (ret ++ backing.tryRead (page * chunkSize) ((count + 1) * chunkSize)) := by
        rw [readLoop, if_pos inside]
        simp only [uncached, if_neg full]
        rw [run.size, ← Nat.add_mul, Nat.add_assoc]
      rw [run.size] at full ih
      have length : (backing.tryRead (page * chunkSize) ((count + 1) * chunkSize)).length =
          (count + 1) * chunkSize := not_not.mp full
      have data := @tryRead_eq backing (page * chunkSize) ((count + 1) * chunkSize)
      have longest := @longest_tryRead backing (page * chunkSize) ((count + 1) * chunkSize)
      rw [length] at data longest
      rw [data] at goes ih
      have pages : ∀ place, page ≤ place → place < page + count + 1 →
          backing.readable place = true := by
        intro place lower upper
        have within := longest.all ((place - page) * chunkSize)
          (Nat.mul_lt_mul_of_pos_right (by omega) chunkSize_pos)
        rwa [page_offset, Nat.mul_div_cancel _ chunkSize_pos, Nat.add_sub_of_le lower] at within
      have next : page * chunkSize + (count + 1) * chunkSize = (page + count + 1) * chunkSize := by
        rw [← Nat.add_mul, Nat.add_assoc]
      obtain ⟨reach, order, done, backedAfter, readable, ends⟩ := ih (backed.fill pages) next
      rw [next] at done backedAfter
      rw [goes]
      refine ⟨reach, by omega, ?_, backedAfter, ?_, ?_⟩
      · have pagesRead := read_pages backing.memory (show page + (count + 1) ≤ reach from order)
        rw [done, List.append_assoc, pagesRead, Nat.add_assoc]
      · intro place lower upper
        rcases Nat.lt_or_ge place (page + count + 1) with within | later
        · exact pages place lower within
        · exact readable place later upper
      · refine ends.imp_right fun stuck => ?_
        obtain ⟨bad, stuck⟩ := stuck
        exact ⟨bad, stuck.after_run run order⟩
  | case3 cache chunkAddr ret inside chunkData cached ih =>
      subst start
      have content := (backed.coherent (page * chunkSize) chunkData cached).2
      rw [content] at cached ih
      obtain ⟨reach, order, done, backedAfter, readable, ends⟩ := ih backed
        (show page * chunkSize + chunkSize = (page + 1) * chunkSize by rw [Nat.add_mul, Nat.one_mul])
      have goes : readLoop backing.tryRead stop cache (page * chunkSize) ret =
          readLoop backing.tryRead stop cache (page * chunkSize + chunkSize)
            (ret ++ backing.memory.read (page * chunkSize) chunkSize) := by
        rw [readLoop, if_pos inside]
        simp only [cached]
      rw [goes]
      refine ⟨reach, by omega, ?_, backedAfter, ?_, ?_⟩
      · rw [done, List.append_assoc, read_pages backing.memory order, Nat.one_mul]
      · intro place lower upper
        rcases Nat.eq_or_lt_of_le lower with rfl | later
        · exact backed.readable _ (by simp [cached])
        · exact readable place later upper
      · refine ends.imp_right fun stuck => ?_
        obtain ⟨bad, stuck⟩ := stuck
        refine ⟨bad, { stuck with entered := .inr ?_ }⟩
        rcases stuck.entered with rfl | before
        · rw [Nat.add_sub_cancel, cached]
          simp
        · exact before
  | case4 cache chunkAddr ret outside =>
      have stops : readLoop backing.tryRead stop cache chunkAddr ret = (ret, cache) := by
        rw [readLoop, if_neg outside]
      rw [stops]
      subst start
      exact ⟨page, Nat.le_refl _, by simp [GuestMemory.read], backed,
        fun place lower upper => by omega, .inl (Nat.le_of_not_lt outside)⟩

/-- Of the pages of the range, `page` is the first that cannot be read; it is not
the first page of the range, and the page before it is not cached. -/
structure Cut (backing : PageBacking) (cache : Cache) (addr size page : Nat) : Prop where
  later : addr / chunkSize < page
  inside : page * chunkSize < addr + size
  unreadable : backing.readable page = false
  readable : ∀ before, addr / chunkSize ≤ before → before < page → backing.readable before = true
  uncached : cache ((page - 1) * chunkSize) = none

theorem Cut.unique {addr size page bad : Nat} (cut : Cut backing cache addr size page)
    (first : addr / chunkSize ≤ bad) (unreadable : backing.readable bad = false)
    (readable : ∀ before, addr / chunkSize ≤ before → before < bad → backing.readable before = true) :
    page = bad := by
  have later := cut.later
  rcases Nat.lt_trichotomy page bad with less | same | more
  · exact absurd cut.unreadable (by simp [readable page (by omega) less])
  · exact same
  · rw [cut.readable bad first more] at unreadable
    cases unreadable

/-- The backing read reaches up to the first page that cannot be read. -/
theorem tryRead_length {addr size bad : Nat} (first : addr / chunkSize ≤ bad)
    (inside : bad * chunkSize < addr + size) (unreadable : backing.readable bad = false)
    (readable : ∀ before, addr / chunkSize ≤ before → before < bad → backing.readable before = true) :
    (backing.tryRead addr size).length = bad * chunkSize - addr := by
  refine (longest_tryRead addr size).unique ⟨by omega, ?_, ?_⟩
  · intro place below
    apply readable _ (Nat.div_le_div_right (Nat.le_add_right addr place))
    rw [Nat.div_lt_iff_lt_mul chunkSize_pos]
    omega
  · intro _
    have page : (addr + (bad * chunkSize - addr)) / chunkSize = bad := by
      rcases Nat.le_total addr (bad * chunkSize) with ahead | behind
      · rw [Nat.add_sub_of_le ahead, Nat.mul_div_cancel _ chunkSize_pos]
      · have least := (Nat.le_div_iff_mul_le chunkSize_pos).mpr behind
        rw [Nat.sub_eq_zero_of_le behind, Nat.add_zero]
        omega
    rw [page, unreadable]
    simp

theorem tryRead_length_whole {addr size reach : Nat}
    (done : addr + size ≤ reach * chunkSize)
    (readable : ∀ page, addr / chunkSize ≤ page → page < reach → backing.readable page = true) :
    (backing.tryRead addr size).length = size := by
  refine (longest_tryRead addr size).unique ⟨Nat.le_refl _, ?_, by omega⟩
  intro place below
  apply readable _ (Nat.div_le_div_right (Nat.le_add_right addr place))
  rw [Nat.div_lt_iff_lt_mul chunkSize_pos]
  omega

end PageBacking

open PageBacking (Backed Cut)

variable {backing : PageBacking} {guest after : CachingGuest} {addr size : Nat}

theorem tryRead_active (active : guest.activeCount ≠ 0) (backed : Backed backing guest.cache)
    (addr size : Nat) :
    ∃ reach cache, guest.tryRead backing.tryRead addr size =
        some (backing.memory.read addr (min (addr + size) (reach * chunkSize) - addr),
          { guest with cache }) ∧
      Backed backing cache ∧ addr / chunkSize ≤ reach ∧
      (∀ page, addr / chunkSize ≤ page → page < reach → backing.readable page = true) ∧
      (addr + size ≤ reach * chunkSize ∨
        ∃ bad, backing.Stuck guest.cache (addr + size) (addr / chunkSize) reach bad) := by
  have split : addr / chunkSize * chunkSize + addr % chunkSize = addr := Nat.div_add_mod' addr chunkSize
  obtain ⟨reach, order, read, backedAfter, readable, ends⟩ :=
    @PageBacking.readLoop_spec backing guest.cache (addr + size) (addr - addr % chunkSize)
      (addr / chunkSize) [] backed (by omega)
  refine ⟨reach, _, ?_, backedAfter, order, readable, ends⟩
  have limit : addr / chunkSize * chunkSize ≤ reach * chunkSize :=
    Nat.mul_le_mul_right chunkSize order
  have length : min (addr % chunkSize + size) ((reach - addr / chunkSize) * chunkSize) -
      addr % chunkSize = min (addr + size) (reach * chunkSize) - addr := by
    rw [Nat.sub_mul]
    omega
  rw [CachingGuest.tryRead, if_neg active]
  simp only [read, List.nil_append, GuestMemory.slice_read, split, length]

/-- A read through the active cache is the backing read unless its range is cut. -/
theorem tryRead_transparent_iff (active : guest.activeCount ≠ 0)
    (backed : Backed backing guest.cache) :
    (guest.tryRead backing.tryRead addr size).map Prod.fst = some (backing.tryRead addr size) ↔
      ¬ ∃ page, Cut backing guest.cache addr size page := by
  obtain ⟨reach, cache, read, -, order, readable, ends⟩ := tryRead_active active backed addr size
  rw [read, Option.map_some, Option.some.injEq, PageBacking.tryRead_eq]
  rcases ends with done | ⟨bad, stuck⟩
  · rw [PageBacking.tryRead_length_whole done readable, Nat.min_eq_left done, Nat.add_sub_cancel_left]
    refine ⟨fun _ => ?_, fun _ => rfl⟩
    intro ⟨page, cut⟩
    have within : page < reach := Nat.lt_of_mul_lt_mul_right (Nat.lt_of_lt_of_le cut.inside done)
    exact absurd cut.unreadable (by simp [readable page (Nat.le_of_lt cut.later) within])
  · have first : addr / chunkSize ≤ bad := Nat.le_trans order stuck.order
    have before : ∀ page, addr / chunkSize ≤ page → page < bad → backing.readable page = true := by
      intro page lower upper
      rcases Nat.lt_or_ge page reach with early | late
      · exact readable page lower early
      · exact stuck.readable page late upper
    have inside := stuck.inside
    have reaches : reach * chunkSize ≤ bad * chunkSize := Nat.mul_le_mul_right chunkSize stuck.order
    rw [PageBacking.tryRead_length first inside stuck.unreadable before, Nat.min_eq_right (by omega)]
    constructor
    · intro same ⟨page, cut⟩
      obtain rfl := cut.unique first stuck.unreadable before
      have lengths := GuestMemory.read_inj _ _ same
      have beyond : addr < page * chunkSize := (Nat.div_lt_iff_lt_mul chunkSize_pos).mp cut.later
      have atEnd : reach = page := Nat.eq_of_mul_eq_mul_right chunkSize_pos (by omega)
      have later := cut.later
      rcases stuck.entered with rfl | cached
      · omega
      · exact cached (atEnd ▸ cut.uncached)
    · intro uncut
      have atEnd : reach = bad := by
        by_contra apart
        have less : reach < bad := Nat.lt_of_le_of_ne stuck.order apart
        exact uncut ⟨bad, by omega, inside, stuck.unreadable, before,
          stuck.uncached (bad - 1) (by omega) (by omega)⟩
      rw [atEnd]

/-- One call of `try_read` through the cache. -/
def PageBacking.readCall (backing : PageBacking) (guest : CachingGuest) (call : Nat × Nat) :
    Option CachingGuest :=
  (guest.tryRead backing.tryRead call.1 call.2).map Prod.snd

theorem readCall_backed {call : Nat × Nat}
    (known : guest.activeCount ≠ 0 ∧ Backed backing guest.cache)
    (called : backing.readCall guest call = some after) :
    after.activeCount ≠ 0 ∧ Backed backing after.cache := by
  obtain ⟨reach, cache, read, backed, -⟩ := tryRead_active known.1 known.2 call.1 call.2
  rw [PageBacking.readCall, read, Option.map_some, Option.some.injEq] at called
  subst after
  exact ⟨known.1, backed⟩

/-- In every sequence of reads through an active guest, each one answers what
the backing guest would, if and only if none of their ranges is cut. -/
theorem cachedReads_transparent_iff (backing : PageBacking) (active : guest.activeCount ≠ 0)
    (empty : guest.cache = fun _ => none) (calls : List (Nat × Nat)) :
    Machine.Along backing.readCall (fun guest call =>
        (guest.tryRead backing.tryRead call.1 call.2).map Prod.fst =
          some (backing.tryRead call.1 call.2)) guest calls ↔
      Machine.Along backing.readCall (fun guest call =>
        ¬ ∃ page, Cut backing guest.cache call.1 call.2 page) guest calls := by
  have backed : Backed backing guest.cache := by
    rw [empty]
    exact ⟨.empty backing.memory, fun page cached => absurd rfl cached⟩
  exact Machine.along_congr (fun known _ called => readCall_backed known called)
    (fun known => tryRead_transparent_iff known.1 known.2) ⟨active, backed⟩

/-- The pages at 0x1000 and 0x2000 can be read. -/
def twoPages : PageBacking where
  memory := fun place => UInt8.ofNat place
  readable := fun page => page == 1 || page == 2

/-- A page twice, both pages at once, and a read that begins below them. -/
def pageReads : List (Nat × Nat) := [(0x1004, 8), (0x1ff0, 0x20), (0x0ff8, 0x10), (0x2ff0, 0x10)]

theorem pageReads_uncut : ∀ call ∈ pageReads, ∀ cache page,
    ¬ Cut twoPages cache call.1 call.2 page := by
  intro call member cache page cut
  have chunk : chunkSize = 0x1000 := rfl
  have later := cut.later
  have inside := cut.inside
  have first := cut.readable (call.1 / chunkSize) (Nat.le_refl _) later
  have unreadable := cut.unreadable
  simp only [twoPages, Bool.or_eq_true, Bool.or_eq_false_iff, beq_iff_eq, beq_eq_false_iff_ne] at first unreadable
  simp only [pageReads, List.mem_cons, List.not_mem_nil, or_false] at member
  rw [chunk] at later inside first
  rcases member with rfl | rfl | rfl | rfl <;> simp only at later inside first <;> omega

theorem cachedReads_transparent_iff_twoPages : ({ activeCount := 1 } : CachingGuest).activeCount ≠ 0 ∧
    Machine.Along twoPages.readCall (fun guest call =>
      (guest.tryRead twoPages.tryRead call.1 call.2).map Prod.fst =
        some (twoPages.tryRead call.1 call.2)) { activeCount := 1 } pageReads := by
  refine ⟨by decide, (cachedReads_transparent_iff twoPages (by decide) rfl pageReads).mpr ?_⟩
  apply Machine.Along.of_forall
  intro guest call member ⟨page, cut⟩
  exact pageReads_uncut call member guest.cache page cut

/-- Only the page at 0x1000 can be read. -/
def onePage : PageBacking where
  memory := fun _ => 7
  readable := fun page => page == 1

/-- The merged read of two pages comes back short, and the page that could be
read is thrown away with it. -/
theorem onePage_discarded :
    ((({ activeCount := 1 } : CachingGuest).tryRead onePage.tryRead 0x1000 0x2000).map Prod.fst =
      some []) ∧ (onePage.tryRead 0x1000 0x2000).length = 0x1000 ∧
    ¬ Machine.Along onePage.readCall (fun guest call =>
        (guest.tryRead onePage.tryRead call.1 call.2).map Prod.fst =
          some (onePage.tryRead call.1 call.2)) { activeCount := 1 } [(0x1000, 0x2000)] := by
  have length : (onePage.tryRead 0x1000 0x2000).length = 0x1000 := by
    apply @PageBacking.tryRead_length onePage 0x1000 0x2000 2 (by decide) (by decide) rfl
    intro before lower upper
    obtain rfl : before = 1 := by
      have first : 0x1000 / chunkSize = 1 := by decide
      omega
    rfl
  have discarded : (({ activeCount := 1 } : CachingGuest).tryRead onePage.tryRead
      0x1000 0x2000).map Prod.fst = some [] := by
    obtain ⟨reach, cache, read, -, -, readable, ends⟩ :=
      @tryRead_active onePage { activeCount := 1 } (by decide)
        ⟨.empty onePage.memory, fun page cached => absurd rfl cached⟩ 0x1000 0x2000
    rcases ends with done | ⟨bad, stuck⟩
    · have beyond : 2 < reach := by
        unfold chunkSize at done
        omega
      cases readable 2 (by decide) beyond
    · have first : reach = 1 := stuck.entered.resolve_right fun cached => cached rfl
      rw [read, first]
      rfl
  refine ⟨discarded, length, ?_⟩
  rintro ⟨same, -⟩
  rw [discarded, Option.some.injEq] at same
  rw [← same] at length
  cases length

end Smmboss.Guest
