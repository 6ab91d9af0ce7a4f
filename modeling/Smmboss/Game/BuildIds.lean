import Mathlib.Order.Bounds.Basic
import Smmboss.Guest.Memory

namespace Smmboss.Game

open Smmboss.Guest (GuestMemory)

/-! # The build ids of the loaded modules -/

/-- `exl::util::Range`. -/
structure Range where
  start : Nat
  size : Nat
deriving Repr, DecidableEq

def Range.getEnd (range : Range) : Nat := range.start + range.size

abbrev BuildId := List UInt8

/-- `"GNU"` with its terminator. -/
def gnuTag : List UInt8 := [71, 78, 85, 0]

def tagSize : Nat := 4
def buildIdSize : Nat := 16
def needleSize : Nat := tagSize + buildIdSize

/-- A module's entry of `g_build_ids`, and the address and size of every read
made for it. -/
structure Fetched where
  buildId : Option BuildId
  reads : List (Nat × Nat)
deriving Repr, DecidableEq

/-- The body of the inner loop. -/
def compareAt (memory : GuestMemory) (haystackPtr : Nat) (fetched : Fetched) : Fetched :=
  if memory.read haystackPtr tagSize = gnuTag then
    { buildId := some (memory.read (haystackPtr + tagSize) buildIdSize)
      reads := fetched.reads ++ [(haystackPtr, tagSize), (haystackPtr + tagSize, buildIdSize)] }
  else { fetched with reads := fetched.reads ++ [(haystackPtr, tagSize)] }

/-- `haystack_ptr` and the entry after that many rounds of the inner loop. -/
def scan (memory : GuestMemory) (haystackPtr : Nat) : Nat → Nat × Fetched
  | 0 => (haystackPtr, { buildId := none, reads := [] })
  | rounds + 1 =>
      let state := scan memory haystackPtr rounds
      (state.1 - 1, compareAt memory state.1 state.2)

def windowSize (rodata : Range) : Nat := min rodata.size 0x1000

/-- The body of the loop over the modules, for one that is loaded. -/
def fetchBuildId (memory : GuestMemory) (rodata : Range) : Fetched :=
  if rodata.size < needleSize then { buildId := none, reads := [] }
  else (scan memory (rodata.getEnd - needleSize) (windowSize rodata - needleSize)).2

/-- The modules in the order of their indices, `none` where `HasModule` is false. -/
def fetchBuildIds (memory : GuestMemory) (modules : List (Option Range)) : List Fetched :=
  modules.map fun
    | some rodata => fetchBuildId memory rodata
    | none => { buildId := none, reads := [] }

/-- `ModuleIndex::Main`. -/
def mainIndex : Nat := 1

/-- The index of the main module's build id among those of the known versions;
`none` is an abort. -/
def initVersion (versions : List BuildId) (buildIds : List Fetched) : Option Nat :=
  (buildIds[mainIndex]?).bind fun fetched =>
    fetched.buildId.bind fun buildId => versions.findIdx? (· == buildId)

/-! ## What is looked for -/

def windowStart (rodata : Range) : Nat := rodata.getEnd - windowSize rodata

/-- The tag lies in the window and a build id's bytes behind it in rodata. -/
structure Occurrence (memory : GuestMemory) (rodata : Range) (addr : Nat) : Prop where
  above : windowStart rodata ≤ addr
  inside : addr + needleSize ≤ rodata.getEnd
  tag : memory.read addr tagSize = gnuTag

instance (memory : GuestMemory) (rodata : Range) (addr : Nat) :
    Decidable (Occurrence memory rodata addr) :=
  decidable_of_iff (windowStart rodata ≤ addr ∧ addr + needleSize ≤ rodata.getEnd ∧
      memory.read addr tagSize = gnuTag)
    ⟨fun ⟨above, inside, tag⟩ => ⟨above, inside, tag⟩, fun found => ⟨found.1, found.2, found.3⟩⟩

def buildIdAt (memory : GuestMemory) (addr : Nat) : BuildId :=
  memory.read (addr + tagSize) buildIdSize

/-- The entry holds the build id of the lowest occurrence, if there is one, and
nothing outside the window was read for it. -/
structure Faithful (memory : GuestMemory) (rodata : Range) (fetched : Fetched) : Prop where
  recorded : ∀ buildId, fetched.buildId = some buildId ↔
    ∃ addr, IsLeast {addr | Occurrence memory rodata addr} addr ∧ buildIdAt memory addr = buildId
  reads : ∀ read ∈ fetched.reads,
    windowStart rodata ≤ read.1 ∧ read.1 + read.2 ≤ rodata.getEnd

/-- Were the tag at the first byte of the window, the lowest occurrence above
it would have the same build id. -/
def StartIrrelevant (memory : GuestMemory) (rodata : Range) : Prop :=
  Occurrence memory rodata (windowStart rodata) →
    ∃ addr, IsLeast {addr | Occurrence memory rodata addr ∧ windowStart rodata < addr} addr ∧
      buildIdAt memory addr = buildIdAt memory (windowStart rodata)

variable {memory : GuestMemory} {rodata : Range}

/-! ## The scan -/

theorem compareAt_tag {ptr : Nat} (fetched : Fetched) (tag : memory.read ptr tagSize = gnuTag) :
    (compareAt memory ptr fetched).buildId = some (buildIdAt memory ptr) := by
  rw [compareAt, if_pos tag]
  rfl

theorem compareAt_other {ptr : Nat} (fetched : Fetched) (other : memory.read ptr tagSize ≠ gnuTag) :
    (compareAt memory ptr fetched).buildId = fetched.buildId := by
  rw [compareAt, if_neg other]

theorem compareAt_reads {ptr : Nat} {fetched : Fetched} {read : Nat × Nat}
    (member : read ∈ (compareAt memory ptr fetched).reads) :
    read ∈ fetched.reads ∨ ptr ≤ read.1 ∧ read.1 + read.2 ≤ ptr + needleSize := by
  have whole : needleSize = tagSize + buildIdSize := rfl
  rw [compareAt] at member
  split at member
  · simp only [List.mem_append, List.mem_cons, List.not_mem_nil, or_false] at member
    rcases member with old | rfl | rfl
    · exact Or.inl old
    · exact Or.inr ⟨Nat.le_refl _, by simp only; omega⟩
    · exact Or.inr ⟨Nat.le_add_right _ _, by simp only; omega⟩
  · simp only [List.mem_append, List.mem_singleton] at member
    rcases member with old | rfl
    · exact Or.inl old
    · exact Or.inr ⟨Nat.le_refl _, by simp only; omega⟩

@[simp] theorem scan_ptr (top rounds : Nat) : (scan memory top rounds).1 = top - rounds := by
  induction rounds with
  | zero => rfl
  | succ rounds ih =>
      rw [scan]
      simp only [ih]
      rfl

theorem scan_succ (top rounds : Nat) :
    (scan memory top (rounds + 1)).2 = compareAt memory (top - rounds) (scan memory top rounds).2 := by
  rw [scan, ← scan_ptr top rounds]

/-- The positions of a scan that ends above `low`. -/
def Scanned (memory : GuestMemory) (low top addr : Nat) : Prop :=
  low < addr ∧ addr ≤ top ∧ memory.read addr tagSize = gnuTag

theorem scan_buildId {top rounds : Nat} (bound : rounds ≤ top) (buildId : BuildId) :
    (scan memory top rounds).2.buildId = some buildId ↔
      ∃ addr, IsLeast {addr | Scanned memory (top - rounds) top addr} addr ∧
        buildIdAt memory addr = buildId := by
  induction rounds with
  | zero =>
      constructor
      · intro recorded
        cases recorded
      · intro ⟨addr, least, _⟩
        obtain ⟨above, below, -⟩ := least.1
        omega
  | succ rounds ih =>
      rw [scan_succ]
      by_cases tag : memory.read (top - rounds) tagSize = gnuTag
      · have lowest : IsLeast {addr | Scanned memory (top - (rounds + 1)) top addr} (top - rounds) := by
          refine ⟨⟨by omega, by omega, tag⟩, ?_⟩
          intro addr scanned
          have above := scanned.1
          omega
        rw [compareAt_tag _ tag, Option.some_inj]
        constructor
        · intro same
          exact ⟨top - rounds, lowest, same⟩
        · intro ⟨addr, least, same⟩
          rw [lowest.unique least]
          exact same
      · have unchanged : {addr | Scanned memory (top - (rounds + 1)) top addr} =
            {addr | Scanned memory (top - rounds) top addr} := by
          ext addr
          constructor
          · intro ⟨above, below, found⟩
            have apart : addr ≠ top - rounds := by
              intro same
              exact tag (same ▸ found)
            exact ⟨by omega, below, found⟩
          · intro ⟨above, below, found⟩
            exact ⟨by omega, below, found⟩
        rw [compareAt_other _ tag, ih (by omega), unchanged]

theorem scan_reads {top rounds : Nat} (bound : rounds ≤ top) {read : Nat × Nat}
    (member : read ∈ (scan memory top rounds).2.reads) :
    top - rounds < read.1 ∧ read.1 + read.2 ≤ top + needleSize := by
  induction rounds with
  | zero => cases member
  | succ rounds ih =>
      rw [scan_succ] at member
      rcases compareAt_reads member with old | ⟨above, below⟩
      · have earlier := ih (by omega) old
        omega
      · omega

/-! ## One module -/

theorem windowSize_le (rodata : Range) : windowSize rodata ≤ rodata.getEnd := by
  unfold windowSize Range.getEnd
  omega

theorem scanned_iff (large : needleSize ≤ rodata.size) {addr : Nat} :
    Scanned memory (rodata.getEnd - needleSize - (windowSize rodata - needleSize))
        (rodata.getEnd - needleSize) addr ↔
      Occurrence memory rodata addr ∧ windowStart rodata < addr := by
  have within := windowSize_le rodata
  have fits : needleSize ≤ windowSize rodata := by
    have small : needleSize ≤ 0x1000 := by decide
    unfold windowSize
    omega
  have low : rodata.getEnd - needleSize - (windowSize rodata - needleSize) = windowStart rodata := by
    unfold windowStart
    omega
  rw [low]
  constructor
  · intro ⟨above, below, tag⟩
    exact ⟨⟨by omega, by omega, tag⟩, above⟩
  · intro ⟨⟨above, below, tag⟩, beyond⟩
    exact ⟨beyond, by omega, tag⟩

/-- What is recorded comes from the lowest occurrence that is not at the first
byte of the window. -/
theorem fetchBuildId_iff (buildId : BuildId) :
    (fetchBuildId memory rodata).buildId = some buildId ↔
      ∃ addr, IsLeast {addr | Occurrence memory rodata addr ∧ windowStart rodata < addr} addr ∧
        buildIdAt memory addr = buildId := by
  rw [fetchBuildId]
  split_ifs with small
  · constructor
    · intro recorded
      cases recorded
    · intro ⟨addr, least, _⟩
      obtain ⟨⟨above, inside, -⟩, -⟩ := least.1
      unfold windowStart windowSize Range.getEnd at *
      omega
  · have large : needleSize ≤ rodata.size := Nat.le_of_not_lt small
    have within := windowSize_le rodata
    rw [scan_buildId (by omega)]
    simp only [scanned_iff large]

theorem fetchBuildId_reads {read : Nat × Nat} (member : read ∈ (fetchBuildId memory rodata).reads) :
    windowStart rodata ≤ read.1 ∧ read.1 + read.2 ≤ rodata.getEnd := by
  rw [fetchBuildId] at member
  split_ifs at member with small
  · cases member
  · have within := windowSize_le rodata
    have fits : needleSize ≤ windowSize rodata := by
      have page : needleSize ≤ 0x1000 := by decide
      unfold windowSize
      omega
    have inside := scan_reads (by omega) member
    unfold windowStart
    omega

theorem fetchBuildIds_at {modules : List (Option Range)} {index : Nat}
    (loaded : modules[index]? = some (some rodata)) :
    (fetchBuildIds memory modules)[index]? = some (fetchBuildId memory rodata) := by
  rw [fetchBuildIds, List.getElem?_map, loaded]
  rfl

theorem fetchBuildIds_absent {modules : List (Option Range)} {index : Nat}
    (absent : modules[index]? = some none) :
    (fetchBuildIds memory modules)[index]? = some { buildId := none, reads := [] } := by
  rw [fetchBuildIds, List.getElem?_map, absent]
  rfl

theorem least_above_start (irrelevant : StartIrrelevant memory rodata) (buildId : BuildId) :
    (∃ addr, IsLeast {addr | Occurrence memory rodata addr ∧ windowStart rodata < addr} addr ∧
        buildIdAt memory addr = buildId) ↔
      ∃ addr, IsLeast {addr | Occurrence memory rodata addr} addr ∧
        buildIdAt memory addr = buildId := by
  by_cases atStart : Occurrence memory rodata (windowStart rodata)
  · obtain ⟨above, aboveLeast, same⟩ := irrelevant atStart
    have startLeast : IsLeast {addr | Occurrence memory rodata addr} (windowStart rodata) :=
      ⟨atStart, fun addr found => found.above⟩
    constructor
    · intro ⟨addr, least, recorded⟩
      rw [least.unique aboveLeast, same] at recorded
      exact ⟨_, startLeast, recorded⟩
    · intro ⟨addr, least, recorded⟩
      rw [least.unique startLeast, ← same] at recorded
      exact ⟨_, aboveLeast, recorded⟩
  · have everywhere : {addr | Occurrence memory rodata addr ∧ windowStart rodata < addr} =
        {addr | Occurrence memory rodata addr} := by
      ext addr
      constructor
      · exact And.left
      · intro found
        have apart : windowStart rodata ≠ addr := by
          intro same
          exact atStart (same ▸ found)
        exact ⟨found, Nat.lt_of_le_of_ne found.above apart⟩
    rw [everywhere]

/-- A loaded module's entry is as specified exactly where the first byte of the
window, which the scan leaves out, makes no difference. -/
theorem fetchBuildIds_faithful_iff {modules : List (Option Range)} {index : Nat}
    (loaded : modules[index]? = some (some rodata)) :
    (∃ fetched, (fetchBuildIds memory modules)[index]? = some fetched ∧
        Faithful memory rodata fetched) ↔ StartIrrelevant memory rodata := by
  rw [fetchBuildIds_at loaded]
  constructor
  · intro ⟨fetched, same, faithful⟩ atStart
    cases same
    have startLeast : IsLeast {addr | Occurrence memory rodata addr} (windowStart rodata) :=
      ⟨atStart, fun addr found => found.above⟩
    have recorded := (faithful.recorded _).mpr ⟨_, startLeast, rfl⟩
    exact (fetchBuildId_iff _).mp recorded
  · intro irrelevant
    refine ⟨_, rfl, ?_, fun read => fetchBuildId_reads⟩
    intro buildId
    rw [fetchBuildId_iff, least_above_start irrelevant]

/-- A note's name and build id with nothing in front of them. -/
def noteMemory : GuestMemory := fun addr => (gnuTag[addr - 0x1000]?).getD 7

theorem fetchBuildIds_faithful_shifted :
    ∃ fetched, (fetchBuildIds noteMemory [none, some ⟨0xfff, 21⟩])[1]? = some fetched ∧
      Faithful noteMemory ⟨0xfff, 21⟩ fetched :=
  (@fetchBuildIds_faithful_iff noteMemory ⟨0xfff, 21⟩ [none, some ⟨0xfff, 21⟩] 1 rfl).mpr (by
    intro atStart
    exact absurd atStart (by decide))

/-- Twenty bytes of rodata that are a tag and its build id are not found. -/
theorem fetchBuildIds_not_faithful :
    ¬ ∀ (memory : GuestMemory) (modules : List (Option Range)) (index : Nat) (rodata : Range),
      modules[index]? = some (some rodata) →
        ∃ fetched, (fetchBuildIds memory modules)[index]? = some fetched ∧
          Faithful memory rodata fetched := by
  intro claimed
  obtain ⟨fetched, same, faithful⟩ :=
    claimed noteMemory [none, some ⟨0x1000, 20⟩] 1 ⟨0x1000, 20⟩ rfl
  have atStart : Occurrence noteMemory ⟨0x1000, 20⟩ 0x1000 := by decide
  have lowest : IsLeast {addr | Occurrence noteMemory ⟨0x1000, 20⟩ addr} 0x1000 :=
    ⟨atStart, fun addr found => found.above⟩
  have recorded := (faithful.recorded _).mpr ⟨_, lowest, rfl⟩
  have missed : fetched = { buildId := none, reads := [] } := (Option.some_inj.mp same).symm
  rw [missed] at recorded
  cases recorded

/-- A main module whose only occurrence is at the first byte of the window stops
the program at start-up. -/
theorem initVersion_missed {modules : List (Option Range)} (versions : List BuildId)
    (loaded : modules[mainIndex]? = some (some rodata))
    (only : ∀ addr, Occurrence memory rodata addr → addr = windowStart rodata) :
    initVersion versions (fetchBuildIds memory modules) = none := by
  have missed : (fetchBuildId memory rodata).buildId = none := by
    rw [Option.eq_none_iff_forall_ne_some]
    intro buildId recorded
    obtain ⟨addr, least, -⟩ := (fetchBuildId_iff buildId).mp recorded
    exact Nat.ne_of_gt least.1.2 (only addr least.1.1)
  rw [initVersion, fetchBuildIds_at loaded, Option.bind_some, missed, Option.bind_none]

end Smmboss.Game
