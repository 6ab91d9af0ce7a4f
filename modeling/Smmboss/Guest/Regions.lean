import Mathlib.Data.List.Basic
import Mathlib.Tactic.SplitIfs
import Smmboss.Foundation.Machine
import Smmboss.Foundation.Search

namespace Smmboss.Guest

open Smmboss.Search

/-! # Accessible memory regions

`mem_regions` keeps the memory map that `svcQueryMemory` reports as a vector of
coalesced regions and looks addresses up in it with `std::lower_bound`.  Its
addresses and sizes are 64-bit words.
-/

def add64 (left right : Nat) : Nat := (left + right) % 2 ^ 64

def sub64 (left right : Nat) : Nat := (left + 2 ^ 64 - right) % 2 ^ 64

def memTypeUnmapped : Nat := 0

def permR : Nat := 1
def permRw : Nat := 3

structure MemoryInfo where
  addr : Nat
  size : Nat
  type : Nat
  perm : Nat
  deriving DecidableEq, Repr

/-! ## The memory map of the kernel -/

structure Block where
  size : Nat
  type : Nat
  perm : Nat
  positive : 0 < size

/-- The permissions of a mapped block. -/
def Block.mapping (block : Block) : Option Nat :=
  if block.type = memTypeUnmapped then none else some block.perm

def Block.info (block : Block) (addr : Nat) : MemoryInfo :=
  { addr, size := block.size % 2 ^ 64, type := block.type, perm := block.perm }

def extent (blocks : List Block) : Nat := (blocks.map Block.size).sum

def blockAt (base : Nat) : List Block → Nat → Option (Nat × Block)
  | [], _ => none
  | block :: blocks, addr =>
      if addr < base + block.size then some (base, block)
      else blockAt (base + block.size) blocks addr

def mappingIn (blocks : List Block) (addr : Nat) : Option Nat :=
  (blockAt 0 blocks addr).bind fun found => found.2.mapping

/-- Consecutive blocks from address 0 to 2^64. -/
structure MemoryMap where
  blocks : List Block
  covers : extent blocks = 2 ^ 64

def MemoryMap.svcQueryMemory (map : MemoryMap) (addr : Nat) : Option MemoryInfo :=
  (blockAt 0 map.blocks addr).map fun found => found.2.info found.1

def MemoryMap.mapping (map : MemoryMap) (addr : Nat) : Option Nat := mappingIn map.blocks addr

/-! ## The cached regions -/

structure Region where
  start : Nat
  size : Nat
  perm : Nat
  deriving DecidableEq, Repr

/-- The body of the loop of `load_cached_regions`, after the query. -/
def absorb (regions : List Region) (meminfo : MemoryInfo) : List Region :=
  if meminfo.type = memTypeUnmapped then regions
  else
    match regions.getLast? with
    | some last =>
        if last.perm = meminfo.perm ∧ add64 last.start last.size = meminfo.addr then
          regions.dropLast ++ [{ last with size := add64 last.size meminfo.size }]
        else regions ++ [{ start := meminfo.addr, size := meminfo.size, perm := meminfo.perm }]
    | none => regions ++ [{ start := meminfo.addr, size := meminfo.size, perm := meminfo.perm }]

/-- The `do … while` loop; `addr` is `meminfo.addr + meminfo.size` of the block
before.  A failing query panics, and so does running out of `fuel`. -/
def MemoryMap.loadFrom (map : MemoryMap) : Nat → Nat → List Region → Option (List Region)
  | 0, _, _ => none
  | fuel + 1, addr, regions =>
      (map.svcQueryMemory addr).bind fun meminfo =>
        let next := add64 meminfo.addr meminfo.size
        if next ≠ 0 then map.loadFrom fuel next (absorb regions meminfo)
        else some (absorb regions meminfo)

def MemoryMap.loadCachedRegions (map : MemoryMap) : Option (List Region) :=
  map.loadFrom map.blocks.length 0 []

def findCachedRegion (regions : List Region) (addr : Nat) : Option Region :=
  let place := lowerBound (fun region => decide (add64 region.start region.size ≤ addr)) regions
  (regions[place]?).filter fun region => sub64 addr region.start < region.size

structure MemRegions where
  cachedRegions : List Region := []
  deriving DecidableEq, Repr

/-- What the found region still holds behind the address, if it grants the access. -/
def bytesFrom (found : Option Region) (addr : Nat) (wantWrite : Bool) : Nat :=
  let needed := if wantWrite then permRw else permR
  match found with
  | some region =>
      if region.perm &&& needed = needed then sub64 region.size (sub64 addr region.start) else 0
  | none => 0

def MemoryMap.accessibleBytesAt (map : MemoryMap) (regions : MemRegions) (addr : Nat)
    (wantWrite : Bool) : Option (Nat × MemRegions) :=
  match findCachedRegion regions.cachedRegions addr with
  | some region => some (bytesFrom (some region) addr wantWrite, regions)
  | none =>
      map.loadCachedRegions.map fun loaded =>
        (bytesFrom (findCachedRegion loaded addr) addr wantWrite, { cachedRegions := loaded })

/-! ## What the lookup is for -/

/-- The run of addresses with the permissions of `addr` ends at `stop`. -/
structure RunEnd (map : MemoryMap) (addr stop : Nat) : Prop where
  above : addr < stop
  below : stop ≤ 2 ^ 64
  same : ∀ other, addr ≤ other → other < stop → map.mapping other = map.mapping addr
  maximal : stop < 2 ^ 64 → map.mapping stop ≠ map.mapping addr

def Granted (map : MemoryMap) (addr : Nat) (wantWrite : Bool) : Prop :=
  ∃ perm, map.mapping addr = some perm ∧
    perm &&& (if wantWrite then permRw else permR) = if wantWrite then permRw else permR

def Accessible (map : MemoryMap) (addr : Nat) (wantWrite : Bool) (bytes : Nat) : Prop :=
  (Granted map addr wantWrite → RunEnd map addr (addr + bytes)) ∧
    (¬ Granted map addr wantWrite → bytes = 0)

/-- The addresses at which a run of equally mapped blocks begins. -/
def runStarts (base : Nat) (previous : Option Nat) : List Block → List Nat
  | [] => []
  | block :: blocks =>
      if block.mapping ≠ none ∧ block.mapping ≠ previous then
        base :: runStarts (base + block.size) block.mapping blocks
      else runStarts (base + block.size) block.mapping blocks

def MemoryMap.runStarts (map : MemoryMap) : List Nat := Guest.runStarts 0 none map.blocks

/-- The address lies in the last run, and that run ends at 2^64; or it lies in
the run before such a one and the halving compares exactly these two last. -/
structure Unfindable (map : MemoryMap) (addr : Nat) : Prop where
  mapped : map.mapping addr ≠ none
  toTheEnd : map.mapping (2 ^ 64 - 1) ≠ none
  place : Missed map.runStarts.length
    ((map.runStarts.filter fun start => addr < start).length + 1)

end Smmboss.Guest
