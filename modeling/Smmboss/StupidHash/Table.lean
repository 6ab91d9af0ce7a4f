import Mathlib.Algebra.Order.Ring.Nat
import Smmboss.Foundation.Linked

namespace Smmboss.StupidHash

open Linked (Links Place)

/-! # The hash table

Entries are numbered from one, as every `EntryIdx` is, and a pointer to an entry
is its number.  `none` is a failed assertion.
-/

/-- The template parameters, and the conversion `(size_t)key`. -/
structure Params (K : Type) where
  numHashSlots : Nat
  numEntrySlots : Nat
  toSize : K → Nat
  slots_pos : 1 ≤ numHashSlots
  entries_lt : numEntrySlots < 2 ^ 16

structure Entry (K V : Type) where
  prev : Nat
  next : Nat
  key : K
  value : V

/-- `entries idx` is `entries_[idx - 1]`. -/
structure Table (K V : Type) where
  entries : Nat → Entry K V
  entriesCount : Nat
  byHash : Nat → Nat

inductive Search where
  | found (idx : Nat)
  | absent (nextP : Place) (expectedPrev : Nat)

variable {K V : Type}

def Params.hash (params : Params K) (key : K) : Nat := params.toSize key % params.numHashSlots

namespace Table

/-- A table in zeroed memory. -/
def zero [Inhabited K] [Inhabited V] : Table K V where
  entries := fun _ => ⟨0, 0, default, default⟩
  entriesCount := 0
  byHash := fun _ => 0

def read (table : Table K V) : Place → Nat
  | .head slot => table.byHash slot
  | .next idx => (table.entries idx).next

def set (table : Table K V) (idx : Nat) (entry : Entry K V) : Table K V :=
  { table with entries := Function.update table.entries idx entry }

def write (table : Table K V) : Place → Nat → Table K V
  | .head slot, idx => { table with byHash := Function.update table.byHash slot idx }
  | .next before, idx => table.set before { table.entries before with next := idx }

/-- A store through the pointer that `nexts_prev` returns, if it is not null. -/
def writePrev (table : Table K V) (idx before : Nat) : Table K V :=
  if idx = 0 then table else table.set idx { table.entries idx with prev := before }

def store (table : Table K V) (idx : Nat) (value : V) : Table K V :=
  table.set idx { table.entries idx with value }

def clear (table : Table K V) : Table K V :=
  { table with byHash := fun _ => 0, entriesCount := 0 }

/-- `begin()` to `end()`. -/
def toList (table : Table K V) : List (K × V) :=
  (List.range' 1 table.entriesCount).map fun idx =>
    ((table.entries idx).key, (table.entries idx).value)

variable (params : Params K)

def entryAtIdx (table : Table K V) (idx : Nat) : Option (Entry K V) :=
  if 0 < idx ∧ idx ≤ params.numEntrySlots then some (table.entries idx) else none

def entryToIdx (entry : Nat) : Option Nat :=
  if 0 < entry ∧ entry ≤ params.numEntrySlots then some entry else none

def tryAllocEntryIdx (table : Table K V) : Table K V × Nat :=
  if table.entriesCount = params.numEntrySlots then (table, 0)
  else
    ({ table with entriesCount := table.entriesCount + 1 }, (table.entriesCount + 1) % 2 ^ 16)

def prevsNext (table : Table K V) (idx : Nat) : Option Place :=
  let entry := table.entries idx
  if entry.prev = 0 then some (.head (params.hash entry.key))
  else (entryAtIdx params table entry.prev).map fun _ => .next entry.prev

/-- The entry whose `prev` is pointed to, zero for a null pointer. -/
def nextsPrev (table : Table K V) (idx : Nat) : Option Nat :=
  let entry := table.entries idx
  if entry.next = 0 then some 0
  else (entryAtIdx params table entry.next).map fun _ => entry.next

variable [DecidableEq K]

/-- The loop of `lookup`; `fuel` bounds the entries it may visit. -/
def search (table : Table K V) (key : K) : Nat → Place → Nat → Option Search
  | 0, _, _ => none
  | fuel + 1, nextP, expectedPrev =>
      let idx := table.read nextP
      if idx = 0 then some (.absent nextP expectedPrev)
      else
        match entryAtIdx params table idx with
        | none => none
        | some entry =>
            if entry.prev ≠ expectedPrev then none
            else if entry.key = key then some (.found idx)
            else search table key fuel (.next idx) idx

/-- The table afterwards, the returned pointer and `was_found`.  A new entry
keeps the value its slot last held. -/
def lookup (table : Table K V) (key : K) (insert : Bool) : Option (Table K V × Option Nat × Bool) :=
  match search params table key (params.numEntrySlots + 1) (.head (params.hash key)) 0 with
  | none => none
  | some (.found idx) => some (table, some idx, true)
  | some (.absent nextP expectedPrev) =>
      if insert then
        let (table, newIdx) := tryAllocEntryIdx params table
        if newIdx = 0 then some (table, none, false)
        else
          let table := table.write nextP newIdx
          (entryAtIdx params table newIdx).map fun entry =>
            (table.set newIdx { entry with prev := expectedPrev, next := 0, key }, some newIdx,
              false)
      else some (table, none, false)

omit [DecidableEq K]

def unlinkEntry (table : Table K V) (idx : Nat) : Option (Table K V) := do
  let entry ← entryAtIdx params table idx
  let place ← prevsNext params table idx
  let table := table.write place entry.next
  let next ← nextsPrev params table idx
  return table.writePrev next entry.prev

def moveEntry (table : Table K V) (oldIdx newIdx : Nat) : Option (Table K V) := do
  let oldEntry ← entryAtIdx params table oldIdx
  let _ ← entryAtIdx params table newIdx
  let table := table.set newIdx oldEntry
  let place ← prevsNext params table oldIdx
  let table := table.write place newIdx
  let next ← nextsPrev params table oldIdx
  return table.writePrev next newIdx

def remove (table : Table K V) (entry : Nat) : Option (Table K V) := do
  let entryIdx ← entryToIdx params entry
  let table ← unlinkEntry params table entryIdx
  if table.entriesCount = 0 then none
  else
    let victimIdx := table.entriesCount % 2 ^ 16
    let table := { table with entriesCount := table.entriesCount - 1 }
    if victimIdx = entryIdx then return table else moveEntry params table victimIdx entryIdx

end Table

end Smmboss.StupidHash
