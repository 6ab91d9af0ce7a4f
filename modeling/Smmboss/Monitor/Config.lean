import Mathlib.Algebra.Order.Ring.Nat
import Mathlib.Data.List.FinRange
import Mathlib.Logic.Function.Basic

namespace Smmboss.Monitor

/-! # Monitor configurations

A `monitor_config` is its 528 bytes: `uniqid`, `entry_count`, and 32 entries of
an address and a length, each a little-endian 64-bit word.
-/

def maxEntries : Nat := 32

/-- `offsetof(monitor_config, entries)`. -/
def entriesOffset : Nat := 16

/-- `sizeof(monitor_config::entry)`. -/
def entrySize : Nat := 16

def configSize : Nat := entriesOffset + maxEntries * entrySize

abbrev Config := Fin configSize → UInt8

namespace Config

def byte (config : Config) (offset : Nat) : UInt8 :=
  if inside : offset < configSize then config ⟨offset, inside⟩ else 0

def word (config : Config) (offset : Nat) : Nat :=
  (List.range 8).foldr (fun place rest => (config.byte (offset + place)).toNat + 256 * rest) 0

def uniqid (config : Config) : Nat := config.word 0

def entryCount (config : Config) : Nat := config.word 8

def entryAddr (config : Config) (entry : Nat) : Nat :=
  config.word (entriesOffset + entrySize * entry)

def entryLen (config : Config) (entry : Nat) : Nat :=
  config.word (entriesOffset + entrySize * entry + 8)

end Config

/-- The configuration in a slot that is zeroed and then filled with `data`. -/
def configOf (data : List UInt8) : Config := fun offset => data.getD offset 0

/-- `validate_config`; `accessible entry addr` is what `accessible_bytes_at`
answers for that entry. -/
def validateConfig (config : Config) (accessible : Nat → Nat → Nat) : Option String :=
  if config.uniqid = 0 ∧ config.entryCount ≠ 0 then some "uniqid must be nonzero"
  else if ∃ entry ∈ List.range maxEntries,
      accessible entry (config.entryAddr entry) < config.entryLen entry then
    some "invalid address"
  else none

/-- The size checks at the start of `set_config`. -/
def checkSize (data : List UInt8) : Option String :=
  if data.length < entriesOffset ∨ (data.length - entriesOffset) % entrySize ≠ 0 then
    some "invalid size"
  else if (data.length - entriesOffset) / entrySize > maxEntries then some "too many entries"
  else none

/-- The checks after the slot has been filled. -/
def checkFilled (data : List UInt8) (config : Config) (accessible : Nat → Nat → Nat) :
    Option String :=
  if config.entryCount ≠ (data.length - entriesOffset) / entrySize then some "invalid size"
  else validateConfig config accessible

/-! ## Filling a slot byte by byte -/

abbrev ByteStore := Fin configSize × UInt8

def applyStores (config : Config) (stores : List ByteStore) : Config :=
  stores.foldl (fun config store => Function.update config store.1 store.2) config

def memsetStores : List ByteStore := (List.finRange configSize).map fun offset => (offset, 0)

def memcpyStores (data : List UInt8) : List ByteStore :=
  (List.finRange configSize).filterMap fun offset =>
    (data[offset.val]?).map fun byte => (offset, byte)

def fillStores (data : List UInt8) : List ByteStore := memsetStores ++ memcpyStores data

theorem applyStores_map (config : Config) (content : Fin configSize → UInt8)
    (offsets : List (Fin configSize)) (offset : Fin configSize) :
    applyStores config (offsets.map fun offset => (offset, content offset)) offset =
      if offset ∈ offsets then content offset else config offset := by
  induction offsets generalizing config with
  | nil => rfl
  | cons first rest ih =>
      apply (ih (Function.update config first (content first))).trans
      by_cases later : offset ∈ rest
      · simp [later]
      · by_cases same : offset = first
        · simp [same]
        · simp [later, same]

theorem applyStores_filterMap (config : Config) (content : Fin configSize → Option UInt8)
    (offsets : List (Fin configSize)) (offset : Fin configSize) :
    applyStores config
        (offsets.filterMap fun offset => (content offset).map fun byte => (offset, byte)) offset =
      if offset ∈ offsets then (content offset).getD (config offset) else config offset := by
  induction offsets generalizing config with
  | nil => rfl
  | cons first rest ih =>
      cases stored : content first with
      | none =>
          rw [List.filterMap_cons, stored]
          apply (ih config).trans
          by_cases later : offset ∈ rest
          · simp [later]
          · by_cases same : offset = first
            · simp [same, stored]
            · simp [later, same]
      | some byte =>
          rw [List.filterMap_cons, stored]
          apply (ih (Function.update config first byte)).trans
          by_cases later : offset ∈ rest
          · by_cases same : offset = first
            · simp [same, stored]
            · simp [later, same]
          · by_cases same : offset = first
            · simp [same, stored]
            · simp [later, same]

/-- Whatever a slot held before, it ends up holding the data and zeros. -/
theorem applyStores_fill (config : Config) (data : List UInt8) :
    applyStores config (fillStores data) = configOf data := by
  funext offset
  have member : offset ∈ List.finRange configSize := List.mem_finRange offset
  rw [fillStores, applyStores, List.foldl_append]
  change applyStores (applyStores config memsetStores) (memcpyStores data) offset = _
  rw [memcpyStores, applyStores_filterMap, if_pos member, memsetStores,
    applyStores_map config fun _ => 0, if_pos member, configOf, List.getD_eq_getElem?_getD]

end Smmboss.Monitor
