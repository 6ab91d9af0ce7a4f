import Smmboss.StupidHash.Invariant

namespace Smmboss.StupidHash

open Linked (Place Chain endPlace endNode)

/-! # The operations on a valid table -/

variable {K V : Type} {params : Params K} {table : Table K V} {idx : Nat} {key : K}

theorem Indexed.of_same {after : Table K V} {live : Nat → Prop} {buckets : Nat → List Nat}
    (indexed : Indexed params table live buckets) (links : after.links = table.links)
    (keys : ∀ idx, (after.entries idx).key = (table.entries idx).key) :
    Indexed params after live buckets where
  chain slot := by
    rw [links]
    exact indexed.chain slot
  nodup := indexed.nodup
  mem slot idx := by
    rw [keys]
    exact indexed.mem slot idx
  bound := indexed.bound
  distinct first second firstAlive secondAlive same := by
    rw [keys, keys] at same
    exact indexed.distinct first second firstAlive secondAlive same

theorem Indexed.of_live {live other : Nat → Prop} {buckets : Nat → List Nat}
    (indexed : Indexed params table live buckets) (same : ∀ idx, live idx ↔ other idx) :
    Indexed params table other buckets := by
  obtain rfl : live = other := funext fun idx => propext (same idx)
  exact indexed

theorem empty_valid (heads : table.byHash = fun _ => 0) (count : table.entriesCount = 0) :
    table.Valid params := by
  have dead (idx : Nat) : ¬ table.Live idx := by
    intro alive
    have bound := alive.2
    have positive := alive.1
    omega
  refine ⟨fun _ => [], ⟨by omega, ?_⟩⟩
  constructor
  · intro slot
    exact congrFun heads slot
  · exact fun _ => List.nodup_nil
  · intro slot idx
    simp [dead idx]
  · exact fun idx alive => absurd alive (dead idx)
  · exact fun first _ alive => absurd alive (dead first)

theorem zero_valid [Inhabited K] [Inhabited V] : (Table.zero : Table K V).Valid params :=
  empty_valid rfl rfl

theorem clear_valid (params : Params K) (table : Table K V) : table.clear.Valid params :=
  empty_valid rfl rfl

theorem store_valid (valid : table.Valid params) (idx : Nat) (value : V) :
    (table.store idx value).Valid params := by
  obtain ⟨buckets, countLe, indexed⟩ := valid
  refine ⟨buckets, countLe, indexed.of_same ?_ ?_⟩
  · rw [Table.store, Table.links_set]
    simp only [Table.links]
    congr 1 <;> funext other <;> by_cases same : other = idx <;> simp [same]
  · intro other
    by_cases same : other = idx <;> simp [Table.store, Table.set, same]

/-- The key is that of a live entry. -/
def Table.Has (table : Table K V) (key : K) : Prop :=
  ∃ idx, table.Live idx ∧ (table.entries idx).key = key

theorem Table.Valid.idx_unique {other : Nat} (valid : table.Valid params) (alive : table.Live idx)
    (otherAlive : table.Live other) (same : (table.entries idx).key = (table.entries other).key) :
    idx = other := by
  obtain ⟨buckets, _, indexed⟩ := valid
  exact indexed.distinct idx other alive otherAlive same

theorem appended_counted (table : Table K V) (count : Nat) (place : Place) (before new : Nat)
    (key : K) :
    Table.appended { table with entriesCount := count } place before new key =
      { table.appended place before new key with entriesCount := count } := by
  cases place <;> rfl

section Lookup

variable [DecidableEq K]

theorem lookup_found (valid : table.Valid params) (alive : table.Live idx)
    (same : (table.entries idx).key = key) (insert : Bool) :
    table.lookup params key insert = some (table, some idx, true) := by
  obtain ⟨buckets, wellFormed⟩ := valid
  rcases wellFormed.search key with ⟨other, otherAlive, otherSame, found⟩ | ⟨absent, _⟩
  · have at_idx : other = idx :=
      wellFormed.indexed.distinct other idx otherAlive alive (otherSame.trans same.symm)
    rw [Table.lookup, found, at_idx]
  · exact absurd same (absent idx alive)

theorem lookup_missing (valid : table.Valid params) (absent : ¬ table.Has key) :
    table.lookup params key false = some (table, none, false) := by
  obtain ⟨buckets, wellFormed⟩ := valid
  rcases wellFormed.search key with ⟨other, alive, same, _⟩ | ⟨_, found⟩
  · exact absurd ⟨other, alive, same⟩ absent
  · rw [Table.lookup, found]
    rfl

theorem lookup_full (valid : table.Valid params) (absent : ¬ table.Has key)
    (full : table.entriesCount = params.numEntrySlots) :
    table.lookup params key true = some (table, none, false) := by
  obtain ⟨buckets, wellFormed⟩ := valid
  rcases wellFormed.search key with ⟨other, alive, same, _⟩ | ⟨_, found⟩
  · exact absurd ⟨other, alive, same⟩ absent
  · simp [Table.lookup, found, Table.tryAllocEntryIdx, full]

/-- A new key gets the first free slot, with the value that slot last held. -/
theorem lookup_inserted (valid : table.Valid params) (absent : ¬ table.Has key)
    (room : table.entriesCount ≠ params.numEntrySlots) :
    ∃ after, table.lookup params key true = some (after, some (table.entriesCount + 1), false) ∧
      after.Valid params ∧ after.entriesCount = table.entriesCount + 1 ∧
      ∀ idx, (after.entries idx).key =
          (if idx = table.entriesCount + 1 then key else (table.entries idx).key) ∧
        (after.entries idx).value = (table.entries idx).value := by
  obtain ⟨buckets, wellFormed⟩ := valid
  rcases wellFormed.search key with ⟨other, alive, same, _⟩ | ⟨missing, found⟩
  · exact absurd ⟨other, alive, same⟩ absent
  have countLe := wellFormed.count_le
  have entriesLt := params.entries_lt
  have upper : table.entriesCount + 1 ≤ params.numEntrySlots := by omega
  have allocated : (table.entriesCount + 1) % 2 ^ 16 = table.entriesCount + 1 :=
    Nat.mod_eq_of_lt (by omega)
  obtain ⟨place, at_end⟩ : ∃ place,
      place = endPlace (.head (params.hash key)) (buckets (params.hash key)) := ⟨_, rfl⟩
  obtain ⟨before, last⟩ : ∃ before, before = endNode 0 (buckets (params.hash key)) := ⟨_, rfl⟩
  rw [← at_end, ← last] at found
  have result : table.lookup params key true = some
      ({ table.appended place before (table.entriesCount + 1) key with
          entriesCount := table.entriesCount + 1 },
        some (table.entriesCount + 1), false) := by
    simp only [Table.lookup, found, Table.tryAllocEntryIdx, room, if_false, allocated, if_true,
      Nat.succ_ne_zero, Table.entryAtIdx_eq (Nat.succ_pos _) upper, Option.map_some]
    rw [← appended_counted]
    rfl
  have dead : ¬ table.Live (table.entriesCount + 1) := fun alive => Nat.not_succ_le_self _ alive.2
  have appended := append_spec wellFormed.indexed dead (Nat.succ_pos _) upper missing rfl
  rw [← at_end, ← last] at appended
  have counted : Indexed params { table.appended place before (table.entriesCount + 1) key with
      entriesCount := table.entriesCount + 1 } _ _ := appended.of_same rfl fun _ => rfl
  refine ⟨_, result, ⟨_, upper, counted.of_live ?_⟩, rfl, ?_⟩
  · intro other
    simp only [Table.Live]
    omega
  · exact fun other => table.appended_entries place before (table.entriesCount + 1) key other

end Lookup

/-- The last entry moves into the slot of the removed one. -/
theorem remove_spec (valid : table.Valid params) (alive : table.Live idx) :
    ∃ after, table.remove params idx = some after ∧ after.Valid params ∧
      after.entriesCount + 1 = table.entriesCount ∧
      ∀ other, (after.entries other).key =
          (table.entries (if other = idx then table.entriesCount else other)).key ∧
        (after.entries other).value =
          (table.entries (if other = idx then table.entriesCount else other)).value := by
  obtain ⟨buckets, countLe, indexed⟩ := valid
  have bound := indexed.bound idx alive
  have entriesLt := params.entries_lt
  have positive : table.entriesCount ≠ 0 := by
    have lower := alive.1
    have upper := alive.2
    omega
  obtain ⟨unlinked, unlinkedEq, same, threaded⟩ := unlinkEntry_spec indexed alive
  have victim : unlinked.entriesCount % 2 ^ 16 = table.entriesCount := by
    rw [same.count]
    exact Nat.mod_eq_of_lt (by omega)
  have some_left : unlinked.entriesCount ≠ 0 := same.count ▸ positive
  have shorter : Indexed params { unlinked with entriesCount := unlinked.entriesCount - 1 }
      (fun other => table.Live other ∧ other ≠ idx) fun slot => (buckets slot).erase idx :=
    threaded.of_same rfl fun _ => rfl
  have toIdx : Table.entryToIdx params idx = some idx := by
    rw [Table.entryToIdx, if_pos bound]
  have removed : table.remove params idx =
      if table.entriesCount = idx then
        some { unlinked with entriesCount := unlinked.entriesCount - 1 }
      else Table.moveEntry params { unlinked with entriesCount := unlinked.entriesCount - 1 }
        table.entriesCount idx := by
    rw [Table.remove, toIdx, Option.bind_eq_bind, Option.bind_some, unlinkedEq,
      Option.bind_eq_bind, Option.bind_some, if_neg some_left, victim]
    rfl
  by_cases last : table.entriesCount = idx
  · have result : table.remove params idx =
        some { unlinked with entriesCount := unlinked.entriesCount - 1 } := by
      rw [removed, if_pos last]
    refine ⟨_, result, ⟨_, ?_, shorter.of_live ?_⟩, ?_, ?_⟩
    · simp only [same.count]
      omega
    · intro other
      simp only [Table.Live, same.count]
      omega
    · simp only [same.count]
      omega
    · intro other
      by_cases at_idx : other = idx
      · rw [if_pos at_idx, last, at_idx]
        exact ⟨same.key idx, same.value idx⟩
      · rw [if_neg at_idx]
        exact ⟨same.key other, same.value other⟩
  · have victim_alive : table.Live table.entriesCount ∧ table.entriesCount ≠ idx :=
      ⟨⟨Nat.pos_of_ne_zero positive, Nat.le_refl _⟩, last⟩
    obtain ⟨after, moved, count, entries, relinked⟩ :=
      moveEntry_spec shorter victim_alive (fun known => known.2 rfl) bound.1 bound.2
    have result : table.remove params idx = some after := by
      rw [removed, if_neg last, moved]
    simp only [same.count] at count
    refine ⟨after, result, ⟨_, ?_, relinked.of_live ?_⟩, ?_, ?_⟩
    · omega
    · intro other
      have lower := alive.1
      have upper := alive.2
      simp only [Table.Live, count]
      omega
    · omega
    · intro other
      rw [(entries other).1, (entries other).2]
      exact ⟨same.key _, same.value _⟩

end Smmboss.StupidHash
