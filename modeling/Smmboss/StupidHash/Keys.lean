import Smmboss.StupidHash.Refinement

namespace Smmboss.StupidHash

/-! # The keys of a table

`lookup` and `remove` as their callers use them: which outcomes there are, and
which keys the table has afterwards.
-/

variable {K V : Type} {params : Params K} {table after : Table K V} {key : K}

theorem Table.has_iff_mem_toList : table.Has key ↔ key ∈ table.toList.map Prod.fst := by
  rw [List.mem_map]
  constructor
  · intro ⟨idx, alive, same⟩
    exact ⟨(key, (table.entries idx).value),
      Table.mem_toList.mpr ⟨idx, alive, same, rfl⟩, rfl⟩
  · intro ⟨⟨other, value⟩, member, same⟩
    obtain ⟨idx, alive, at_idx, _⟩ := Table.mem_toList.mp member
    exact ⟨idx, alive, at_idx.trans same⟩

theorem Table.not_has_of_empty (count : table.entriesCount = 0) : ¬ table.Has key := by
  intro ⟨idx, alive, _⟩
  have positive := alive.1
  have bound := alive.2
  omega

/-- What an insertion leaves: the entry `idx` for the key behind all others. -/
structure Inserted (params : Params K) (table : Table K V) (key : K) (after : Table K V)
    (idx : Nat) : Prop where
  valid : after.Valid params
  count : after.entriesCount = table.entriesCount + 1
  idx_eq : idx = table.entriesCount + 1
  key_eq : (after.entries idx).key = key
  kept : ∀ other, table.Live other → (after.entries other).key = (table.entries other).key ∧
    (after.entries other).value = (table.entries other).value

namespace Inserted

variable {idx : Nat}

theorem live (inserted : Inserted params table key after idx) : after.Live idx := by
  have count := inserted.count
  have at_end := inserted.idx_eq
  exact ⟨by omega, by omega⟩

theorem live_iff (inserted : Inserted params table key after idx) (other : Nat) :
    after.Live other ↔ table.Live other ∨ other = idx := by
  have count := inserted.count
  have at_end := inserted.idx_eq
  simp only [Table.Live]
  omega

theorem has_iff (inserted : Inserted params table key after idx) (other : K) :
    after.Has other ↔ table.Has other ∨ other = key := by
  constructor
  · intro ⟨place, alive, same⟩
    rcases (inserted.live_iff place).mp alive with old | rfl
    · exact Or.inl ⟨place, old, (inserted.kept place old).1.symm.trans same⟩
    · exact Or.inr (same.symm.trans inserted.key_eq)
  · intro known
    rcases known with ⟨place, alive, same⟩ | rfl
    · exact ⟨place, (inserted.live_iff place).mpr (Or.inl alive),
        (inserted.kept place alive).1.trans same⟩
    · exact ⟨idx, inserted.live, inserted.key_eq⟩

end Inserted

@[simp] theorem Table.store_key (table : Table K V) (idx other : Nat) (value : V) :
    ((table.store idx value).entries other).key = (table.entries other).key := by
  by_cases same : other = idx <;> simp [Table.store, Table.set, same]

theorem Table.store_value (table : Table K V) (idx other : Nat) (value : V) :
    ((table.store idx value).entries other).value =
      if other = idx then value else (table.entries other).value := by
  by_cases same : other = idx <;> simp [Table.store, Table.set, same]

section Lookup

variable [DecidableEq K] {entry : Option Nat} {found : Bool}

/-- The three outcomes of a lookup that inserts. -/
theorem lookup_insert_cases (valid : table.Valid params)
    (looked : table.lookup params key true = some (after, entry, found)) :
    (∃ idx, entry = some idx ∧ found = true ∧ after = table ∧ table.Live idx ∧
        (table.entries idx).key = key) ∨
      (entry = none ∧ found = false ∧ after = table ∧ ¬ table.Has key ∧
        table.entriesCount = params.numEntrySlots) ∨
      (∃ idx, entry = some idx ∧ found = false ∧ ¬ table.Has key ∧
        table.entriesCount ≠ params.numEntrySlots ∧ Inserted params table key after idx) := by
  by_cases has : table.Has key
  · obtain ⟨idx, alive, same⟩ := has
    rw [lookup_found valid alive same] at looked
    cases looked
    exact Or.inl ⟨idx, rfl, rfl, rfl, alive, same⟩
  · by_cases full : table.entriesCount = params.numEntrySlots
    · rw [lookup_full valid has full] at looked
      cases looked
      exact Or.inr (Or.inl ⟨rfl, rfl, rfl, has, full⟩)
    · obtain ⟨inserted, lookedUp, insertedValid, count, entries⟩ := lookup_inserted valid has full
      rw [lookedUp] at looked
      cases looked
      refine Or.inr (Or.inr ⟨_, rfl, rfl, has, full, insertedValid, count, rfl, ?_, ?_⟩)
      · rw [(entries _).1, if_pos rfl]
      · intro other alive
        have bound := alive.2
        have apart : other ≠ table.entriesCount + 1 := by omega
        exact ⟨by rw [(entries other).1, if_neg apart], (entries other).2⟩

theorem lookup_insert_valid (valid : table.Valid params)
    (looked : table.lookup params key true = some (after, entry, found)) : after.Valid params := by
  rcases lookup_insert_cases valid looked with
    ⟨_, _, _, rfl, _⟩ | ⟨_, _, rfl, _⟩ | ⟨_, _, _, _, _, inserted⟩
  · exact valid
  · exact valid
  · exact inserted.valid

theorem lookup_insert_found (valid : table.Valid params)
    (looked : table.lookup params key true = some (after, entry, found)) :
    found = true ↔ table.Has key := by
  rcases lookup_insert_cases valid looked with
    ⟨idx, _, rfl, _, alive, same⟩ | ⟨_, rfl, _, absent, _⟩ | ⟨_, _, rfl, absent, _⟩
  · exact iff_of_true rfl ⟨idx, alive, same⟩
  · exact iff_of_false Bool.false_ne_true absent
  · exact iff_of_false Bool.false_ne_true absent

/-- A lookup that inserts adds its key, unless the table is full. -/
theorem lookup_insert_has (valid : table.Valid params)
    (looked : table.lookup params key true = some (after, entry, found)) (other : K) :
    after.Has other ↔
      table.Has other ∨ other = key ∧ table.entriesCount ≠ params.numEntrySlots := by
  rcases lookup_insert_cases valid looked with
    ⟨idx, _, _, rfl, alive, same⟩ | ⟨_, _, rfl, _, full⟩ | ⟨_, _, _, _, room, inserted⟩
  · constructor
    · exact Or.inl
    · intro known
      rcases known with has | ⟨rfl, _⟩
      · exact has
      · exact ⟨idx, alive, same⟩
  · simp [full]
  · rw [inserted.has_iff]
    simp [room]

/-- A lookup that does not insert finds the entry of its key or nothing. -/
theorem lookup_plain_cases (valid : table.Valid params)
    (looked : table.lookup params key false = some (after, entry, found)) :
    after = table ∧
      ((∃ idx, entry = some idx ∧ table.Live idx ∧ (table.entries idx).key = key) ∨
        (entry = none ∧ ¬ table.Has key)) := by
  by_cases has : table.Has key
  · obtain ⟨idx, alive, same⟩ := has
    rw [lookup_found valid alive same] at looked
    cases looked
    exact ⟨rfl, Or.inl ⟨idx, rfl, alive, same⟩⟩
  · rw [lookup_missing valid has] at looked
    cases looked
    exact ⟨rfl, Or.inr ⟨rfl, has⟩⟩

/-- The value a lookup that inserts is followed by, if there is an entry for it. -/
def Table.storeEntry (table : Table K V) (entry : Option Nat) (value : V) : Table K V :=
  match entry with
  | some idx => table.store idx value
  | none => table

/-- After an insertion and a store the entries are those from before, and the one
of the key with the new value. -/
theorem lookup_storeEntry (valid : table.Valid params)
    (looked : table.lookup params key true = some (after, entry, found)) (value : V) :
    (after.storeEntry entry value).Valid params ∧
      ∀ idx, (after.storeEntry entry value).Live idx →
        (((after.storeEntry entry value).entries idx).key = key ∧
            ((after.storeEntry entry value).entries idx).value = value) ∨
          ((table.entries idx).key ≠ key ∧ table.Live idx ∧
            ((after.storeEntry entry value).entries idx).key = (table.entries idx).key ∧
            ((after.storeEntry entry value).entries idx).value = (table.entries idx).value) := by
  rcases lookup_insert_cases valid looked with
    ⟨idx, rfl, _, rfl, alive, same⟩ | ⟨rfl, _, rfl, absent, _⟩ |
      ⟨idx, rfl, _, absent, _, inserted⟩
  · refine ⟨store_valid valid idx value, ?_⟩
    intro other otherAlive
    rw [Table.storeEntry, Table.store_key, Table.store_value]
    by_cases at_idx : other = idx
    · exact Or.inl ⟨at_idx ▸ same, if_pos at_idx⟩
    · refine Or.inr ⟨?_, otherAlive, rfl, if_neg at_idx⟩
      intro collides
      exact at_idx (valid.idx_unique otherAlive alive (collides.trans same.symm))
  · refine ⟨valid, ?_⟩
    intro other otherAlive
    exact Or.inr ⟨fun collides => absent ⟨other, otherAlive, collides⟩, otherAlive, rfl, rfl⟩
  · refine ⟨store_valid inserted.valid idx value, ?_⟩
    intro other otherAlive
    rw [Table.storeEntry, Table.store_key, Table.store_value]
    rcases (inserted.live_iff other).mp otherAlive with old | at_idx
    · have apart : other ≠ idx := by
        have bound := old.2
        have at_end := inserted.idx_eq
        omega
      obtain ⟨keyKept, valueKept⟩ := inserted.kept other old
      exact Or.inr ⟨fun collides => absent ⟨other, old, collides⟩, old, keyKept,
        (if_neg apart).trans valueKept⟩
    · exact Or.inl ⟨at_idx ▸ inserted.key_eq, if_pos at_idx⟩

end Lookup

theorem remove_valid (valid : table.Valid params) {idx : Nat} (alive : table.Live idx)
    (removed : table.remove params idx = some after) : after.Valid params := by
  obtain ⟨result, succeeded, resultValid, _⟩ := remove_spec valid alive
  rw [succeeded] at removed
  cases removed
  exact resultValid

/-- Removal takes the key of the entry away, and no other. -/
theorem remove_has (valid : table.Valid params) {idx : Nat} (alive : table.Live idx)
    (removed : table.remove params idx = some after) (other : K) :
    after.Has other ↔ table.Has other ∧ other ≠ (table.entries idx).key := by
  obtain ⟨result, succeeded, resultValid, count, entries⟩ := remove_spec valid alive
  rw [succeeded] at removed
  cases removed
  have positive := alive.1
  have bound := alive.2
  constructor
  · intro ⟨place, placeAlive, same⟩
    have placePositive := placeAlive.1
    have placeBound := placeAlive.2
    rw [(entries place).1] at same
    split at same
    · -- the last entry has moved into the hole
      have last : table.Live table.entriesCount := ⟨by omega, Nat.le_refl _⟩
      refine ⟨⟨_, last, same⟩, ?_⟩
      intro collides
      have at_idx := valid.idx_unique last alive (same.trans collides)
      omega
    · have old : table.Live place := ⟨placePositive, by omega⟩
      refine ⟨⟨place, old, same⟩, ?_⟩
      intro collides
      have at_idx := valid.idx_unique old alive (same.trans collides)
      contradiction
  · intro ⟨⟨place, placeAlive, same⟩, apart⟩
    have placePositive := placeAlive.1
    have placeBound := placeAlive.2
    have elsewhere : place ≠ idx := by
      intro collides
      subst collides
      exact apart same.symm
    by_cases last : place = table.entriesCount
    · refine ⟨idx, ⟨positive, by omega⟩, ?_⟩
      rw [(entries idx).1, if_pos rfl, ← last]
      exact same
    · refine ⟨place, ⟨placePositive, by omega⟩, ?_⟩
      rw [(entries place).1, if_neg elsewhere]
      exact same

end Smmboss.StupidHash
