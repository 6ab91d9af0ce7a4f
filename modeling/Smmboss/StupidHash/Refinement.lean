import Mathlib.Data.Finmap
import Smmboss.Foundation.Machine
import Smmboss.StupidHash.Operations

namespace Smmboss.StupidHash

/-! # The table as a bounded finite map -/

abbrev Contents (K V : Type) := Finmap fun _ : K => V

/-- What the client of a table does: entries are named by pointers. -/
inductive Op (K V : Type) where
  | lookup (key : K) (insert : Bool)
  | store (entry : Nat) (value : V)
  | remove (entry : Nat)
  | clear

/-- What happens to the map: entries are named by keys.  A key that is inserted
comes with whatever value its slot holds. -/
inductive Action (K V : Type) where
  | lookup (key : K) (insert : Bool) (fresh : V)
  | store (key : K) (value : V)
  | remove (key : K)
  | clear

section

variable {K V : Type} [DecidableEq K]

def Contents.act (capacity : Nat) (map : Contents K V) : Action K V → Contents K V
  | .lookup key insert fresh =>
      if insert ∧ key ∉ map ∧ map.keys.card < capacity then map.insert key fresh else map
  | .store key value => map.insert key value
  | .remove key => map.erase key
  | .clear => ∅

omit [DecidableEq K] in
/-- The action of an operation on the map that the table stands for. -/
def Table.action (table : Table K V) : Op K V → Action K V
  | .lookup key insert => .lookup key insert (table.entries (table.entriesCount + 1)).value
  | .store entry value => .store (table.entries entry).key value
  | .remove entry => .remove (table.entries entry).key
  | .clear => .clear

/-- Pointers are to entries of live keys. -/
def Table.Legal (table : Table K V) : Op K V → Prop
  | .store entry _ | .remove entry => table.Live entry
  | .lookup _ _ | .clear => True

instance (table : Table K V) (idx : Nat) : Decidable (table.Live idx) :=
  inferInstanceAs (Decidable (_ ∧ _))

instance (table : Table K V) (op : Op K V) : Decidable (table.Legal op) :=
  match op with
  | .store entry _ => inferInstanceAs (Decidable (table.Live entry))
  | .remove entry => inferInstanceAs (Decidable (table.Live entry))
  | .lookup _ _ => inferInstanceAs (Decidable True)
  | .clear => inferInstanceAs (Decidable True)

def Table.apply (params : Params K) (table : Table K V) : Op K V → Option (Table K V)
  | .lookup key insert => (table.lookup params key insert).map Prod.fst
  | .store entry value => some (table.store entry value)
  | .remove entry => table.remove params entry
  | .clear => some table.clear

/-- A table, and the map that the same operations make. -/
structure Traced (K V : Type) where
  table : Table K V
  map : Contents K V

/-- A step is not taken where the operation is not legal, or where an assertion
fails. -/
def step (params : Params K) (state : Traced K V) (op : Op K V) : Option (Traced K V) :=
  if state.table.Legal op then
    (state.table.apply params op).map fun table =>
      ⟨table, state.map.act params.numEntrySlots (state.table.action op)⟩
  else none

structure Represents (params : Params K) (table : Table K V) (map : Contents K V) : Prop where
  valid : table.Valid params
  lookup : ∀ key value, map.lookup key = some value ↔
    ∃ idx, table.Live idx ∧ (table.entries idx).key = key ∧ (table.entries idx).value = value

variable {params : Params K} {table : Table K V} {map : Contents K V} {key : K}

theorem Represents.mem_iff (represents : Represents params table map) :
    key ∈ map ↔ table.Has key := by
  rw [Finmap.mem_iff]
  constructor
  · intro ⟨value, found⟩
    obtain ⟨idx, alive, same, _⟩ := (represents.lookup key value).mp found
    exact ⟨idx, alive, same⟩
  · intro ⟨idx, alive, same⟩
    exact ⟨_, (represents.lookup key _).mpr ⟨idx, alive, same, rfl⟩⟩

omit [DecidableEq K] in
theorem Table.mem_toList {value : V} :
    (key, value) ∈ table.toList ↔
      ∃ idx, table.Live idx ∧ (table.entries idx).key = key ∧ (table.entries idx).value = value := by
  have range (idx : Nat) : idx ∈ List.range' 1 table.entriesCount ↔ table.Live idx := by
    rw [List.mem_range'_1, Live]
    omega
  simp only [toList, List.mem_map, range, Prod.mk.injEq]

omit [DecidableEq K] in
theorem Table.Valid.toList_nodup (valid : table.Valid params) :
    (table.toList.map Prod.fst).Nodup := by
  have range : (List.range' 1 table.entriesCount).Nodup := List.nodup_range'
  rw [Table.toList, List.map_map]
  refine List.Nodup.map_on ?_ range
  intro first firstMember second secondMember same
  have firstBound := List.mem_range'_1.mp firstMember
  have secondBound := List.mem_range'_1.mp secondMember
  exact valid.idx_unique ⟨firstBound.1, by omega⟩ ⟨secondBound.1, by omega⟩ same

/-- `begin()` to `end()` lists the map, each key once. -/
theorem Represents.mem_toList (represents : Represents params table map) {value : V} :
    (key, value) ∈ table.toList ↔ map.lookup key = some value := by
  rw [represents.lookup, Table.mem_toList]

theorem Represents.card (represents : Represents params table map) :
    map.keys.card = table.entriesCount := by
  have keys : map.keys = (table.toList.map Prod.fst).toFinset := by
    ext key
    rw [Finmap.mem_keys, Finmap.mem_iff, List.mem_toFinset, List.mem_map]
    constructor
    · intro ⟨value, found⟩
      exact ⟨(key, value), represents.mem_toList.mpr found, rfl⟩
    · intro ⟨⟨other, value⟩, member, same⟩
      obtain rfl : other = key := same
      exact ⟨value, represents.mem_toList.mp member⟩
  rw [keys, List.toFinset_card_of_nodup represents.valid.toList_nodup, List.length_map,
    Table.toList, List.length_map, List.length_range']

theorem empty_represents (valid : table.Valid params) (count : table.entriesCount = 0) :
    Represents params table ∅ := by
  refine ⟨valid, ?_⟩
  intro key value
  rw [Finmap.lookup_empty]
  constructor
  · intro found
    contradiction
  · intro ⟨idx, alive, _⟩
    have lower := alive.1
    have upper := alive.2
    omega

theorem store_represents (represents : Represents params table map) {entry : Nat}
    (alive : table.Live entry) (value : V) :
    Represents params (table.store entry value)
      (map.insert (table.entries entry).key value) := by
  refine ⟨store_valid represents.valid entry value, ?_⟩
  have key_kept (idx : Nat) :
      ((table.store entry value).entries idx).key = (table.entries idx).key := by
    by_cases same : idx = entry <;> simp [Table.store, Table.set, same]
  have value_at (idx : Nat) : ((table.store entry value).entries idx).value =
      if idx = entry then value else (table.entries idx).value := by
    by_cases same : idx = entry <;> simp [Table.store, Table.set, same]
  intro key found
  simp only [key_kept, value_at]
  by_cases same : key = (table.entries entry).key
  · subst same
    rw [Finmap.lookup_insert, Option.some.injEq]
    constructor
    · intro same
      exact ⟨entry, alive, rfl, by rw [if_pos rfl, same]⟩
    · rintro ⟨idx, idxAlive, same_key, same_value⟩
      have at_entry := represents.valid.idx_unique idxAlive alive same_key
      rwa [if_pos at_entry] at same_value
  · rw [Finmap.lookup_insert_of_ne _ same, represents.lookup]
    constructor
    · rintro ⟨idx, idxAlive, same_key, same_value⟩
      have differ : idx ≠ entry := fun at_entry => same (at_entry ▸ same_key.symm)
      exact ⟨idx, idxAlive, same_key, by rw [if_neg differ, same_value]⟩
    · rintro ⟨idx, idxAlive, same_key, same_value⟩
      have differ : idx ≠ entry := fun at_entry => same (at_entry ▸ same_key.symm)
      rw [if_neg differ] at same_value
      exact ⟨idx, idxAlive, same_key, same_value⟩

theorem remove_represents (represents : Represents params table map) {entry : Nat}
    (alive : table.Live entry) :
    ∃ after, table.remove params entry = some after ∧
      Represents params after (map.erase (table.entries entry).key) := by
  obtain ⟨after, removed, valid, count, entries⟩ := remove_spec represents.valid alive
  refine ⟨after, removed, valid, ?_⟩
  have last_alive : table.Live table.entriesCount := ⟨by omega, Nat.le_refl _⟩
  -- the slot an entry had before the last one moved into the hole
  have origin {idx : Nat} (idxAlive : after.Live idx) :
      table.Live (if idx = entry then table.entriesCount else idx) ∧
        (if idx = entry then table.entriesCount else idx) ≠ entry := by
    have lower := idxAlive.1
    have upper := idxAlive.2
    split
    · exact ⟨last_alive, by omega⟩
    · exact ⟨⟨lower, by omega⟩, ‹_›⟩
  intro key value
  by_cases same : key = (table.entries entry).key
  · rw [same, Finmap.lookup_erase]
    constructor
    · intro found
      contradiction
    · intro ⟨idx, idxAlive, same_key, _⟩
      rw [(entries idx).1] at same_key
      obtain ⟨originAlive, differ⟩ := origin idxAlive
      exact absurd (represents.valid.idx_unique originAlive alive same_key) differ
  · rw [Finmap.lookup_erase_ne same, represents.lookup]
    constructor
    · rintro ⟨idx, idxAlive, same_key, same_value⟩
      have differ : idx ≠ entry := fun at_entry => same (at_entry ▸ same_key.symm)
      by_cases last : idx = table.entriesCount
      · refine ⟨entry, ⟨alive.1, ?_⟩, ?_, ?_⟩
        · have upper := alive.2
          omega
        · rw [(entries entry).1, if_pos rfl, ← last, same_key]
        · rw [(entries entry).2, if_pos rfl, ← last, same_value]
      · refine ⟨idx, ⟨idxAlive.1, ?_⟩, ?_, ?_⟩
        · have upper := idxAlive.2
          omega
        · rw [(entries idx).1, if_neg differ, same_key]
        · rw [(entries idx).2, if_neg differ, same_value]
    · intro ⟨idx, idxAlive, same_key, same_value⟩
      rw [(entries idx).1] at same_key
      rw [(entries idx).2] at same_value
      exact ⟨_, (origin idxAlive).1, same_key, same_value⟩

/-- Inserting an absent key where there is room. -/
theorem insert_represents (represents : Represents params table map) (absent : key ∉ map)
    (room : map.keys.card < params.numEntrySlots) :
    ∃ after, table.lookup params key true = some (after, some (table.entriesCount + 1), false) ∧
      after.Live (table.entriesCount + 1) ∧
      (after.entries (table.entriesCount + 1)).key = key ∧
      Represents params after
        (map.insert key (table.entries (table.entriesCount + 1)).value) := by
  rw [represents.card] at room
  obtain ⟨after, inserted, valid, count, entries⟩ := lookup_inserted represents.valid
    (fun present => absent (represents.mem_iff.mpr present)) (Nat.ne_of_lt room)
  have new_alive : after.Live (table.entriesCount + 1) := ⟨Nat.succ_pos _, by omega⟩
  have new_key : (after.entries (table.entriesCount + 1)).key = key := by
    rw [(entries _).1, if_pos rfl]
  refine ⟨after, inserted, new_alive, new_key, valid, ?_⟩
  intro other value
  by_cases same : other = key
  · rw [same, Finmap.lookup_insert, Option.some.injEq]
    constructor
    · intro same_value
      exact ⟨_, new_alive, new_key, (entries _).2.trans same_value⟩
    · intro ⟨idx, idxAlive, same_key, same_value⟩
      have at_new := valid.idx_unique idxAlive new_alive (same_key.trans new_key.symm)
      rwa [at_new, (entries _).2] at same_value
  · rw [Finmap.lookup_insert_of_ne _ same, represents.lookup]
    constructor
    · intro ⟨idx, idxAlive, same_key, same_value⟩
      have upper := idxAlive.2
      refine ⟨idx, ⟨idxAlive.1, by omega⟩, ?_, (entries idx).2.trans same_value⟩
      rw [(entries idx).1, if_neg (by omega), same_key]
    · rintro ⟨idx, idxAlive, same_key, same_value⟩
      have differ : idx ≠ table.entriesCount + 1 := by
        intro at_new
        rw [at_new, new_key] at same_key
        exact same same_key.symm
      have lower := idxAlive.1
      have upper := idxAlive.2
      rw [(entries idx).1, if_neg differ] at same_key
      rw [(entries idx).2] at same_value
      exact ⟨idx, ⟨lower, by omega⟩, same_key, same_value⟩

/-- What `lookup` returns, and what it makes of the map. -/
structure LookupOk (params : Params K) (table : Table K V) (map : Contents K V) (key : K)
    (insert : Bool) (after : Table K V) (entry : Option Nat) (found : Bool) : Prop where
  found : found = true ↔ key ∈ map
  present : key ∈ map → after = table ∧ ∃ idx, entry = some idx ∧ table.Live idx ∧
    (table.entries idx).key = key ∧ map.lookup key = some (table.entries idx).value
  absent : key ∉ map → (entry ≠ none ↔ insert = true ∧ map.keys.card < params.numEntrySlots)
  inserted : key ∉ map → ∀ idx, entry = some idx →
    after.Live idx ∧ (after.entries idx).key = key
  unchanged : entry = none → after = table

theorem lookup_represents (represents : Represents params table map) (insert : Bool) :
    ∃ after entry found, table.lookup params key insert = some (after, entry, found) ∧
      LookupOk params table map key insert after entry found ∧
      Represents params after (map.act params.numEntrySlots (table.action (.lookup key insert))) := by
  by_cases present : key ∈ map
  · obtain ⟨idx, alive, same⟩ := represents.mem_iff.mp present
    have known : map.lookup key = some (table.entries idx).value :=
      (represents.lookup key _).mpr ⟨idx, alive, same, rfl⟩
    refine ⟨table, some idx, true, lookup_found represents.valid alive same insert, ?_, ?_⟩
    · exact ⟨by simp [present], fun _ => ⟨rfl, idx, rfl, alive, same, known⟩,
        fun absent => absurd present absent, fun absent => absurd present absent, by simp⟩
    · simpa [Contents.act, Table.action, present] using represents
  have missing : ¬ table.Has key := fun has => present (represents.mem_iff.mpr has)
  cases insert with
  | false =>
      refine ⟨table, none, false, lookup_missing represents.valid missing, ?_, ?_⟩
      · exact ⟨by simp [present], fun member => absurd member present, by simp, by simp,
          fun _ => rfl⟩
      · simpa [Contents.act, Table.action] using represents
  | true =>
      by_cases room : map.keys.card < params.numEntrySlots
      · obtain ⟨after, inserted, alive, same, related⟩ := insert_represents represents present room
        refine ⟨after, _, false, inserted, ?_, ?_⟩
        · refine ⟨by simp [present], fun member => absurd member present, by simp [room], ?_,
            by simp⟩
          intro _ idx at_new
          obtain rfl : _ = idx := by simpa using at_new
          exact ⟨alive, same⟩
        · simpa [Contents.act, Table.action, present, room] using related
      · have full : table.entriesCount = params.numEntrySlots := by
          obtain ⟨buckets, wellFormed⟩ := represents.valid
          have countLe := wellFormed.count_le
          rw [represents.card] at room
          omega
        refine ⟨table, none, false, lookup_full represents.valid missing full, ?_, ?_⟩
        · exact ⟨by simp [present], fun member => absurd member present, by simp [room], by simp,
            fun _ => rfl⟩
        · simpa [Contents.act, Table.action, room] using represents

/-- A legal operation passes its assertions, and does to the table what its
action does to the map. -/
theorem apply_represents (represents : Represents params table map) {op : Op K V}
    (legal : table.Legal op) :
    ∃ after, table.apply params op = some after ∧
      Represents params after (map.act params.numEntrySlots (table.action op)) := by
  cases op with
  | lookup key insert =>
      obtain ⟨after, entry, found, looked, _, related⟩ := lookup_represents represents insert
      exact ⟨after, by rw [Table.apply, looked]; rfl, related⟩
  | store entry value => exact ⟨_, rfl, store_represents represents legal value⟩
  | remove entry => exact remove_represents represents legal
  | clear => exact ⟨_, rfl, empty_represents (clear_valid params table) rfl⟩

def Faithful (params : Params K) (state : Traced K V) : Prop :=
  Represents params state.table state.map

theorem step_faithful {before after : Traced K V} {op : Op K V}
    (represents : Faithful params before) (stepped : step params before op = some after) :
    Faithful params after := by
  rw [step] at stepped
  split at stepped
  · obtain ⟨table, applied, related⟩ := apply_represents represents ‹before.table.Legal op›
    rw [applied] at stepped
    cases stepped
    exact related
  · contradiction

variable [Inhabited K] [Inhabited V]

/-- After any sequence of legal operations on a zeroed table no assertion
fails, lookups answer from the map, `begin()` to `end()` lists it, and each
bucket is a chain of exactly its live entries. -/
theorem table_refines {ops : List (Op K V)} {state : Traced K V}
    (ran : Machine.run (step params) ⟨Table.zero, ∅⟩ ops = some state) :
    (∀ op, state.table.Legal op → ∃ after, state.table.apply params op = some after) ∧
      (∀ key insert, ∃ after entry found,
        state.table.lookup params key insert = some (after, entry, found) ∧
          LookupOk params state.table state.map key insert after entry found) ∧
      (state.table.toList.map Prod.fst).Nodup ∧
      (∀ key value, (key, value) ∈ state.table.toList ↔ state.map.lookup key = some value) ∧
      ∃ buckets, WellFormed params state.table buckets := by
  have start : Faithful params (⟨Table.zero, ∅⟩ : Traced K V) := empty_represents zero_valid rfl
  have represents : Faithful params state := Machine.run_preserves step_faithful start ran
  refine ⟨?_, ?_, represents.valid.toList_nodup, fun _ _ => represents.mem_toList,
    represents.valid⟩
  · intro op legal
    obtain ⟨after, applied, _⟩ := apply_represents represents legal
    exact ⟨after, applied⟩
  · intro key insert
    obtain ⟨after, entry, found, looked, answered, _⟩ := lookup_represents represents insert
    exact ⟨after, entry, found, looked, answered⟩

end

/-- One bucket, two entries: two keys go in, the third finds the table full, and
the first one is removed, so that the second moves into its slot. -/
def tinyParams : Params Nat := ⟨1, 2, id, by decide, by decide⟩

theorem table_refines_tiny :
    ∃ state : Traced Nat Nat,
      Machine.run (step tinyParams) ⟨Table.zero, ∅⟩
        [.lookup 5 true, .store 1 50, .lookup 6 true, .store 2 60, .lookup 7 true, .remove 1] =
          some state ∧
        state.table.toList = [(6, 60)] ∧ state.map.lookup 6 = some 60 := by
  obtain ⟨state, ran, listed⟩ : ∃ state : Traced Nat Nat,
      Machine.run (step tinyParams) ⟨Table.zero, ∅⟩
        [.lookup 5 true, .store 1 50, .lookup 6 true, .store 2 60, .lookup 7 true, .remove 1] =
          some state ∧ state.table.toList = [(6, 60)] := ⟨_, rfl, rfl⟩
  refine ⟨state, ran, listed, ?_⟩
  exact ((table_refines ran).2.2.2.1 6 60).mp (by simp [listed])

end Smmboss.StupidHash
