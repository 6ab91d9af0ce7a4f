import Mathlib.Data.List.Nodup
import Mathlib.Data.List.Perm.Subperm
import Smmboss.StupidHash.Table

namespace Smmboss.StupidHash

open Linked (Links Place Chain Distinct SameOn endPlace endNode)

/-! # The buckets of a table

Each bucket is a doubly linked chain that holds exactly the live entries whose
keys hash to it.
-/

variable {K V : Type} {params : Params K} {table after : Table K V} {live : Nat → Prop}
  {buckets : Nat → List Nat} {slot idx : Nat} {left right : List Nat}

def Table.links (table : Table K V) : Links where
  head := table.byHash
  next idx := (table.entries idx).next
  prev idx := (table.entries idx).prev

@[simp] theorem Table.read_eq (table : Table K V) (place : Place) :
    table.read place = table.links.read place := by
  cases place <;> rfl

theorem Table.links_set (table : Table K V) (idx : Nat) (entry : Entry K V) :
    (table.set idx entry).links =
      { table.links with
        next := Function.update table.links.next idx entry.next
        prev := Function.update table.links.prev idx entry.prev } := by
  simp only [set, links, Links.mk.injEq, true_and]
  constructor <;> funext other <;> by_cases same : other = idx <;> simp [same]

theorem Table.links_write (table : Table K V) (place : Place) (idx : Nat) :
    (table.write place idx).links = table.links.write place idx := by
  cases place with
  | head slot => rfl
  | next before =>
      rw [write, links_set]
      simp [Links.write, links]

theorem Table.links_writePrev (table : Table K V) (idx before : Nat) :
    (table.writePrev idx before).links = table.links.setPrev idx before := by
  rw [writePrev, Links.setPrev]
  split
  · rfl
  · rw [links_set]
    simp [links]

theorem Table.links_copy (table : Table K V) (old new : Nat) :
    (table.set new (table.entries old)).links = table.links.copy old new := by
  rw [links_set]
  rfl

/-- The two tables hold the same keys and values in the same slots. -/
structure SameData (table after : Table K V) : Prop where
  key : ∀ idx, (after.entries idx).key = (table.entries idx).key
  value : ∀ idx, (after.entries idx).value = (table.entries idx).value
  count : after.entriesCount = table.entriesCount

theorem SameData.trans {last : Table K V} (first : SameData table after)
    (second : SameData after last) : SameData table last :=
  ⟨fun idx => (second.key idx).trans (first.key idx),
    fun idx => (second.value idx).trans (first.value idx), second.count.trans first.count⟩

theorem Table.write_sameData (table : Table K V) (place : Place) (idx : Nat) :
    SameData table (table.write place idx) := by
  cases place with
  | head slot => exact ⟨fun _ => rfl, fun _ => rfl, rfl⟩
  | next before =>
      refine ⟨?_, ?_, rfl⟩ <;> intro other <;> by_cases same : other = before <;>
        simp [write, set, same]

theorem Table.writePrev_sameData (table : Table K V) (idx before : Nat) :
    SameData table (table.writePrev idx before) := by
  rw [writePrev]
  split
  · exact ⟨fun _ => rfl, fun _ => rfl, rfl⟩
  · refine ⟨?_, ?_, rfl⟩ <;> intro other <;> by_cases same : other = idx <;> simp [set, same]

/-- The buckets thread exactly the `live` entries. -/
structure Indexed (params : Params K) (table : Table K V) (live : Nat → Prop)
    (buckets : Nat → List Nat) : Prop where
  chain : ∀ slot, Chain table.links (.head slot) 0 (buckets slot)
  nodup : ∀ slot, (buckets slot).Nodup
  mem : ∀ slot idx, idx ∈ buckets slot ↔
    live idx ∧ params.hash (table.entries idx).key = slot
  bound : ∀ idx, live idx → 0 < idx ∧ idx ≤ params.numEntrySlots
  distinct : ∀ i j, live i → live j → (table.entries i).key = (table.entries j).key → i = j

theorem Table.entryAtIdx_eq (lower : 0 < idx) (upper : idx ≤ params.numEntrySlots) :
    table.entryAtIdx params idx = some (table.entries idx) := by
  rw [entryAtIdx, if_pos ⟨lower, upper⟩]

theorem Indexed.entryAtIdx (indexed : Indexed params table live buckets) (alive : live idx)
    (after : Table K V) : after.entryAtIdx params idx = some (after.entries idx) :=
  Table.entryAtIdx_eq (indexed.bound idx alive).1 (indexed.bound idx alive).2

theorem Indexed.same_slot {other : Nat} (indexed : Indexed params table live buckets)
    (first : idx ∈ buckets slot) (second : idx ∈ buckets other) : slot = other :=
  ((indexed.mem slot idx).mp first).2.symm.trans ((indexed.mem other idx).mp second).2

/-- Where a live entry stands in its bucket. -/
theorem Indexed.split (indexed : Indexed params table live buckets) (alive : live idx) :
    ∃ slot left right, buckets slot = left ++ idx :: right :=
  ⟨_, List.append_of_mem ((indexed.mem _ idx).mpr ⟨alive, rfl⟩)⟩

theorem Indexed.alive_of_split (indexed : Indexed params table live buckets)
    (split : buckets slot = left ++ right) (member : idx ∈ left ∨ idx ∈ right) : live idx := by
  have inside : idx ∈ buckets slot := by
    rw [split]
    exact List.mem_append.mpr member
  exact ((indexed.mem slot idx).mp inside).1

/-- `prevs_next` of an entry is the place that points at it. -/
theorem Indexed.prevsNext (indexed : Indexed params table live buckets)
    (split : buckets slot = left ++ idx :: right) :
    table.prevsNext params idx = some (endPlace (.head slot) left) := by
  have chain := indexed.chain slot
  rw [split] at chain
  have at_slot : params.hash (table.entries idx).key = slot :=
    ((indexed.mem slot idx).mp (by simp [split])).2
  have nonzero : ∀ node ∈ left, node ≠ 0 :=
    fun node member => chain.nonzero node (List.mem_append_left _ member)
  have back : (table.entries idx).prev = endNode 0 left := chain.read_endPlace.2
  simp only [Table.prevsNext, back, at_slot, Linked.endPlace_head nonzero]
  by_cases first : endNode 0 left = 0
  · rw [if_pos first, if_pos first]
  · have member : endNode 0 left ∈ left := by
      rcases Linked.endNode_mem 0 left with same | member
      · exact absurd same first
      · exact member
    rw [if_neg first, if_neg first,
      indexed.entryAtIdx (indexed.alive_of_split split (.inl member)) table]
    rfl

theorem Table.nextsPrev_eq {next : Nat} (pointed : (table.entries idx).next = next)
    (bound : next ≠ 0 → 0 < next ∧ next ≤ params.numEntrySlots) :
    table.nextsPrev params idx = some next := by
  simp only [nextsPrev, pointed]
  by_cases ended : next = 0
  · rw [if_pos ended, ended]
  · rw [if_neg ended, entryAtIdx_eq (bound ended).1 (bound ended).2]
    rfl

/-- What follows an entry in its bucket is live, or nothing. -/
theorem Indexed.next_cases (indexed : Indexed params table live buckets)
    (split : buckets slot = left ++ idx :: right) :
    (table.entries idx).next = 0 ∨ (table.entries idx).next ∈ right := by
  have chain := indexed.chain slot
  rw [split] at chain
  exact chain.tail.2.2.2.read_mem

theorem Indexed.next_bound (indexed : Indexed params table live buckets)
    (split : buckets slot = left ++ idx :: right) (some_next : (table.entries idx).next ≠ 0) :
    0 < (table.entries idx).next ∧ (table.entries idx).next ≤ params.numEntrySlots := by
  rcases indexed.next_cases split with ended | member
  · exact absurd ended some_next
  · exact indexed.bound _ (indexed.alive_of_split split (.inr (List.mem_cons_of_mem _ member)))

theorem Indexed.distinct_split (indexed : Indexed params table live buckets)
    (split : buckets slot = left ++ right) : Distinct (.head slot) (left ++ right) :=
  Distinct.head (split ▸ indexed.nodup slot)

/-- The chains of the other buckets are not read through the place of an entry,
and do not hold what follows it. -/
theorem Indexed.apart {other : Nat} (indexed : Indexed params table live buckets)
    (split : buckets slot = left ++ right) (differ : other ≠ slot) :
    Place.head other ≠ endPlace (.head slot) left ∧
      (∀ node ∈ buckets other, endPlace (.head slot) left ≠ .next node) ∧
      ∀ node ∈ right, node ∉ buckets other := by
  have inside {node : Nat} (member : node ∈ left ∨ node ∈ right) : node ∈ buckets slot := by
    rw [split]
    exact List.mem_append.mpr member
  refine ⟨?_, ?_, ?_⟩
  · intro same
    rcases Linked.endPlace_mem (.head slot) left with atHead | ⟨node, _, atNode⟩
    · exact differ (by simpa [atHead] using same)
    · simp [atNode] at same
  · intro node member same
    rcases Linked.endPlace_mem (.head slot) left with atHead | ⟨last, lastMember, atLast⟩
    · simp [atHead] at same
    · obtain rfl : last = node := by simpa [atLast] using same
      exact differ (indexed.same_slot member (inside (.inl lastMember)))
  · intro node member otherMember
    exact differ (indexed.same_slot otherMember (inside (.inr member)))

theorem Indexed.zero_notMem (indexed : Indexed params table live buckets) (slot : Nat) :
    0 ∉ buckets slot :=
  fun member => (indexed.chain slot).nonzero 0 member rfl

/-- What `unlink_entry` leaves of an entry that `place` points at. -/
def Table.unlinked (table : Table K V) (place : Place) (idx : Nat) : Table K V :=
  (table.write place (table.entries idx).next).writePrev (table.entries idx).next
    (table.entries idx).prev

theorem Table.unlinked_links (table : Table K V) (place : Place) (idx : Nat) :
    (table.unlinked place idx).links = table.links.unlink place idx := by
  rw [unlinked, links_writePrev, links_write]
  rfl

theorem Table.unlinked_sameData (table : Table K V) (place : Place) (idx : Nat) :
    SameData table (table.unlinked place idx) :=
  (table.write_sameData _ _).trans (Table.writePrev_sameData _ _ _)

theorem Indexed.unlinkEntry (indexed : Indexed params table live buckets)
    (split : buckets slot = left ++ idx :: right) :
    table.unlinkEntry params idx = some (table.unlinked (endPlace (.head slot) left) idx) := by
  have alive : live idx := indexed.alive_of_split split (.inr List.mem_cons_self)
  have next_apart : Place.next idx ≠ endPlace (.head slot) left :=
    ((indexed.distinct_split split).endPlace_ne List.mem_cons_self).symm
  have next_kept (value : Nat) : ((table.write (endPlace (.head slot) left) value).entries
      idx).next = (table.entries idx).next := by
    change (Table.links _).read (.next idx) = table.links.read (.next idx)
    rw [Table.links_write, Links.read_write_ne _ _ next_apart]
  simp only [Table.unlinkEntry, indexed.entryAtIdx alive table, indexed.prevsNext split,
    Table.nextsPrev_eq (next_kept _) (indexed.next_bound split), Option.bind_eq_bind,
    Option.bind_some, Option.pure_def, Table.unlinked]

theorem unlinkEntry_spec (indexed : Indexed params table live buckets) (alive : live idx) :
    ∃ after, table.unlinkEntry params idx = some after ∧ SameData table after ∧
      Indexed params after (fun other => live other ∧ other ≠ idx)
        fun slot => (buckets slot).erase idx := by
  obtain ⟨slot, left, right, split⟩ := indexed.split alive
  have distinct := indexed.distinct_split split
  have same := table.unlinked_sameData (endPlace (.head slot) left) idx
  refine ⟨_, indexed.unlinkEntry split, same, ?_⟩
  constructor
  · intro other
    rw [Table.unlinked_links]
    by_cases at_slot : other = slot
    · have chain := indexed.chain slot
      rw [split] at chain
      have absent : idx ∉ left := by
        intro member
        exact (List.nodup_append.mp distinct.nodup).2.2 idx member idx List.mem_cons_self rfl
      rw [at_slot, split, List.erase_append_right _ absent, List.erase_cons_head]
      exact chain.unlink distinct
    · obtain ⟨head_apart, later, disjoint⟩ := indexed.apart split at_slot
      have absent : idx ∉ buckets other := disjoint idx List.mem_cons_self
      rw [List.erase_of_not_mem absent]
      refine (indexed.chain other).frame (SameOn.unlink head_apart later ?_)
      rcases indexed.next_cases split with ended | member
      · exact fun member => indexed.zero_notMem other (ended ▸ member)
      · exact disjoint _ (List.mem_cons_of_mem _ member)
  · intro other
    exact (indexed.nodup other).erase idx
  · intro slot other
    rw [(indexed.nodup slot).mem_erase_iff, indexed.mem, same.key]
    constructor
    · intro ⟨differ, alive, at_slot⟩
      exact ⟨⟨alive, differ⟩, at_slot⟩
    · intro ⟨⟨alive, differ⟩, at_slot⟩
      exact ⟨differ, alive, at_slot⟩
  · intro other known
    exact indexed.bound other known.1
  · intro first second firstKnown secondKnown same_key
    rw [same.key, same.key] at same_key
    exact indexed.distinct first second firstKnown.1 secondKnown.1 same_key

/-- What `move_entry` makes of an entry that `place` points at. -/
def Table.moved (table : Table K V) (place : Place) (old new : Nat) : Table K V :=
  ((table.set new (table.entries old)).write place new).writePrev (table.entries old).next new

theorem Table.moved_links (table : Table K V) (place : Place) (old new : Nat) :
    (table.moved place old new).links = table.links.move place old new := by
  rw [moved, links_writePrev, links_write, links_copy]
  rfl

theorem Table.moved_entries (table : Table K V) (place : Place) (old new idx : Nat) :
    ((table.moved place old new).entries idx).key =
        (table.entries (if idx = new then old else idx)).key ∧
      ((table.moved place old new).entries idx).value =
        (table.entries (if idx = new then old else idx)).value := by
  have same := ((table.set new (table.entries old)).write_sameData place new).trans
    (Table.writePrev_sameData _ (table.entries old).next new)
  have copied : (table.set new (table.entries old)).entries idx =
      table.entries (if idx = new then old else idx) := by
    by_cases at_new : idx = new <;> simp [set, at_new]
  rw [← copied]
  exact ⟨same.key idx, same.value idx⟩

theorem Indexed.moveEntry {old new : Nat} (indexed : Indexed params table live buckets)
    (split : buckets slot = left ++ old :: right) (dead : ¬ live new) (lower : 0 < new)
    (upper : new ≤ params.numEntrySlots) :
    table.moveEntry params old new = some (table.moved (endPlace (.head slot) left) old new) := by
  have alive : live old := indexed.alive_of_split split (.inr List.mem_cons_self)
  have differ : old ≠ new := fun same => dead (same ▸ alive)
  have next_apart : Place.next old ≠ endPlace (.head slot) left :=
    ((indexed.distinct_split split).endPlace_ne List.mem_cons_self).symm
  have entry_kept : (table.set new (table.entries old)).entries old = table.entries old := by
    simp [Table.set, differ]
  have place_found : (table.set new (table.entries old)).prevsNext params old =
      some (endPlace (.head slot) left) := by
    have found := indexed.prevsNext split
    simp only [Table.prevsNext] at found ⊢
    rw [entry_kept]
    -- the assertion only looks at the index
    by_cases first : (table.entries old).prev = 0
    · simpa only [first, if_pos] using found
    · simp only [first, if_false, Table.entryAtIdx] at found ⊢
      split at found
      · rename_i inside
        simpa only [inside, and_self, if_pos, Option.map_some] using found
      · contradiction
  have next_kept : (((table.set new (table.entries old)).write (endPlace (.head slot) left)
      new).entries old).next = (table.entries old).next := by
    have kept := Links.read_write_ne (table.set new (table.entries old)).links new next_apart
    rw [← Table.links_write] at kept
    exact kept.trans (congrArg Entry.next entry_kept)
  simp only [Table.moveEntry, indexed.entryAtIdx alive table,
    Table.entryAtIdx_eq lower upper, place_found,
    Table.nextsPrev_eq next_kept (indexed.next_bound split), Option.bind_eq_bind,
    Option.bind_some, Option.pure_def, Table.moved]

/-- The number that stands for `idx` once `old` has moved to `new`. -/
def renumber (old new idx : Nat) : Nat := if idx = old then new else idx

theorem map_renumber_of_notMem {old new : Nat} {nodes : List Nat} (absent : old ∉ nodes) :
    nodes.map (renumber old new) = nodes := by
  induction nodes with
  | nil => rfl
  | cons node rest ih =>
      have differ : node ≠ old := fun same => absent (same ▸ List.mem_cons_self)
      rw [List.map_cons, ih (fun member => absent (List.mem_cons_of_mem _ member)), renumber,
        if_neg differ]

theorem nodup_map_renumber {old new : Nat} {nodes : List Nat} (nodup : nodes.Nodup)
    (unused : new ∉ nodes) : (nodes.map (renumber old new)).Nodup := by
  refine List.Nodup.map_on ?_ nodup
  intro first firstMember second secondMember same
  simp only [renumber] at same
  split at same <;> split at same
  · exact (‹first = old›).trans (‹second = old›).symm
  · exact absurd (same ▸ secondMember) unused
  · exact absurd (same ▸ firstMember) unused
  · exact same

theorem mem_map_renumber {old new other : Nat} {nodes : List Nat} (unused : new ∉ nodes) :
    other ∈ nodes.map (renumber old new) ↔
      if other = new then old ∈ nodes else other ∈ nodes ∧ other ≠ old := by
  rw [List.mem_map]
  constructor
  · intro ⟨node, member, same⟩
    subst same
    by_cases at_old : node = old
    · rw [renumber, if_pos at_old, if_pos rfl]
      exact at_old ▸ member
    · have differ : node ≠ new := fun same => unused (same ▸ member)
      rw [renumber, if_neg at_old, if_neg differ]
      exact ⟨member, at_old⟩
  · intro known
    by_cases at_new : other = new
    · rw [if_pos at_new] at known
      exact ⟨old, known, (if_pos rfl).trans at_new.symm⟩
    · rw [if_neg at_new] at known
      exact ⟨other, known.1, if_neg known.2⟩

theorem moveEntry_spec {old new : Nat} (indexed : Indexed params table live buckets)
    (alive : live old) (dead : ¬ live new) (lower : 0 < new) (upper : new ≤ params.numEntrySlots) :
    ∃ after, table.moveEntry params old new = some after ∧
      after.entriesCount = table.entriesCount ∧
      (∀ idx, (after.entries idx).key =
          (table.entries (if idx = new then old else idx)).key ∧
        (after.entries idx).value =
          (table.entries (if idx = new then old else idx)).value) ∧
      Indexed params after (fun other => (live other ∧ other ≠ old) ∨ other = new)
        fun slot => (buckets slot).map (renumber old new) := by
  obtain ⟨slot, left, right, split⟩ := indexed.split alive
  have distinct := indexed.distinct_split split
  have moved : new ≠ old := fun same => dead (same ▸ alive)
  have unused (slot : Nat) : new ∉ buckets slot :=
    fun member => dead ((indexed.mem slot new).mp member).1
  have entries := table.moved_entries (endPlace (.head slot) left) old new
  refine ⟨_, indexed.moveEntry split dead lower upper, ?_, entries, ?_⟩
  · exact (((table.set new (table.entries old)).write_sameData _ _).trans
      (Table.writePrev_sameData _ _ _)).count
  constructor
  · intro other
    rw [Table.moved_links]
    by_cases at_slot : other = slot
    · have chain := indexed.chain slot
      rw [split] at chain
      have unused_here := unused slot
      rw [split] at unused_here
      obtain ⟨_, nodupRight, disjoint⟩ := List.nodup_append.mp distinct.nodup
      have absentLeft : old ∉ left :=
        fun member => disjoint old member old List.mem_cons_self rfl
      have absentRight : old ∉ right := (List.nodup_cons.mp nodupRight).1
      rw [at_slot, split, List.map_append, List.map_cons, map_renumber_of_notMem absentLeft,
        map_renumber_of_notMem absentRight, renumber, if_pos rfl]
      exact chain.move distinct (Nat.ne_of_gt lower) unused_here (by simp)
    · obtain ⟨head_apart, later, disjoint⟩ := indexed.apart split at_slot
      rw [map_renumber_of_notMem (disjoint old List.mem_cons_self)]
      refine (indexed.chain other).frame
        (SameOn.move head_apart later ?_ (by simp) (unused other))
      rcases indexed.next_cases split with ended | member
      · exact fun member => indexed.zero_notMem other (ended ▸ member)
      · exact disjoint _ (List.mem_cons_of_mem _ member)
  · intro other
    exact nodup_map_renumber (indexed.nodup other) (unused other)
  · intro slot other
    rw [mem_map_renumber (unused slot), (entries other).1, indexed.mem, indexed.mem]
    by_cases at_new : other = new
    · simp only [at_new, if_pos, alive, true_and, or_true]
    · simp only [at_new, if_false, or_false]
      exact and_right_comm
  · intro other known
    rcases known with ⟨other_alive, _⟩ | rfl
    · exact indexed.bound other other_alive
    · exact ⟨lower, upper⟩
  · intro first second firstKnown secondKnown same_key
    rw [(entries first).1, (entries second).1] at same_key
    have origin {idx : Nat} (known : (live idx ∧ idx ≠ old) ∨ idx = new) :
        live (if idx = new then old else idx) := by
      split
      · exact alive
      · rcases known with ⟨idx_alive, _⟩ | same
        · exact idx_alive
        · contradiction
    have same := indexed.distinct _ _ (origin firstKnown) (origin secondKnown) same_key
    split at same <;> split at same
    · exact (‹first = new›).trans (‹second = new›).symm
    · rcases secondKnown with ⟨_, differ⟩ | at_new
      · exact absurd same.symm differ
      · contradiction
    · rcases firstKnown with ⟨_, differ⟩ | at_new
      · exact absurd same differ
      · contradiction
    · exact same

/-- What `lookup` makes of a new entry behind the last one of its bucket. -/
def Table.appended (table : Table K V) (place : Place) (before new : Nat) (key : K) : Table K V :=
  let table := table.write place new
  table.set new { table.entries new with prev := before, next := 0, key }

theorem Table.appended_links (table : Table K V) (place : Place) (before new : Nat) (key : K) :
    (table.appended place before new key).links = table.links.append place before new := by
  rw [appended, links_set, links_write]
  simp only [Links.append, Links.prev_write]

theorem Table.appended_entries (table : Table K V) (place : Place) (before new : Nat) (key : K)
    (idx : Nat) :
    ((table.appended place before new key).entries idx).key =
        (if idx = new then key else (table.entries idx).key) ∧
      ((table.appended place before new key).entries idx).value = (table.entries idx).value := by
  have same := table.write_sameData place new
  by_cases at_new : idx = new
  · subst at_new
    simpa [appended, set] using same.value idx
  · simpa [appended, set, at_new] using And.intro (same.key idx) (same.value idx)

theorem append_spec {new : Nat} {key : K} (indexed : Indexed params table live buckets)
    (dead : ¬ live new) (lower : 0 < new) (upper : new ≤ params.numEntrySlots)
    (absent : ∀ idx, live idx → (table.entries idx).key ≠ key)
    (at_slot : slot = params.hash key) :
    Indexed params
      (table.appended (endPlace (.head slot) (buckets slot)) (endNode 0 (buckets slot)) new key)
      (fun other => live other ∨ other = new)
      fun other => if other = slot then buckets slot ++ [new] else buckets other := by
  have unused (slot : Nat) : new ∉ buckets slot :=
    fun member => dead ((indexed.mem slot new).mp member).1
  have whole : buckets slot = buckets slot ++ [] := (List.append_nil _).symm
  have entries := table.appended_entries (endPlace (.head slot) (buckets slot))
    (endNode 0 (buckets slot)) new key
  have old_ne {idx : Nat} (alive : live idx) : idx ≠ new := fun same => dead (same ▸ alive)
  constructor
  · intro other
    rw [Table.appended_links]
    by_cases same : other = slot
    · rw [if_pos same, same]
      exact (indexed.chain slot).append (Distinct.head (indexed.nodup slot))
        (Nat.ne_of_gt lower) (unused slot) (by simp)
    · rw [if_neg same]
      obtain ⟨head_apart, later, _⟩ := indexed.apart whole same
      exact (indexed.chain other).frame
        (SameOn.append head_apart later (by simp) (unused other))
  · intro other
    split
    · refine List.nodup_append.mpr ⟨indexed.nodup slot, List.nodup_singleton _, ?_⟩
      intro node member last lastMember same
      rw [List.mem_singleton.mp lastMember] at same
      exact unused slot (same ▸ member)
    · exact indexed.nodup other
  · intro other idx
    rw [(entries idx).1]
    have old : idx ∈ buckets other ↔ idx ≠ new ∧ live idx ∧
        params.hash (if idx = new then key else (table.entries idx).key) = other := by
      rw [indexed.mem]
      constructor
      · intro ⟨alive, hashed⟩
        rw [if_neg (old_ne alive)]
        exact ⟨old_ne alive, alive, hashed⟩
      · intro ⟨differ, alive, hashed⟩
        rw [if_neg differ] at hashed
        exact ⟨alive, hashed⟩
    by_cases at_new : idx = new
    · rw [if_pos at_new, at_new, ← at_slot]
      by_cases same : other = slot
      · simp [same]
      · rw [if_neg same]
        constructor
        · exact fun member => absurd member (unused other)
        · exact fun known => absurd known.2.symm same
    · have member : idx ∈ (if other = slot then buckets slot ++ [new] else buckets other) ↔
          idx ∈ buckets other := by
        by_cases same : other = slot <;> simp [same, at_new]
      rw [member, old]
      simp only [at_new, not_false_eq_true, true_and, or_false, ne_eq]
  · intro idx known
    rcases known with alive | rfl
    · exact indexed.bound idx alive
    · exact ⟨lower, upper⟩
  · intro first second firstKnown secondKnown same_key
    rw [(entries first).1, (entries second).1] at same_key
    rcases firstKnown with firstAlive | rfl <;> rcases secondKnown with secondAlive | rfl
    · rw [if_neg (old_ne firstAlive), if_neg (old_ne secondAlive)] at same_key
      exact indexed.distinct first second firstAlive secondAlive same_key
    · rw [if_neg (old_ne firstAlive), if_pos rfl] at same_key
      exact absurd same_key (absent first firstAlive)
    · rw [if_pos rfl, if_neg (old_ne secondAlive)] at same_key
      exact absurd same_key.symm (absent second secondAlive)
    · rfl

/-- The loop of `lookup` finds the first entry of the chain that has the key,
and otherwise comes to rest at the end of the chain. -/
theorem search_chain [DecidableEq K] {nodes : List Nat} {place : Place} {before fuel : Nat}
    (key : K) (chain : Chain table.links place before nodes)
    (inside : ∀ node ∈ nodes, 0 < node ∧ node ≤ params.numEntrySlots)
    (enough : nodes.length < fuel) :
    table.search params key fuel place before =
      some (match nodes.find? fun node => (table.entries node).key = key with
        | some idx => .found idx
        | none => .absent (endPlace place nodes) (endNode before nodes)) := by
  induction nodes generalizing place before fuel with
  | nil =>
      obtain ⟨fuel, rfl⟩ := Nat.exists_eq_succ_of_ne_zero (Nat.ne_of_gt enough)
      have ended : table.read place = 0 := (table.read_eq place).trans chain
      simp only [Table.search, ended, if_pos]
      rfl
  | cons node rest ih =>
      obtain ⟨fuel, rfl⟩ := Nat.exists_eq_succ_of_ne_zero (Nat.ne_of_gt (Nat.zero_lt_of_lt enough))
      obtain ⟨pointed, nonzero, back, tail⟩ := chain
      have at_node : table.read place = node := (table.read_eq place).trans pointed
      have bound := inside node List.mem_cons_self
      have back_here : (table.entries node).prev = before := back
      have rest_found := ih tail (fun other member => inside other (List.mem_cons_of_mem _ member))
        (Nat.lt_of_succ_lt_succ enough)
      simp only [Table.search, at_node, nonzero, if_false, Table.entryAtIdx_eq bound.1 bound.2,
        back_here, ne_eq, not_true_eq_false]
      by_cases hit : (table.entries node).key = key
      · simp [hit]
      · simp only [hit, if_false, rest_found, List.find?_cons, decide_false, endPlace, endNode]

def Table.Live (table : Table K V) (idx : Nat) : Prop := 0 < idx ∧ idx ≤ table.entriesCount

/-- The representation invariant. -/
structure WellFormed (params : Params K) (table : Table K V) (buckets : Nat → List Nat) : Prop where
  count_le : table.entriesCount ≤ params.numEntrySlots
  indexed : Indexed params table table.Live buckets

def Table.Valid (params : Params K) (table : Table K V) : Prop :=
  ∃ buckets, WellFormed params table buckets

theorem WellFormed.bucket_length (wellFormed : WellFormed params table buckets) (slot : Nat) :
    (buckets slot).length ≤ params.numEntrySlots := by
  have inside : buckets slot ⊆ List.range' 1 params.numEntrySlots := by
    intro idx member
    have bound := wellFormed.indexed.bound idx ((wellFormed.indexed.mem slot idx).mp member).1
    exact List.mem_range'_1.mpr ⟨bound.1, by omega⟩
  simpa using (List.Nodup.subperm (wellFormed.indexed.nodup slot) inside).length_le

/-- The result of the loop of `lookup` over the whole bucket. -/
theorem WellFormed.search [DecidableEq K] (wellFormed : WellFormed params table buckets) (key : K) :
    (∃ idx, table.Live idx ∧ (table.entries idx).key = key ∧
        table.search params key (params.numEntrySlots + 1) (.head (params.hash key)) 0 =
          some (.found idx)) ∨
      (∀ idx, table.Live idx → (table.entries idx).key ≠ key) ∧
        table.search params key (params.numEntrySlots + 1) (.head (params.hash key)) 0 =
          some (.absent (endPlace (.head (params.hash key)) (buckets (params.hash key)))
            (endNode 0 (buckets (params.hash key)))) := by
  have indexed := wellFormed.indexed
  have found := search_chain key (indexed.chain (params.hash key))
    (fun node member => indexed.bound node ((indexed.mem _ node).mp member).1)
    (Nat.lt_succ_of_le (wellFormed.bucket_length _))
  cases hit : (buckets (params.hash key)).find? fun node => (table.entries node).key = key with
  | some idx =>
      rw [hit] at found
      have member := List.mem_of_find?_eq_some hit
      have same := List.find?_some hit
      exact .inl ⟨idx, ((indexed.mem _ idx).mp member).1, by simpa using same, found⟩
  | none =>
      rw [hit] at found
      refine .inr ⟨?_, found⟩
      intro idx alive same
      have member := (indexed.mem (params.hash key) idx).mpr ⟨alive, by rw [same]⟩
      have miss := List.find?_eq_none.mp hit idx member
      simp [same] at miss

end Smmboss.StupidHash
