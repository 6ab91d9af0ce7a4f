import Mathlib.Data.List.Basic

namespace Smmboss.Ring

/-! # Rings with a movable end

A ring over a linear memory in which the writer may abandon the tail of the
memory: it continues at offset zero and leaves behind, as `wrap`, the offset at
which the reader has to follow it.  The reader may rest at `wrap` before it
does.  One party moves `read`, the other publishes a new `Cursor`; the lemmas
say what each party may conclude from an old copy of the other's offset.
-/

/-- The elements at the offsets from `low` up to, not including, `high`. -/
def slice (memory : Nat → α) (low high : Nat) : List α :=
  (List.range' low (high - low)).map memory

@[simp] theorem slice_self (memory : Nat → α) (low : Nat) : slice memory low low = [] := by
  simp [slice]

theorem slice_append (memory : Nat → α) {low middle high : Nat}
    (lower : low ≤ middle) (upper : middle ≤ high) :
    slice memory low middle ++ slice memory middle high = slice memory low high := by
  obtain ⟨front, rfl⟩ := Nat.exists_eq_add_of_le lower
  obtain ⟨back, rfl⟩ := Nat.exists_eq_add_of_le upper
  have total : low + front + back - low = front + back := by omega
  simp only [slice, ← List.map_append, Nat.add_sub_cancel_left, total]
  rw [← List.range'_append_1]

theorem slice_cons (memory : Nat → α) {low high : Nat} (nonempty : low < high) :
    slice memory low high = memory low :: slice memory (low + 1) high := by
  rw [← slice_append memory (Nat.le_succ low) nonempty]
  simp [slice]

theorem slice_congr {left right : Nat → α} {low high : Nat}
    (same : ∀ address, low ≤ address → address < high → left address = right address) :
    slice left low high = slice right low high := by
  apply List.map_congr_left
  intro address member
  have bounds := List.mem_range'_1.mp member
  exact same address bounds.1 (by omega)

/-- What the writer publishes: its offset and the end of the abandoned lap. -/
structure Cursor where
  write : Nat
  wrap : Nat
deriving Repr, DecidableEq

/-- The elements between the reader and the writer, oldest first. -/
def pending (memory : Nat → α) (read : Nat) (cursor : Cursor) : List α :=
  if read ≤ cursor.write then slice memory read cursor.write
  else slice memory read cursor.wrap ++ slice memory 0 cursor.write

/-- The offsets that hold pending elements. -/
def Pending (read : Nat) (cursor : Cursor) (address : Nat) : Prop :=
  if read ≤ cursor.write then read ≤ address ∧ address < cursor.write
  else (read ≤ address ∧ address < cursor.wrap) ∨ address < cursor.write

instance (read : Nat) (cursor : Cursor) (address : Nat) :
    Decidable (Pending read cursor address) := by
  unfold Pending
  infer_instance

theorem pending_congr {left right : Nat → α} {read : Nat} {cursor : Cursor}
    (same : ∀ address, Pending read cursor address → left address = right address) :
    pending left read cursor = pending right read cursor := by
  unfold pending
  by_cases linear : read ≤ cursor.write
  · simp only [linear, if_pos]
    exact slice_congr fun address lower upper => same address (by simp [Pending, linear, lower, upper])
  · simp only [linear, if_false]
    congr 1
    · exact slice_congr fun address lower upper =>
        same address (by simp [Pending, linear, lower, upper])
    · exact slice_congr fun address _ upper => same address (by simp [Pending, linear, upper])

@[simp] theorem pending_drained (memory : Nat → α) (cursor : Cursor) :
    pending memory cursor.write cursor = [] := by
  simp [pending]

/-- The offsets a ring of the given capacity may be in. -/
structure Bounded (capacity read : Nat) (cursor : Cursor) : Prop where
  read_le : read ≤ cursor.wrap
  write_le : cursor.write ≤ cursor.wrap
  wrap_le : cursor.wrap ≤ capacity
  origin : cursor.write = 0 → read = 0

/-- The reader's offset may move from `read` to `next` without skipping
anything that is not pending. -/
def Forward (cursor : Cursor) (read next : Nat) : Prop :=
  if read ≤ cursor.write then read ≤ next ∧ next ≤ cursor.write
  else (read ≤ next ∧ next ≤ cursor.wrap) ∨ next ≤ cursor.write

theorem Forward.refl {cursor : Cursor} {read : Nat} (bound : read ≤ cursor.wrap) :
    Forward cursor read read := by
  unfold Forward
  split <;> omega

theorem Forward.trans {cursor : Cursor} {read next last : Nat}
    (first : Forward cursor read next) (second : Forward cursor next last) :
    Forward cursor read last := by
  unfold Forward at *
  split at first <;> split at second <;> split <;> omega

theorem Forward.drain (cursor : Cursor) (read : Nat) : Forward cursor read cursor.write := by
  unfold Forward
  split <;> omega

theorem Forward.bounded {capacity : Nat} {cursor : Cursor} {read next : Nat}
    (moved : Forward cursor read next) (bounded : Bounded capacity read cursor) :
    Bounded capacity next cursor := by
  obtain ⟨readLe, writeLe, wrapLe, origin⟩ := bounded
  unfold Forward at moved
  refine ⟨?_, writeLe, wrapLe, ?_⟩
  · split at moved <;> omega
  · intro zero
    have := origin zero
    split at moved <;> omega

theorem Forward.pending {capacity : Nat} {cursor : Cursor} {read next address : Nat}
    (moved : Forward cursor read next) (bounded : Bounded capacity read cursor)
    (held : Pending next cursor address) : Pending read cursor address := by
  obtain ⟨readLe, writeLe, -, -⟩ := bounded
  simp only [Forward, Pending] at *
  split at held <;> split at moved <;> split <;> omega

/-- Room for `length` elements at `start`, after which the writer publishes
`next`.  The three constructors are the three places a writer can go: behind
the reader's lap, between itself and a reader that is a lap behind, and back to
the beginning. -/
inductive Room (capacity read : Nat) (cursor : Cursor) (start length : Nat) : Cursor → Prop where
  | behind (linear : read ≤ cursor.write) (at_write : start = cursor.write)
      (fits : cursor.write + length ≤ capacity) :
      Room capacity read cursor start length
        ⟨cursor.write + length, max cursor.wrap (cursor.write + length)⟩
  | between (lapped : cursor.write < read) (at_write : start = cursor.write)
      (fits : cursor.write + length < read) :
      Room capacity read cursor start length
        ⟨cursor.write + length, max cursor.wrap (cursor.write + length)⟩
  | restart (linear : read ≤ cursor.write) (at_zero : start = 0) (fits : length < read) :
      Room capacity read cursor start length ⟨length, max cursor.write length⟩

/-- Room found with an old copy of the reader's offset is still there after the
reader has moved. -/
theorem Room.forward {capacity read moved start length : Nat} {cursor next : Cursor}
    (room : Room capacity read cursor start length next)
    (bounded : Bounded capacity read cursor) (forward : Forward cursor read moved) :
    Room capacity moved cursor start length next := by
  obtain ⟨readLe, writeLe, wrapLe, -⟩ := bounded
  unfold Forward at forward
  cases room with
  | behind linear at_write fits =>
      rw [if_pos linear] at forward
      exact .behind (by omega) at_write fits
  | between lapped at_write fits =>
      rw [if_neg (by omega)] at forward
      by_cases linear : moved ≤ cursor.write
      · exact .behind linear at_write (by omega)
      · exact .between (by omega) at_write (by omega)
  | restart linear at_zero fits =>
      rw [if_pos linear] at forward
      exact .restart (by omega) at_zero (by omega)

theorem Room.outside {capacity read start length address : Nat} {cursor next : Cursor}
    (room : Room capacity read cursor start length next)
    (bounded : Bounded capacity read cursor)
    (lower : start ≤ address) (upper : address < start + length) :
    address < capacity ∧ ¬ Pending read cursor address := by
  obtain ⟨readLe, writeLe, wrapLe, -⟩ := bounded
  refine ⟨by cases room <;> omega, ?_⟩
  unfold Pending
  cases room <;> split <;> omega

theorem Room.bounded {capacity read start length : Nat} {cursor next : Cursor}
    (room : Room capacity read cursor start length next)
    (bounded : Bounded capacity read cursor) (nonempty : 0 < length) :
    Bounded capacity read next := by
  obtain ⟨readLe, writeLe, wrapLe, -⟩ := bounded
  cases room <;> constructor <;> dsimp only <;> omega

/-- Publishing appends exactly the elements stored in the room. -/
theorem Room.pending_append {capacity read start length : Nat} {cursor next : Cursor}
    (memory : Nat → α) (room : Room capacity read cursor start length next)
    (bounded : Bounded capacity read cursor) :
    pending memory read next =
      pending memory read cursor ++ slice memory start (start + length) := by
  obtain ⟨readLe, writeLe, wrapLe, -⟩ := bounded
  unfold pending
  cases room with
  | behind linear at_write fits =>
      subst start
      have linearNext : read ≤ cursor.write + length := by omega
      rw [if_pos linear, if_pos linearNext]
      exact (slice_append memory linear (Nat.le_add_right _ _)).symm
  | between lapped at_write fits =>
      subst start
      have wrapSame : max cursor.wrap (cursor.write + length) = cursor.wrap := by omega
      have lappedNext : ¬ read ≤ cursor.write + length := by omega
      rw [if_neg (Nat.not_le.mpr lapped), if_neg lappedNext, wrapSame, List.append_assoc]
      rw [slice_append memory (Nat.zero_le _) (Nat.le_add_right _ _)]
  | restart linear at_zero fits =>
      subst start
      have wrapSame : max cursor.write length = cursor.write := by omega
      have lappedNext : ¬ read ≤ length := by omega
      rw [if_pos linear, if_neg lappedNext, wrapSame, Nat.zero_add]

/-- Contiguous room right behind the writer, whatever the reader does next. -/
def Spare (capacity read : Nat) (cursor : Cursor) (extra : Nat) : Prop :=
  if read ≤ cursor.write then cursor.write + extra ≤ capacity else cursor.write + extra < read

theorem Spare.forward {capacity read next extra : Nat} {cursor : Cursor}
    (spare : Spare capacity read cursor extra) (bounded : Bounded capacity read cursor)
    (moved : Forward cursor read next) : Spare capacity next cursor extra := by
  obtain ⟨readLe, writeLe, wrapLe, -⟩ := bounded
  simp only [Spare, Forward] at *
  split at spare <;> split at moved <;> split <;> omega

/-- Elements put where there was room for more leave the rest as spare room. -/
theorem Room.spare {capacity read start length extra : Nat} {cursor next wider : Cursor}
    (room : Room capacity read cursor start length next)
    (wide : Room capacity read cursor start (length + extra) wider) :
    Spare capacity read next extra := by
  simp only [Spare]
  cases room with
  | behind linear at_write fits =>
      rw [if_pos (by simp only; omega)]
      cases wide <;> simp only <;> omega
  | between lapped at_write fits =>
      rw [if_neg (by simp only; omega)]
      cases wide <;> simp only <;> omega
  | restart linear at_zero fits =>
      rw [if_neg (by simp only; omega)]
      cases wide <;> simp only <;> omega

/-- `old` is a cursor the writer published earlier, seen from a reader that has
not passed it: in the same lap, in the lap the writer has left since, or in the
lap both the old and the new cursor are ahead in. -/
structure Behind (capacity read : Nat) (old cursor : Cursor) : Prop where
  bounded : Bounded capacity read old
  laps : (read ≤ old.write ∧ old.write ≤ cursor.write) ∨
    (read ≤ old.write ∧ cursor.write < read ∧ old.write ≤ cursor.wrap) ∨
    (old.write < read ∧ old.write ≤ cursor.write ∧ cursor.write < read ∧ cursor.wrap = old.wrap)

theorem Behind.refl {capacity read : Nat} {cursor : Cursor}
    (bounded : Bounded capacity read cursor) : Behind capacity read cursor cursor := by
  refine ⟨bounded, ?_⟩
  obtain ⟨readLe, writeLe, wrapLe, origin⟩ := bounded
  omega

theorem Behind.publish {capacity read start length : Nat} {old cursor next : Cursor}
    (behind : Behind capacity read old cursor)
    (room : Room capacity read cursor start length next)
    (bounded : Bounded capacity read cursor) : Behind capacity read old next := by
  obtain ⟨oldBounded, laps⟩ := behind
  obtain ⟨readLe, writeLe, -, -⟩ := bounded
  refine ⟨oldBounded, ?_⟩
  cases room <;> dsimp only <;> omega

/-- A reader that goes on from an old cursor goes on in the current ring. -/
theorem Behind.forward {capacity read next : Nat} {old cursor : Cursor}
    (behind : Behind capacity read old cursor) (moved : Forward old read next) :
    Forward cursor read next := by
  obtain ⟨⟨readLe, writeLe, -, -⟩, laps⟩ := behind
  unfold Forward at *
  split at moved <;> split <;> omega

theorem Behind.advance {capacity read next : Nat} {old cursor : Cursor}
    (behind : Behind capacity read old cursor) (moved : Forward old read next) :
    Behind capacity next old cursor := by
  refine ⟨moved.bounded behind.bounded, ?_⟩
  obtain ⟨⟨readLe, writeLe, -, -⟩, laps⟩ := behind
  unfold Forward at moved
  split at moved <;> omega

/-- What was pending at the old cursor comes first, then what was published
since. -/
theorem Behind.pending_append {capacity read : Nat} {old cursor : Cursor} (memory : Nat → α)
    (behind : Behind capacity read old cursor) :
    pending memory read cursor =
      pending memory read old ++ pending memory old.write cursor := by
  obtain ⟨⟨readLe, writeLe, -, -⟩, laps⟩ := behind
  unfold pending
  rcases laps with ⟨linear, ahead⟩ | ⟨linear, lapped, within⟩ | ⟨lapped, ahead, within, sameWrap⟩
  · rw [if_pos linear, if_pos (by omega), if_pos ahead]
    exact (slice_append memory linear ahead).symm
  · rw [if_pos linear, if_neg (by omega), if_neg (by omega), ← List.append_assoc]
    rw [slice_append memory linear within]
  · rw [if_neg (by omega), if_neg (by omega), if_pos ahead, sameWrap, List.append_assoc]
    rw [slice_append memory (Nat.zero_le _) ahead]

/-- Where a reader starts its next chunk: from `wrap` it follows the writer to
offset zero. -/
def chunkStart (read : Nat) (cursor : Cursor) : Nat :=
  if read = cursor.wrap then 0 else read

/-- The contiguous elements it can take there. -/
def chunkLength (start : Nat) (cursor : Cursor) : Nat :=
  if start < cursor.write then cursor.write - start else cursor.wrap - start

/-- The three situations of a reader with something to take. -/
theorem chunk_cases {capacity read : Nat} {cursor : Cursor}
    (bounded : Bounded capacity read cursor) (some_pending : read ≠ cursor.write) :
    (read < cursor.write ∧ chunkStart read cursor = read ∧
        chunkLength (chunkStart read cursor) cursor = cursor.write - read) ∨
      (cursor.write < read ∧ read = cursor.wrap ∧ chunkStart read cursor = 0 ∧
        chunkLength (chunkStart read cursor) cursor = cursor.write) ∨
      (cursor.write < read ∧ read < cursor.wrap ∧ chunkStart read cursor = read ∧
        chunkLength (chunkStart read cursor) cursor = cursor.wrap - read) := by
  obtain ⟨readLe, writeLe, wrapLe, origin⟩ := bounded
  rcases Nat.lt_trichotomy read cursor.write with linear | same | lapped
  · have inside : read ≠ cursor.wrap := by omega
    simp [chunkStart, chunkLength, inside, linear]
  · exact absurd same some_pending
  · have positive : 0 < cursor.write := by omega
    have beyond : ¬ read < cursor.write := by omega
    by_cases rests : read = cursor.wrap
    · simp [chunkStart, chunkLength, rests, positive, rests ▸ lapped]
    · have inside : read < cursor.wrap := by omega
      simp [chunkStart, chunkLength, rests, beyond, lapped, inside]

theorem chunk_start_forward {capacity read : Nat} {cursor : Cursor}
    (bounded : Bounded capacity read cursor) (some_pending : read ≠ cursor.write) :
    Forward cursor read (chunkStart read cursor) := by
  have situation := chunk_cases bounded some_pending
  simp only [Forward]
  split <;> omega

theorem chunk_start_pending {capacity read : Nat} {cursor : Cursor} (memory : Nat → α)
    (bounded : Bounded capacity read cursor) (some_pending : read ≠ cursor.write) :
    pending memory (chunkStart read cursor) cursor = pending memory read cursor := by
  rcases chunk_cases bounded some_pending with
    ⟨_, start, _⟩ | ⟨lapped, rests, start, _⟩ | ⟨_, _, start, _⟩
  · rw [start]
  · rw [start]
    unfold pending
    rw [if_pos (Nat.zero_le _), if_neg (by omega), rests, slice_self, List.nil_append]
  · rw [start]

/-- Within a chunk the reader may advance by any number of elements. -/
theorem chunk_forward {capacity read position : Nat} {cursor : Cursor}
    (bounded : Bounded capacity read cursor) (some_pending : read ≠ cursor.write)
    (lower : chunkStart read cursor ≤ position)
    (upper : position ≤ chunkStart read cursor + chunkLength (chunkStart read cursor) cursor) :
    Forward cursor read position := by
  have situation := chunk_cases bounded some_pending
  unfold Forward
  split <;> omega

/-- The next element of a chunk is the oldest pending one. -/
theorem chunk_pending_cons {capacity read position : Nat} {cursor : Cursor} (memory : Nat → α)
    (bounded : Bounded capacity read cursor) (some_pending : read ≠ cursor.write)
    (lower : chunkStart read cursor ≤ position)
    (upper : position < chunkStart read cursor + chunkLength (chunkStart read cursor) cursor) :
    pending memory position cursor = memory position :: pending memory (position + 1) cursor := by
  have situation := chunk_cases bounded some_pending
  unfold pending
  by_cases linear : position + 1 ≤ cursor.write
  · rw [if_pos (by omega), if_pos linear]
    exact slice_cons memory linear
  · have lapped : ¬ position ≤ cursor.write ∧ position < cursor.wrap := by omega
    rw [if_neg lapped.1, if_neg linear, slice_cons memory lapped.2, List.cons_append]

end Smmboss.Ring
