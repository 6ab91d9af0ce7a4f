import Mathlib.Data.List.Basic

namespace Smmboss.Backpatch

/-! # One-pass assembly with forward references

A chunk is laid down at once.  Its first word may refer to a later chunk; it is
then finished when that chunk gets its label.  `resolve` is the assembler that
knows all labels from the start.
-/

variable {α ρ : Type}

structure Chunk (α ρ : Type) where
  words : List α
  ref : Option (Nat × ρ) := none

/-- A chunk that refers has a word to finish. -/
def Chunk.Sound (chunk : Chunk α ρ) : Prop := chunk.ref.isSome → chunk.words ≠ []

/-- How a word at a position is finished, given the label it refers to. -/
abbrev Fix (α ρ : Type) := ρ → Int → Nat → α → α

def resolveChunk (fix : Fix α ρ) (label : Nat → Int) (known position : Nat) (chunk : Chunk α ρ) : List α :=
  match chunk.ref with
  | some (target, kind) =>
      if target < known then chunk.words.modifyHead (fix kind (label target) position) else chunk.words
  | none => chunk.words

def resolve (fix : Fix α ρ) (label : Nat → Int) (known : Nat) : Nat → List (Chunk α ρ) → List α
  | _, [] => []
  | position, chunk :: chunks =>
      resolveChunk fix label known position chunk ++
        resolve fix label known (position + chunk.words.length) chunks

/-- A reference with its position, if it is to the label. -/
def waits (target position : Nat) : Option (Nat × ρ) → List (Nat × ρ)
  | some (wanted, kind) => if wanted = target then [(position, kind)] else []
  | none => []

/-- The references to one label, with their positions. -/
def waiting (target : Nat) : Nat → List (Chunk α ρ) → List (Nat × ρ)
  | _, [] => []
  | position, chunk :: chunks =>
      waits target position chunk.ref ++ waiting target (position + chunk.words.length) chunks

/-- Finishing the words that wait for a label. -/
def patch (fix : Fix α ρ) (address : Int) (out : List α) (entry : Nat × ρ) : List α :=
  out.modify entry.1 (fix entry.2 address entry.1)

variable {fix : Fix α ρ} {label : Nat → Int} {known position : Nat} {chunk : Chunk α ρ}
  {chunks : List (Chunk α ρ)}

@[simp] theorem resolveChunk_length :
    (resolveChunk fix label known position chunk).length = chunk.words.length := by
  unfold resolveChunk
  split
  · split <;> simp
  · rfl

/-- The number of words of a list of chunks. -/
def size : List (Chunk α ρ) → Nat
  | [] => 0
  | chunk :: chunks => chunk.words.length + size chunks

@[simp] theorem size_nil : size ([] : List (Chunk α ρ)) = 0 := rfl

@[simp] theorem size_cons : size (chunk :: chunks) = chunk.words.length + size chunks := rfl

@[simp] theorem size_append (first second : List (Chunk α ρ)) :
    size (first ++ second) = size first + size second := by
  induction first with
  | nil => exact (Nat.zero_add _).symm
  | cons chunk chunks ih => rw [List.cons_append, size_cons, size_cons, ih, Nat.add_assoc]

@[simp] theorem resolve_length : (resolve fix label known position chunks).length = size chunks := by
  induction chunks generalizing position with
  | nil => rfl
  | cons chunk chunks ih => simp [resolve, ih]

theorem resolve_append (first second : List (Chunk α ρ)) :
    resolve fix label known position (first ++ second) =
      resolve fix label known position first ++ resolve fix label known (position + size first) second := by
  induction first generalizing position with
  | nil => rfl
  | cons chunk chunks ih =>
      simp only [List.cons_append, resolve, ih, size_cons, List.append_assoc, Nat.add_assoc]

/-- The words around one chunk. -/
theorem resolve_around {k : Nat} (bound : k < chunks.length) :
    resolve fix label known position chunks =
      resolve fix label known position (chunks.take k) ++
        (resolveChunk fix label known (position + size (chunks.take k)) chunks[k] ++
          resolve fix label known (position + size (chunks.take k) + chunks[k].words.length) (chunks.drop (k + 1))) := by
  have whole : chunks = chunks.take k ++ chunks[k] :: chunks.drop (k + 1) := by
    rw [← List.drop_eq_getElem_cons bound, List.take_append_drop]
  conv_lhs => rw [whole]
  rw [resolve_append, resolve]

/-- Chunks that are numbered, each at its offset. -/
theorem size_range {offset : Nat → Nat} {numbered : Nat → Chunk α ρ} {count : Nat} (start : offset 0 = 0)
    (next : ∀ k < count, offset (k + 1) = offset k + (numbered k).words.length) :
    size ((List.range count).map numbered) = offset count := by
  induction count with
  | zero => exact start.symm
  | succ count ih =>
      rw [List.range_succ, List.map_append, size_append, ih fun k bound => next k (by omega), next count (by omega)]
      rfl

theorem resolve_range {offset : Nat → Nat} {numbered : Nat → Chunk α ρ} {count : Nat} (start : offset 0 = 0)
    (next : ∀ k < count, offset (k + 1) = offset k + (numbered k).words.length) :
    resolve fix label known 0 ((List.range count).map numbered) =
      (List.range count).flatMap fun k => resolveChunk fix label known (offset k) (numbered k) := by
  induction count with
  | zero => rfl
  | succ count ih =>
      have earlier := fun k (bound : k < count) => next k (by omega)
      rw [List.range_succ, List.map_append, resolve_append, ih earlier, size_range start earlier, List.flatMap_append,
        Nat.zero_add, List.map_singleton, List.flatMap_singleton, resolve, resolve, List.append_nil]

theorem waiting_append (target : Nat) (first second : List (Chunk α ρ)) :
    waiting target position (first ++ second) =
      waiting target position first ++ waiting target (position + size first) second := by
  induction first generalizing position with
  | nil => rfl
  | cons chunk chunks ih =>
      simp only [List.cons_append, waiting, ih, size_cons, List.append_assoc, Nat.add_assoc]

theorem waiting_length_le (target : Nat) : (waiting target position chunks).length ≤ chunks.length := by
  induction chunks generalizing position with
  | nil => exact Nat.le_refl _
  | cons chunk chunks ih =>
      have rest : (waiting target (position + chunk.words.length) chunks).length ≤ chunks.length := ih
      have head : (waits target position chunk.ref).length ≤ 1 := by
        unfold waits
        split
        · split <;> simp
        · simp
      rw [waiting, List.length_append, List.length_cons]
      omega

/-- Only the labels that are referred to matter. -/
theorem resolve_congr {other : Nat → Int}
    (same : ∀ chunk ∈ chunks, ∀ target kind, chunk.ref = some (target, kind) → target < known →
      label target = other target) :
    resolve fix label known position chunks = resolve fix other known position chunks := by
  induction chunks generalizing position with
  | nil => rfl
  | cons chunk chunks ih =>
      obtain ⟨here, later⟩ := List.forall_mem_cons.mp same
      rw [resolve, resolve, ih later]
      congr 1
      unfold resolveChunk
      split
      · next target kind refers =>
          by_cases bound : target < known
          · rw [if_pos bound, if_pos bound, here target kind refers bound]
          · rw [if_neg bound, if_neg bound]
      · rfl

/-- The words of a chunk that does not wait for the label are left alone. -/
theorem resolveChunk_succ (unrelated : ∀ kind, chunk.ref ≠ some (known, kind)) :
    resolveChunk fix label (known + 1) position chunk = resolveChunk fix label known position chunk := by
  unfold resolveChunk
  split
  · next target kind atRef =>
      have different : target ≠ known := fun same => unrelated kind (by rw [atRef, same])
      by_cases bound : target < known
      · rw [if_pos bound, if_pos (by omega)]
      · rw [if_neg bound, if_neg (by omega)]
  · rfl

theorem modify_at_length (before : List α) (word : α) (words : List α) (change : α → α) :
    (before ++ word :: words).modify before.length change = before ++ change word :: words := by
  induction before with
  | nil => rfl
  | cons first before ih => simp [List.modify_succ_cons, ih]

theorem modify_append_left {before : List α} {place : Nat} (inside : place < before.length) (after : List α)
    (change : α → α) : (before ++ after).modify place change = before.modify place change ++ after := by
  induction before generalizing place with
  | nil => simp at inside
  | cons first before ih =>
      cases place with
      | zero => rfl
      | succ place => simp [List.modify_succ_cons, ih (Nat.lt_of_succ_lt_succ inside)]

/-- Fixes before the end leave what is written after it alone. -/
theorem patch_append {entries : List (Nat × ρ)} {out : List α} {address : Int}
    (inside : ∀ entry ∈ entries, entry.1 < out.length) (after : List α) :
    entries.foldl (patch fix address) (out ++ after) = entries.foldl (patch fix address) out ++ after := by
  induction entries generalizing out with
  | nil => rfl
  | cons entry entries ih =>
      have head : patch fix address (out ++ after) entry = patch fix address out entry ++ after :=
        modify_append_left (inside entry (List.mem_cons_self ..)) after _
      rw [List.foldl_cons, List.foldl_cons, head, ih]
      intro other member
      rw [patch, List.length_modify]
      exact inside other (List.mem_cons_of_mem _ member)

theorem waiting_lt {target : Nat} (sound : ∀ chunk ∈ chunks, chunk.Sound) :
    ∀ entry ∈ waiting target position chunks, entry.1 < position + size chunks := by
  induction chunks generalizing position with
  | nil => simp [waiting]
  | cons chunk chunks ih =>
      intro entry member
      rw [waiting, List.mem_append] at member
      rw [size_cons]
      rcases member with here | later
      · cases atRef : chunk.ref with
        | none => simp [waits, atRef] at here
        | some reference =>
            have nonempty := List.length_pos_of_ne_nil (sound chunk (List.mem_cons_self ..) (by simp [atRef]))
            simp only [waits, atRef] at here
            split at here
            · cases List.mem_singleton.mp here
              exact Nat.lt_add_of_pos_right (by omega)
            · simp at here
      · have bound := ih (fun chunk member => sound chunk (List.mem_cons_of_mem _ member)) entry later
        omega

variable (fix label known) in
/-- Finishing the words that wait for a label is knowing one label more. -/
theorem patch_waiting (before : List α) (sound : ∀ chunk ∈ chunks, chunk.Sound) :
    (waiting known before.length chunks).foldl (patch fix (label known))
        (before ++ resolve fix label known before.length chunks) =
      before ++ resolve fix label (known + 1) before.length chunks := by
  induction chunks generalizing before with
  | nil => rfl
  | cons chunk chunks ih =>
      have rest := ih (before ++ resolveChunk fix label (known + 1) before.length chunk)
        (fun chunk member => sound chunk (List.mem_cons_of_mem _ member))
      simp only [List.length_append, resolveChunk_length, List.append_assoc] at rest
      rw [waiting, resolve, resolve, List.foldl_append, ← rest]
      congr 1
      by_cases refers : ∃ kind, chunk.ref = some (known, kind)
      · obtain ⟨kind, atRef⟩ := refers
        cases atWords : chunk.words with
        | nil => exact absurd atWords (sound chunk (List.mem_cons_self ..) (by simp [atRef]))
        | cons word words =>
            simp [resolveChunk, waits, atRef, atWords, patch, modify_at_length]
      · have unrelated : ∀ kind, chunk.ref ≠ some (known, kind) := fun kind atRef => refers ⟨kind, atRef⟩
        rw [resolveChunk_succ unrelated]
        cases atRef : chunk.ref with
        | none => rfl
        | some entry =>
            obtain ⟨target, kind⟩ := entry
            have different : target ≠ known := fun same => unrelated kind (by rw [atRef, same])
            simp [waits, different]

/-- Once every referred label is known, no reference waits. -/
theorem waiting_eq_nil {target : Nat}
    (others : ∀ chunk ∈ chunks, ∀ wanted kind, chunk.ref = some (wanted, kind) → wanted ≠ target) :
    waiting target position chunks = [] := by
  induction chunks generalizing position with
  | nil => rfl
  | cons chunk chunks ih =>
      rw [waiting, ih fun chunk member => others chunk (List.mem_cons_of_mem _ member), List.append_nil]
      cases atRef : chunk.ref with
      | none => rfl
      | some reference => exact if_neg (others chunk (List.mem_cons_self ..) _ _ atRef)

end Smmboss.Backpatch
