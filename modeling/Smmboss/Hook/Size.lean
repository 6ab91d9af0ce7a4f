import Smmboss.Hook.Layout

namespace Smmboss.Hook

open Aarch64 Backpatch

/-! # The trampoline is large enough -/

variable {site : Site} {label : Nat → Int} {spot : Spot}

/-- The pools of trampolines are aligned to pages, and a slot is 200 bytes. -/
def Site.Aligned (site : Site) : Prop := site.basep % 4 = 0 ∧ site.outrx % 4 = 0

theorem here_aligned (aligned : site.outrx % 4 = 0) (spot : Spot) : spot.here site % 4 = 0 := by
  simp only [Spot.here]
  omega

/-- The padding loop stops where it may. -/
theorem padding_le {misaligned : Int → Bool} {address : Int} {turns needed : Nat}
    (stops : misaligned (address + 4 * needed) = false) : padding misaligned turns address ≤ needed := by
  induction turns generalizing address needed with
  | zero => exact Nat.zero_le _
  | succ turns ih =>
      rw [padding]
      by_cases more : misaligned address = true
      · cases needed with
        | zero => simp [more] at stops
        | succ needed =>
            rw [if_pos more]
            refine Nat.succ_le_succ (ih ?_)
            rw [← stops]
            congr 1
            push_cast
            omega
      · rw [if_neg more]
        exact Nat.zero_le _

/-- The sizes of the literals: 4, 8 and 16 bytes. -/
theorem loadMask_size {ins mask : Word} {faligned : Nat} (masked : loadMask ins = some (mask, faligned)) :
    faligned = 3 ∨ faligned = 7 ∨ faligned = 15 := by
  unfold loadMask at masked
  grind

theorem padding_literal {address : Int} {faligned : Nat} (aligned : address % 4 = 0)
    (size : faligned = 3 ∨ faligned = 7 ∨ faligned = 15) :
    padding (fun outprx => decide ((outprx + 8) % (faligned + 1) ≠ 0)) 4 address ≤ (faligned + 1) / 4 - 1 := by
  obtain ⟨needed, small, stops⟩ : ∃ needed : Nat, needed ≤ (faligned + 1) / 4 - 1 ∧
      (address + 4 * needed + 8) % (faligned + 1) = 0 := by
    refine ⟨((-(address + 8)) % (faligned + 1) / 4).toNat, ?_⟩
    rcases size with rfl | rfl | rfl <;> omega
  exact (padding_le (decide_eq_false (not_not.mpr stops))).trans small

theorem padding_near {address absolute : Int} {faligned : Nat}
    (size : faligned = 3 ∨ faligned = 7 ∨ faligned = 15) :
    padding (fun outprx => decide ((absolute - outprx) / 4 % ((faligned / 4 : Nat) + 1) ≠ 0)) 4 address ≤
      (faligned + 1) / 4 - 1 := by
  obtain ⟨needed, small, stops⟩ : ∃ needed : Nat, needed ≤ (faligned + 1) / 4 - 1 ∧
      (absolute - (address + 4 * needed)) / 4 % ((faligned / 4 : Nat) + 1) = 0 := by
    refine ⟨((absolute - address) / 4 % ((faligned / 4 : Nat) + 1)).toNat, ?_⟩
    rcases size with rfl | rfl | rfl <;> omega
  exact (padding_le (decide_eq_false (not_not.mpr stops))).trans small

theorem words_length (image : Image) (address : Int) (count : Nat) :
    (image.words address count).length = count := by
  induction count generalizing address with
  | zero => rfl
  | succ count ih => simp [Image.words, ih]

theorem far_length (padding : Nat) (words : List Word) :
    (far site spot padding words).chunk.words.length = padding + words.length := by
  simp [far]

/-- No instruction takes more than nine words: a 16-byte literal behind three NOPs. -/
theorem emission_length (aligned : site.outrx % 4 = 0) (label : Nat → Int) (spot : Spot) :
    (emission site label spot).chunk.words.length ≤ 9 := by
  unfold emission
  cases kind : classify (spot.ins site) with
  | branch =>
      simp only [branchEmission]
      split
      · split
        all_goals
          rw [far_length]
          split <;> simp [addressWords]
      · simp [near]
  | test lmask =>
      simp only [testEmission]
      split
      · rw [far_length]
        split <;> simp [addressWords]
      · simp [near]
  | prefetch => simp
  | load mask faligned =>
      have size : faligned = 3 ∨ faligned = 7 ∨ faligned = 15 := by
        have known := classify_of (spot.ins site)
        rw [kind] at known
        cases known with
        | load masked => exact loadMask_size masked
      simp only [loadEmission]
      split
      · have pad := padding_literal (here_aligned aligned spot) size
        rw [far_length, List.length_append, words_length]
        simp only [List.length_cons, List.length_nil]
        rcases size with rfl | rfl | rfl <;> omega
      · have pad : padding (fun outprx => decide ((loadTarget site spot - outprx) / 4 % ((faligned / 4 : Nat) + 1) ≠ 0)) 4
            (spot.here site) ≤ (faligned + 1) / 4 - 1 := padding_near size
        rw [far_length, List.length_singleton]
        rcases size with rfl | rfl | rfl <;> omega
  | adr =>
      simp only [adrEmission]
      split
      · rw [far_length]
        split <;> simp [addressLoad, addressWords]
      · simp [near]
  | adrp =>
      simp only [adrpEmission]
      split
      · simp
      · rw [far_length]
        split <;> simp [addressLoad, addressWords]
  | plain => simp

theorem size_le {chunks : List (Chunk Word FixKind)} {most : Nat}
    (each : ∀ chunk ∈ chunks, chunk.words.length ≤ most) : size chunks ≤ most * chunks.length := by
  induction chunks with
  | nil => exact Nat.zero_le _
  | cons chunk chunks ih =>
      have head := each chunk (List.mem_cons_self ..)
      have rest := ih fun chunk member => each chunk (List.mem_cons_of_mem _ member)
      rw [size_cons, List.length_cons, Nat.mul_succ]
      omega

theorem jumpBack_length (site : Site) (fixer : Fixer) :
    (jumpBack site fixer).out.length ≤ fixer.out.length + 5 := by
  unfold jumpBack
  simp only
  split
  · split <;> simp [Fixer.write, addressWords]
  · simp [Fixer.write]

theorem fixBlock_length (aligned : site.outrx % 4 = 0) (few : site.count ≤ MaxReferences) :
    (fixBlock site).out.length ≤ 9 * site.count + 5 := by
  obtain ⟨emissions, length, moved, _, _, out, _⟩ := moved_layout few
  have each : ∀ chunk ∈ chunks emissions, chunk.words.length ≤ 9 := by
    intro chunk member
    obtain ⟨laid, atLaid, rfl⟩ := List.mem_map.mp member
    obtain ⟨k, bound, rfl⟩ := List.getElem_of_mem atLaid
    rw [moved k bound]
    exact emission_length aligned _ _
  have total := size_le each
  have tail := jumpBack_length site (fixLoop site site.count {})
  rw [out, resolve_length] at tail
  rw [chunks_length, length] at total
  simp only [fixBlock]
  omega

/-- Up to five instructions and the jump back never leave the slot of their trampoline. -/
theorem fixBlock_fits (aligned : site.outrx % 4 = 0) (few : site.count ≤ MaxInstructions) :
    (fixBlock site).out.length ≤ TrampolineSize := by
  have length := fixBlock_length aligned (few.trans (by decide))
  simp only [MaxInstructions] at few
  simp only [TrampolineSize, MaxInstructions]
  omega

/-! ### Where an emission has its address -/

def Site.IsAdrp (site : Site) (k : Nat) : Prop := site.memory (site.basep + 4 * k) &&& 0x9f000000#32 = 0x90000000#32

instance (site : Site) (k : Nat) : Decidable (site.IsAdrp k) := inferInstanceAs (Decidable (_ = _))

/-- Only NOPs are before the address of an emission; ADRP may have it in the
writable mapping. -/
theorem emission_address (site : Site) (label : Nat → Int) (spot : Spot) :
    ∃ pad words, (emission site label spot).chunk.words = List.replicate pad Aarch64Nop ++ words ∧
      ((emission site label spot).label = site.outrx + 4 * (spot.position + pad) ∨
        site.IsAdrp spot.index ∧ (emission site label spot).label = site.outrw + 4 * (spot.position + pad)) := by
  have here : spot.here site = site.outrx + 4 * (spot.position + (0 : Nat)) := by simp [Spot.here]
  have behind (pad : Nat) : spot.here site + 4 * pad = site.outrx + 4 * (spot.position + pad) := by
    simp only [Spot.here]
    omega
  have known := classify_of (spot.ins site)
  unfold emission
  cases kind : classify (spot.ins site) with
  | branch =>
      simp only [branchEmission]
      split
      · split
        all_goals exact ⟨_, _, rfl, .inl (behind _)⟩
      · exact ⟨0, _, rfl, .inl here⟩
  | test lmask =>
      simp only [testEmission]
      split
      · exact ⟨0, _, rfl, .inl here⟩
      · exact ⟨0, _, rfl, .inl here⟩
  | prefetch => exact ⟨0, _, rfl, .inl here⟩
  | load mask faligned =>
      simp only [loadEmission]
      split
      all_goals exact ⟨_, _, rfl, .inl (behind _)⟩
  | adr =>
      simp only [adrEmission]
      split
      · exact ⟨_, _, rfl, .inl (behind _)⟩
      · exact ⟨0, _, rfl, .inl here⟩
  | adrp =>
      rw [kind] at known
      have opcode : site.IsAdrp spot.index := by
        cases known with
        | adrp opcode => exact opcode
      have mapped : site.outrw + 4 * (spot.position : Int) = site.outrw + 4 * (spot.position + (0 : Nat)) := by simp
      simp only [adrpEmission]
      split
      · exact ⟨0, _, rfl, .inr ⟨opcode, mapped⟩⟩
      · split
        · exact ⟨0, _, rfl, .inr ⟨opcode, mapped⟩⟩
        · exact ⟨1, _, rfl, .inl (behind 1)⟩
  | plain => exact ⟨0, _, rfl, .inl here⟩

end Smmboss.Hook
