import Smmboss.Foundation.Region
import Smmboss.Hook.Simulation

namespace Smmboss.Hook

open Aarch64 Backpatch

/-! # Running the trampoline -/

variable {σ : Type} {isa : Isa σ} {site : Site} {image : Image} {k : Nat}

/-- The narrow forms of a literal load can be moved when the literal is copied, or
is after the trampoline. -/
def Site.Finds (site : Site) (kind : Literal) (absolute : Int) : Prop :=
  site.isInFixingRange absolute = true ∨ site.outrx + 4 * TrampolineSize ≤ absolute ∨
    absolute + 2 ^ 20 ≤ site.outrx ∨ kind = .x ∨ kind = .sw

/-- What the relocation takes for granted of an instruction: only branches look
backward, and nothing but a branch looks into the block. -/
def Site.Movable (site : Site) (source : Int) : Instruction → Prop
  | .b offset => site.Reaches (source + offset)
  | .bl offset => site.isInFixingRange (source + offset) = false
  | .test _ offset => 0 ≤ offset ∧ site.Reaches (source + offset)
  | .ldr kind _ offset => 0 ≤ offset ∧ site.Finds kind (source + offset)
  | .adr _ offset => 0 ≤ offset ∧ offset % 4 = 0 ∧ site.isInFixingRange (source + offset) = false
  | .adrp _ offset => 0 ≤ offset ∧ site.isInFixingRange (source - source % 4096 + offset) = false
  | .other word => word &&& 0xff000000#32 ≠ 0xdc000000#32
  | _ => True

/-- A block whose instructions can be moved, and code with their trampoline in it. -/
structure Relocated (site : Site) (image : Image) : Prop where
  aligned : site.Aligned
  few : site.count ≤ MaxInstructions
  low : 2 ^ 28 ≤ site.basep
  high : site.basep < 2 ^ 62
  held : Holds image site.outrx (fixBlock site).out
  literals : ∀ k < site.count, ∀ kind rt offset,
    decode (site.memory (site.basep + 4 * k)) = .ldr kind rt offset →
    site.isInFixingRange (site.basep + 4 * k + offset) = false →
    image.words (site.basep + 4 * k + offset) kind.words = site.memory.words (site.basep + 4 * k + offset) kind.words
  movable : ∀ k < site.count,
    site.Movable (site.basep + 4 * k) (decode (site.memory (site.basep + 4 * k)))

theorem Relocated.room (relocated : Relocated site image) : site.count ≤ MaxReferences :=
  relocated.few.trans (by decide)

theorem Relocated.entry_aligned (relocated : Relocated site image) (k : Nat) : site.entry k % 4 = 0 := by
  have multiple := relocated.aligned.2
  rw [Site.entry]
  omega

/-- Behind some NOPs is code that does what the instruction did, and the label is there. -/
def Enters (isa : Isa σ) (image : Image) (site : Site) (k : Nat) : Prop :=
  ∃ pad : Nat, Holds image (site.entry k) (List.replicate pad Aarch64Nop) ∧
    Does isa image site k (site.entry k + 4 * pad) ∧
    (site.Labelled k → site.label k = site.entry k + 4 * pad)

theorem Enters.near (done : Does isa image site k (site.entry k)) (label : site.label k = site.entry k) :
    Enters isa image site k := by
  have start : site.entry k + 4 * ((0 : Nat) : Int) = site.entry k := by omega
  exact ⟨0, trivial, by rwa [start], fun _ => by rw [start, label]⟩

theorem placed_still (still : (site.moved k).chunk.ref = none) : site.placed k = (site.moved k).chunk.words := by
  rw [Site.placed, resolveChunk, still]

theorem Enters.far {pad : Nat} {words : List Word} (relocated : Relocated site image) (bound : k < site.count)
    (still : (site.moved k).chunk.ref = none)
    (shape : (site.moved k).chunk.words = List.replicate pad Aarch64Nop ++ words)
    (label : site.Labelled k → site.label k = site.entry k + 4 * pad)
    (done : Holds image (site.entry k + 4 * pad) words →
      site.entry (k + 1) = site.entry k + 4 * pad + 4 * words.length → Does isa image site k (site.entry k + 4 * pad)) :
    Enters isa image site k := by
  have held := held_placed relocated.room relocated.held bound
  have next := entry_succ relocated.room bound
  rw [placed_still still, shape, holds_append, List.length_replicate] at held
  rw [shape, List.length_append, List.length_replicate] at next
  refine ⟨pad, held.1, done held.2 ?_, label⟩
  push_cast at next
  omega

theorem imm26_bound (word : Word) : -(2 ^ 27) ≤ imm26 word ∧ imm26 word < 2 ^ 27 ∧ imm26 word % 4 = 0 := by
  have lower := BitVec.le_toInt (word.extractLsb' 0 26)
  have upper := BitVec.toInt_lt (x := word.extractLsb' 0 26)
  rw [imm26]
  omega

theorem branchTarget_spot (site : Site) (k : Nat) :
    branchTarget site (site.spot k) = site.basep + 4 * k + imm26 (site.memory (site.basep + 4 * k)) := by
  rw [branchTarget, branch_offset]
  rfl

/-- The displacement of a branch that can reach, in words. -/
theorem landing_range (relocated : Relocated site image) (bound : k < site.count) {absolute reach : Int}
    (wide : 2 ^ 13 ≤ reach) (multiple : absolute % 4 = 0) (reaches : site.Reaches absolute)
    (close : site.isInFixingRange absolute = false → (((absolute - site.entry k) / 4).natAbs : Int) < reach - 1) :
    -reach ≤ (site.landing absolute - site.entry k) / 4 ∧ (site.landing absolute - site.entry k) / 4 < reach ∧
      (site.landing absolute - site.entry k) / 4 * 4 = site.landing absolute - site.entry k := by
  have here := relocated.entry_aligned k
  by_cases inside : site.isInFixingRange absolute = true
  · have landed := landing_close relocated.aligned relocated.few multiple reaches inside bound
    rw [Site.landing, if_pos inside]
    omega
  · have landed := close (Bool.eq_false_iff.mpr inside)
    rw [Site.landing, if_neg inside]
    omega

theorem enters_branch (relocated : Relocated site image) (bound : k < site.count)
    (opcode : site.memory (site.basep + 4 * k) &&& 0xfc000000#32 = 0x14000000#32 ∨
      site.memory (site.basep + 4 * k) &&& 0xfc000000#32 = 0x94000000#32)
    (shape : site.moved k = branchEmission site site.label (site.spot k)) : Enters isa image site k := by
  have range := imm26_bound (site.memory (site.basep + 4 * k))
  have base := relocated.aligned.1
  have low := relocated.low
  have high := relocated.high
  have few := relocated.few
  have movable := relocated.movable k bound
  have label := label_moved relocated.room bound
  have next := entry_succ relocated.room bound
  have target := branchTarget_spot site k
  have here : (site.spot k).here site = site.entry k := rfl
  have word : (site.spot k).ins site = site.memory (site.basep + 4 * k) := rfl
  simp only [MaxInstructions] at few
  have multiple : (site.basep + 4 * k + imm26 (site.memory (site.basep + 4 * k))) % 4 = 0 := by omega
  have nonneg : 0 ≤ site.basep + 4 * k + imm26 (site.memory (site.basep + 4 * k)) := by omega
  have bounded : site.basep + 4 * k + imm26 (site.memory (site.basep + 4 * k)) < 2 ^ 64 := by omega
  by_cases apart : (!site.isInFixingRange (branchTarget site (site.spot k)) &&
      decide (((branchTarget site (site.spot k) - (site.spot k).here site) / 4).natAbs ≥
        (0x03ffffff#32 >>> 1).toNat)) = true
  · have outside : site.isInFixingRange (branchTarget site (site.spot k)) = false := by
      simp only [Bool.and_eq_true, Bool.not_eq_true'] at apart
      exact apart.1
    rw [target] at outside
    rcases opcode with branch | link
    · have decoded := decode_b branch
      simp only [branchEmission, word, branch] at shape
      rw [if_pos apart, if_pos trivial, target] at shape
      exact .far relocated bound (by rw [shape]; rfl) (by rw [shape]; rfl) (fun _ => by rw [label, shape]; rfl)
        fun held _ => does_b_far decoded outside nonneg bounded held
    · have decoded := decode_bl link
      simp only [branchEmission, word, link] at shape
      rw [if_pos apart, if_neg (by decide), target] at shape
      exact .far relocated bound (by rw [shape]; rfl) (by rw [shape]; rfl) (fun _ => by rw [label, shape]; rfl)
        fun held next => does_bl_far decoded bound outside nonneg bounded (by exact next) held
  · have close : site.isInFixingRange (branchTarget site (site.spot k)) = false →
        (((branchTarget site (site.spot k) - site.entry k) / 4).natAbs : Int) < 2 ^ 25 - 1 := by
      intro outside
      rw [outside, here] at apart
      have within : ((branchTarget site (site.spot k) - site.entry k) / 4).natAbs < 33554431 := by simpa using apart
      omega
    rw [target] at close
    have reaches : site.Reaches (site.basep + 4 * k + imm26 (site.memory (site.basep + 4 * k))) := by
      rcases opcode with branch | link
      · rw [decode_b branch] at movable
        exact movable
      · rw [decode_bl link] at movable
        intro inside
        rw [movable] at inside
        contradiction
    simp only [branchEmission, word] at shape
    rw [if_neg apart, target] at shape
    have placed := placed_near relocated.aligned relocated.room bound multiple shape fun _ => finish_branch
    have held := held_placed relocated.room relocated.held bound
    obtain ⟨lower, upper, whole⟩ := landing_range relocated bound (by decide) multiple reaches close
    rw [placed] at held
    have start : site.label k = site.entry k := by
      rw [label, shape]
      rfl
    rcases opcode with branch | link
    · refine .near (does_b (decode_b branch) reaches multiple held ?_) start
      rw [decode_branchWord lower upper branch, whole]
    · rw [decode_bl link] at movable
      have landed : site.landing (site.basep + 4 * k + imm26 (site.memory (site.basep + 4 * k))) =
          site.basep + 4 * k + imm26 (site.memory (site.basep + 4 * k)) :=
        if_neg (by rw [show site.isInFixingRange _ = false from movable]; decide)
      refine .near (does_bl (decode_bl link) bound movable (by rw [next, shape]; rfl) held ?_) start
      rw [decode_linkWord lower upper link, whole, landed]

theorem imm19_bound (word : Word) : -(2 ^ 20) ≤ imm19 word ∧ imm19 word < 2 ^ 20 ∧ imm19 word % 4 = 0 := by
  have lower := BitVec.le_toInt (word.extractLsb' 5 19)
  have upper := BitVec.toInt_lt (x := word.extractLsb' 5 19)
  rw [imm19]
  omega

theorem imm14_bound (word : Word) : -(2 ^ 15) ≤ imm14 word ∧ imm14 word < 2 ^ 15 ∧ imm14 word % 4 = 0 := by
  have lower := BitVec.le_toInt (word.extractLsb' 5 14)
  have upper := BitVec.toInt_lt (x := word.extractLsb' 5 14)
  rw [imm14]
  omega

theorem maskedOffset_bound (lmask word : Word) :
    -(2 ^ 20) ≤ maskedOffset lmask word ∧ maskedOffset lmask word < 2 ^ 20 ∧ maskedOffset lmask word % 4 = 0 := by
  have wide := imm19_bound word
  have narrow := imm14_bound word
  unfold maskedOffset
  split
  · exact wide
  · omega

theorem maskedReach_bound (lmask : Word) : 2 ^ 13 ≤ maskedReach lmask ∧ maskedReach lmask ≤ 2 ^ 18 := by
  unfold maskedReach
  split <;> decide

theorem enters_test (relocated : Relocated site image) (bound : k < site.count) {lmask : Word}
    (masked : condMask (site.memory (site.basep + 4 * k)) = some lmask)
    (shape : site.moved k = testEmission site site.label (site.spot k) lmask) : Enters isa image site k := by
  have range := maskedOffset_bound lmask (site.memory (site.basep + 4 * k))
  have span := maskedReach_bound lmask
  have base := relocated.aligned.1
  have low := relocated.low
  have high := relocated.high
  have few := relocated.few
  have movable := relocated.movable k bound
  have decoded := decode_condMask masked
  rw [decoded] at movable
  obtain ⟨forward, reaches⟩ := movable
  have label := label_moved relocated.room bound
  have next := entry_succ relocated.room bound
  have target : testTarget site (site.spot k) lmask =
      site.basep + 4 * k + maskedOffset lmask (site.memory (site.basep + 4 * k)) := by
    rw [testTarget, show (site.spot k).ins site = site.memory (site.basep + 4 * k) from rfl,
      masked_offset masked forward]
    rfl
  have here : (site.spot k).here site = site.entry k := rfl
  have word : (site.spot k).ins site = site.memory (site.basep + 4 * k) := rfl
  have reach : ((~~~lmask >>> 6).toNat : Int) = maskedReach lmask - 1 := masked_reach masked
  simp only [MaxInstructions] at few
  have multiple : (site.basep + 4 * k + maskedOffset lmask (site.memory (site.basep + 4 * k))) % 4 = 0 := by omega
  by_cases apart : (!site.isInFixingRange (testTarget site (site.spot k) lmask) &&
      decide (((testTarget site (site.spot k) lmask - (site.spot k).here site) / 4).natAbs ≥
        (~~~lmask >>> 6).toNat)) = true
  · have nonneg : 0 ≤ site.basep + 4 * k + maskedOffset lmask (site.memory (site.basep + 4 * k)) := by omega
    have bounded : site.basep + 4 * k + maskedOffset lmask (site.memory (site.basep + 4 * k)) < 2 ^ 64 := by omega
    have written : decode (((BitVec.ofInt 32 2 <<< 5) &&& ~~~lmask) |||
        (site.memory (site.basep + 4 * k) &&& lmask)) =
          .test (site.memory (site.basep + 4 * k) &&& lmask) 8 :=
      decode_testWord masked (by omega) (by omega)
    let pad := if (site.entry k + 16) % 8 = 0 then 0 else 1
    have outside : site.isInFixingRange (testTarget site (site.spot k) lmask) = false := by
      simp only [Bool.and_eq_true, Bool.not_eq_true'] at apart
      exact apart.1
    rw [target] at outside
    simp only [testEmission, word, here] at shape apart
    rw [if_pos apart, target] at shape
    have start : site.label k = site.entry k := by
      rw [label, shape]
    have held := held_placed relocated.room relocated.held bound
    rw [placed_still (by rw [shape]; rfl), shape] at held
    have size : (site.moved k).chunk.words.length = pad + 6 := by
      rw [shape]
      simp [far, addressWords, pad]
    obtain ⟨nops, words⟩ := (holds_append (List.replicate pad Aarch64Nop) _).mp held
    rw [List.length_replicate] at words
    refine .near (.nops nops (does_test_far decoded outside nonneg bounded ?_ words written)) start
    rw [next, size]
    push_cast
    omega
  · have outside : site.isInFixingRange (testTarget site (site.spot k) lmask) = false →
        (((testTarget site (site.spot k) lmask - site.entry k) / 4).natAbs : Int) < maskedReach lmask - 1 := by
      intro outside
      rw [outside, here] at apart
      simp only [Bool.not_false, Bool.true_and, decide_eq_true_eq, not_le] at apart
      omega
    rw [target] at outside
    simp only [testEmission, word] at shape
    rw [if_neg apart, target] at shape
    have placed := placed_near relocated.aligned relocated.room bound multiple shape fun _ => finish_test masked
    have held := held_placed relocated.room relocated.held bound
    rw [placed] at held
    have start : site.label k = site.entry k := by
      rw [label, shape]
      rfl
    obtain ⟨lower, upper, whole⟩ := landing_range relocated bound span.1 multiple reaches outside
    refine .near (does_test decoded reaches multiple (by rw [next, shape]; rfl) held ?_) start
    rw [decode_testWord masked lower upper, whole]

theorem words_fewer (image : Image) (address : Int) {few many : Nat} (fewer : few ≤ many) :
    ∃ more, image.words address many = image.words address few ++ more := by
  induction few generalizing address many with
  | zero => exact ⟨_, rfl⟩
  | succ few ih =>
      cases many with
      | zero => omega
      | succ many =>
          obtain ⟨more, split⟩ := ih (address + 4) (Nat.le_of_succ_le_succ fewer)
          exact ⟨more, by rw [Image.words, Image.words, split, List.cons_append]⟩

theorem loadSizeOf_words (kind : Literal) :
    kind.words ≤ (loadSizeOf kind + 1) / 4 ∧
      (loadSizeOf kind + 1) / 4 ≤ loadSizeOf kind + 1 ∧
      ((loadSizeOf kind + 1) / 4 = 1 ∨ (loadSizeOf kind + 1) / 4 = 2 ∨ (loadSizeOf kind + 1) / 4 = 4) ∧
      (loadSizeOf kind = 3 ∨ loadSizeOf kind = 7 ∨ loadSizeOf kind = 15) := by
  cases kind <;> decide

theorem enters_load (relocated : Relocated site image) (bound : k < site.count) {kind : Literal}
    (opcode : site.memory (site.basep + 4 * k) &&& 0xff000000#32 = kind.opcode)
    (shape : site.moved k = loadEmission site (site.spot k) (loadMaskOf kind) (loadSizeOf kind)) :
    Enters isa image site k := by
  have range := imm19_bound (site.memory (site.basep + 4 * k))
  have sizes := loadSizeOf_words kind
  have aligned := relocated.entry_aligned k
  have base := relocated.aligned.1
  have slot := placed_inside relocated.aligned relocated.few bound
  have movable := relocated.movable k bound
  have decoded := decode_ldr opcode
  rw [decoded] at movable
  obtain ⟨forward, found⟩ := movable
  have label := label_moved relocated.room bound
  have target : loadTarget site (site.spot k) = site.basep + 4 * k + imm19 (site.memory (site.basep + 4 * k)) := by
    rw [loadTarget, show (site.spot k).ins site = site.memory (site.basep + 4 * k) from rfl,
      load_offset _ forward]
    rfl
  have here : (site.spot k).here site = site.entry k := rfl
  have word : (site.spot k).ins site = site.memory (site.basep + 4 * k) := rfl
  by_cases copied : (site.isInFixingRange (loadTarget site (site.spot k)) ||
      decide (((loadTarget site (site.spot k) - (site.spot k).here site) / 4).natAbs +
        (loadSizeOf kind + 1 - 4) / 4 ≥ (~~~0xff00001f#32 >>> 6).toNat)) = true
  · simp only [loadEmission, word, here] at shape copied
    rw [if_pos copied, target] at shape
    refine .far relocated bound (by rw [shape]; rfl) (by rw [shape]; rfl) (fun _ => by rw [label, shape]; rfl) ?_
    intro held next
    have written := decode_loadWord opcode (show -(2 ^ 18 : Int) ≤ 2 by decide) (by decide) (.inl (by decide))
    simp only [List.cons_append, List.nil_append, List.length_cons] at held next
    refine does_ldr_copied decoded ?_ held written ?_ (words_fewer _ _ sizes.1)
    · rw [next]
      push_cast
      omega
    · rw [words_length]
      exact decode_skip sizes.2.2.1
  · simp only [loadEmission, word, here] at shape copied
    rw [if_neg copied, target] at shape
    rw [target] at copied
    simp only [Bool.or_eq_true, decide_eq_true_eq, not_or] at copied
    obtain ⟨outside, close⟩ := copied
    have outside := Bool.eq_false_iff.mpr outside
    have reach : (~~~0xff00001f#32 >>> 6).toNat = 262143 := by decide
    rw [reach] at close
    let absolute := site.basep + 4 * k + imm19 (site.memory (site.basep + 4 * k))
    let pad := padding (fun outprx => (absolute - outprx) / 4 % ((loadSizeOf kind / 4 : Nat) + 1) ≠ 0) 4 (site.entry k)
    have padded : pad ≤ (loadSizeOf kind + 1) / 4 - 1 := padding_near sizes.2.2.2
    have length : (site.moved k).chunk.words.length = pad + 1 := by
      rw [shape]
      exact far_length _ _
    have whole : (absolute - (site.entry k + 4 * pad)) / 4 * 4 = absolute - (site.entry k + 4 * pad) := by omega
    refine .far relocated bound (by rw [shape]; rfl) (by rw [shape]; rfl) (fun _ => by rw [label, shape]; rfl) ?_
    intro held next
    have safe : 0 ≤ (absolute - (site.entry k + 4 * pad)) / 4 ∨ kind = .x ∨ kind = .sw := by
      rcases found with inside | above | below | wide | signed
      · rw [outside] at inside
        contradiction
      · rw [Site.entry]
        simp only [TrampolineSize, MaxInstructions] at above slot
        omega
      · simp only [Site.entry] at close
        omega
      · exact .inr (.inl wide)
      · exact .inr (.inr signed)
    have written := decode_loadWord opcode
      (show -(2 ^ 18 : Int) ≤ (absolute - (site.entry k + 4 * pad)) / 4 by omega) (by omega) safe
    rw [whole] at written
    exact does_ldr decoded next held written (relocated.literals k bound _ _ _ decoded outside)

theorem imm21_bound (word : Word) : -(2 ^ 20) ≤ imm21 word ∧ imm21 word < 2 ^ 20 := by
  have low : (word.extractLsb' 29 2).toNat < 4 := BitVec.isLt _
  have lower := BitVec.le_toInt (word.extractLsb' 5 19)
  have upper := BitVec.toInt_lt (x := word.extractLsb' 5 19)
  rw [imm21]
  omega

theorem enters_adr (relocated : Relocated site image) (bound : k < site.count)
    (opcode : site.memory (site.basep + 4 * k) &&& 0x9f000000#32 = 0x10000000#32)
    (shape : site.moved k = adrEmission site site.label (site.spot k)) : Enters isa image site k := by
  have range := imm21_bound (site.memory (site.basep + 4 * k))
  have aligned := relocated.entry_aligned k
  have base := relocated.aligned.1
  have movable := relocated.movable k bound
  have decoded := decode_adr opcode
  rw [decoded] at movable
  obtain ⟨forward, whole, outside⟩ := movable
  have label := label_moved relocated.room bound
  have next := entry_succ relocated.room bound
  have target : adrTarget site (site.spot k) = site.basep + 4 * k + imm21 (site.memory (site.basep + 4 * k)) := by
    rw [adrTarget, show (site.spot k).ins site = site.memory (site.basep + 4 * k) from rfl, pcrel_offset _ forward]
    rfl
  have here : (site.spot k).here site = site.entry k := rfl
  have word : (site.spot k).ins site = site.memory (site.basep + 4 * k) := rfl
  by_cases apart : (!site.isInFixingRange (adrTarget site (site.spot k)) &&
      decide ((adrTarget site (site.spot k) - (site.spot k).here site).natAbs ≥ (0x001fffff#32 >>> 1).toNat)) = true
  · simp only [adrEmission, word] at shape
    rw [if_pos apart, target] at shape
    refine .far relocated bound (by rw [shape]; rfl) (by rw [shape]; rfl) (fun _ => by rw [label, shape]; rfl) ?_
    intro held next
    refine does_addressLoad (fun cpu atSource => ?_) next held
    rw [step_source atSource decoded, exec, atSource]
  · simp only [adrEmission, word] at shape
    rw [target, here, outside] at apart
    have close : (site.basep + 4 * k + imm21 (site.memory (site.basep + 4 * k)) - site.entry k).natAbs < 1048575 := by
      simpa using apart
    rw [target, here, outside, if_neg (by simpa using apart)] at shape
    have held := held_placed relocated.room relocated.held bound
    have displaced : displacement site site.label (site.spot k)
        (site.basep + 4 * k + imm21 (site.memory (site.basep + 4 * k)))
        (site.basep + 4 * k + imm21 (site.memory (site.basep + 4 * k)) -
          (site.basep + 4 * k + imm21 (site.memory (site.basep + 4 * k))) % 4) =
        (site.basep + 4 * k + imm21 (site.memory (site.basep + 4 * k)) - site.entry k, none) := by
      rw [displacement, outside, if_neg (by decide), here]
    rw [near, displaced] at shape
    rw [placed_still (by rw [shape]; rfl), shape] at held
    refine .near (does_adr decoded (by rw [next, shape]; rfl) held ?_) (by rw [label, shape]; rfl)
    exact decode_adrWord opcode whole (by omega) (by omega) (by omega)

theorem enters_adrp (relocated : Relocated site image) (bound : k < site.count)
    (opcode : site.memory (site.basep + 4 * k) &&& 0x9f000000#32 = 0x90000000#32)
    (shape : site.moved k = adrpEmission site (site.spot k)) : Enters isa image site k := by
  have range := imm21_bound (site.memory (site.basep + 4 * k))
  have movable := relocated.movable k bound
  have decoded := decode_adrp opcode
  rw [decoded] at movable
  obtain ⟨forward, outside⟩ := movable
  have label := label_moved relocated.room bound
  have here : (site.spot k).here site = site.entry k := rfl
  have word : (site.spot k).ins site = site.memory (site.basep + 4 * k) := rfl
  have target : adrpTarget site (site.spot k) = site.basep + 4 * k - (site.basep + 4 * k) % 4096 +
      imm21 (site.memory (site.basep + 4 * k)) * 4096 := by
    rw [adrpTarget, word, pcrel_page _ (by omega), Int.emod_eq_of_lt forward (by omega)]
    rfl
  have same : site.Labelled k → site.outrw = site.outrx := by
    rintro (other | same)
    · exact absurd decoded (other _ _)
    · exact same
  simp only [adrpEmission, word, here] at shape
  rw [target, outside, if_neg (by decide)] at shape
  refine .far relocated bound (by rw [shape]; rfl)
    (show _ = List.replicate (if (site.entry k + 8) % 8 = 0 then 0 else 1) Aarch64Nop ++ _ by rw [shape]; rfl)
    (fun labelled => ?_) fun held next => ?_
  · have written : site.outrw + 4 * ((site.spot k).position : Int) = site.entry k := by
      rw [same labelled]
      rfl
    rw [label, shape]
    simp only [written]
    split <;> simp
  · refine does_addressLoad (fun cpu atSource => ?_) next held
    rw [step_source atSource decoded, exec, atSource]

/-- Every moved instruction does what it did. -/
theorem enters_moved (relocated : Relocated site image) (bound : k < site.count) : Enters isa image site k := by
  have known := classify_of (site.memory (site.basep + 4 * k))
  have shape : site.moved k = emission site site.label (site.spot k) := rfl
  have label := label_moved relocated.room bound
  have next := entry_succ relocated.room bound
  have movable := relocated.movable k bound
  have word : (site.spot k).ins site = site.memory (site.basep + 4 * k) := rfl
  unfold emission at shape
  rw [word] at shape
  cases kind : classify (site.memory (site.basep + 4 * k)) with
  | branch =>
      rw [kind] at known shape
      cases known with
      | branch opcode => exact enters_branch relocated bound opcode shape
  | test lmask =>
      rw [kind] at known shape
      cases known with
      | test masked => exact enters_test relocated bound masked shape
  | prefetch =>
      rw [kind] at known shape
      cases known with
      | prefetch opcode =>
          refine .near (fun cpu atSource _ => ?_) (by rw [label, shape]; rfl)
          rw [step_source atSource (decode_prfm opcode)]
          refine ⟨_, .refl, .falls ?_ ?_⟩
          · rw [exec, atSource]
            push_cast
            omega
          · rw [next, shape]
            simp [exec]
  | load mask faligned =>
      rw [kind] at known shape
      cases known with
      | load masked =>
          have allocated : site.memory (site.basep + 4 * k) &&& 0xff000000#32 ≠ 0xdc000000#32 := by
            intro opcode
            have other : decode (site.memory (site.basep + 4 * k)) = .other (site.memory (site.basep + 4 * k)) :=
              decode_unallocated opcode
            rw [other] at movable
            exact movable opcode
          obtain ⟨literal, opcode, rfl, rfl⟩ := loadMask_literal masked allocated
          exact enters_load relocated bound opcode shape
  | adr =>
      rw [kind] at known shape
      cases known with
      | adr opcode => exact enters_adr relocated bound opcode shape
  | adrp =>
      rw [kind] at known shape
      cases known with
      | adrp opcode => exact enters_adrp relocated bound opcode shape
  | plain =>
      rw [kind] at known shape
      have held := held_placed relocated.room relocated.held bound
      rw [placed_still (by rw [shape]), shape] at held
      exact .near (does_plain known bound (by rw [next, shape]; rfl) held) (by rw [label, shape]; rfl)

/-! ### The jump back -/

/-- After the last moved instruction the trampoline goes on behind the block. -/
theorem run_returning (relocated : Relocated site image) {cpu : Cpu σ} (atEnd : cpu.pc = site.entry site.count) :
    ∃ here, Run isa image cpu here ∧ Left site { cpu with pc := site.endp } here := by
  have held := held_returning relocated.room relocated.held
  have low := relocated.low
  have high := relocated.high
  have few := relocated.few
  have base := relocated.aligned.1
  have aligned := relocated.entry_aligned site.count
  simp only [MaxInstructions] at few
  have finish : site.endp = site.basep + 4 * site.count := rfl
  unfold Site.returning at held
  simp only at held
  split at held
  · obtain ⟨nops, words⟩ := (holds_append _ _).mp held
    rw [← atEnd] at nops words
    rw [List.length_replicate] at words
    have far : Run isa image { cpu with pc := cpu.pc + 4 * (if (cpu.pc + 8) % 8 = 0 then 0 else 1 : Nat) } _ :=
      run_farAddress (by omega) (by omega) words
    refine ⟨_, (run_nops nops).trans far, .of_x17 rfl rfl fun r other => Registers.set_of_ne _ _ other⟩
  · next near =>
      have mask : (0x03ffffff#32 >>> 1).toNat = 33554431 := by decide
      rw [mask] at near
      let offset := (site.endp - site.entry site.count) / 4
      have written : decode (0x14000000#32 ||| (BitVec.ofInt 32 offset &&& 0x03ffffff#32)) = .b (offset * 4) :=
        decode_branchWord (by omega) (by omega) (show 0x14000000#32 &&& 0xfc000000#32 = 0x14000000#32 from rfl)
      have arrives : cpu.pc + offset * 4 = site.endp := by omega
      have atWord : image cpu.pc = 0x14000000#32 ||| (BitVec.ofInt 32 offset &&& 0x03ffffff#32) := by
        rw [atEnd]
        exact held.1
      have run : Run isa image cpu (exec isa image cpu (.b (offset * 4))) := run_exec atWord written
      rw [exec, arrives] at run
      exact ⟨_, run, .of_x17 rfl rfl fun _ _ => rfl⟩

/-! ### Whole runs -/

/-- The trampoline is where the original is. -/
def Tracks (site : Site) (original here : Cpu σ) : Prop :=
  ∃ k ≤ site.count, original.pc = site.basep + 4 * k ∧
    (here = { original with pc := site.entry k } ∨
      (k < site.count ∧ site.Labelled k ∧ here = { original with pc := site.label k }))

theorem source_inside_iff (within : k ≤ site.count) :
    site.isInFixingRange (site.basep + 4 * k) = true ↔ k < site.count := by
  rw [isInFixingRange_iff]
  omega

/-- From its first word or from its label, a moved instruction does what it did. -/
theorem does_tracked (relocated : Relocated site image) (bound : k < site.count) {address : Int}
    (start : address = site.entry k ∨ (site.Labelled k ∧ address = site.label k)) :
    Does isa image site k address := by
  obtain ⟨pad, nops, done, atLabel⟩ : Enters isa image site k := enters_moved relocated bound
  rcases start with rfl | ⟨labelled, rfl⟩
  · exact .nops nops done
  · rw [atLabel labelled]
    exact done

theorem turn_tracked (relocated : Relocated site image) {original here : Cpu σ} (tracked : Tracks site original here)
    (inside : site.isInFixingRange original.pc = true) (direct : site.Direct isa original) :
    ∃ after, Run isa image here after ∧
      (Tracks site (step isa site.memory original) after ∨
        (¬ site.isInFixingRange (step isa site.memory original).pc = true ∧
          Left site (step isa site.memory original) after)) := by
  obtain ⟨k, within, atSource, start⟩ := tracked
  rw [atSource, source_inside_iff within] at inside
  obtain ⟨address, placed, done⟩ : ∃ address, here = { original with pc := address } ∧ Does isa image site k address := by
    rcases start with same | ⟨_, labelled, same⟩
    · exact ⟨_, same, does_tracked relocated inside (.inl rfl)⟩
    · exact ⟨_, same, does_tracked relocated inside (.inr ⟨labelled, rfl⟩)⟩
  obtain ⟨after, run, follows⟩ := done original atSource direct
  rw [← placed] at run
  refine ⟨after, run, ?_⟩
  cases follows with
  | falls pc same => exact .inl ⟨k + 1, inside, pc, .inl same⟩
  | jumps arrived labelled multiple same =>
      have place := inside_index relocated.aligned multiple arrived
      exact .inl ⟨_, place.1.le, place.2, .inr ⟨place.1, labelled, same⟩⟩
  | leaves outside left => exact .inr ⟨Bool.eq_false_iff.mp outside, left⟩

theorem finish_tracked (relocated : Relocated site image) {original here : Cpu σ} (tracked : Tracks site original here)
    (outside : ¬ site.isInFixingRange original.pc = true) :
    ∃ after, Run isa image here after ∧ Left site original after := by
  obtain ⟨k, within, atSource, start⟩ := tracked
  rw [atSource, source_inside_iff within] at outside
  have last : k = site.count := by omega
  rcases start with same | ⟨bound, _⟩
  · subst last
    obtain ⟨after, run, left⟩ : ∃ after, Run isa image here after ∧ Left site { here with pc := site.endp } after :=
      run_returning relocated (by rw [same])
    refine ⟨after, run, ?_⟩
    have back : { here with pc := site.endp } = original := by
      rw [same, Site.endp, ← atSource]
    rwa [back] at left
  · exact absurd bound outside

theorem trampoline_stands_in (relocated : Relocated site image) :
    Region.StandsIn (step isa site.memory) (fun original => site.isInFixingRange original.pc = true)
      (site.Direct isa) (fun before after => step isa image before = after) (Tracks site) (Left site) where
  turn tracked inside direct := turn_tracked relocated tracked inside direct
  finish tracked outside := finish_tracked relocated tracked outside

/-- Wherever the trampoline is entered (at its start, or behind a call it made),
it runs to the place where the original leaves the block, with the same memory,
flags and registers but for X17 and a link into the block. -/
theorem trampoline_leaves (relocated : Relocated site image) {cpu : Cpu σ} {n : Nat} (within : k ≤ site.count)
    (atSource : cpu.pc = site.basep + 4 * k)
    (stays : ∀ i < n, site.isInFixingRange ((step isa site.memory)^[i] cpu).pc = true)
    (direct : ∀ i < n, site.Direct isa ((step isa site.memory)^[i] cpu))
    (outside : site.isInFixingRange ((step isa site.memory)^[n] cpu).pc = false) :
    ∃ here, Run isa image { cpu with pc := site.entry k } here ∧ Left site ((step isa site.memory)^[n] cpu) here :=
  (trampoline_stands_in relocated).leaves ⟨k, within, atSource, .inl rfl⟩ stays direct (Bool.eq_false_iff.mp outside)

end Smmboss.Hook
