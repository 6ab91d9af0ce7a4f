import Smmboss.Hook.Encodings

namespace Smmboss.Hook

open Aarch64 Backpatch

/-! # The moved instructions do what they did -/

variable {σ : Type} {site : Site} {image : Image} {k : Nat}

/-! ### Where the words stand -/

/-- The jump back, from where the moved instructions end. -/
def Site.returning (site : Site) : List Word :=
  let offset := (site.endp - site.entry site.count) / 4
  if offset.natAbs ≥ (0x03ffffff#32 >>> 1).toNat then
    List.replicate (if (site.entry site.count + 8) % 8 = 0 then 0 else 1) Aarch64Nop ++
      ([0x58000051#32, 0xd61f0220#32] ++ addressWords site.endp)
  else [0x14000000#32 ||| (BitVec.ofInt 32 offset &&& 0x03ffffff#32)]

theorem fixBlock_out (few : site.count ≤ MaxReferences) :
    (fixBlock site).out = (fixLoop site site.count {}).out ++ site.returning := by
  obtain ⟨_, _, _, _, _, _, index, _⟩ := moved_layout few
  have back : (fixLoop site site.count {}).inprx site = site.endp := by
    rw [Fixer.inprx, index, Site.endp]
  have out : (fixLoop site site.count {}).outprx site = site.entry site.count := rfl
  simp only [fixBlock, jumpBack, Site.returning, back, out]
  split
  · split
    · rfl
    · simp [Fixer.write]
  · rfl

theorem entry_succ (few : site.count ≤ MaxReferences) (bound : k < site.count) :
    site.entry (k + 1) = site.entry k + 4 * (site.moved k).chunk.words.length := by
  rw [Site.entry, position_succ few bound, Site.entry]
  push_cast
  omega

/-- The words of a moved instruction, with its reference finished. -/
def Site.placed (site : Site) (k : Nat) : List Word :=
  resolveChunk (finish site) site.label site.count (site.position k) (site.moved k).chunk

theorem held_placed (few : site.count ≤ MaxReferences) (held : Holds image site.outrx (fixBlock site).out)
    (bound : k < site.count) : Holds image (site.entry k) (site.placed k) := by
  obtain ⟨emissions, length, moved, _, position, out, _⟩ := moved_layout few
  have inside : k < (chunks emissions).length := by
    rw [chunks_length]
    omega
  have chunk : (chunks emissions)[k] = (site.moved k).chunk := by
    rw [← moved k (by omega)]
    exact List.getElem_map ..
  have place : size ((chunks emissions).take k) = site.position k := by
    rw [position k (by omega), chunks, chunks, List.map_take]
  rw [fixBlock_out few, holds_append, out, resolve_around inside, holds_append, resolve_length, place, chunk,
    holds_append, Nat.zero_add] at held
  exact held.1.2.1

theorem held_returning (few : site.count ≤ MaxReferences)
    (held : Holds image site.outrx (fixBlock site).out) :
    Holds image (site.entry site.count) site.returning := by
  rw [fixBlock_out few, holds_append] at held
  exact held.2

/-- Everything that is written for an instruction is in the slot. -/
theorem placed_inside (aligned : site.Aligned) (few : site.count ≤ MaxInstructions) (bound : k < site.count) :
    site.position k + (site.moved k).chunk.words.length ≤ TrampolineSize := by
  have room : site.count ≤ MaxReferences := few.trans (by decide)
  have fits := fixBlock_fits aligned.2 few
  have last : ∀ more, k + 1 + more ≤ site.count → site.position (k + 1) ≤ site.position (k + 1 + more) := by
    intro more
    induction more with
    | zero => exact fun _ => Nat.le_refl _
    | succ more ih =>
        intro within
        have next := position_succ room (show k + 1 + more < site.count by omega)
        have before := ih (by omega)
        rw [← Nat.add_assoc, next]
        omega
  have end_ := last (site.count - (k + 1)) (by omega)
  rw [show k + 1 + (site.count - (k + 1)) = site.count by omega, position_succ room bound] at end_
  rw [fixBlock_out room, List.length_append] at fits
  have whole : site.position site.count = (fixLoop site site.count {}).out.length := rfl
  omega

/-! ### Labels -/

/-- ADRP sets its label in the writable mapping. -/
def Site.Labelled (site : Site) (k : Nat) : Prop :=
  (∀ rd offset, decode (site.memory (site.basep + 4 * k)) ≠ .adrp rd offset) ∨ site.outrw = site.outrx

theorem emission_label (labelled : site.Labelled k) (label : Nat → Int) (position : Nat) :
    ∃ pad ≤ (emission site label ⟨k, position⟩).chunk.words.length,
      (emission site label ⟨k, position⟩).label = site.outrx + 4 * position + 4 * pad := by
  obtain ⟨pad, words, split, address⟩ := emission_address site label ⟨k, position⟩
  refine ⟨pad, by rw [split, List.length_append, List.length_replicate]; omega, ?_⟩
  rcases address with executed | ⟨opcode, written⟩
  · rw [executed]
    dsimp only
    omega
  · rcases labelled with other | mapped
    · exact absurd (decode_adrp opcode) (other _ _)
    · rw [written, mapped]
      dsimp only
      omega

/-- A label is in the slot. -/
theorem label_inside (aligned : site.Aligned) (few : site.count ≤ MaxInstructions) (bound : k < site.count)
    (labelled : site.Labelled k) :
    site.outrx ≤ site.label k ∧ site.label k ≤ site.outrx + 4 * TrampolineSize ∧ site.label k % 4 = 0 := by
  obtain ⟨pad, within, atLabel⟩ := emission_label labelled site.label (site.position k)
  have inside := placed_inside aligned few bound
  have multiple := aligned.2
  rw [label_moved (few.trans (by decide)) bound, Site.moved, Site.spot, atLabel]
  rw [Site.moved, Site.spot] at inside
  omega

/-! ### Displacements -/

/-- Where a moved reference ends up. -/
def Site.landing (site : Site) (absolute : Int) : Int :=
  if site.isInFixingRange absolute then site.label (site.getRefInsIndex absolute) else absolute

/-- A place in the block is the start of one of its instructions. -/
theorem inside_index {absolute : Int} (aligned : site.Aligned) (multiple : absolute % 4 = 0)
    (inside : site.isInFixingRange absolute = true) :
    site.getRefInsIndex absolute < site.count ∧ absolute = site.basep + 4 * site.getRefInsIndex absolute := by
  have bounds := isInFixingRange_iff.mp inside
  have base := aligned.1
  simp only [Site.getRefInsIndex]
  omega

/-- A branch into the block finds its instruction in the trampoline. -/
def Site.Reaches (site : Site) (absolute : Int) : Prop :=
  site.isInFixingRange absolute = true → site.Labelled (site.getRefInsIndex absolute)

theorem landing_close {absolute : Int} (aligned : site.Aligned) (few : site.count ≤ MaxInstructions)
    (multiple : absolute % 4 = 0) (reaches : site.Reaches absolute)
    (inside : site.isInFixingRange absolute = true) (bound : k < site.count) :
    site.label (site.getRefInsIndex absolute) % 4 = 0 ∧
      (site.label (site.getRefInsIndex absolute) - site.entry k).natAbs ≤ 200 := by
  have place := label_inside aligned few (inside_index aligned multiple inside).1 (reaches inside)
  have here := placed_inside aligned few bound
  simp only [TrampolineSize, MaxInstructions] at place here
  simp only [Site.entry]
  omega

/-- The word of a near emission once every label is known. -/
theorem placed_near {absolute : Int} {kind : FixKind} {encode : Int → Word} (aligned : site.Aligned)
    (few : site.count ≤ MaxReferences) (bound : k < site.count) (multiple : absolute % 4 = 0)
    (shape : site.moved k = near site site.label (site.spot k) absolute absolute kind encode)
    (finishes : ∀ target : Int,
      finish site kind target (site.position k) (encode 0) = encode (target - site.entry k)) :
    site.placed k = [encode (site.landing absolute - site.entry k)] := by
  have here : (site.spot k).here site = site.entry k := rfl
  have self : site.label k = site.entry k := by
    rw [label_moved few bound, shape]
    rfl
  have update : Function.update site.label (site.spot k).index (site.entry k) = site.label := by
    rw [← self]
    exact Function.update_eq_self _ _
  rw [Site.placed, shape]
  simp only [near, displacement, Site.landing, resolveChunk]
  by_cases inside : site.isInFixingRange absolute = true
  · have later := (inside_index aligned multiple inside).1
    rw [if_pos inside, if_pos inside]
    by_cases back : site.getRefInsIndex absolute ≤ (site.spot k).index
    · rw [if_pos back]
      simp only [Option.map_none, here, update]
    · rw [if_neg back]
      simp only [Option.map_some, if_pos later, List.modifyHead_cons]
      rw [finishes]
  · rw [if_neg inside, if_neg inside]
    simp only [Option.map_none, here]

/-! ### One instruction -/

/-- The state after the block was left: X17 is the scratch register of a far
jump, and a link points behind the call, wherever that is. -/
structure Left (site : Site) (next here : Cpu σ) : Prop where
  pc : here.pc = next.pc
  rest : here.rest = next.rest
  x : ∀ r, r ≠ 17#5 → r ≠ 30#5 → here.x r = next.x r
  link : here.x 30#5 = next.x 30#5 ∨ ∃ k ≤ site.count,
    next.x 30#5 = BitVec.ofInt 64 (site.basep + 4 * k) ∧ here.x 30#5 = BitVec.ofInt 64 (site.entry k)

/-- How the trampoline goes on when the original goes on to `next`. -/
inductive Follows (site : Site) (k : Nat) (next here : Cpu σ) : Prop where
  | falls (pc : next.pc = site.basep + 4 * (k + 1 : Nat)) (same : here = { next with pc := site.entry (k + 1) })
  | jumps (inside : site.isInFixingRange next.pc = true) (labelled : site.Labelled (site.getRefInsIndex next.pc))
      (multiple : next.pc % 4 = 0) (same : here = { next with pc := site.label (site.getRefInsIndex next.pc) })
  | leaves (outside : site.isInFixingRange next.pc = false) (left : Left site next here)

/-- Instructions that go where a register or the instruction itself says. -/
def Indirect (isa : Isa σ) (cpu : Cpu σ) : Instruction → Prop
  | .br _ => True
  | .other word => (isa.other word cpu.x cpu.rest).2.2 ≠ .next
  | _ => False

/-- No indirect jump goes into the block. -/
def Site.Direct (site : Site) (isa : Isa σ) (cpu : Cpu σ) : Prop :=
  Indirect isa cpu (decode (site.memory cpu.pc)) →
    site.isInFixingRange (step isa site.memory cpu).pc = false

/-- The code at an address does what the original instruction does. -/
def Does (isa : Isa σ) (image : Image) (site : Site) (k : Nat) (address : Int) : Prop :=
  ∀ cpu : Cpu σ, cpu.pc = site.basep + 4 * k → site.Direct isa cpu →
    ∃ here, Run isa image { cpu with pc := address } here ∧ Follows site k (step isa site.memory cpu) here

variable {isa : Isa σ}

theorem Does.nops {pad : Nat} {address : Int} (held : Holds image address (List.replicate pad Aarch64Nop))
    (done : Does isa image site k (address + 4 * pad)) : Does isa image site k address := by
  intro cpu atSource direct
  obtain ⟨here, run, follows⟩ := done cpu atSource direct
  have padding : Run isa image { cpu with pc := address } { cpu with pc := address + 4 * pad } := run_nops held
  exact ⟨here, padding.trans run, follows⟩

theorem Left.of_x17 {next here : Cpu σ} (pc : here.pc = next.pc) (rest : here.rest = next.rest)
    (x : ∀ r, r ≠ 17#5 → here.x r = next.x r) : Left site next here :=
  ⟨pc, rest, fun r other _ => x r other, .inl (x _ (by decide))⟩

/-- `LDR X17, #8; BR X17` over an address. -/
theorem run_farAddress {cpu : Cpu σ} {absolute : Int} (nonneg : 0 ≤ absolute) (bounded : absolute < 2 ^ 64)
    (held : Holds image cpu.pc ([0x58000051#32, 0xd61f0220#32] ++ addressWords absolute)) :
    Run isa image cpu { cpu with pc := absolute, x := cpu.x.set 17#5 (BitVec.ofInt 64 absolute) } := by
  have run : Run isa image cpu _ := run_farJump held
  rw [double_addressWords, toNat_address nonneg bounded] at run
  exact run

/-- A branch that lands where the original one does. -/
theorem Follows.lands (k : Nat) (next : Cpu σ) (reaches : site.Reaches next.pc) (multiple : next.pc % 4 = 0) :
    Follows site k next { next with pc := site.landing next.pc } := by
  by_cases inside : site.isInFixingRange next.pc = true
  · rw [Site.landing, if_pos inside]
    exact .jumps inside (reaches inside) multiple rfl
  · rw [Site.landing, if_neg inside]
    exact .leaves (Bool.eq_false_iff.mpr inside) (.of_x17 rfl rfl fun _ _ => rfl)

/-- A step of the original, at an instruction of the block. -/
theorem step_source {instruction : Instruction} {cpu : Cpu σ} (atSource : cpu.pc = site.basep + 4 * k)
    (decoded : decode (site.memory (site.basep + 4 * k)) = instruction) :
    step isa site.memory cpu = exec isa site.memory cpu instruction := by
  rw [step, atSource, decoded]

variable {offset address : Int} {word : Word}

theorem does_b (decoded : decode (site.memory (site.basep + 4 * k)) = .b offset)
    (reaches : site.Reaches (site.basep + 4 * k + offset)) (multiple : (site.basep + 4 * k + offset) % 4 = 0)
    (held : Holds image address [word])
    (written : decode word = .b (site.landing (site.basep + 4 * k + offset) - address)) :
    Does isa image site k address := by
  intro cpu atSource _
  rw [step_source atSource decoded]
  have lands := Follows.lands k (exec isa site.memory cpu (.b offset)) (by rwa [exec, atSource]) (by rwa [exec, atSource])
  have run : Run isa image { cpu with pc := address }
      (exec isa image { cpu with pc := address } (.b (site.landing (site.basep + 4 * k + offset) - address))) :=
    run_exec held.1 written
  refine ⟨_, run, ?_⟩
  simpa [exec, atSource] using lands

theorem does_b_far (decoded : decode (site.memory (site.basep + 4 * k)) = .b offset)
    (outside : site.isInFixingRange (site.basep + 4 * k + offset) = false)
    (nonneg : 0 ≤ site.basep + 4 * k + offset) (bounded : site.basep + 4 * k + offset < 2 ^ 64)
    (held : Holds image address ([0x58000051#32, 0xd61f0220#32] ++ addressWords (site.basep + 4 * k + offset))) :
    Does isa image site k address := by
  intro cpu atSource _
  rw [step_source atSource decoded]
  have run : Run isa image { cpu with pc := address } _ := run_farAddress nonneg bounded held
  refine ⟨_, run, .leaves (by rwa [exec, atSource]) (.of_x17 ?_ rfl fun r other => ?_)⟩
  · rw [exec, atSource]
  · exact Registers.set_of_ne _ _ other

theorem does_bl (decoded : decode (site.memory (site.basep + 4 * k)) = .bl offset) (bound : k < site.count)
    (outside : site.isInFixingRange (site.basep + 4 * k + offset) = false)
    (next : site.entry (k + 1) = address + 4) (held : Holds image address [word])
    (written : decode word = .bl (site.basep + 4 * k + offset - address)) :
    Does isa image site k address := by
  intro cpu atSource _
  rw [step_source atSource decoded]
  have run : Run isa image { cpu with pc := address }
      (exec isa image { cpu with pc := address } (.bl (site.basep + 4 * k + offset - address))) :=
    run_exec held.1 written
  refine ⟨_, run, .leaves (by rwa [exec, atSource]) ⟨?_, rfl, fun r _ other => ?_, .inr ⟨k + 1, bound, ?_, ?_⟩⟩⟩
  · simp only [exec, atSource]
    omega
  · simp only [exec, Registers.set_of_ne _ _ other]
  · simp only [exec, atSource, Registers.set_self (show (30#5 : Register) ≠ 31#5 by decide)]
    congr 1
    push_cast
    omega
  · simp only [exec, Registers.set_self (show (30#5 : Register) ≠ 31#5 by decide), next]

/-- `LDR X17, #12; ADR X30, #16; BR X17` over an address. -/
theorem does_bl_far (decoded : decode (site.memory (site.basep + 4 * k)) = .bl offset) (bound : k < site.count)
    (outside : site.isInFixingRange (site.basep + 4 * k + offset) = false)
    (nonneg : 0 ≤ site.basep + 4 * k + offset) (bounded : site.basep + 4 * k + offset < 2 ^ 64)
    (next : site.entry (k + 1) = address + 20)
    (held : Holds image address
      ([0x58000071#32, 0x1000009e#32, 0xd61f0220#32] ++ addressWords (site.basep + 4 * k + offset))) :
    Does isa image site k address := by
  intro cpu atSource _
  rw [step_source atSource decoded]
  obtain ⟨first, second, third, low, high, _⟩ := held
  have literal : image.words (address + 12) 2 = addressWords (site.basep + 4 * k + offset) := by
    have twelve : address + 12 = address + 4 + 4 + 4 := by omega
    rw [Image.words, Image.words, Image.words, twelve, low, high]
    rfl
  have linked : decode 0x1000009e#32 = .adr 30#5 16 := by decide
  have loaded : decode 0x58000071#32 = .ldr .x 17#5 12 := by decide
  have jumped : decode 0xd61f0220#32 = .br 17#5 := by decide
  let before : Cpu σ := { cpu with pc := address }
  let after := exec isa image before (.ldr .x 17#5 12)
  let last := exec isa image after (.adr 30#5 16)
  have one : Run isa image before after := run_exec first loaded
  have two : Run isa image after last := run_exec second linked
  have three : Run isa image last (exec isa image last (.br 17#5)) := run_exec third jumped
  have value : double ((BitVec.ofInt 64 (site.basep + 4 * k + offset)).extractLsb' 0 32)
      ((BitVec.ofInt 64 (site.basep + 4 * k + offset)).extractLsb' 32 32) =
        BitVec.ofInt 64 (site.basep + 4 * k + offset) := double_addressWords _
  have x17 : last.x 17#5 = BitVec.ofInt 64 (site.basep + 4 * k + offset) := by
    simp only [last, after, before, exec, load, Literal.words, literal, addressWords, value]
    rw [Registers.set_of_ne _ _ (by decide), Registers.set_self (by decide)]
  have x30 : last.x 30#5 = BitVec.ofInt 64 (site.entry (k + 1)) := by
    simp only [last, after, before, exec, Registers.set_self (show (30#5 : Register) ≠ 31#5 by decide), next]
    congr 1
    omega
  have other : ∀ r, r ≠ 17#5 → r ≠ 30#5 → last.x r = cpu.x r := by
    intro r not17 not30
    simp only [last, after, before, exec, load, Literal.words, literal, addressWords]
    rw [Registers.set_of_ne _ _ not30, Registers.set_of_ne _ _ not17]
  refine ⟨_, (one.trans two).trans three, .leaves (by rwa [exec, atSource])
    ⟨?_, ?_, fun r not17 not30 => ?_, .inr ⟨k + 1, bound, ?_, x30⟩⟩⟩
  · rw [exec, exec, Registers.get, if_neg (by decide), x17, toNat_address nonneg bounded, atSource]
  · simp only [last, after, before, exec, load, Literal.words, literal, addressWords]
  · simp only [exec, other r not17 not30, Registers.set_of_ne _ _ not30]
  · simp only [exec, atSource, Registers.set_self (show (30#5 : Register) ≠ 31#5 by decide)]
    congr 1
    push_cast
    omega

theorem does_test {condition : Word}
    (decoded : decode (site.memory (site.basep + 4 * k)) = .test condition offset)
    (reaches : site.Reaches (site.basep + 4 * k + offset)) (multiple : (site.basep + 4 * k + offset) % 4 = 0)
    (next : site.entry (k + 1) = address + 4) (held : Holds image address [word])
    (written : decode word = .test condition (site.landing (site.basep + 4 * k + offset) - address)) :
    Does isa image site k address := by
  intro cpu atSource _
  rw [step_source atSource decoded]
  have run : Run isa image { cpu with pc := address }
      (exec isa image { cpu with pc := address }
        (.test condition (site.landing (site.basep + 4 * k + offset) - address))) := run_exec held.1 written
  refine ⟨_, run, ?_⟩
  by_cases taken : isa.taken condition cpu.x cpu.rest = true
  · have lands := Follows.lands k (exec isa site.memory cpu (.test condition offset))
      (by rwa [exec, if_pos taken, atSource]) (by rwa [exec, if_pos taken, atSource])
    simpa [exec, taken, atSource] using lands
  · refine .falls ?_ ?_
    · rw [exec, if_neg taken, atSource]
      push_cast
      omega
    · simp [exec, taken, next]

/-- The branch skips a jump over the far jump. -/
theorem does_test_far {condition : Word}
    (decoded : decode (site.memory (site.basep + 4 * k)) = .test condition offset)
    (outside : site.isInFixingRange (site.basep + 4 * k + offset) = false)
    (nonneg : 0 ≤ site.basep + 4 * k + offset) (bounded : site.basep + 4 * k + offset < 2 ^ 64)
    (next : site.entry (k + 1) = address + 24)
    (held : Holds image address
      ([word, 0x14000005#32, 0x58000051#32, 0xd61f0220#32] ++ addressWords (site.basep + 4 * k + offset)))
    (written : decode word = .test condition 8) : Does isa image site k address := by
  intro cpu atSource _
  rw [step_source atSource decoded]
  obtain ⟨first, second, third⟩ := held
  have run : Run isa image { cpu with pc := address }
      (exec isa image { cpu with pc := address } (.test condition 8)) := run_exec first written
  by_cases taken : isa.taken condition cpu.x cpu.rest = true
  · have eight : address + 4 + 4 = address + 8 := by omega
    rw [eight] at third
    have far : Run isa image { cpu with pc := address + 8 } _ := run_farAddress nonneg bounded third
    rw [exec, if_pos taken] at run
    refine ⟨_, run.trans far, .leaves (by rwa [exec, if_pos taken, atSource]) (.of_x17 ?_ rfl fun r other => ?_)⟩
    · rw [exec, if_pos taken, atSource]
    · exact Registers.set_of_ne _ _ other
  · have skipped : decode 0x14000005#32 = .b 20 := by decide
    have skip : Run isa image { cpu with pc := address + 4 }
        (exec isa image { cpu with pc := address + 4 } (.b 20)) := run_exec second skipped
    rw [exec, if_neg taken] at run
    refine ⟨_, run.trans skip, .falls ?_ ?_⟩
    · rw [exec, if_neg taken, atSource]
      push_cast
      omega
    · rw [exec, exec, if_neg taken, next, add_assoc]
      rfl

theorem words_load (kind : Literal) (rt : Register) (data : List Word) (cpu : Cpu σ) (pc : Int) :
    { load isa kind rt data { cpu with pc := address } with pc := pc } =
      { load isa kind rt data cpu with pc := pc } := by
  unfold load
  split <;> rfl

theorem does_ldr {kind : Literal} {rt : Register}
    (decoded : decode (site.memory (site.basep + 4 * k)) = .ldr kind rt offset)
    (next : site.entry (k + 1) = address + 4) (held : Holds image address [word])
    (written : decode word = .ldr kind rt (site.basep + 4 * k + offset - address))
    (same : image.words (site.basep + 4 * k + offset) kind.words =
      site.memory.words (site.basep + 4 * k + offset) kind.words) : Does isa image site k address := by
  intro cpu atSource _
  rw [step_source atSource decoded]
  have run : Run isa image { cpu with pc := address }
      (exec isa image { cpu with pc := address } (.ldr kind rt (site.basep + 4 * k + offset - address))) :=
    run_exec held.1 written
  have target : address + (site.basep + 4 * k + offset - address) = site.basep + 4 * k + offset := by omega
  refine ⟨_, run, .falls ?_ ?_⟩
  · rw [exec, atSource]
    push_cast
    omega
  · simp only [exec, target, same, atSource, next, words_load]

/-- The literal is copied behind a branch over it. -/
theorem does_ldr_copied {kind : Literal} {rt : Register} {skip : Word} {data : List Word}
    (decoded : decode (site.memory (site.basep + 4 * k)) = .ldr kind rt offset)
    (next : site.entry (k + 1) = address + 8 + 4 * data.length)
    (held : Holds image address (word :: skip :: data)) (written : decode word = .ldr kind rt 8)
    (skipped : decode skip = .b (4 * (data.length + 1)))
    (copied : ∃ more, data = site.memory.words (site.basep + 4 * k + offset) kind.words ++ more) :
    Does isa image site k address := by
  intro cpu atSource _
  rw [step_source atSource decoded]
  obtain ⟨first, second, third⟩ := held
  obtain ⟨more, split⟩ := copied
  have eight : address + 4 + 4 = address + 8 := by omega
  rw [split, holds_append, eight] at third
  have literal : image.words (address + 8) kind.words = site.memory.words (site.basep + 4 * k + offset) kind.words := by
    have reads := third.1.reads
    rwa [words_length] at reads
  let after := exec isa image { cpu with pc := address } (.ldr kind rt 8)
  have one : Run isa image { cpu with pc := address } after := run_exec first written
  have two : Run isa image after (exec isa image after (.b (4 * (data.length + 1)))) := run_exec second skipped
  refine ⟨_, one.trans two, .falls ?_ ?_⟩
  · rw [exec, atSource]
    push_cast
    omega
  · have arrives : address + 4 + 4 * ((data.length : Int) + 1) = site.entry (k + 1) := by omega
    simp only [after, exec, literal, atSource, arrives, words_load]

theorem does_adr {rd : Register} (decoded : decode (site.memory (site.basep + 4 * k)) = .adr rd offset)
    (next : site.entry (k + 1) = address + 4) (held : Holds image address [word])
    (written : decode word = .adr rd (site.basep + 4 * k + offset - address)) : Does isa image site k address := by
  intro cpu atSource _
  rw [step_source atSource decoded]
  have run : Run isa image { cpu with pc := address }
      (exec isa image { cpu with pc := address } (.adr rd (site.basep + 4 * k + offset - address))) :=
    run_exec held.1 written
  have target : address + (site.basep + 4 * k + offset - address) = site.basep + 4 * k + offset := by omega
  refine ⟨_, run, .falls ?_ ?_⟩
  · rw [exec, atSource]
    push_cast
    omega
  · simp only [exec, target, atSource, next]

/-- ADR and ADRP as a load of the address itself. -/
theorem does_addressLoad {absolute : Int}
    (computes : ∀ cpu : Cpu σ, cpu.pc = site.basep + 4 * k → step isa site.memory cpu =
      { cpu with pc := cpu.pc + 4, x := cpu.x.set (reg word) (BitVec.ofInt 64 absolute) })
    (next : site.entry (k + 1) = address + 16) (held : Holds image address (addressLoad word absolute)) :
    Does isa image site k address := by
  intro cpu atSource _
  rw [computes cpu atSource]
  obtain ⟨first, second, low, high, _⟩ := held
  have literal : image.words (address + 8) 2 = addressWords absolute := by
    have eight : address + 8 = address + 4 + 4 := by omega
    rw [Image.words, Image.words, Image.words, eight, low, high]
    rfl
  let after := exec isa image { cpu with pc := address } (.ldr .x (reg word) 8)
  have one : Run isa image { cpu with pc := address } after := run_exec first (decode_addressLoad word)
  have skipped : decode 0x14000003#32 = .b 12 := by decide
  have two : Run isa image after (exec isa image after (.b 12)) := run_exec second skipped
  refine ⟨_, one.trans two, .falls ?_ ?_⟩
  · rw [atSource]
    push_cast
    omega
  · have arrives : address + 4 + 12 = site.entry (k + 1) := by omega
    simp only [after, exec, load, Literal.words, literal, addressWords, double_addressWords, arrives]

/-- The instructions that never look at the program counter. -/
theorem decode_plain (plain : Kind.Of word .plain) :
    (∃ rn, decode word = .br rn) ∨ decode word = .nop ∨ decode word = .other word := by
  cases plain with
  | plain branch test prefetch load adr adrp =>
      simp only [condMask] at test
      simp only [loadMask] at load
      have cond : word &&& 0xff000010#32 ≠ 0x54000000#32 := fun opcode => by simp [opcode] at test
      rw [if_neg cond] at test
      have comp : ¬ (word &&& 0x7f000000#32 = 0x34000000#32 ∨ word &&& 0x7f000000#32 = 0x35000000#32) :=
        fun opcode => by simp [opcode] at test
      rw [if_neg comp] at test
      have testBit : ¬ (word &&& 0x7f000000#32 = 0x36000000#32 ∨ word &&& 0x7f000000#32 = 0x37000000#32) :=
        fun opcode => by simp [opcode] at test
      have general : word &&& 0xbf000000#32 ≠ 0x18000000#32 := fun opcode => by simp [opcode] at load
      rw [if_neg general] at load
      have vector : word &&& 0x3f000000#32 ≠ 0x1c000000#32 := fun opcode => by simp [opcode] at load
      rw [if_neg vector] at load
      have signed : word &&& 0xff000000#32 ≠ 0x98000000#32 := fun opcode => by simp [opcode] at load
      -- each literal load has the bits of one of the three forms
      have general' (value : Word) (bits : value &&& 0xbf000000#32 = 0x18000000#32) :
          word &&& 0xff000000#32 ≠ value := fun opcode => general (by
        rw [← bits, ← opcode, BitVec.and_assoc]
        rfl)
      have vector' (value : Word) (bits : value &&& 0x3f000000#32 = 0x1c000000#32) :
          word &&& 0xff000000#32 ≠ value := fun opcode => vector (by
        rw [← bits, ← opcode, BitVec.and_assoc]
        rfl)
      rw [decode, if_neg fun opcode => branch (.inl opcode), if_neg fun opcode => branch (.inr opcode), if_neg cond,
        if_neg comp, if_neg testBit, if_neg prefetch, if_neg (general' _ (by decide)), if_neg (general' _ (by decide)),
        if_neg signed, if_neg (vector' _ (by decide)), if_neg (vector' _ (by decide)), if_neg (vector' _ (by decide)),
        if_neg adr, if_neg adrp]
      split
      · exact .inl ⟨_, rfl⟩
      · split
        · exact .inr (.inl rfl)
        · exact .inr (.inr rfl)

theorem does_plain (plain : Kind.Of (site.memory (site.basep + 4 * k)) .plain) (bound : k < site.count)
    (next : site.entry (k + 1) = address + 4) (held : Holds image address [site.memory (site.basep + 4 * k)]) :
    Does isa image site k address := by
  intro cpu atSource direct
  rw [Site.Direct, atSource] at direct
  have after : site.basep + 4 * (k : Int) + 4 = site.basep + 4 * ((k + 1 : Nat) : Int) := by
    push_cast
    omega
  have run {instruction : Instruction} (decoded : decode (site.memory (site.basep + 4 * k)) = instruction) :
      Run isa image { cpu with pc := address } (exec isa image { cpu with pc := address } instruction) :=
    run_exec held.1 decoded
  rcases decode_plain plain with ⟨rn, decoded⟩ | decoded | decoded
  · rw [decoded] at direct
    rw [step_source atSource decoded] at direct ⊢
    exact ⟨_, run decoded, .leaves (direct trivial) (.of_x17 rfl rfl fun _ _ => rfl)⟩
  · rw [step_source atSource decoded]
    exact ⟨_, run decoded, .falls (by rw [exec, atSource, after]) (by simp only [exec, next])⟩
  · rw [decoded] at direct
    rw [step_source atSource decoded] at direct ⊢
    refine ⟨_, run decoded, ?_⟩
    simp only [exec, Indirect] at direct ⊢
    split at direct
    · exact .falls (by rw [atSource, after]) (by rw [next])
    · exact .leaves (direct (by simp [*])) (.of_x17 rfl rfl fun _ _ => rfl)
    · refine .leaves (direct (by simp [*])) ⟨rfl, rfl, fun r _ other => ?_, .inr ⟨k + 1, bound, ?_, ?_⟩⟩
      · simp only [Registers.set_of_ne _ _ other]
      · simp only [Registers.set_self (show (30#5 : Register) ≠ 31#5 by decide), atSource, after]
      · simp only [Registers.set_self (show (30#5 : Register) ≠ 31#5 by decide), next]

end Smmboss.Hook
