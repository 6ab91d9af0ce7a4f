import Mathlib.Logic.Function.Basic
import Mathlib.Logic.Relation
import Smmboss.Foundation.BitFields

namespace Smmboss.Aarch64

open BitFields

/-! # PC-relative AArch64

The instructions whose meaning depends on where they stand, written out; every
other instruction is a parameter that never sees the program counter.
-/

abbrev Word := BitVec 32

abbrev Register := BitVec 5

/-- The forms of a load from a PC-relative literal. -/
inductive Literal where
  | w | x | sw | s | d | q
  deriving DecidableEq, Repr

def Literal.words : Literal → Nat
  | .w | .sw | .s => 1
  | .x | .d => 2
  | .q => 4

inductive Instruction where
  | b (offset : Int)
  | bl (offset : Int)
  /-- A conditional, compare or test branch: the word with its offset cleared. -/
  | test (condition : Word) (offset : Int)
  | ldr (kind : Literal) (rt : Register) (offset : Int)
  | prfm
  | adr (rd : Register) (offset : Int)
  | adrp (rd : Register) (offset : Int)
  | br (rn : Register)
  | nop
  | other (word : Word)
  deriving DecidableEq, Repr

def imm26 (word : Word) : Int := (word.extractLsb' 0 26).toInt * 4

def imm19 (word : Word) : Int := (word.extractLsb' 5 19).toInt * 4

def imm14 (word : Word) : Int := (word.extractLsb' 5 14).toInt * 4

def imm21 (word : Word) : Int := (word.extractLsb' 5 19).toInt * 4 + (word.extractLsb' 29 2).toNat

def reg (word : Word) : Register := word.extractLsb' 0 5

/-- What is left of a word with a 19-bit offset when the offset is cleared. -/
def keep19 : Word := 0xff00001f#32

/-- What is left of a word with a 14-bit offset when the offset is cleared. -/
def keep14 : Word := 0xfff8001f#32

def decode (word : Word) : Instruction :=
  if word &&& 0xfc000000#32 = 0x14000000#32 then .b (imm26 word)
  else if word &&& 0xfc000000#32 = 0x94000000#32 then .bl (imm26 word)
  else if word &&& 0xff000010#32 = 0x54000000#32 then .test (word &&& keep19) (imm19 word)
  else if word &&& 0x7f000000#32 = 0x34000000#32 ∨ word &&& 0x7f000000#32 = 0x35000000#32 then
    .test (word &&& keep19) (imm19 word)
  else if word &&& 0x7f000000#32 = 0x36000000#32 ∨ word &&& 0x7f000000#32 = 0x37000000#32 then
    .test (word &&& keep14) (imm14 word)
  else if word &&& 0xff000000#32 = 0xd8000000#32 then .prfm
  else if word &&& 0xff000000#32 = 0x18000000#32 then .ldr .w (reg word) (imm19 word)
  else if word &&& 0xff000000#32 = 0x58000000#32 then .ldr .x (reg word) (imm19 word)
  else if word &&& 0xff000000#32 = 0x98000000#32 then .ldr .sw (reg word) (imm19 word)
  else if word &&& 0xff000000#32 = 0x1c000000#32 then .ldr .s (reg word) (imm19 word)
  else if word &&& 0xff000000#32 = 0x5c000000#32 then .ldr .d (reg word) (imm19 word)
  else if word &&& 0xff000000#32 = 0x9c000000#32 then .ldr .q (reg word) (imm19 word)
  else if word &&& 0x9f000000#32 = 0x10000000#32 then .adr (reg word) (imm21 word)
  else if word &&& 0x9f000000#32 = 0x90000000#32 then .adrp (reg word) (imm21 word * 4096)
  else if word &&& 0xfffffc1f#32 = 0xd61f0000#32 then .br (word.extractLsb' 5 5)
  else if word = 0xd503201f#32 then .nop
  else .other word

/-- The general registers; number 31 reads as zero and ignores writes. -/
abbrev Registers := Register → BitVec 64

def Registers.get (x : Registers) (r : Register) : BitVec 64 := if r = 31#5 then 0 else x r

def Registers.set (x : Registers) (r : Register) (value : BitVec 64) : Registers :=
  if r = 31#5 then x else Function.update x r value

theorem Registers.set_of_ne {r other : Register} (x : Registers) (value : BitVec 64) (apart : other ≠ r) :
    x.set r value other = x other := by
  unfold Registers.set
  split
  · rfl
  · exact Function.update_of_ne apart value x

theorem Registers.set_self {r : Register} (general : r ≠ 31#5) (x : Registers) (value : BitVec 64) :
    x.set r value r = value := by
  rw [Registers.set, if_neg general, Function.update_self]

/-- How an instruction outside the PC-relative set goes on. -/
inductive Outcome where
  | next
  | jump (target : BitVec 64)
  | call (target : BitVec 64)

/-- The rest of the machine: flags, vector registers, data memory. -/
structure Isa (σ : Type) where
  taken : Word → Registers → σ → Bool
  setVector : Literal → Register → List Word → σ → σ
  other : Word → Registers → σ → Registers × σ × Outcome

structure Cpu (σ : Type) where
  pc : Int
  x : Registers
  rest : σ

/-- The words of the code, by address. -/
abbrev Image := Int → Word

def Image.words (image : Image) (address : Int) : Nat → List Word
  | 0 => []
  | count + 1 => image address :: image.words (address + 4) count

/-- Two little-endian words as one 64-bit value. -/
def double (low high : Word) : BitVec 64 := high ++ low

variable {σ : Type}

def load (isa : Isa σ) (kind : Literal) (rt : Register) (data : List Word) (cpu : Cpu σ) : Cpu σ :=
  match kind, data with
  | .w, [word] => { cpu with x := cpu.x.set rt (word.setWidth 64) }
  | .x, [low, high] => { cpu with x := cpu.x.set rt (double low high) }
  | .sw, [word] => { cpu with x := cpu.x.set rt (word.signExtend 64) }
  | _, _ => { cpu with rest := isa.setVector kind rt data cpu.rest }

def exec (isa : Isa σ) (image : Image) (cpu : Cpu σ) : Instruction → Cpu σ
  | .b offset => { cpu with pc := cpu.pc + offset }
  | .bl offset => { cpu with pc := cpu.pc + offset, x := cpu.x.set 30#5 (BitVec.ofInt 64 (cpu.pc + 4)) }
  | .test condition offset =>
      { cpu with pc := if isa.taken condition cpu.x cpu.rest then cpu.pc + offset else cpu.pc + 4 }
  | .ldr kind rt offset =>
      { load isa kind rt (image.words (cpu.pc + offset) kind.words) cpu with pc := cpu.pc + 4 }
  | .prfm => { cpu with pc := cpu.pc + 4 }
  | .adr rd offset => { cpu with pc := cpu.pc + 4, x := cpu.x.set rd (BitVec.ofInt 64 (cpu.pc + offset)) }
  | .adrp rd offset =>
      { cpu with pc := cpu.pc + 4
                 x := cpu.x.set rd (BitVec.ofInt 64 (cpu.pc - cpu.pc % 4096 + offset)) }
  | .br rn => { cpu with pc := (cpu.x.get rn).toNat }
  | .nop => { cpu with pc := cpu.pc + 4 }
  | .other word =>
      match isa.other word cpu.x cpu.rest with
      | (x, rest, .next) => { pc := cpu.pc + 4, x := x, rest := rest }
      | (x, rest, .jump target) => { pc := target.toNat, x := x, rest := rest }
      | (x, rest, .call target) =>
          { pc := target.toNat, x := x.set 30#5 (BitVec.ofInt 64 (cpu.pc + 4)), rest := rest }

def step (isa : Isa σ) (image : Image) (cpu : Cpu σ) : Cpu σ :=
  exec isa image cpu (decode (image cpu.pc))

/-- Any number of steps. -/
def Run (isa : Isa σ) (image : Image) : Cpu σ → Cpu σ → Prop :=
  Relation.ReflTransGen fun before after => step isa image before = after

/-- The words stand in the code from the address on. -/
def Holds (image : Image) : Int → List Word → Prop
  | _, [] => True
  | address, word :: words => image address = word ∧ Holds image (address + 4) words

/-! ### Reading a class of instructions -/

variable {word : Word}

theorem decode_b (opcode : word &&& 0xfc000000#32 = 0x14000000#32) : decode word = .b (imm26 word) := by
  rw [decode, if_pos opcode]

theorem decode_bl (opcode : word &&& 0xfc000000#32 = 0x94000000#32) : decode word = .bl (imm26 word) := by
  rw [decode, if_neg (by rw [opcode]; decide), if_pos opcode]

theorem decode_cond (opcode : word &&& 0xff000010#32 = 0x54000000#32) :
    decode word = .test (word &&& keep19) (imm19 word) := by
  rw [decode, if_neg (ne_of_and_eq opcode (by decide)), if_neg (ne_of_and_eq opcode (by decide)), if_pos opcode]

theorem decode_comp
    (opcode : word &&& 0x7f000000#32 = 0x34000000#32 ∨ word &&& 0x7f000000#32 = 0x35000000#32) :
    decode word = .test (word &&& keep19) (imm19 word) := by
  rw [decode]
  rcases opcode with opcode | opcode
  all_goals
    rw [if_neg (ne_of_and_eq opcode (by decide)), if_neg (ne_of_and_eq opcode (by decide)),
      if_neg (ne_of_and_eq opcode (by decide)), if_pos (by simp [opcode])]

theorem decode_testBit
    (opcode : word &&& 0x7f000000#32 = 0x36000000#32 ∨ word &&& 0x7f000000#32 = 0x37000000#32) :
    decode word = .test (word &&& keep14) (imm14 word) := by
  rw [decode]
  rcases opcode with opcode | opcode
  all_goals
    rw [if_neg (ne_of_and_eq opcode (by decide)), if_neg (ne_of_and_eq opcode (by decide)),
      if_neg (ne_of_and_eq opcode (by decide)), if_neg (by simp [opcode]), if_pos (by simp [opcode])]

/-- The top byte of a literal load. -/
def Literal.opcode : Literal → Word
  | .w => 0x18000000#32
  | .x => 0x58000000#32
  | .sw => 0x98000000#32
  | .s => 0x1c000000#32
  | .d => 0x5c000000#32
  | .q => 0x9c000000#32

theorem decode_prfm (opcode : word &&& 0xff000000#32 = 0xd8000000#32) : decode word = .prfm := by
  rw [decode, if_neg (ne_of_and_eq opcode (by decide)), if_neg (ne_of_and_eq opcode (by decide)),
    if_neg (ne_of_and_eq opcode (by decide)),
    if_neg (not_or.mpr ⟨ne_of_and_eq opcode (by decide), ne_of_and_eq opcode (by decide)⟩),
    if_neg (not_or.mpr ⟨ne_of_and_eq opcode (by decide), ne_of_and_eq opcode (by decide)⟩), if_pos opcode]

theorem decode_ldr {kind : Literal} (opcode : word &&& 0xff000000#32 = kind.opcode) :
    decode word = .ldr kind (reg word) (imm19 word) := by
  rw [decode]
  cases kind
  all_goals
    simp only [Literal.opcode] at opcode
    rw [if_neg (ne_of_and_eq opcode (by decide)), if_neg (ne_of_and_eq opcode (by decide)),
      if_neg (ne_of_and_eq opcode (by decide)),
      if_neg (not_or.mpr ⟨ne_of_and_eq opcode (by decide), ne_of_and_eq opcode (by decide)⟩),
      if_neg (not_or.mpr ⟨ne_of_and_eq opcode (by decide), ne_of_and_eq opcode (by decide)⟩)]
    simp [opcode]

theorem decode_adr (opcode : word &&& 0x9f000000#32 = 0x10000000#32) :
    decode word = .adr (reg word) (imm21 word) := by
  rw [decode, if_neg (ne_of_and_eq opcode (by decide)), if_neg (ne_of_and_eq opcode (by decide)),
    if_neg (ne_of_and_eq opcode (by decide)),
    if_neg (not_or.mpr ⟨ne_of_and_eq opcode (by decide), ne_of_and_eq opcode (by decide)⟩),
    if_neg (not_or.mpr ⟨ne_of_and_eq opcode (by decide), ne_of_and_eq opcode (by decide)⟩)]
  iterate 7 rw [if_neg (ne_of_and_eq opcode (by decide))]
  rw [if_pos opcode]

theorem decode_adrp (opcode : word &&& 0x9f000000#32 = 0x90000000#32) :
    decode word = .adrp (reg word) (imm21 word * 4096) := by
  rw [decode, if_neg (ne_of_and_eq opcode (by decide)), if_neg (ne_of_and_eq opcode (by decide)),
    if_neg (ne_of_and_eq opcode (by decide)),
    if_neg (not_or.mpr ⟨ne_of_and_eq opcode (by decide), ne_of_and_eq opcode (by decide)⟩),
    if_neg (not_or.mpr ⟨ne_of_and_eq opcode (by decide), ne_of_and_eq opcode (by decide)⟩)]
  iterate 7 rw [if_neg (ne_of_and_eq opcode (by decide))]
  rw [if_neg (by rw [opcode]; decide), if_pos opcode]

/-! ### Running a few instructions -/

variable {isa : Isa σ} {image : Image} {cpu : Cpu σ} {address : Int} {words : List Word}

theorem Run.trans {first second third : Cpu σ} (one : Run isa image first second)
    (other : Run isa image second third) : Run isa image first third :=
  Relation.ReflTransGen.trans one other

theorem run_exec {instruction : Instruction} (atWord : image cpu.pc = word) (decoded : decode word = instruction) :
    Run isa image cpu (exec isa image cpu instruction) :=
  .single (by rw [step, atWord, decoded])

theorem holds_append (first second : List Word) :
    Holds image address (first ++ second) ↔
      Holds image address first ∧ Holds image (address + 4 * first.length) second := by
  induction first generalizing address with
  | nil => simp [Holds]
  | cons word words ih =>
      have next : address + 4 + 4 * (words.length : Int) = address + 4 * ((words.length + 1 : Nat) : Int) := by
        push_cast
        omega
      rw [List.cons_append, Holds, Holds, ih, List.length_cons, next, and_assoc]

theorem Holds.reads (held : Holds image address words) : image.words address words.length = words := by
  induction words generalizing address with
  | nil => rfl
  | cons word words ih => rw [List.length_cons, Image.words, held.1, ih held.2]

/-! ### Writing words -/

/-- The code after words were written from an address on. -/
def Image.overlay (image : Image) (address : Int) (words : List Word) : Image := fun place =>
  if address ≤ place ∧ (place - address) % 4 = 0 then
    (words[((place - address) / 4).toNat]?).getD (image place)
  else image place

theorem overlay_outside {place : Int} (outside : place < address ∨ address + 4 * words.length ≤ place) :
    image.overlay address words place = image place := by
  unfold Image.overlay
  split
  · next within =>
      have beyond : words.length ≤ ((place - address) / 4).toNat := by omega
      rw [List.getElem?_eq_none beyond, Option.getD_none]
  · rfl

theorem overlay_cons (image : Image) (address : Int) (word : Word) (words : List Word) {place : Int}
    (after : address + 4 ≤ place) :
    image.overlay address (word :: words) place = image.overlay (address + 4) words place := by
  unfold Image.overlay
  by_cases multiple : (place - address) % 4 = 0
  · have index : ((place - address) / 4).toNat = ((place - (address + 4)) / 4).toNat + 1 := by omega
    rw [if_pos ⟨by omega, multiple⟩, if_pos ⟨after, by omega⟩, index, List.getElem?_cons_succ]
  · rw [if_neg fun both => multiple both.2, if_neg fun both => multiple (by omega)]

theorem Holds.congr {other : Image} (held : Holds image address words)
    (same : ∀ place, address ≤ place → place < address + 4 * words.length → other place = image place) :
    Holds other address words := by
  induction words generalizing address with
  | nil => trivial
  | cons word words ih =>
      rw [List.length_cons] at same
      obtain ⟨first, rest⟩ := held
      refine ⟨(same address (Int.le_refl _) (by push_cast; omega)).trans first, ih rest fun place above below => ?_⟩
      exact same place (by omega) (by push_cast; omega)

theorem holds_overlay (image : Image) (address : Int) (words : List Word) :
    Holds (image.overlay address words) address words := by
  induction words generalizing address with
  | nil => trivial
  | cons word words ih =>
      refine ⟨by simp [Image.overlay], (ih (address + 4)).congr fun place above _ => ?_⟩
      exact overlay_cons image address word words above

theorem words_congr {other : Image} {count : Nat}
    (same : ∀ place, address ≤ place → place < address + 4 * count → other place = image place) :
    other.words address count = image.words address count := by
  induction count generalizing address with
  | zero => rfl
  | succ count ih =>
      rw [Image.words, Image.words, same address (Int.le_refl _) (by push_cast; omega), ih]
      intro place above below
      exact same place (by omega) (by push_cast; omega)

theorem decode_nop : decode 0xd503201f#32 = .nop := by decide

theorem run_nops {count : Nat} (held : Holds image cpu.pc (List.replicate count 0xd503201f#32)) :
    Run isa image cpu { cpu with pc := cpu.pc + 4 * count } := by
  induction count generalizing cpu with
  | zero =>
      have stay : cpu.pc + 4 * ((0 : Nat) : Int) = cpu.pc := by omega
      rw [stay]
      exact .refl
  | succ count ih =>
      have next : cpu.pc + 4 + 4 * (count : Int) = cpu.pc + 4 * ((count + 1 : Nat) : Int) := by
        push_cast
        omega
      have rest : Run isa image { cpu with pc := cpu.pc + 4 } { cpu with pc := cpu.pc + 4 + 4 * count } := ih held.2
      rw [← next]
      exact (run_exec held.1 decode_nop).trans rest

/-- `LDR X17, #8; BR X17` and the address. -/
theorem run_farJump {low high : Word} (held : Holds image cpu.pc ([0x58000051#32, 0xd61f0220#32] ++ [low, high])) :
    Run isa image cpu
      { cpu with pc := (double low high).toNat, x := cpu.x.set 17#5 (double low high) } := by
  obtain ⟨first, second, low', high', _⟩ := held
  have loaded : decode 0x58000051#32 = .ldr .x 17#5 8 := by decide
  have jumped : decode 0xd61f0220#32 = .br 17#5 := by decide
  have literal : image.words (cpu.pc + 8) 2 = [low, high] := by
    have eight : cpu.pc + 8 = cpu.pc + 4 + 4 := by omega
    rw [Image.words, Image.words, Image.words, eight, low', high']
  have atJump : image (exec isa image cpu (.ldr .x 17#5 8)).pc = 0xd61f0220#32 := second
  have done := (run_exec first loaded).trans (run_exec atJump jumped)
  simpa [exec, load, Literal.words, literal, Registers.get, Registers.set] using done

end Smmboss.Aarch64
