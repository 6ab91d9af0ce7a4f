import Smmboss.Hook.Size

namespace Smmboss.Hook

open Aarch64 BitFields Backpatch

/-! # What the written words mean -/

/-! ### Offsets as the source reads them -/

theorem branch_offset (word : Word) : ((word <<< 6).sshiftRight 4).toInt = imm26 word := by
  have bound := word.isLt
  rw [BitVec.toInt_sshiftRight, Int.shiftRight_eq_div_pow, imm26, BitVec.toInt_eq_toNat_cond,
    BitVec.toInt_eq_toNat_cond, BitVec.toNat_shiftLeft, BitVec.extractLsb'_toNat]
  simp only [Nat.shiftLeft_eq, Nat.shiftRight_zero]
  split <;> split <;> omega

/-- The offset of a compare or conditional branch, when it is forward. -/
theorem test_offset (word : Word) (forward : 0 ≤ imm19 word) :
    (((word &&& ~~~keep19) >>> 3).toNat : Int) = imm19 word := by
  have field := toNat_and_field 5 19 (~~~keep19) word (by decide) (by decide)
  rw [BitVec.toNat_ushiftRight, field, Nat.shiftRight_eq_div_pow]
  simp only [imm19, BitVec.toInt_eq_toNat_cond] at forward ⊢
  split at forward <;> split <;> omega

/-- The offset of a test branch, when it is forward. -/
theorem testBit_offset (word : Word) (forward : 0 ≤ imm14 word) :
    (((word &&& ~~~keep14) >>> 3).toNat : Int) = imm14 word := by
  have field := toNat_and_field 5 14 (~~~keep14) word (by decide) (by decide)
  rw [BitVec.toNat_ushiftRight, field, Nat.shiftRight_eq_div_pow]
  simp only [imm14, BitVec.toInt_eq_toNat_cond] at forward ⊢
  split at forward <;> split <;> omega

theorem imm19_toNat (word : Word) : (word.extractLsb' 5 19).toNat = word.toNat / 32 % 2 ^ 19 := by
  rw [BitVec.extractLsb'_toNat, Nat.shiftRight_eq_div_pow]

theorem load_bits (word : Word) (forward : 0 ≤ imm19 word) :
    ((word <<< 8).sshiftRight 11 &&& ~~~3#32).toNat = word.toNat / 32 % 2 ^ 19 * 4 := by
  have positive : word.toNat / 32 % 2 ^ 19 < 2 ^ 18 := by
    simp only [imm19, BitVec.toInt_eq_toNat_cond, imm19_toNat] at forward
    split at forward <;> omega
  have shifted : (word <<< 8).toNat = word.toNat * 256 % 2 ^ 32 := by
    rw [BitVec.toNat_shiftLeft, Nat.shiftLeft_eq]
  have msb : (word <<< 8).msb = false := by
    rw [BitVec.msb_eq_false_iff_two_mul_lt, shifted]
    omega
  have field := toNat_and_field 2 30 (~~~3#32) ((word <<< 8) >>> 11)
    (by decide) (by decide)
  rw [BitVec.sshiftRight_eq_of_msb_false msb, field, BitVec.extractLsb'_toNat, BitVec.toNat_ushiftRight, shifted,
    Nat.shiftRight_eq_div_pow, Nat.shiftRight_eq_div_pow]
  omega

/-- The offset of a literal load, when it is forward. -/
theorem load_offset (word : Word) (forward : 0 ≤ imm19 word) :
    (((word <<< 8).sshiftRight 11 &&& ~~~3#32).toNat : Int) = imm19 word := by
  rw [load_bits word forward]
  simp only [imm19, BitVec.toInt_eq_toNat_cond, imm19_toNat] at forward ⊢
  split at forward <;> split <;> omega

/-- The immediate of ADR and ADRP, when it is forward. -/
theorem pcrel_offset (word : Word) (forward : 0 ≤ imm21 word) : ((pcrelImm word).toNat : Int) = imm21 word := by
  have low : (word.extractLsb' 29 2).toNat < 4 := BitVec.isLt _
  have high : 0 ≤ imm19 word := by
    simp only [imm21, imm19] at forward ⊢
    omega
  have bits : ((word <<< 1) >>> 30).toNat = (word.extractLsb' 29 2).toNat := by
    have bound := word.isLt
    rw [BitVec.toNat_ushiftRight, BitVec.toNat_shiftLeft, BitVec.extractLsb'_toNat, Nat.shiftRight_eq_div_pow,
      Nat.shiftLeft_eq, Nat.shiftRight_eq_div_pow]
    omega
  have apart : word.toNat / 32 % 2 ^ 19 * 4 ||| (word.extractLsb' 29 2).toNat =
      word.toNat / 32 % 2 ^ 19 * 4 + (word.extractLsb' 29 2).toNat := by
    have sum := Nat.shiftLeft_add_eq_or_of_lt (i := 2) low (word.toNat / 32 % 2 ^ 19)
    rw [Nat.shiftLeft_eq] at sum
    exact sum.symm
  have whole := load_offset word high
  rw [load_bits word high] at whole
  rw [pcrelImm, BitVec.toNat_or, load_bits word high, bits, apart]
  simp only [imm21, imm19] at whole ⊢
  omega

theorem pcrel_page (word : Word) (forward : 0 ≤ imm21 word) :
    ((pcrelImm word <<< 12).toNat : Int) = imm21 word * 4096 % 2 ^ 32 := by
  have whole := pcrel_offset word forward
  rw [BitVec.toNat_shiftLeft, Nat.shiftLeft_eq, ← whole]
  omega

/-! ### Offsets as they are written -/

theorem imm26_written {offset : Int} (lower : -(2 ^ 25 : Int) ≤ offset) (upper : offset < 2 ^ 25) (kept : Word) :
    imm26 (splice 0xfc000000#32 (BitVec.ofInt 32 offset) kept) = offset * 4 := by
  rw [imm26, splice_extract _ _ (by decide) (by decide), toInt_extract_ofInt (by decide) lower upper]

theorem imm19_written {offset : Int} (lower : -(2 ^ 18 : Int) ≤ offset) (upper : offset < 2 ^ 18) (kept : Word) :
    imm19 (splice keep19 (BitVec.ofInt 32 offset <<< 5) kept) = offset * 4 := by
  rw [imm19, splice_extract _ _ (by decide) (by decide), extract_shiftLeft _ (by decide),
    toInt_extract_ofInt (by decide) lower upper]

theorem imm14_written {offset : Int} (lower : -(2 ^ 13 : Int) ≤ offset) (upper : offset < 2 ^ 13) (kept : Word) :
    imm14 (splice keep14 (BitVec.ofInt 32 offset <<< 5) kept) = offset * 4 := by
  rw [imm14, splice_extract _ _ (by decide) (by decide), extract_shiftLeft _ (by decide),
    toInt_extract_ofInt (by decide) lower upper]

theorem reg_splice (field kept : Word) : reg (splice keep19 field kept) = reg kept := by
  exact extract_of_and_eq (splice_and_mask keep19 field kept) (by decide)

/-- A displacement that is shifted as the fixes shift it agrees below the sign. -/
theorem sshiftRight_bit (offset : Int) {place : Nat} (low : place < 30) :
    ((BitVec.ofInt 32 offset).sshiftRight 2).getLsbD place = (BitVec.ofInt 32 (offset / 4)).getLsbD place := by
  have same : ((BitVec.ofInt 32 offset).sshiftRight 2).toNat % 2 ^ 30 =
      (BitVec.ofInt 32 (offset / 4)).toNat % 2 ^ 30 := by
    have shifted := BitVec.toInt_sshiftRight (x := BitVec.ofInt 32 offset) (n := 2)
    rw [Int.shiftRight_eq_div_pow, BitVec.toInt_ofInt, Int.bmod_def, BitVec.toInt_eq_toNat_cond] at shifted
    rw [BitVec.toNat_ofInt]
    split at shifted <;> split at shifted <;> omega
  have bit := congrArg (fun value => value.testBit place) same
  simpa only [Nat.testBit_mod_two_pow, low, decide_true, Bool.true_and, BitVec.testBit_toNat] using bit

/-- The bits above are masked off. -/
theorem sshiftRight_and (offset : Int) (shift : Nat) {mask : Word} (narrow : mask &&& 0xc0000000#32 = 0#32) :
    (BitVec.ofInt 32 offset).sshiftRight 2 <<< shift &&& mask = BitVec.ofInt 32 (offset / 4) <<< shift &&& mask := by
  apply BitVec.eq_of_getLsbD_eq
  intro place inside
  simp only [BitVec.getLsbD_and, BitVec.getLsbD_shiftLeft, inside, decide_true, Bool.true_and]
  by_cases low : place < 30
  · rw [sshiftRight_bit offset (show place - shift < 30 by omega)]
  · have high : (0xc0000000#32).getLsbD place = true := by
      have two : place = 30 ∨ place = 31 := by omega
      rcases two with rfl | rfl <;> rfl
    have clear := congrArg (fun word => word.getLsbD place) narrow
    simp only [BitVec.getLsbD_and, high, Bool.and_true, BitVec.getLsbD_zero] at clear
    rw [clear, Bool.and_false, Bool.and_false]

/-! ### Decoding the written words -/

variable {ins : Word} {offset : Int}

theorem decode_branchWord (lower : -(2 ^ 25 : Int) ≤ offset) (upper : offset < 2 ^ 25)
    (opcode : ins &&& 0xfc000000#32 = 0x14000000#32) :
    decode (ins &&& 0xfc000000#32 ||| (BitVec.ofInt 32 offset &&& ~~~0xfc000000#32)) = .b (offset * 4) := by
  rw [BitVec.or_comm, ← splice, decode_b (by rw [splice_and_mask, opcode]), imm26_written lower upper]

theorem decode_linkWord (lower : -(2 ^ 25 : Int) ≤ offset) (upper : offset < 2 ^ 25)
    (opcode : ins &&& 0xfc000000#32 = 0x94000000#32) :
    decode (ins &&& 0xfc000000#32 ||| (BitVec.ofInt 32 offset &&& ~~~0xfc000000#32)) = .bl (offset * 4) := by
  rw [BitVec.or_comm, ← splice, decode_bl (by rw [splice_and_mask, opcode]), imm26_written lower upper]

/-- The offset of a conditional branch, by the mask of its other bits. -/
def maskedOffset (lmask ins : Word) : Int := if lmask = keep19 then imm19 ins else imm14 ins

/-- The largest offset of a conditional branch, in words. -/
def maskedReach (lmask : Word) : Int := if lmask = keep19 then 2 ^ 18 else 2 ^ 13

theorem condMask_cases {lmask : Word} (masked : condMask ins = some lmask) :
    lmask = keep19 ∨ lmask = keep14 := by
  unfold condMask at masked
  split at masked
  · exact .inl (Option.some.inj masked).symm
  split at masked
  · exact .inl (Option.some.inj masked).symm
  split at masked
  · exact .inr (Option.some.inj masked).symm
  · contradiction

theorem decode_condMask {lmask : Word} (masked : condMask ins = some lmask) :
    decode ins = .test (ins &&& lmask) (maskedOffset lmask ins) := by
  unfold condMask at masked
  split at masked
  · next opcode =>
      cases masked
      exact decode_cond opcode
  split at masked
  · next opcode =>
      cases masked
      exact decode_comp opcode
  split at masked
  · next opcode =>
      cases masked
      exact decode_testBit opcode
  · contradiction

theorem condMask_splice {lmask : Word} (field : Word) (masked : condMask ins = some lmask) :
    condMask (splice lmask field ins) = some lmask := by
  have first : lmask &&& 0xff000010#32 = 0xff000010#32 := by
    rcases condMask_cases masked with rfl | rfl <;> decide
  have second : lmask &&& 0x7f000000#32 = 0x7f000000#32 := by
    rcases condMask_cases masked with rfl | rfl <;> decide
  rw [condMask, splice_and_part field ins first, splice_and_part field ins second]
  exact masked

theorem maskedOffset_written {lmask : Word} (masked : condMask ins = some lmask)
    (lower : -maskedReach lmask ≤ offset) (upper : offset < maskedReach lmask) :
    maskedOffset lmask (splice lmask (BitVec.ofInt 32 offset <<< 5) ins) = offset * 4 := by
  rcases condMask_cases masked with rfl | rfl
  · exact imm19_written lower upper ins
  · exact imm14_written lower upper ins

theorem decode_testWord {lmask : Word} (masked : condMask ins = some lmask)
    (lower : -maskedReach lmask ≤ offset) (upper : offset < maskedReach lmask) :
    decode (((BitVec.ofInt 32 offset <<< 5) &&& ~~~lmask) ||| (ins &&& lmask)) =
      .test (ins &&& lmask) (offset * 4) := by
  rw [← splice, decode_condMask (condMask_splice _ masked), splice_and_mask,
    maskedOffset_written masked lower upper]

theorem masked_offset {lmask : Word} (masked : condMask ins = some lmask) (forward : 0 ≤ maskedOffset lmask ins) :
    (((ins &&& ~~~lmask) >>> 3).toNat : Int) = maskedOffset lmask ins := by
  rcases condMask_cases masked with rfl | rfl
  · exact test_offset ins forward
  · exact testBit_offset ins forward

theorem masked_reach {lmask : Word} (masked : condMask ins = some lmask) :
    ((~~~lmask >>> 6).toNat : Int) = maskedReach lmask - 1 := by
  rcases condMask_cases masked with rfl | rfl <;> decide

/-- The opcode and immediate bits of a wider mask come to the same word. -/
theorem splice_of_agree {mask field : Word}
    (agree : ∀ place < 32, mask.getLsbD place = keep19.getLsbD place ∨ field.getLsbD place = false ∨
      (ins.getLsbD place = true ∧ keep19.getLsbD place = true)) :
    (field &&& ~~~mask) ||| (ins &&& keep19) = splice keep19 field ins := by
  apply BitVec.eq_of_getLsbD_eq
  intro place inside
  simp only [splice, BitVec.getLsbD_or, BitVec.getLsbD_and, BitVec.getLsbD_not, inside, decide_true, Bool.true_and]
  rcases agree place inside with same | low | ⟨one, keep⟩
  · rw [same]
  · simp [low]
  · simp [one, keep]

theorem field_low (word : Word) {place : Nat} (low : place < 5) : (word <<< 5).getLsbD place = false := by
  rw [BitVec.getLsbD_shiftLeft, decide_eq_true low]
  simp

theorem field_high (nonneg : 0 ≤ offset) (upper : offset < 2 ^ 18) {place : Nat} (high : 23 ≤ place) :
    (BitVec.ofInt 32 offset <<< 5).getLsbD place = false := by
  have small : (BitVec.ofInt 32 offset).toNat < 2 ^ 18 := by
    rw [BitVec.toNat_ofInt]
    omega
  have bit : (BitVec.ofInt 32 offset).getLsbD (place - 5) = false :=
    Nat.testBit_lt_two_pow (Nat.lt_of_lt_of_le small (Nat.pow_le_pow_right (by decide) (by omega)))
  rw [BitVec.getLsbD_shiftLeft, bit, Bool.and_false]

/-- The mask the source uses for a literal load, by its form. -/
def loadMaskOf : Literal → Word
  | .w | .x => 0xbf000000#32
  | .s | .d | .q => 0x3f000000#32
  | .sw => 0xff000000#32

/-- The bytes the source copies for a literal, less one; a signed word counts as two. -/
def loadSizeOf : Literal → Nat
  | .w | .s => 3
  | .x | .d | .sw => 7
  | .q => 15

theorem loadMask_literal {mask : Word} {faligned : Nat} (masked : loadMask ins = some (mask, faligned))
    (allocated : ins &&& 0xff000000#32 ≠ 0xdc000000#32) :
    ∃ kind : Literal, ins &&& 0xff000000#32 = kind.opcode ∧ mask = loadMaskOf kind ∧ faligned = loadSizeOf kind := by
  have split30 : ins &&& 0xff000000#32 = (ins &&& 0xbf000000#32) ||| (ins &&& 0x40000000#32) := by
    rw [← BitVec.and_or_distrib_left]
    rfl
  have split31 : ins &&& 0xff000000#32 =
      (ins &&& 0x3f000000#32) ||| (ins &&& 0x40000000#32) ||| (ins &&& 0x80000000#32) := by
    rw [← BitVec.and_or_distrib_left, ← BitVec.and_or_distrib_left]
    rfl
  have bit30 := and_bit ins 0x40000000#32 30 (by decide)
  have bit31 := and_bit ins 0x80000000#32 31 (by decide)
  simp only [loadMask] at masked
  by_cases general : ins &&& 0xbf000000#32 = 0x18000000#32
  · rw [if_pos general] at masked
    rw [general] at split30
    cases masked
    rcases bit30 with zero | one
    · exact ⟨.w, by rw [split30, zero]; decide, rfl, by simp [zero, loadSizeOf]⟩
    · exact ⟨.x, by rw [split30, one]; decide, rfl, by simp [one, loadSizeOf]⟩
  rw [if_neg general] at masked
  by_cases vector : ins &&& 0x3f000000#32 = 0x1c000000#32
  · rw [if_pos vector] at masked
    rw [vector] at split31
    cases masked
    rcases bit30 with zero | one
    · rcases bit31 with low | high
      · exact ⟨.s, by rw [split31, zero, low]; decide, rfl, by simp [zero, low, loadSizeOf]⟩
      · exact ⟨.q, by rw [split31, zero, high]; decide, rfl, by simp [zero, high, loadSizeOf]⟩
    · rcases bit31 with low | high
      · exact ⟨.d, by rw [split31, one, low]; decide, rfl, by simp [one, loadSizeOf]⟩
      · exact absurd (by rw [split31, one, high]; decide) allocated
  rw [if_neg vector] at masked
  by_cases signed : ins &&& 0xff000000#32 = 0x98000000#32
  · rw [if_pos signed] at masked
    cases masked
    exact ⟨.sw, signed, rfl, rfl⟩
  · rw [if_neg signed] at masked
    contradiction

/-- The vector form with both size bits set is no load. -/
theorem decode_unallocated (opcode : ins &&& 0xff000000#32 = 0xdc000000#32) : decode ins = .other ins := by
  rw [decode, if_neg (ne_of_and_eq opcode (by decide)), if_neg (ne_of_and_eq opcode (by decide)),
    if_neg (ne_of_and_eq opcode (by decide)),
    if_neg (not_or.mpr ⟨ne_of_and_eq opcode (by decide), ne_of_and_eq opcode (by decide)⟩),
    if_neg (not_or.mpr ⟨ne_of_and_eq opcode (by decide), ne_of_and_eq opcode (by decide)⟩)]
  iterate 9 rw [if_neg (ne_of_and_eq opcode (by decide))]
  rw [if_neg (ne_of_and_eq opcode (by decide)), if_neg]
  intro same
  rw [same] at opcode
  exact absurd opcode (by decide)

/-- A narrow literal that is near but lower would get the sign of its offset into
its opcode. -/
theorem decode_loadWord {kind : Literal} (opcode : ins &&& 0xff000000#32 = kind.opcode)
    (lower : -(2 ^ 18 : Int) ≤ offset) (upper : offset < 2 ^ 18)
    (safe : 0 ≤ offset ∨ kind = .x ∨ kind = .sw) :
    decode (((BitVec.ofInt 32 offset <<< 5) &&& ~~~(loadMaskOf kind)) ||| (ins &&& keep19)) =
      .ldr kind (reg ins) (offset * 4) := by
  have middle : ∀ place < 32, 5 ≤ place → place < 23 → (loadMaskOf kind).getLsbD place = keep19.getLsbD place := by
    cases kind <;> decide
  have agree : ∀ place < 32, (loadMaskOf kind).getLsbD place = keep19.getLsbD place ∨
      (BitVec.ofInt 32 offset <<< 5).getLsbD place = false ∨
      (ins.getLsbD place = true ∧ keep19.getLsbD place = true) := by
    intro place inside
    by_cases low : place < 5
    · exact .inr (.inl (field_low _ low))
    by_cases inField : place < 23
    · exact .inl (middle place inside (by omega) inField)
    rcases safe with nonneg | rfl | rfl
    · exact .inr (.inl (field_high nonneg upper (by omega)))
    · by_cases bit : place = 30
      · subst bit
        have one := congrArg (fun word => word.getLsbD 30) opcode
        simp only [BitVec.getLsbD_and] at one
        exact .inr (.inr ⟨by simpa [Literal.opcode] using one, by decide⟩)
      · left
        revert place
        decide
    · left
      revert place
      decide
  rw [splice_of_agree agree, decode_ldr (show _ = kind.opcode by rw [splice_and_part _ _ (by decide), opcode]), reg_splice,
    imm19_written lower upper]

/-- A near ADR keeps the two low bits of the offset, and has room for none but zero. -/
theorem decode_adrWord (opcode : ins &&& 0x9f000000#32 = 0x10000000#32) (whole : imm21 ins % 4 = 0)
    (multiple : offset % 4 = 0) (lower : -(2 ^ 20 : Int) ≤ offset) (upper : offset < 2 ^ 20) :
    decode (((BitVec.ofInt 32 offset <<< 3) &&& 0x00ffffff#32) ||| (ins &&& 0xff00001f#32)) =
      .adr (reg ins) offset := by
  have quarter : offset / 4 * 4 = offset := by omega
  have shifted : BitVec.ofInt 32 offset <<< 3 = BitVec.ofInt 32 (offset / 4) <<< 5 := by
    apply BitVec.eq_of_toNat_eq
    simp only [BitVec.toNat_shiftLeft, BitVec.toNat_ofInt, Nat.shiftLeft_eq]
    omega
  have agree : ∀ place < 32, (0xff000000#32).getLsbD place = keep19.getLsbD place ∨
      (BitVec.ofInt 32 (offset / 4) <<< 5).getLsbD place = false ∨
      (ins.getLsbD place = true ∧ keep19.getLsbD place = true) := by
    intro place inside
    by_cases low : place < 5
    · exact .inr (.inl (field_low _ low))
    · left
      revert place
      decide
  have spliced : ((BitVec.ofInt 32 offset <<< 3) &&& 0x00ffffff#32) ||| (ins &&& 0xff00001f#32) =
      splice keep19 (BitVec.ofInt 32 (offset / 4) <<< 5) ins := by
    rw [shifted, ← splice_of_agree agree]
    rfl
  have low : (ins.extractLsb' 29 2).toNat = 0 := by
    have bound : (ins.extractLsb' 29 2).toNat < 4 := BitVec.isLt _
    rw [imm21] at whole
    omega
  have kept : (splice keep19 (BitVec.ofInt 32 (offset / 4) <<< 5) ins).extractLsb' 29 2 = ins.extractLsb' 29 2 :=
    extract_of_and_eq (splice_and_mask _ _ _) (by decide)
  have field := imm19_written (show -(2 ^ 18 : Int) ≤ offset / 4 by omega) (by omega) ins
  rw [imm19] at field
  rw [spliced, decode_adr (by rw [splice_and_part _ _ (by decide), opcode]), reg_splice, imm21, kept, low, field,
    quarter]
  simp

/-! ### The constant words -/

theorem decode_addressLoad (ins : Word) :
    decode (0x58000000#32 ||| ((BitVec.ofInt 32 2 <<< 5) &&& ~~~0x9f000000#32) ||| (ins &&& 0x0000001f#32)) =
      .ldr .x (reg ins) 8 := by
  have spliced : 0x58000000#32 ||| ((BitVec.ofInt 32 2 <<< 5) &&& ~~~0x9f000000#32) ||| (ins &&& 0x0000001f#32) =
      splice 0x0000001f#32 0x58000040#32 ins := rfl
  have opcode : splice 0x0000001f#32 0x58000040#32 ins &&& 0xff000000#32 = Literal.x.opcode := by
    rw [splice_and_outside _ _ (by decide)]
    rfl
  have register : reg (splice 0x0000001f#32 0x58000040#32 ins) = reg ins :=
    extract_of_and_eq (splice_and_mask _ _ _) (by decide)
  have field : imm19 (splice 0x0000001f#32 0x58000040#32 ins) = 8 := by
    rw [imm19, splice_extract _ _ (by decide) (by decide)]
    decide
  rw [spliced, decode_ldr opcode, register, field]

theorem decode_skip {count : Nat} (few : count = 1 ∨ count = 2 ∨ count = 4) :
    decode (0x14000001#32 + BitVec.ofNat 32 count) = .b (4 * (count + 1)) := by
  rcases few with rfl | rfl | rfl <;> decide

theorem double_addressWords (address : Int) :
    double ((BitVec.ofInt 64 address).extractLsb' 0 32) ((BitVec.ofInt 64 address).extractLsb' 32 32) =
      BitVec.ofInt 64 address := by
  apply BitVec.eq_of_getLsbD_eq
  intro place inside
  rw [double, BitVec.getLsbD_append]
  by_cases low : place < 32
  · simp [low]
  · have high : place - 32 < 32 := by omega
    have back : 32 + (place - 32) = place := by omega
    simp [low, high, back]

theorem toNat_address {address : Int} (nonneg : 0 ≤ address) (bounded : address < 2 ^ 64) :
    ((BitVec.ofInt 64 address).toNat : Int) = address := by
  rw [BitVec.toNat_ofInt]
  omega

/-! ### Finishing a word -/

variable {site : Site} {target : Int} {position : Nat}

/-- The fixes of a branch write what the branch would have been written with. -/
theorem finish_branch :
    finish site (0, 0x03ffffff#32) target position
        (ins &&& 0xfc000000#32 ||| (BitVec.ofInt 32 (0 / 4) &&& ~~~0xfc000000#32)) =
      ins &&& 0xfc000000#32 |||
        (BitVec.ofInt 32 ((target - (site.outrx + 4 * position)) / 4) &&& ~~~0xfc000000#32) := by
  simp only [finish]
  rw [sshiftRight_and _ 0 (by decide)]
  simp

theorem finish_test {lmask : Word} (masked : condMask ins = some lmask) :
    finish site (5, ~~~lmask) target position
        (((BitVec.ofInt 32 (0 / 4) <<< 5) &&& ~~~lmask) ||| (ins &&& lmask)) =
      ((BitVec.ofInt 32 ((target - (site.outrx + 4 * position)) / 4) <<< 5) &&& ~~~lmask) ||| (ins &&& lmask) := by
  have narrow : ~~~lmask &&& 0xc0000000#32 = 0#32 := by
    unfold condMask at masked
    split_ifs at masked <;> obtain rfl := Option.some.inj masked <;> decide
  simp only [finish]
  rw [sshiftRight_and _ 5 narrow, BitVec.or_comm]
  simp

/-- The fixes of ADR lose its last two bits. -/
theorem finish_adr (multiple : (target - (site.outrx + 4 * position)) % 4 = 0) :
    finish site (5, 0x00ffffff#32) target position
        (((BitVec.ofInt 32 0 <<< 3) &&& 0x00ffffff#32) ||| (ins &&& 0xff00001f#32)) =
      ((BitVec.ofInt 32 (target - (site.outrx + 4 * position)) <<< 3) &&& 0x00ffffff#32) |||
        (ins &&& 0xff00001f#32) := by
  have whole : target - (site.outrx + 4 * position) = (target - (site.outrx + 4 * position)) / 4 * 4 := by omega
  have bytes : BitVec.ofInt 32 (target - (site.outrx + 4 * position)) <<< 3 =
      BitVec.ofInt 32 ((target - (site.outrx + 4 * position)) / 4) <<< 5 := by
    conv_lhs => rw [whole, BitVec.ofInt_mul, show BitVec.ofInt 32 4 = BitVec.twoPow 32 2 from rfl,
      BitVec.mul_twoPow_eq_shiftLeft, ← BitVec.shiftLeft_add]
  simp only [finish]
  rw [sshiftRight_and _ 5 (by decide), bytes, BitVec.or_comm]
  simp

end Smmboss.Hook
