import Smmboss.Foundation.Backpatch
import Smmboss.Hook.FixInstructions

namespace Smmboss.Hook

open Aarch64 Backpatch

/-! # What one instruction becomes

Each `__fix` function sets the address of the moved instruction, writes some
words, may leave a reference to a later instruction, and finishes the words that
waited for this one.  An emission is the first three.
-/

/-- The shift and the mask a reference is finished with. -/
abbrev FixKind := Nat × Word

structure Emission where
  label : Int
  chunk : Chunk Word FixKind

def finish (site : Site) : Fix Word FixKind := fun kind target position word =>
  word ||| (((BitVec.ofInt 32 (target - (site.outrx + 4 * position))).sshiftRight 2 <<< kind.1) &&& kind.2)

namespace Fixer

variable (site : Site) (fixer : Fixer)

def labels (idx : Nat) : Int := (fixer.dat idx).ins

def refer : Option (Nat × FixKind) → Fixer
  | some (target, kind) => fixer.insertFixMap target ⟨fixer.out.length, kind.1, kind.2⟩
  | none => fixer

/-- The common course of the `__fix` functions. -/
def place (emission : Emission) : Fixer :=
  ((((fixer.resetCurrentIns fixer.index emission.label).refer emission.chunk.ref).write
    emission.chunk.words).advance).processFixMap site fixer.index

end Fixer

/-- An instruction at its place: which one it is, and how many words are before it. -/
structure Spot where
  index : Nat
  position : Nat

namespace Spot

variable (site : Site) (spot : Spot)

def source : Int := site.basep + 4 * spot.index

def here : Int := site.outrx + 4 * spot.position

def ins : Word := site.memory (spot.source site)

end Spot

def Fixer.spot (fixer : Fixer) : Spot := ⟨fixer.index, fixer.out.length⟩

/-- How far away the target is, or which later instruction it is. -/
def displacement (site : Site) (label : Nat → Int) (spot : Spot) (absolute reference : Int) : Int × Option Nat :=
  if site.isInFixingRange absolute then
    if site.getRefInsIndex reference ≤ spot.index then
      (Function.update label spot.index (spot.here site) (site.getRefInsIndex reference) - spot.here site, none)
    else (0, some (site.getRefInsIndex reference))
  else (absolute - spot.here site, none)

/-- One word with the displacement in it. -/
def near (site : Site) (label : Nat → Int) (spot : Spot) (absolute reference : Int) (kind : FixKind)
    (encode : Int → Word) : Emission :=
  let target := displacement site label spot absolute reference
  ⟨spot.here site, [encode target.1], target.2.map fun wanted => (wanted, kind)⟩

/-- Words that find the target by themselves, behind some padding. -/
def far (site : Site) (spot : Spot) (padding : Nat) (words : List Word) : Emission :=
  ⟨spot.here site + 4 * padding, List.replicate padding Aarch64Nop ++ words, none⟩

def branchTarget (site : Site) (spot : Spot) : Int :=
  spot.source site + ((spot.ins site <<< 6).sshiftRight 4).toInt

def branchEmission (site : Site) (label : Nat → Int) (spot : Spot) : Emission :=
  let opc := spot.ins site &&& 0xfc000000#32
  let absolute := branchTarget site spot
  if !site.isInFixingRange absolute && ((absolute - spot.here site) / 4).natAbs ≥ (0x03ffffff#32 >>> 1).toNat then
    if opc = 0x14000000#32 then
      far site spot (if (spot.here site + 8) % 8 = 0 then 0 else 1)
        ([0x58000051#32, 0xd61f0220#32] ++ addressWords absolute)
    else
      far site spot (if (spot.here site + 8) % 8 = 0 then 1 else 0)
        ([0x58000071#32, 0x1000009e#32, 0xd61f0220#32] ++ addressWords absolute)
  else
    near site label spot absolute absolute (0, 0x03ffffff#32) fun offset =>
      opc ||| (BitVec.ofInt 32 (offset / 4) &&& ~~~0xfc000000#32)

def testTarget (site : Site) (spot : Spot) (lmask : Word) : Int :=
  spot.source site + ((spot.ins site &&& ~~~lmask) >>> 3).toNat

def testEmission (site : Site) (label : Nat → Int) (spot : Spot) (lmask : Word) : Emission :=
  let absolute := testTarget site spot lmask
  let encode (offset : Int) : Word := ((BitVec.ofInt 32 offset <<< 5) &&& ~~~lmask) ||| (spot.ins site &&& lmask)
  if !site.isInFixingRange absolute && ((absolute - spot.here site) / 4).natAbs ≥ (~~~lmask >>> 6).toNat then
    { far site spot (if (spot.here site + 16) % 8 = 0 then 0 else 1)
        ([encode 2, 0x14000005#32, 0x58000051#32, 0xd61f0220#32] ++ addressWords absolute) with
      label := spot.here site }
  else near site label spot absolute absolute (5, ~~~lmask) fun offset => encode (offset / 4)

/-- How many turns `while (misaligned(outprx)) NOP` makes. -/
def padding (misaligned : Int → Bool) : Nat → Int → Nat
  | 0, _ => 0
  | turns + 1, address => if misaligned address then padding misaligned turns (address + 4) + 1 else 0

def loadTarget (site : Site) (spot : Spot) : Int :=
  spot.source site + ((spot.ins site <<< 8).sshiftRight 11 &&& ~~~3#32).toNat

def loadEmission (site : Site) (spot : Spot) (mask : Word) (faligned : Nat) : Emission :=
  let absolute := loadTarget site spot
  let encode (offset : Int) : Word :=
    ((BitVec.ofInt 32 offset <<< 5) &&& ~~~mask) ||| (spot.ins site &&& 0xff00001f#32)
  if site.isInFixingRange absolute ||
      ((absolute - spot.here site) / 4).natAbs + (faligned + 1 - 4) / 4 ≥ (~~~0xff00001f#32 >>> 6).toNat then
    far site spot (padding (fun outprx => (outprx + 8) % (faligned + 1) ≠ 0) 4 (spot.here site))
      ([encode 2, 0x14000001#32 + BitVec.ofNat 32 ((faligned + 1) / 4)] ++
        site.memory.words absolute ((faligned + 1) / 4))
  else
    let pad := padding (fun outprx => (absolute - outprx) / 4 % ((faligned / 4 : Nat) + 1) ≠ 0) 4 (spot.here site)
    far site spot pad [encode ((absolute - (spot.here site + 4 * pad)) / 4)]

/-- `LDR Rd, #8` over a literal address. -/
def addressLoad (ins : Word) (absolute : Int) : List Word :=
  [0x58000000#32 ||| ((BitVec.ofInt 32 2 <<< 5) &&& ~~~0x9f000000#32) ||| (ins &&& 0x0000001f#32), 0x14000003#32] ++
    addressWords absolute

def adrTarget (site : Site) (spot : Spot) : Int := spot.source site + (pcrelImm (spot.ins site)).toNat

def adrEmission (site : Site) (label : Nat → Int) (spot : Spot) : Emission :=
  let absolute := adrTarget site spot
  if !site.isInFixingRange absolute && (absolute - spot.here site).natAbs ≥ (0x001fffff#32 >>> 1).toNat then
    far site spot (if (spot.here site + 8) % 8 = 0 then 0 else 1) (addressLoad (spot.ins site) absolute)
  else
    near site label spot absolute (absolute - absolute % 4) (5, 0x00ffffff#32) fun offset =>
      ((BitVec.ofInt 32 offset <<< 3) &&& 0x00ffffff#32) ||| (spot.ins site &&& 0xff00001f#32)

def adrpTarget (site : Site) (spot : Spot) : Int :=
  spot.source site - spot.source site % 4096 + (pcrelImm (spot.ins site) <<< 12).toNat

def adrpEmission (site : Site) (spot : Spot) : Emission :=
  let absolute := adrpTarget site spot
  let written := site.outrw + 4 * spot.position
  if site.isInFixingRange absolute then ⟨written, [spot.ins site], none⟩
  else
    let pad := if (spot.here site + 8) % 8 = 0 then 0 else 1
    { far site spot pad (addressLoad (spot.ins site) absolute) with
      label := if pad = 0 then written else spot.here site + 4 }

/-- Which of the `__fix` functions takes a word. -/
inductive Kind where
  | branch
  | test (lmask : Word)
  | prefetch
  | load (mask : Word) (faligned : Nat)
  | adr
  | adrp
  | plain

def classify (ins : Word) : Kind :=
  if ins &&& 0xfc000000#32 = 0x14000000#32 ∨ ins &&& 0xfc000000#32 = 0x94000000#32 then .branch
  else
    match condMask ins with
    | some lmask => .test lmask
    | none =>
      if ins &&& 0xff000000#32 = 0xd8000000#32 then .prefetch
      else
        match loadMask ins with
        | some (mask, faligned) => .load mask faligned
        | none =>
          if ins &&& 0x9f000000#32 = 0x10000000#32 then .adr
          else if ins &&& 0x9f000000#32 = 0x90000000#32 then .adrp
          else .plain

/-- What is known of a word of each kind. -/
inductive Kind.Of (ins : Word) : Kind → Prop where
  | branch (opcode : ins &&& 0xfc000000#32 = 0x14000000#32 ∨ ins &&& 0xfc000000#32 = 0x94000000#32) : Of ins .branch
  | test (masked : condMask ins = some lmask) : Of ins (.test lmask)
  | prefetch (opcode : ins &&& 0xff000000#32 = 0xd8000000#32) : Of ins .prefetch
  | load (masked : loadMask ins = some (mask, faligned)) : Of ins (.load mask faligned)
  | adr (opcode : ins &&& 0x9f000000#32 = 0x10000000#32) : Of ins .adr
  | adrp (opcode : ins &&& 0x9f000000#32 = 0x90000000#32) : Of ins .adrp
  | plain (branch : ¬ (ins &&& 0xfc000000#32 = 0x14000000#32 ∨ ins &&& 0xfc000000#32 = 0x94000000#32))
      (test : condMask ins = none) (prefetch : ins &&& 0xff000000#32 ≠ 0xd8000000#32)
      (load : loadMask ins = none) (adr : ins &&& 0x9f000000#32 ≠ 0x10000000#32)
      (adrp : ins &&& 0x9f000000#32 ≠ 0x90000000#32) : Of ins .plain

theorem classify_of (ins : Word) : Kind.Of ins (classify ins) := by
  unfold classify
  split
  · next opcode => exact .branch opcode
  next notBranch =>
  split
  · next lmask masked => exact .test masked
  next notTest =>
  split
  · next opcode => exact .prefetch opcode
  next notPrefetch =>
  split
  · next mask faligned masked => exact .load masked
  next notLoad =>
  split
  · next opcode => exact .adr opcode
  next notAdr =>
  split
  · next opcode => exact .adrp opcode
  next notAdrp => exact .plain notBranch notTest notPrefetch notLoad notAdr notAdrp

/-- What the instruction at a spot becomes. -/
def emission (site : Site) (label : Nat → Int) (spot : Spot) : Emission :=
  match classify (spot.ins site) with
  | .branch => branchEmission site label spot
  | .test lmask => testEmission site label spot lmask
  | .prefetch => ⟨spot.here site, [], none⟩
  | .load mask faligned => loadEmission site spot mask faligned
  | .adr => adrEmission site label spot
  | .adrp => adrpEmission site spot
  | .plain => ⟨spot.here site, [spot.ins site], none⟩

/-! ### The functions of the source follow that course -/

variable {site : Site} {fixer : Fixer}

@[simp] theorem getRefInsIndex_source (site : Site) (spot : Spot) :
    site.getRefInsIndex (spot.source site) = spot.index := by
  simp only [Site.getRefInsIndex, Spot.source]
  omega

@[simp] theorem spot_index (fixer : Fixer) : fixer.spot.index = fixer.index := rfl

@[simp] theorem resetCurrentIns_twice (fixer : Fixer) (idx : Nat) (first second : Int) :
    (fixer.resetCurrentIns idx first).resetCurrentIns idx second = fixer.resetCurrentIns idx second := by
  simp [Fixer.resetCurrentIns]

@[simp] theorem resetCurrentIns_write (fixer : Fixer) (words : List Word) (idx : Nat) (outp : Int) :
    (fixer.write words).resetCurrentIns idx outp = (fixer.resetCurrentIns idx outp).write words := rfl

@[simp] theorem write_write (fixer : Fixer) (first second : List Word) :
    (fixer.write first).write second = fixer.write (first ++ second) := by
  simp [Fixer.write]

@[simp] theorem labels_resetCurrentIns (fixer : Fixer) (idx : Nat) (outp : Int) (other : Nat) :
    ((fixer.resetCurrentIns idx outp).dat other).ins = Function.update fixer.labels idx outp other := by
  by_cases same : other = idx
  · subst same
    simp [Fixer.resetCurrentIns]
  · simp [Fixer.resetCurrentIns, Fixer.labels, same]

@[simp] theorem outprx_eq_here (site : Site) (fixer : Fixer) :
    fixer.outprx site = fixer.spot.here site := rfl

@[simp] theorem inprx_eq_source (site : Site) (fixer : Fixer) :
    fixer.inprx site = fixer.spot.source site := rfl

@[simp] theorem ins_eq (site : Site) (fixer : Fixer) : fixer.ins site = fixer.spot.ins site := rfl

@[simp] theorem spot_resetCurrentIns (fixer : Fixer) (idx : Nat) (outp : Int) :
    (fixer.resetCurrentIns idx outp).spot = fixer.spot := rfl

@[simp] theorem out_resetCurrentIns (fixer : Fixer) (idx : Nat) (outp : Int) :
    (fixer.resetCurrentIns idx outp).out = fixer.out := rfl

@[simp] theorem here_write (site : Site) (fixer : Fixer) (words : List Word) :
    (fixer.write words).spot.here site = fixer.spot.here site + 4 * words.length := by
  simp only [Spot.here, Fixer.spot, Fixer.write, List.length_append]
  omega

@[simp] theorem processFixMap_advance (fixer : Fixer) (idx : Nat) :
    (fixer.processFixMap site idx).advance = fixer.advance.processFixMap site idx := rfl

theorem place_far (pad : Nat) (words : List Word) :
    ((fixer.resetCurrentIns fixer.index (fixer.spot.here site + 4 * pad)).write
        (List.replicate pad Aarch64Nop ++ words)).advance.processFixMap site fixer.index =
      fixer.place site (far site fixer.spot pad words) := rfl

/-- The last lines of every `__fix` function, for a displacement in one word. -/
theorem place_near (encode : Int → Word) (absolute reference : Int) (kind : FixKind) :
    (let fixer' := fixer.resetCurrentIns fixer.index (fixer.spot.here site)
     ((if site.isInFixingRange absolute = true then
        if site.getRefInsIndex reference ≤ fixer.index then
          fixer'.write [encode ((fixer'.dat (site.getRefInsIndex reference)).ins - fixer.spot.here site)]
        else
          (fixer'.insertFixMap (site.getRefInsIndex reference) ⟨fixer.out.length, kind.1, kind.2⟩).write [encode 0]
      else fixer'.write [encode (absolute - fixer.spot.here site)]).advance).processFixMap site fixer.index) =
      fixer.place site (near site fixer.labels fixer.spot absolute reference kind encode) := by
  simp only [Fixer.place, near, displacement, labels_resetCurrentIns]
  by_cases inside : site.isInFixingRange absolute = true
  · by_cases back : site.getRefInsIndex reference ≤ fixer.index
    · have backSpot : site.getRefInsIndex reference ≤ fixer.spot.index := back
      simp only [inside, back, backSpot, if_true]
      rfl
    · have backSpot : ¬ site.getRefInsIndex reference ≤ fixer.spot.index := back
      simp only [inside, back, backSpot, if_true, if_false]
      rfl
  · simp only [inside]
    rfl

theorem fixBranchImm_eq (opcode : fixer.spot.ins site &&& 0xfc000000#32 = 0x14000000#32 ∨
      fixer.spot.ins site &&& 0xfc000000#32 = 0x94000000#32) :
    fixBranchImm site fixer = some (fixer.place site (branchEmission site fixer.labels fixer.spot)) := by
  simp only [fixBranchImm, branchEmission, Fixer.getAndSetCurrentIndex, ins_eq, getRefInsIndex_source, spot_index,
    outprx_eq_here, inprx_eq_source, spot_resetCurrentIns, out_resetCurrentIns, ← branchTarget.eq_def, opcode,
    if_true, Option.some.injEq, here_write, resetCurrentIns_write, resetCurrentIns_twice]
  by_cases apart : (!site.isInFixingRange (branchTarget site fixer.spot) &&
      decide (((branchTarget site fixer.spot - fixer.spot.here site) / 4).natAbs ≥ (0x03ffffff#32 >>> 1).toNat)) = true
  · rw [if_pos apart, if_pos apart]
    by_cases aligned : (fixer.spot.here site + 8) % 8 = 0
    · simp only [aligned, if_true]
      split
      · simp [← place_far]
      · simp [← place_far]
    · simp only [aligned, if_false]
      split
      · simp [← place_far]
      · simp [← place_far]
  · rw [if_neg apart, if_neg apart, ← place_near]
    rfl

theorem fixCondCompTestBranch_eq {lmask : Word} (masked : condMask (fixer.spot.ins site) = some lmask) :
    fixCondCompTestBranch site fixer = some (fixer.place site (testEmission site fixer.labels fixer.spot lmask)) := by
  simp only [fixCondCompTestBranch, testEmission, masked, Fixer.getAndSetCurrentIndex, ins_eq, getRefInsIndex_source,
    spot_index, outprx_eq_here, inprx_eq_source, spot_resetCurrentIns, out_resetCurrentIns, ← testTarget.eq_def,
    Option.some.injEq, resetCurrentIns_twice]
  by_cases apart : (!site.isInFixingRange (testTarget site fixer.spot lmask) &&
      decide (((testTarget site fixer.spot lmask - fixer.spot.here site) / 4).natAbs ≥ (~~~lmask >>> 6).toNat)) = true
  · rw [if_pos apart, if_pos apart]
    by_cases aligned : (fixer.spot.here site + 16) % 8 = 0
    · simp only [aligned, if_true]
      rfl
    · simp only [aligned, if_false, write_write]
      rfl
  · rw [if_neg apart, if_neg apart, ← place_near]
    rfl

/-- The padding loop writes its NOPs one at a time. -/
theorem nopWhile_eq (misaligned : Int → Bool) (turns : Nat) (fixer : Fixer) :
    fixer.nopWhile site misaligned turns =
      fixer.write (List.replicate (padding misaligned turns (fixer.spot.here site)) Aarch64Nop) := by
  induction turns generalizing fixer with
  | zero => simp [Fixer.nopWhile, padding, Fixer.write]
  | succ turns ih =>
      rw [Fixer.nopWhile, padding]
      by_cases more : misaligned (fixer.spot.here site) = true
      · rw [if_pos more, if_pos (by exact more), ih, write_write, here_write]
        rfl
      · rw [if_neg more, if_neg (by exact more)]
        simp [Fixer.write]

theorem fixLoadlit_eq {mask : Word} {faligned : Nat}
    (prefetch : fixer.spot.ins site &&& 0xff000000#32 ≠ 0xd8000000#32)
    (masked : loadMask (fixer.spot.ins site) = some (mask, faligned)) :
    fixLoadlit site fixer = some (fixer.place site (loadEmission site fixer.spot mask faligned)) := by
  simp only [fixLoadlit, loadEmission, prefetch, masked, Fixer.getAndSetCurrentIndex, ins_eq, getRefInsIndex_source,
    spot_index, outprx_eq_here, inprx_eq_source, spot_resetCurrentIns, ← loadTarget.eq_def, if_false,
    Option.some.injEq, nopWhile_eq, here_write, resetCurrentIns_write, resetCurrentIns_twice, List.length_replicate,
    write_write]
  by_cases copied : (site.isInFixingRange (loadTarget site fixer.spot) ||
      decide (((loadTarget site fixer.spot - fixer.spot.here site) / 4).natAbs + (faligned + 1 - 4) / 4 ≥
        (~~~0xff00001f#32 >>> 6).toNat)) = true
  · rw [if_pos copied, if_pos copied]
    rfl
  · rw [if_neg copied, if_neg copied]
    rfl

theorem fixLoadlit_prefetch (prefetch : fixer.spot.ins site &&& 0xff000000#32 = 0xd8000000#32) :
    fixLoadlit site fixer = some (fixer.place site ⟨fixer.spot.here site, [], none⟩) := by
  simp only [fixLoadlit, prefetch, Fixer.getAndSetCurrentIndex, ins_eq, getRefInsIndex_source, spot_index,
    outprx_eq_here, inprx_eq_source, if_true, Option.some.injEq]
  simp [Fixer.place, Fixer.refer, Fixer.processFixMap, Fixer.advance, Fixer.write]

theorem fixPcreladdr_adr (opcode : fixer.spot.ins site &&& 0x9f000000#32 = 0x10000000#32) :
    fixPcreladdr site fixer = some (fixer.place site (adrEmission site fixer.labels fixer.spot)) := by
  simp only [fixPcreladdr, adrEmission, opcode, Fixer.getAndSetCurrentIndex, ins_eq, getRefInsIndex_source,
    spot_index, outprx_eq_here, inprx_eq_source, spot_resetCurrentIns, out_resetCurrentIns, ← adrTarget.eq_def,
    if_true, Option.some.injEq, here_write, resetCurrentIns_write, resetCurrentIns_twice]
  by_cases apart : (!site.isInFixingRange (adrTarget site fixer.spot) &&
      decide ((adrTarget site fixer.spot - fixer.spot.here site).natAbs ≥ (0x001fffff#32 >>> 1).toNat)) = true
  · rw [if_pos apart, if_pos apart]
    by_cases aligned : (fixer.spot.here site + 8) % 8 = 0
    · simp only [aligned, if_true, ← place_far]
      simp [addressLoad]
    · simp only [aligned, if_false, write_write]
      rfl
  · rw [if_neg apart, if_neg apart, ← place_near]
    rfl

theorem fixPcreladdr_adrp (opcode : fixer.spot.ins site &&& 0x9f000000#32 = 0x90000000#32) :
    fixPcreladdr site fixer = some (fixer.place site (adrpEmission site fixer.spot)) := by
  simp only [fixPcreladdr, adrpEmission, opcode, Fixer.getAndSetCurrentIndex, ins_eq, getRefInsIndex_source,
    spot_index, outprx_eq_here, inprx_eq_source, spot_resetCurrentIns, ← adrpTarget.eq_def,
    if_true, here_write, resetCurrentIns_write, resetCurrentIns_twice]
  rw [if_neg (by decide), Option.some.injEq]
  by_cases inside : site.isInFixingRange (adrpTarget site fixer.spot) = true
  · rw [if_pos inside, if_pos inside]
    rfl
  · rw [if_neg inside, if_neg inside]
    by_cases aligned : (fixer.spot.here site + 8) % 8 = 0
    · simp only [aligned, if_true]
      rfl
    · simp only [aligned, if_false, write_write]
      rfl

def FixInfo.entry (fix : FixInfo) : Nat × FixKind := (fix.bpr, fix.ls, fix.ad)

theorem processFixMap_out (fixer : Fixer) (idx : Nat) :
    (fixer.processFixMap site idx).out =
      ((fixer.dat idx).fmap.map FixInfo.entry).foldl (patch (finish site) (fixer.dat idx).ins) fixer.out := by
  rw [List.foldl_map]
  rfl

/-- A word without PC-relative offset is copied after the fixes, which do not reach it. -/
theorem place_plain (earlier : ∀ fix ∈ (fixer.dat fixer.index).fmap, fix.bpr < fixer.out.length) (word : Word) :
    (((fixer.resetCurrentIns fixer.index (fixer.spot.here site)).processFixMap site fixer.index).write
        [word]).advance = fixer.place site ⟨fixer.spot.here site, [word], none⟩ := by
  let fixer' := fixer.resetCurrentIns fixer.index (fixer.spot.here site)
  have inside : ∀ entry ∈ (fixer'.dat fixer.index).fmap.map FixInfo.entry, entry.1 < fixer'.out.length := by
    intro entry member
    obtain ⟨fix, atFix, rfl⟩ := List.mem_map.mp member
    exact earlier fix (by simpa [fixer', Fixer.resetCurrentIns] using atFix)
  have same : (fixer'.processFixMap site fixer.index).out ++ [word] =
      ((fixer'.write [word]).processFixMap site fixer.index).out := by
    rw [processFixMap_out, processFixMap_out, ← patch_append inside]
    rfl
  simp only [Fixer.place, Fixer.refer, ← processFixMap_advance]
  exact congrArg (fun out => Fixer.advance { (fixer'.processFixMap site fixer.index) with out := out }) same

theorem fixBranchImm_none (opcode : ¬ (fixer.spot.ins site &&& 0xfc000000#32 = 0x14000000#32 ∨
    fixer.spot.ins site &&& 0xfc000000#32 = 0x94000000#32)) : fixBranchImm site fixer = none := by
  simp only [fixBranchImm, ins_eq]
  rw [if_neg opcode]

theorem fixCondCompTestBranch_none (masked : condMask (fixer.spot.ins site) = none) :
    fixCondCompTestBranch site fixer = none := by
  simp only [fixCondCompTestBranch, ins_eq, masked]

theorem fixLoadlit_none (prefetch : fixer.spot.ins site &&& 0xff000000#32 ≠ 0xd8000000#32)
    (masked : loadMask (fixer.spot.ins site) = none) : fixLoadlit site fixer = none := by
  simp only [fixLoadlit, ins_eq, masked]
  rw [if_neg prefetch]

theorem fixPcreladdr_none (adr : fixer.spot.ins site &&& 0x9f000000#32 ≠ 0x10000000#32)
    (adrp : fixer.spot.ins site &&& 0x9f000000#32 ≠ 0x90000000#32) : fixPcreladdr site fixer = none := by
  simp only [fixPcreladdr, ins_eq]
  rw [if_neg adr, if_neg adrp]

/-- One turn of the loop lays down one emission. -/
theorem fixInstruction_eq (earlier : ∀ fix ∈ (fixer.dat fixer.index).fmap, fix.bpr < fixer.out.length) :
    fixInstruction site fixer = fixer.place site (emission site fixer.labels fixer.spot) := by
  unfold fixInstruction emission classify
  by_cases branch : fixer.spot.ins site &&& 0xfc000000#32 = 0x14000000#32 ∨
      fixer.spot.ins site &&& 0xfc000000#32 = 0x94000000#32
  · rw [fixBranchImm_eq branch, if_pos branch]
  rw [fixBranchImm_none branch, if_neg branch]
  cases masked : condMask (fixer.spot.ins site) with
  | some lmask => rw [fixCondCompTestBranch_eq masked]
  | none =>
      rw [fixCondCompTestBranch_none masked]
      by_cases prefetch : fixer.spot.ins site &&& 0xff000000#32 = 0xd8000000#32
      · simp only [fixLoadlit_prefetch prefetch, prefetch, if_true]
      simp only [prefetch, if_false]
      cases loaded : loadMask (fixer.spot.ins site) with
      | some found =>
          obtain ⟨mask, faligned⟩ := found
          rw [fixLoadlit_eq prefetch loaded]
      | none =>
          rw [fixLoadlit_none prefetch loaded]
          by_cases adr : fixer.spot.ins site &&& 0x9f000000#32 = 0x10000000#32
          · simp only [fixPcreladdr_adr adr, adr, if_true]
          by_cases adrp : fixer.spot.ins site &&& 0x9f000000#32 = 0x90000000#32
          · simp only [fixPcreladdr_adrp adrp, if_neg adr, if_pos adrp]
          simp only [fixPcreladdr_none adr adrp, if_neg adr, if_neg adrp, ← place_plain earlier,
            Fixer.getAndSetCurrentIndex, ins_eq, getRefInsIndex_source, outprx_eq_here, inprx_eq_source, spot_index]

end Smmboss.Hook
