import Smmboss.Foundation.Aarch64

namespace Smmboss.Hook

open Aarch64

/-! # Moving hooked instructions into a trampoline

Everything is a word: the trampoline is written through one mapping (`outprw`)
and runs at another (`outprx`), and a position in it is the number of words
written so far.
-/

def MaxInstructions : Nat := 5

def TrampolineSize : Nat := MaxInstructions * 10

def MaxReferences : Nat := MaxInstructions * 2

def Aarch64Nop : Word := 0xd503201f#32

/-- A word that still needs the address of a later instruction; `bprw` and
`bprx` point at the same word, given by its position. -/
structure FixInfo where
  bpr : Nat
  ls : Nat
  ad : Word
  deriving DecidableEq, Repr

/-- `fmap` holds the used slots of the array, in order. -/
structure InsnsInfo where
  ins : Int := 0
  fmap : List FixInfo := []
  deriving DecidableEq, Repr

/-- What the relocation is given, and the memory it reads. -/
structure Site where
  basep : Int
  count : Nat
  outrx : Int
  outrw : Int
  memory : Image

def Site.endp (site : Site) : Int := site.basep + 4 * site.count

def Site.isInFixingRange (site : Site) (absolute : Int) : Bool :=
  site.basep ≤ absolute && absolute < site.endp

def Site.getRefInsIndex (site : Site) (absolute : Int) : Nat := ((absolute - site.basep) / 4).toNat

/-- The context and the moving pointers. -/
structure Fixer where
  index : Nat := 0
  out : List Word := []
  dat : Nat → InsnsInfo := fun _ => {}

namespace Fixer

variable (site : Site) (fixer : Fixer)

def inprx : Int := site.basep + 4 * fixer.index

def outprx : Int := site.outrx + 4 * fixer.out.length

def outprw : Int := site.outrw + 4 * fixer.out.length

def ins : Word := site.memory (fixer.inprx site)

def write (words : List Word) : Fixer := { fixer with out := fixer.out ++ words }

def advance : Fixer := { fixer with index := fixer.index + 1 }

def resetCurrentIns (idx : Nat) (outp : Int) : Fixer :=
  { fixer with dat := Function.update fixer.dat idx ⟨outp, (fixer.dat idx).fmap⟩ }

def getAndSetCurrentIndex (outp : Int) : Nat × Fixer :=
  let current := site.getRefInsIndex (fixer.inprx site)
  (current, fixer.resetCurrentIns current outp)

def insertFixMap (idx : Nat) (fix : FixInfo) : Fixer :=
  if (fixer.dat idx).fmap.length < MaxReferences then
    { fixer with dat := Function.update fixer.dat idx ⟨(fixer.dat idx).ins, (fixer.dat idx).fmap ++ [fix]⟩ }
  else fixer

def fixWord (target : Int) (fix : FixInfo) (out : List Word) : List Word :=
  out.modify fix.bpr fun word =>
    word ||| (((BitVec.ofInt 32 (target - (site.outrx + 4 * fix.bpr))).sshiftRight 2 <<< fix.ls) &&& fix.ad)

def processFixMap (idx : Nat) : Fixer :=
  { fixer with
    out := (fixer.dat idx).fmap.foldl (fun out fix => fixWord site (fixer.dat idx).ins fix out) fixer.out
    dat := Function.update fixer.dat idx ⟨(fixer.dat idx).ins, []⟩ }

/-- `while (misaligned(outprx)) NOP`; the alignments are at most four words. -/
def nopWhile (misaligned : Int → Bool) : Nat → Fixer → Fixer
  | 0, fixer => fixer
  | turns + 1, fixer =>
      if misaligned (fixer.outprx site) then nopWhile misaligned turns (fixer.write [Aarch64Nop]) else fixer

end Fixer

/-- `memcpy` of a 64-bit address. -/
def addressWords (address : Int) : List Word :=
  [(BitVec.ofInt 64 address).extractLsb' 0 32, (BitVec.ofInt 64 address).extractLsb' 32 32]

def fixBranchImm (site : Site) (fixer : Fixer) : Option Fixer :=
  let mask : Word := 0xfc000000#32
  let rmask : Word := 0x03ffffff#32
  let ins := fixer.ins site
  let opc := ins &&& mask
  if opc = 0x14000000#32 ∨ opc = 0x94000000#32 then
    let (current, fixer) := fixer.getAndSetCurrentIndex site (fixer.outprx site)
    let absolute := fixer.inprx site + ((ins <<< 6).sshiftRight 4).toInt
    let newPcOffset := (absolute - fixer.outprx site) / 4
    let special := site.isInFixingRange absolute
    let fixer :=
      -- whether the branch should be converted to an absolute jump
      if !special && newPcOffset.natAbs ≥ (rmask >>> 1).toNat then
        let aligned := (fixer.outprx site + 8) % 8 = 0
        if opc = 0x14000000#32 then
          let fixer :=
            if aligned then fixer
            else
              let fixer := fixer.write [Aarch64Nop]
              fixer.resetCurrentIns current (fixer.outprx site)
          fixer.write ([0x58000051#32, 0xd61f0220#32] ++ addressWords absolute)
        else
          let fixer :=
            if aligned then
              let fixer := fixer.write [Aarch64Nop]
              fixer.resetCurrentIns current (fixer.outprx site)
            else fixer
          fixer.write ([0x58000071#32, 0x1000009e#32, 0xd61f0220#32] ++ addressWords absolute)
      else if special then
        let ref := site.getRefInsIndex absolute
        if ref ≤ current then
          let newPcOffset := ((fixer.dat ref).ins - fixer.outprx site) / 4
          fixer.write [opc ||| (BitVec.ofInt 32 newPcOffset &&& ~~~mask)]
        else
          (fixer.insertFixMap ref ⟨fixer.out.length, 0, rmask⟩).write [opc ||| (BitVec.ofInt 32 0 &&& ~~~mask)]
      else fixer.write [opc ||| (BitVec.ofInt 32 newPcOffset &&& ~~~mask)]
    some (fixer.advance.processFixMap site current)
  else none

/-- The bits of a conditional branch that are not its offset. -/
def condMask (ins : Word) : Option Word :=
  if ins &&& 0xff000010#32 = 0x54000000#32 then some 0xff00001f#32
  else if ins &&& 0x7f000000#32 = 0x34000000#32 ∨ ins &&& 0x7f000000#32 = 0x35000000#32 then some 0xff00001f#32
  else if ins &&& 0x7f000000#32 = 0x36000000#32 ∨ ins &&& 0x7f000000#32 = 0x37000000#32 then some 0xfff8001f#32
  else none

def fixCondCompTestBranch (site : Site) (fixer : Fixer) : Option Fixer :=
  let ins := fixer.ins site
  match condMask ins with
  | none => none
  | some lmask =>
    let (current, fixer) := fixer.getAndSetCurrentIndex site (fixer.outprx site)
    -- the offset is not sign-extended
    let absolute := fixer.inprx site + ((ins &&& ~~~lmask) >>> 3).toNat
    let newPcOffset := (absolute - fixer.outprx site) / 4
    let special := site.isInFixingRange absolute
    let fixer :=
      if !special && newPcOffset.natAbs ≥ (~~~lmask >>> 6).toNat then
        let fixer :=
          if (fixer.outprx site + 16) % 8 = 0 then fixer
          else (fixer.resetCurrentIns current (fixer.outprx site)).write [Aarch64Nop]
        fixer.write
          ([((BitVec.ofInt 32 2 <<< 5) &&& ~~~lmask) ||| (ins &&& lmask), 0x14000005#32, 0x58000051#32, 0xd61f0220#32] ++
            addressWords absolute)
      else if special then
        let ref := site.getRefInsIndex absolute
        if ref ≤ current then
          let newPcOffset := ((fixer.dat ref).ins - fixer.outprx site) / 4
          fixer.write [((BitVec.ofInt 32 newPcOffset <<< 5) &&& ~~~lmask) ||| (ins &&& lmask)]
        else
          (fixer.insertFixMap ref ⟨fixer.out.length, 5, ~~~lmask⟩).write
            [((BitVec.ofInt 32 0 <<< 5) &&& ~~~lmask) ||| (ins &&& lmask)]
      else fixer.write [((BitVec.ofInt 32 newPcOffset <<< 5) &&& ~~~lmask) ||| (ins &&& lmask)]
    some (fixer.advance.processFixMap site current)

/-- The opcode mask of a literal load and the size of what it loads, less one. -/
def loadMask (ins : Word) : Option (Word × Nat) :=
  let faligned := if ins &&& 0x40000000#32 ≠ 0 then 7 else 3
  if ins &&& 0xbf000000#32 = 0x18000000#32 then some (0xbf000000#32, faligned)
  else if ins &&& 0x3f000000#32 = 0x1c000000#32 then
    some (0x3f000000#32, if faligned ≠ 7 then (if ins &&& 0x80000000#32 ≠ 0 then 15 else 3) else faligned)
  else if ins &&& 0xff000000#32 = 0x98000000#32 then some (0xff000000#32, 7)
  else none

def fixLoadlit (site : Site) (fixer : Fixer) : Option Fixer :=
  let ins := fixer.ins site
  -- memory prefetch, just skip it
  if ins &&& 0xff000000#32 = 0xd8000000#32 then
    let (current, fixer) := fixer.getAndSetCurrentIndex site (fixer.outprx site)
    some (fixer.processFixMap site current).advance
  else
    let lmask : Word := 0xff00001f#32
    match loadMask ins with
    | none => none
    | some (mask, faligned) =>
      let (current, fixer) := fixer.getAndSetCurrentIndex site (fixer.outprx site)
      -- the unsigned mask makes the sum of the offset unsigned
      let absolute := fixer.inprx site + ((ins <<< 8).sshiftRight 11 &&& ~~~3#32).toNat
      let newPcOffset := (absolute - fixer.outprx site) / 4
      let special := site.isInFixingRange absolute
      let fixer :=
        if special || newPcOffset.natAbs + (faligned + 1 - 4) / 4 ≥ (~~~lmask >>> 6).toNat then
          let fixer := fixer.nopWhile site (fun outprx => (outprx + 8) % (faligned + 1) ≠ 0) 4
          let fixer := fixer.resetCurrentIns current (fixer.outprx site)
          let ns := (faligned + 1) / 4
          fixer.write
            ([((BitVec.ofInt 32 2 <<< 5) &&& ~~~mask) ||| (ins &&& lmask), 0x14000001#32 + BitVec.ofNat 32 ns] ++
              site.memory.words absolute ns)
        else
          let fixer := fixer.nopWhile site
            (fun outprx => (absolute - outprx) / 4 % ((faligned / 4 : Nat) + 1) ≠ 0) 4
          let newPcOffset := (absolute - fixer.outprx site) / 4
          let fixer := fixer.resetCurrentIns current (fixer.outprx site)
          fixer.write [((BitVec.ofInt 32 newPcOffset <<< 5) &&& ~~~mask) ||| (ins &&& lmask)]
      some (fixer.advance.processFixMap site current)

/-- The immediate of ADR and ADRP as the source computes it: an unsigned word. -/
def pcrelImm (ins : Word) : Word :=
  ((ins <<< 8).sshiftRight 11 &&& ~~~3#32) ||| ((ins <<< 1) >>> 30)

def fixPcreladdr (site : Site) (fixer : Fixer) : Option Fixer :=
  let mask : Word := 0x9f000000#32
  let rmask : Word := 0x0000001f#32
  let lmask : Word := 0xff00001f#32
  let fmask : Word := 0x00ffffff#32
  let max_val : Word := 0x001fffff#32
  let ins := fixer.ins site
  let loadAddress (absolute : Int) : List Word :=
    [0x58000000#32 ||| ((BitVec.ofInt 32 2 <<< 5) &&& ~~~mask) ||| (ins &&& rmask), 0x14000003#32] ++ addressWords absolute
  if ins &&& mask = 0x10000000#32 then
    let (current, fixer) := fixer.getAndSetCurrentIndex site (fixer.outprx site)
    let absolute := fixer.inprx site + (pcrelImm ins).toNat
    let newPcOffset := absolute - fixer.outprx site
    let special := site.isInFixingRange absolute
    let fixer :=
      if !special && newPcOffset.natAbs ≥ (max_val >>> 1).toNat then
        let fixer :=
          if (fixer.outprx site + 8) % 8 = 0 then fixer
          else
            let fixer := fixer.write [Aarch64Nop]
            fixer.resetCurrentIns current (fixer.outprx site)
        fixer.write (loadAddress absolute)
      else if special then
        let ref := site.getRefInsIndex (absolute - absolute % 4)
        if ref ≤ current then
          let newPcOffset := (fixer.dat ref).ins - fixer.outprx site
          fixer.write [((BitVec.ofInt 32 newPcOffset <<< 3) &&& fmask) ||| (ins &&& lmask)]
        else
          (fixer.insertFixMap ref ⟨fixer.out.length, 5, fmask⟩).write
            [((BitVec.ofInt 32 0 <<< 3) &&& fmask) ||| (ins &&& lmask)]
      else fixer.write [((BitVec.ofInt 32 newPcOffset <<< 3) &&& fmask) ||| (ins &&& lmask)]
    some (fixer.processFixMap site current).advance
  else if ins &&& mask = 0x90000000#32 then
    -- the index is set from the writable mapping
    let (current, fixer) := fixer.getAndSetCurrentIndex site (fixer.outprw site)
    let absolute := fixer.inprx site - fixer.inprx site % 4096 + (pcrelImm ins <<< 12).toNat
    let fixer :=
      if site.isInFixingRange absolute then fixer.write [ins]
      else
        let fixer :=
          if (fixer.outprx site + 8) % 8 = 0 then fixer
          else
            let fixer := fixer.write [Aarch64Nop]
            fixer.resetCurrentIns current (fixer.outprx site)
        fixer.write (loadAddress absolute)
    some (fixer.processFixMap site current).advance
  else none

/-- One turn of the loop of `__fix_instructions`. -/
def fixInstruction (site : Site) (fixer : Fixer) : Fixer :=
  match fixBranchImm site fixer with
  | some fixer => fixer
  | none =>
    match fixCondCompTestBranch site fixer with
    | some fixer => fixer
    | none =>
      match fixLoadlit site fixer with
      | some fixer => fixer
      | none =>
        match fixPcreladdr site fixer with
        | some fixer => fixer
        | none =>
          -- without PC-relative offset
          let ins := fixer.ins site
          let (current, fixer) := fixer.getAndSetCurrentIndex site (fixer.outprx site)
          ((fixer.processFixMap site current).write [ins]).advance

def fixLoop (site : Site) : Nat → Fixer → Fixer
  | 0, fixer => fixer
  | count + 1, fixer => fixLoop site count (fixInstruction site fixer)

/-- The jump back to the first instruction that was not moved. -/
def jumpBack (site : Site) (fixer : Fixer) : Fixer :=
  let callback := fixer.inprx site
  let pcOffset := (callback - fixer.outprx site) / 4
  if pcOffset.natAbs ≥ (0x03ffffff#32 >>> 1).toNat then
    let fixer := if (fixer.outprx site + 8) % 8 = 0 then fixer else fixer.write [Aarch64Nop]
    fixer.write ([0x58000051#32, 0xd61f0220#32] ++ addressWords callback)
  else fixer.write [0x14000000#32 ||| (BitVec.ofInt 32 pcOffset &&& 0x03ffffff#32)]

/-- What is written for a block. -/
def fixBlock (site : Site) : Fixer := jumpBack site (fixLoop site site.count {})

/-- More instructions than `dat` has room for are an abort. -/
def fixInstructions (site : Site) : Option Fixer :=
  if MaxInstructions < site.count then none else some (fixBlock site)

end Smmboss.Hook
