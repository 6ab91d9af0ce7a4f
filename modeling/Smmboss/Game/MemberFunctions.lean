import Smmboss.World.Reads

namespace Smmboss.Game

open Smmboss.World (Memory asAddr read readUint)

/-! # Pointers to member functions

Two resolvers of one two-word representation: the game side takes the second
word apart through signed bit fields, the scripts through unsigned shifts.
-/

/-- The address a resolver loads the vtable pointer from, if it does, and the
address it returns; no `function` is a fault or an exception. -/
structure Resolution where
  vtableAt : Option Nat
  function : Option Nat
deriving Repr, DecidableEq

/-- `mm_pointer_to_member_function`. -/
structure MmPointerToMemberFunction where
  word1 : BitVec 64
  word2 : BitVec 64

namespace MmPointerToMemberFunction

/-- `uint64_t is_virt:1`, the lowest bit. -/
def isVirt (self : MmPointerToMemberFunction) : Bool := self.word2.getLsbD 0

/-- `int64_t offset_to_vtable:63`, sign-extended. -/
def offsetToVtable (self : MmPointerToMemberFunction) : BitVec 64 := self.word2.sshiftRight 1

/-- `*(uintptr_t *)address`. -/
def load (memory : Memory) (address : BitVec 64) : Option (BitVec 64) :=
  (readUint memory address.toNat 8).map (BitVec.ofNat 64)

def resolve (memory : Memory) (self : MmPointerToMemberFunction) (object : BitVec 64) :
    Resolution :=
  if self.isVirt then
    let vtableAt := object + self.offsetToVtable
    { vtableAt := some vtableAt.toNat
      function := (load memory vtableAt).bind fun vtable =>
        (load memory (vtable + self.word1)).map BitVec.toNat }
  else { vtableAt := none, function := some self.word1.toNat }

end MmPointerToMemberFunction

/-- `GuestPtrToMemberFunction.resolve` after its two property reads. -/
def guestResolve (memory : Memory) (word1 word2 obj : Nat) : Resolution :=
  if word2 &&& 1 ≠ 0 then
    let vtableOffset := word1
    let offsetToVtable := word2 >>> 1
    let vtableAt := asAddr (obj + offsetToVtable)
    { vtableAt := some vtableAt
      function := (readUint memory vtableAt 8).bind fun vtable =>
        (readUint memory (asAddr (vtable + vtableOffset)) 8).map fun (value : Nat) => asAddr value }
  else { vtableAt := none, function := some (asAddr word1) }

/-- The function is not virtual, or the vtable pointer is not in front of the
object address. -/
def NotBefore (self : MmPointerToMemberFunction) : Prop :=
  self.isVirt = true → self.word2.msb = false

instance (self : MmPointerToMemberFunction) : Decidable (NotBefore self) := by
  unfold NotBefore
  infer_instance

variable {memory : Memory}

theorem readUint_lt {addr value : Nat} (found : readUint memory addr 8 = some value) :
    value < 2 ^ 64 := by
  obtain ⟨data, read, rfl⟩ := Option.map_eq_some_iff.mp found
  have bound := LittleEndian.decode_lt data
  rwa [World.read_length read] at bound

theorem asAddr_add (first second : BitVec 64) :
    asAddr (first.toNat + second.toNat) = (first + second).toNat := by
  rw [BitVec.toNat_add, asAddr]
  omega

namespace MmPointerToMemberFunction

variable {self : MmPointerToMemberFunction}

theorem isVirt_iff : self.isVirt = true ↔ self.word2.toNat &&& 1 ≠ 0 := by
  rw [isVirt, BitVec.getLsbD, Nat.testBit_zero, Nat.and_one_is_mod]
  simp

theorem offsetToVtable_of_nonnegative (nonnegative : self.word2.msb = false) :
    self.offsetToVtable.toNat = self.word2.toNat >>> 1 := by
  rw [offsetToVtable, BitVec.sshiftRight_eq_of_msb_false nonnegative, BitVec.toNat_ushiftRight]

/-- The sign extension that the unsigned shift leaves out. -/
theorem offsetToVtable_of_negative (negative : self.word2.msb = true) :
    self.offsetToVtable.toNat = (self.word2.toNat >>> 1) + 2 ^ 63 := by
  have large := BitVec.toNat_ge_of_msb_true negative
  have bound := self.word2.isLt
  rw [offsetToVtable, BitVec.sshiftRight_eq_of_msb_true negative, BitVec.toNat_not,
    BitVec.toNat_ushiftRight, BitVec.toNat_not]
  simp only [Nat.shiftRight_one]
  omega

/-- A loaded address plus the first word, on either side. -/
theorem load_eq (place : Nat) (bound : place < 2 ^ 64) :
    ((load memory (BitVec.ofNat 64 place)).bind fun vtable =>
        (load memory (vtable + self.word1)).map BitVec.toNat) =
      (readUint memory place 8).bind fun vtable =>
        (readUint memory (asAddr (vtable + self.word1.toNat)) 8).map fun (value : Nat) => asAddr value := by
  have same : (BitVec.ofNat 64 place).toNat = place := Nat.mod_eq_of_lt bound
  rw [load, same]
  cases found : readUint memory place 8 with
  | none => rfl
  | some vtable =>
      have fits : (BitVec.ofNat 64 vtable).toNat = vtable := Nat.mod_eq_of_lt (readUint_lt found)
      have next := asAddr_add (BitVec.ofNat 64 vtable) self.word1
      rw [fits] at next
      rw [Option.map_some, Option.bind_some, Option.bind_some, load, next]
      cases entry : readUint memory (BitVec.ofNat 64 vtable + self.word1).toNat 8 with
      | none => rfl
      | some value =>
          have small := readUint_lt entry
          rw [Option.map_some, Option.map_some, Option.map_some, World.asAddr_natCast small]
          exact congrArg some (Nat.mod_eq_of_lt small)

end MmPointerToMemberFunction

open MmPointerToMemberFunction

/-- The resolvers read the vtable pointer at one address and return one
function address exactly where no virtual function has a negative adjustment. -/
theorem resolve_eq_guestResolve_iff (memory : Memory) (self : MmPointerToMemberFunction)
    (object : BitVec 64) :
    self.resolve memory object =
        guestResolve memory self.word1.toNat self.word2.toNat object.toNat ↔ NotBefore self := by
  have virt := @isVirt_iff self
  unfold resolve guestResolve NotBefore
  by_cases virtual : self.isVirt = true
  · rw [if_pos virtual, if_pos (virt.mp virtual)]
    cases sign : self.word2.msb with
    | false =>
        have offset := offsetToVtable_of_nonnegative sign
        have place := asAddr_add object self.offsetToVtable
        rw [offset] at place
        have loads := @load_eq memory self _ (object + self.offsetToVtable).isLt
        rw [BitVec.ofNat_toNat, BitVec.setWidth_eq] at loads
        simp only [place, loads, implies_true]
    | true =>
        have offset := offsetToVtable_of_negative sign
        have apart : (object + self.offsetToVtable).toNat ≠
            asAddr (object.toNat + (self.word2.toNat >>> 1 : Nat)) := by
          rw [BitVec.toNat_add, offset, asAddr]
          omega
        constructor
        · intro same
          exact absurd (Option.some_inj.mp (congrArg Resolution.vtableAt same)) apart
        · intro nonnegative
          exact absurd (nonnegative virtual) (by decide)
  · rw [if_neg virtual, if_neg (mt virt.mpr virtual), World.asAddr_natCast self.word1.isLt]
    simp [virtual]

/-- A virtual member function of a base sixteen bytes in front of the object, in
a memory of which the lower half is readable. -/
theorem resolve_differs :
    ¬ ∀ (memory : Memory) (self : MmPointerToMemberFunction) (object : BitVec 64),
      self.resolve memory object =
        guestResolve memory self.word1.toNat self.word2.toNat object.toNat := by
  intro claimed
  have same := congrArg Resolution.vtableAt
    (claimed (fun addr => if addr < 2 ^ 63 then some 0 else none) ⟨0, BitVec.ofInt 64 (-31)⟩
      0x71000000)
  exact absurd same (by decide)

end Smmboss.Game
