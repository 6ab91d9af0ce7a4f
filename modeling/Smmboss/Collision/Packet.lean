import Smmboss.Hose.Reservation

namespace Smmboss.Collision

/-! # The packets of the collision hooks

What the hooks read out of the game's memory and hand to `write_packet`.  The
offsets are those of the `PROP` declarations.
-/

abbrev Ptr := UInt64

/-- The game's memory while a hook runs. -/
abbrev Memory := Ptr → UInt8

/-- `write_prim` of a little-endian integer of `size` bytes. -/
def prim (size value : Nat) : List UInt8 :=
  (List.range size).map fun place => UInt8.ofNat (value / 256 ^ place)

def writePtr (ptr : Ptr) : List UInt8 := prim 8 ptr.toNat

/-- `tag8`, padded with zeros. -/
def tag8 (name : String) : List UInt8 :=
  (name.toList.map fun char => UInt8.ofNat char.toNat).takeD 8 0

namespace Memory

/-- The bytes that `write_raw` copies. -/
def raw (memory : Memory) (start : Ptr) (size : Nat) : List UInt8 :=
  (List.range size).map fun offset => memory (start + UInt64.ofNat offset)

def word (memory : Memory) (start : Ptr) (size : Nat) : Nat :=
  (memory.raw start size).foldr (fun byte rest => byte.toNat + 256 * rest) 0

def ptr (memory : Memory) (start : Ptr) : Ptr := UInt64.ofNat (memory.word start 8)

/-- `ext_pos ?: s_dummy_pos`, two floats. -/
def extPos (memory : Memory) (pos : Ptr) : List UInt8 :=
  if pos = 0 then List.replicate 8 0 else memory.raw pos 8

/-- An `mm_count_ptr<mm_collider_segment>` and what it points to. -/
def segments (memory : Memory) (countPtr : Ptr) : List UInt8 :=
  memory.raw (memory.ptr (countPtr + 8)) (memory.word countPtr 4 * 0x18)

def areaSystemWorldId (memory : Memory) (areaSystem : Ptr) : Nat :=
  memory.word (areaSystem + 0x18) 4

/-- The world id of an owner, -1 where there is no owner or no world. -/
def ownerWorldId (memory : Memory) (owner : Ptr) : UInt8 :=
  if owner = 0 then 255
  else
    let world := memory.ptr (owner + 0x48)
    if world = 0 then 255 else UInt8.ofNat (memory.word (world + 0x20) 4)

def hitboxVtable (memory : Memory) (hb : Ptr) : Ptr := memory.ptr hb

end Memory

structure NormalCollider where
  nc : Ptr
  dump : List UInt8
  extPosCur : List UInt8
  extPosOld : List UInt8
  segmentsCur : List UInt8
  segmentsOld : List UInt8
  worldId : UInt8
deriving DecidableEq

structure ScolCollider where
  self : Ptr
  dump : List UInt8
  extPosCur : List UInt8
  extPosOld : List UInt8
  worldId : UInt8
deriving DecidableEq

structure TwopointEvent where
  worldId : UInt8
  xy1 : List UInt8
  xy2 : List UInt8
  shapemask : UInt32
  enable1 : Bool
  enable2 : Bool
  ret : Bool
  cp : Option (List UInt8)
deriving DecidableEq

structure PointEvent where
  worldId : UInt8
  xy : List UInt8
  enable1 : Bool
  enable2 : Bool
  ret : Bool
  bic : List UInt8
deriving DecidableEq

/-- The two tags `report_normal_collider` is called with. -/
inductive ColliderTag where
  | added
  | all
deriving DecidableEq

inductive HosePacket where
  | hitbox (hb : Ptr) (contents : List UInt8) (worldId : UInt8)
  | collisi (hb1 hb2 : Ptr) (ret : UInt64)
  | doMany (areaSystem : Ptr) (worldId : UInt64)
  | normalCollider (tag : ColliderTag) (collider : NormalCollider)
  | normalColliderGone (nc : Ptr)
  | scolCollider (collider : ScolCollider)
  | hashedScolCollider (scol : Ptr)
  | bgCollisionTwopoint (event : TwopointEvent)
  | bgCollisionPoint (event : PointEvent)
  | allcols
  | overrun
deriving DecidableEq

def ColliderTag.tag : ColliderTag → List UInt8
  | .added => tag8 "normco+"
  | .all => tag8 "normco*"

def writeBool (value : Bool) : List UInt8 := [value.toUInt8]

/-- The `write_*` calls of the packet's callback. -/
def HosePacket.write : HosePacket → Hose.Packet
  | .hitbox hb contents worldId => [tag8 "hitbox", writePtr hb, contents, [worldId]]
  | .collisi hb1 hb2 ret => [tag8 "collisi", writePtr hb1, writePtr hb2, prim 8 ret.toNat]
  | .doMany areaSystem worldId =>
      [tag8 "do_many", writePtr areaSystem, prim 8 worldId.toNat]
  | .normalCollider tag collider =>
      [tag.tag, writePtr collider.nc, collider.dump, collider.extPosCur, collider.extPosOld,
        collider.segmentsCur, collider.segmentsOld, [collider.worldId]]
  | .normalColliderGone nc => [tag8 "normco-", writePtr nc]
  | .scolCollider collider =>
      [tag8 "scolcol", writePtr collider.self, collider.dump, collider.extPosCur,
        collider.extPosOld, [collider.worldId]]
  | .hashedScolCollider scol => [tag8 "scolco~", writePtr scol]
  | .bgCollisionTwopoint event =>
      [tag8 "bgcol2p", [event.worldId], event.xy1, event.xy2, prim 4 event.shapemask.toNat,
        writeBool event.enable1, writeBool event.enable2, writeBool event.ret,
        writeBool event.cp.isSome] ++ event.cp.toList
  | .bgCollisionPoint event =>
      [tag8 "bgcol1p", [event.worldId], event.xy, writeBool event.enable1,
        writeBool event.enable2, writeBool event.ret, event.bic]
  | .allcols => [tag8 "allcols"]
  | .overrun => [tag8 "overrun"]

/-- The body of the packet in the ring buffer. -/
def HosePacket.body (packet : HosePacket) : List UInt8 := Hose.actualWriter packet.write

namespace Memory

def hitbox (memory : Memory) (hb : Ptr) : HosePacket :=
  .hitbox hb (memory.raw hb 0x1c8) (memory.ownerWorldId (memory.ptr (hb + 0xa8)))

def doMany (memory : Memory) (self : Ptr) : HosePacket :=
  .doMany self (UInt64.ofNat (memory.areaSystemWorldId self))

def normalCollider (memory : Memory) (nc : Ptr) : NormalCollider where
  nc
  dump := memory.raw nc 0x3e0
  extPosCur := memory.extPos (memory.ptr (nc + 0x290))
  extPosOld := memory.extPos (memory.ptr (nc + 0x298))
  segmentsCur := memory.segments (nc + 0x3c0)
  segmentsOld := memory.segments (nc + 0x3d0)
  worldId := UInt8.ofNat (memory.areaSystemWorldId (memory.ptr (nc + 0x2a8)))

def scolCollider (memory : Memory) (self : Ptr) : ScolCollider where
  self
  dump := memory.raw self 0x103c
  extPosCur := memory.extPos (memory.ptr (self + 0x2a0))
  extPosOld := memory.extPos (memory.ptr (self + 0x2a8))
  worldId := memory.ownerWorldId (memory.ptr (self + 0x188))

/-- The arguments of `cctx_bg_collide_against_twopoint` and what it returned. -/
structure TwopointCall where
  self : Ptr
  cp : Ptr
  xy1 : Ptr
  xy2 : Ptr
  shapemask : UInt32
  enable1 : Bool
  enable2 : Bool
  ret : Bool

def twopoint (memory : Memory) (call : TwopointCall) : TwopointEvent where
  worldId := UInt8.ofNat (memory.areaSystemWorldId (memory.ptr (call.self + 0x90)))
  xy1 := memory.raw call.xy1 8
  xy2 := memory.raw call.xy2 8
  shapemask := call.shapemask
  enable1 := call.enable1
  enable2 := call.enable2
  ret := call.ret
  cp := if call.cp = 0 then none else some (memory.raw call.cp 0x20)

structure PointCall where
  self : Ptr
  bic : Ptr
  xy : Ptr
  enable1 : Bool
  enable2 : Bool
  ret : Bool

def point (memory : Memory) (call : PointCall) : PointEvent where
  worldId := UInt8.ofNat (memory.areaSystemWorldId (memory.ptr (call.self + 0x90)))
  xy := memory.raw call.xy 8
  enable1 := call.enable1
  enable2 := call.enable2
  ret := call.ret
  bic := memory.raw call.bic 0x10

@[simp] theorem normalCollider_nc (memory : Memory) (nc : Ptr) :
    (memory.normalCollider nc).nc = nc := rfl

end Memory

/-! ## Pointers as table keys -/

abbrev UInt48 := BitVec 48

namespace UInt48

/-- The constructor from a pointer; `none` is its failed assertion. -/
def ofPtr (ptr : Ptr) : Option UInt48 :=
  if ptr >>> 48 = 0 then some (BitVec.ofNat 48 ptr.toNat) else none

def toPtr (key : UInt48) : Ptr := UInt64.ofNat key.toNat

theorem shiftRight_eq_zero_iff (ptr : Ptr) : ptr >>> 48 = 0 ↔ ptr.toNat < 2 ^ 48 := by
  rw [← UInt64.toNat_inj, UInt64.toNat_shiftRight]
  simp [Nat.shiftRight_eq_div_pow, Nat.div_eq_zero_iff]

theorem toNat_toPtr (key : UInt48) : key.toPtr.toNat = key.toNat := by
  have bound := key.isLt
  rw [toPtr, UInt64.toNat_ofNat']
  omega

/-- A key is the pointer it was made from. -/
theorem ofPtr_eq_some_iff {ptr : Ptr} {key : UInt48} : ofPtr ptr = some key ↔ key.toPtr = ptr := by
  have bound := key.isLt
  rw [ofPtr]
  constructor
  · intro made
    split at made
    · have small := (shiftRight_eq_zero_iff ptr).mp ‹_›
      cases made
      rw [← UInt64.toNat_inj, toNat_toPtr, BitVec.toNat_ofNat]
      omega
    · contradiction
  · intro same
    subst same
    have small : key.toPtr.toNat < 2 ^ 48 := by rw [toNat_toPtr]; exact bound
    rw [if_pos ((shiftRight_eq_zero_iff _).mpr small), toNat_toPtr, BitVec.ofNat_toNat]
    simp

theorem toPtr_injective : Function.Injective toPtr := by
  intro first second same
  have left := ofPtr_eq_some_iff.mpr same
  have right := ofPtr_eq_some_iff.mpr (rfl : second.toPtr = second.toPtr)
  exact Option.some.inj (left.symm.trans right)

end UInt48

end Smmboss.Collision
