import Mathlib.Data.List.DropRight
import Smmboss.Client.Reader

namespace Smmboss.Client.Wire

/-! # Reading a hose message

What the `parse*` methods read, in the order in which they read it.  Each of
them is done with the reader before it touches the parser.
-/

/-- The fields of a `Collider` message; `col` is the dump. -/
structure NormalCollider where
  ptr : UInt64
  col : Buffer
  extPosCur : Buffer
  extPosOld : Buffer
  segmentsCur : List Buffer
  segmentsOld : List Buffer
  worldId : Int
deriving DecidableEq

structure ScolCollider where
  ptr : UInt64
  scol : Buffer
  extPosCur : Buffer
  extPosOld : Buffer
  worldId : Int
deriving DecidableEq

structure TwoPointEvent where
  worldId : UInt8
  xy1 : Buffer
  xy2 : Buffer
  shapemask : UInt32
  enable1 : UInt8
  enable2 : UInt8
  ret : UInt8
  cp : Option Buffer
deriving DecidableEq

structure PointEvent where
  worldId : UInt8
  xy : Buffer
  enable1 : UInt8
  enable2 : UInt8
  ret : UInt8
  bic : Buffer
deriving DecidableEq

inductive Message where
  | collision (hb1 hb2 ret : UInt64)
  | doMany (areaSys worldId : UInt64)
  | hitbox (ptr : UInt64) (hb : Buffer) (worldId : Int)
  | normalCollider (collider : NormalCollider)
  | normalColliderGone (ptr : UInt64)
  | scolCollider (scol : ScolCollider)
  | hashedScolCollider (ptr : UInt64)
  | bgCollisionTwoPoint (event : TwoPointEvent)
  | bgCollisionPoint (event : PointEvent)
  | overrun
  | unknown
deriving DecidableEq

/-! ## Sizes exported from the guest's structures -/

def point2DSize : Nat := 8

def colliderSize : Nat := 0x3e0

def colliderSegmentSize : Nat := 0x18

def scolSize : Nat := 0x103c

def collisionPointSize : Nat := 0x20

def collisionBicSize : Nat := 0x10

/-- `count` of the `count4_ptr` at an offset of a dump. -/
def countAt (dump : Buffer) (offset : Nat) : Nat :=
  LittleEndian.decode ((dump.drop offset).take 4)

def segmentsCurOffset : Nat := 0x3c0

def segmentsOldOffset : Nat := 0x3d0

/-! ## The methods' reads -/

section Reads

variable (r : Reader)

def readCollision : Option (Message × Reader) := do
  let (hb1, r) ← r.u64
  let (hb2, r) ← r.u64
  let (ret, r) ← r.u64
  some (.collision hb1 hb2 ret, r)

def readDoMany : Option (Message × Reader) := do
  let (areaSys, r) ← r.u64
  let (worldId, r) ← r.u64
  some (.doMany areaSys worldId, r)

def readHitbox : Option (Message × Reader) := do
  let (ptr, r) ← r.u64
  let (hb, r) ← r.read (r.remaining - 1)
  let (worldId, r) ← r.s8
  some (.hitbox ptr hb worldId, r)

def readNormalCollider : Option (Message × Reader) := do
  let (ptr, r) ← r.u64
  let (col, r) ← r.read colliderSize
  let (extPosCur, r) ← r.read point2DSize
  let (extPosOld, r) ← r.read point2DSize
  let (segmentsCur, r) ← r.array (countAt col segmentsCurOffset) colliderSegmentSize
  let (segmentsOld, r) ← r.array (countAt col segmentsOldOffset) colliderSegmentSize
  let (worldId, r) ← r.s8
  some (.normalCollider ⟨ptr, col, extPosCur, extPosOld, segmentsCur, segmentsOld, worldId⟩, r)

def readNormalColliderGone : Option (Message × Reader) := do
  let (ptr, r) ← r.u64
  some (.normalColliderGone ptr, r)

def readScolCollider : Option (Message × Reader) := do
  let (ptr, r) ← r.u64
  let (scol, r) ← r.read scolSize
  let (extPosCur, r) ← r.read point2DSize
  let (extPosOld, r) ← r.read point2DSize
  let (worldId, r) ← r.s8
  some (.scolCollider ⟨ptr, scol, extPosCur, extPosOld, worldId⟩, r)

def readHashedScolCollider : Option (Message × Reader) := do
  let (ptr, r) ← r.u64
  some (.hashedScolCollider ptr, r)

def readBgCollisionTwoPoint : Option (Message × Reader) := do
  let (worldId, r) ← r.u8
  let (xy1, r) ← r.read point2DSize
  let (xy2, r) ← r.read point2DSize
  let (shapemask, r) ← r.u32
  let (enable1, r) ← r.u8
  let (enable2, r) ← r.u8
  let (ret, r) ← r.u8
  let (hasCp, r) ← r.u8
  if hasCp = 0 then
    some (.bgCollisionTwoPoint ⟨worldId, xy1, xy2, shapemask, enable1, enable2, ret, none⟩, r)
  else do
    let (cp, r) ← r.read collisionPointSize
    some (.bgCollisionTwoPoint ⟨worldId, xy1, xy2, shapemask, enable1, enable2, ret, some cp⟩, r)

def readBgCollisionPoint : Option (Message × Reader) := do
  let (worldId, r) ← r.u8
  let (xy, r) ← r.read point2DSize
  let (enable1, r) ← r.u8
  let (enable2, r) ← r.u8
  let (ret, r) ← r.u8
  let (bic, r) ← r.read collisionBicSize
  some (.bgCollisionPoint ⟨worldId, xy, enable1, enable2, ret, bic⟩, r)

end Reads

/-! ## The tags -/

/-- The characters of a tag's name. -/
def ascii (name : String) : Buffer := name.toList.map fun char => UInt8.ofNat char.toNat

/-- `Tag8Type.getLocal`: without the zeros at the end. -/
def tagName (bytes : Buffer) : Buffer := bytes.rdropWhile fun byte => byte = 0

/-- The `case`s of the `switch` in `parse`. -/
def cases : List (Buffer × (Reader → Option (Message × Reader))) :=
  [(ascii "collisi", readCollision), (ascii "do_many", readDoMany), (ascii "hitbox", readHitbox),
    (ascii "normco+", readNormalCollider), (ascii "normco*", readNormalCollider),
    (ascii "normco-", readNormalColliderGone), (ascii "scolcol", readScolCollider),
    (ascii "scolco~", readHashedScolCollider), (ascii "bgcol2p", readBgCollisionTwoPoint),
    (ascii "bgcol1p", readBgCollisionPoint), (ascii "overrun", fun r => some (.overrun, r))]

/-- An unknown tag is only counted. -/
def readCase (tag : Buffer) (r : Reader) : Option (Message × Reader) :=
  match cases.find? fun entry => entry.1 = tag with
  | some (_, read) => read r
  | none => some (.unknown, r)

/-- The tag, the fields and where the reader is then. -/
def readMessage (buffer : Buffer) : Option (Buffer × Message × Reader) := do
  let (bytes, r) ← (⟨buffer, 0⟩ : Reader).read 8
  let (message, r) ← readCase (tagName bytes) r
  some (tagName bytes, message, r)

end Smmboss.Client.Wire
