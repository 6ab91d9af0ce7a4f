import Smmboss.Client.Messages
import Smmboss.Collision.Packet

namespace Smmboss.Client.Wire

open Collision (HosePacket Ptr Memory prim tag8 writePtr writeBool)
open Reader (between)
open LittleEndian (encode decode)

/-! # The codec of the hose

The server writes a packet as fields of the game's types, the client reads it
with types of its own.
-/

/-- The sizes of the fields that are copied out of memory. -/
structure ColliderSized (collider : Collision.NormalCollider) : Prop where
  dump : collider.dump.length = colliderSize
  extPosCur : collider.extPosCur.length = point2DSize
  extPosOld : collider.extPosOld.length = point2DSize
  segmentsCur : collider.segmentsCur.length =
    countAt collider.dump segmentsCurOffset * colliderSegmentSize
  segmentsOld : collider.segmentsOld.length =
    countAt collider.dump segmentsOldOffset * colliderSegmentSize

structure ScolSized (scol : Collision.ScolCollider) : Prop where
  dump : scol.dump.length = scolSize
  extPosCur : scol.extPosCur.length = point2DSize
  extPosOld : scol.extPosOld.length = point2DSize

structure TwopointSized (event : Collision.TwopointEvent) : Prop where
  xy1 : event.xy1.length = point2DSize
  xy2 : event.xy2.length = point2DSize
  cp : ∀ cp ∈ event.cp, cp.length = collisionPointSize

structure PointSized (event : Collision.PointEvent) : Prop where
  xy : event.xy.length = point2DSize
  bic : event.bic.length = collisionBicSize

def Sized : HosePacket → Prop
  | .hitbox _ contents _ => contents.length = 0x1c8
  | .normalCollider _ collider => ColliderSized collider
  | .scolCollider scol => ScolSized scol
  | .bgCollisionTwopoint event => TwopointSized event
  | .bgCollisionPoint event => PointSized event
  | _ => True

/-! ## What the hooks write -/

/-- The packets of the hooks' callbacks over the game's memory. -/
inductive Writes (memory : Memory) : HosePacket → Prop where
  | hitbox (hb : Ptr) : Writes memory (memory.hitbox hb)
  | collisi (hb1 hb2 : Ptr) (ret : UInt64) : Writes memory (.collisi hb1 hb2 ret)
  | doMany (self : Ptr) : Writes memory (memory.doMany self)
  | normalCollider (tag : Collision.ColliderTag) (nc : Ptr) :
      Writes memory (.normalCollider tag (memory.normalCollider nc))
  | normalColliderGone (nc : Ptr) : Writes memory (.normalColliderGone nc)
  | scolCollider (self : Ptr) : Writes memory (.scolCollider (memory.scolCollider self))
  | hashedScolCollider (self : Ptr) : Writes memory (.hashedScolCollider self)
  | twopoint (call : Memory.TwopointCall) : Writes memory (.bgCollisionTwopoint (memory.twopoint call))
  | point (call : Memory.PointCall) : Writes memory (.bgCollisionPoint (memory.point call))
  | allcols : Writes memory .allcols
  | overrun : Writes memory .overrun

variable {memory : Memory} {packet : HosePacket}

@[simp] theorem length_raw (start : Ptr) (size : Nat) : (memory.raw start size).length = size := by
  simp [Memory.raw]

@[simp] theorem length_extPos (pos : Ptr) : (memory.extPos pos).length = point2DSize := by
  unfold Memory.extPos
  split <;> simp [point2DSize]

/-- A field inside a dump is the field in memory. -/
theorem raw_field {start : Ptr} {size offset width : Nat} (inside : offset + width ≤ size) :
    ((memory.raw start size).drop offset).take width =
      memory.raw (start + UInt64.ofNat offset) width := by
  apply List.ext_getElem
  · simp
    omega
  · intro place left right
    simp [Memory.raw, UInt64.add_assoc]

theorem countAt_raw {start : Ptr} {size offset : Nat} (inside : offset + 4 ≤ size) :
    countAt (memory.raw start size) offset = memory.word (start + UInt64.ofNat offset) 4 := by
  rw [countAt, raw_field inside]
  rfl

theorem length_segments (countPtr : Ptr) :
    (memory.segments countPtr).length = memory.word countPtr 4 * colliderSegmentSize := by
  simp [Memory.segments, colliderSegmentSize]

theorem Writes.sized (writes : Writes memory packet) : Sized packet := by
  cases writes with
  | hitbox hb => simp [Sized, Memory.hitbox]
  | normalCollider tag nc =>
      have cur : countAt (memory.raw nc 0x3e0) segmentsCurOffset = memory.word (nc + 0x3c0) 4 :=
        countAt_raw (by decide)
      have old : countAt (memory.raw nc 0x3e0) segmentsOldOffset = memory.word (nc + 0x3d0) 4 :=
        countAt_raw (by decide)
      constructor
      · simp [Memory.normalCollider, colliderSize]
      · simp [Memory.normalCollider]
      · simp [Memory.normalCollider]
      · simp only [Memory.normalCollider, length_segments, cur]
      · simp only [Memory.normalCollider, length_segments, old]
  | scolCollider self =>
      constructor <;> simp [Memory.scolCollider, scolSize]
  | twopoint call =>
      refine ⟨by simp [Memory.twopoint, point2DSize], by simp [Memory.twopoint, point2DSize], ?_⟩
      intro cp member
      simp only [Memory.twopoint, Option.mem_def] at member
      split at member
      · contradiction
      · cases member
        simp [collisionPointSize]
  | point call =>
      constructor <;> simp [Memory.point, point2DSize, collisionBicSize]
  | _ => trivial

/-! ## What the client reads -/

/-- The message that a packet is read as. -/
def messageOf : HosePacket → Message
  | .hitbox hb contents worldId => .hitbox hb contents worldId.toInt8.toInt
  | .collisi hb1 hb2 ret => .collision hb1 hb2 ret
  | .doMany areaSystem worldId => .doMany areaSystem worldId
  | .normalCollider _ collider => .normalCollider {
      ptr := collider.nc
      col := collider.dump
      extPosCur := collider.extPosCur
      extPosOld := collider.extPosOld
      segmentsCur := Reader.fields (countAt collider.dump segmentsCurOffset) colliderSegmentSize
        collider.segmentsCur
      segmentsOld := Reader.fields (countAt collider.dump segmentsOldOffset) colliderSegmentSize
        collider.segmentsOld
      worldId := collider.worldId.toInt8.toInt }
  | .normalColliderGone nc => .normalColliderGone nc
  | .scolCollider scol => .scolCollider {
      ptr := scol.self
      scol := scol.dump
      extPosCur := scol.extPosCur
      extPosOld := scol.extPosOld
      worldId := scol.worldId.toInt8.toInt }
  | .hashedScolCollider scol => .hashedScolCollider scol
  | .bgCollisionTwopoint event => .bgCollisionTwoPoint {
      worldId := event.worldId
      xy1 := event.xy1
      xy2 := event.xy2
      shapemask := event.shapemask
      enable1 := event.enable1.toUInt8
      enable2 := event.enable2.toUInt8
      ret := event.ret.toUInt8
      cp := event.cp }
  | .bgCollisionPoint event => .bgCollisionPoint {
      worldId := event.worldId
      xy := event.xy
      enable1 := event.enable1.toUInt8
      enable2 := event.enable2.toUInt8
      ret := event.ret.toUInt8
      bic := event.bic }
  | .allcols => .unknown
  | .overrun => .overrun

/-- The name under which the client sees the packet. -/
def nameOf : HosePacket → Buffer
  | .hitbox .. => ascii "hitbox"
  | .collisi .. => ascii "collisi"
  | .doMany .. => ascii "do_many"
  | .normalCollider .added _ => ascii "normco+"
  | .normalCollider .all _ => ascii "normco*"
  | .normalColliderGone .. => ascii "normco-"
  | .scolCollider .. => ascii "scolcol"
  | .hashedScolCollider .. => ascii "scolco~"
  | .bgCollisionTwopoint .. => ascii "bgcol2p"
  | .bgCollisionPoint .. => ascii "bgcol1p"
  | .allcols => ascii "allcols"
  | .overrun => ascii "overrun"

theorem prim_eq_encode (size value : Nat) : prim size value = encode size value := rfl

theorem readMessage_tagged {tag rest : Buffer} {message : Message} {r : Reader}
    (length : tag.length = 8) (found : readCase (tagName tag) (between tag rest) = some (message, r)) :
    readMessage (tag ++ rest) = some (tagName tag, message, r) := by
  have first : (⟨tag ++ rest, 0⟩ : Reader).read 8 = some (tag, between tag rest) := by
    rw [Reader.between_nil, Reader.read_between (by rw [length]; rfl), List.nil_append]
  simp only [readMessage, first, Option.bind_eq_bind, Option.bind_some, found]

section Reads

/-- `read` takes all that is left, wherever it stands in the message. -/
def Whole (read : Reader → Option (Message × Reader)) (rest : Buffer) (message : Message) : Prop :=
  ∀ done, read (between done rest) = some (message, between (done ++ rest) [])

theorem readCollision_whole (hb1 hb2 ret : UInt64) :
    Whole readCollision (writePtr hb1 ++ (writePtr hb2 ++ (prim 8 ret.toNat ++ [])))
      (.collision hb1 hb2 ret) := by
  intro done
  simp only [readCollision, writePtr, prim_eq_encode, Reader.u64_between, Option.bind_eq_bind,
    Option.bind_some]
  simp

theorem readDoMany_whole (areaSystem worldId : UInt64) :
    Whole readDoMany (writePtr areaSystem ++ (prim 8 worldId.toNat ++ []))
      (.doMany areaSystem worldId) := by
  intro done
  simp only [readDoMany, writePtr, prim_eq_encode, Reader.u64_between, Option.bind_eq_bind,
    Option.bind_some]
  simp

theorem readHitbox_whole (hb : UInt64) (contents : Buffer) (worldId : UInt8) :
    Whole readHitbox (writePtr hb ++ (contents ++ ([worldId] ++ [])))
      (.hitbox hb contents worldId.toInt8.toInt) := by
  intro done
  have size : ((contents ++ [worldId]).length : Int) - 1 = contents.length := by
    rw [List.length_append, List.length_singleton]
    omega
  simp only [readHitbox, writePtr, prim_eq_encode, Reader.u64_between, Option.bind_eq_bind,
    Option.bind_some, Reader.remaining_between, size, Reader.read_between, List.singleton_append,
    Reader.s8_between]
  simp

theorem readNormalCollider_whole {collider : Collision.NormalCollider}
    (sized : ColliderSized collider) (tag : Collision.ColliderTag) :
    Whole readNormalCollider
      (writePtr collider.nc ++ (collider.dump ++ (collider.extPosCur ++ (collider.extPosOld ++
        (collider.segmentsCur ++ (collider.segmentsOld ++ ([collider.worldId] ++ [])))))))
      (messageOf (.normalCollider tag collider)) := by
  intro done
  simp only [readNormalCollider, writePtr, prim_eq_encode, Reader.u64_between, Option.bind_eq_bind,
    Option.bind_some, Reader.read_between (congrArg Nat.cast sized.dump),
    Reader.read_between (congrArg Nat.cast sized.extPosCur),
    Reader.read_between (congrArg Nat.cast sized.extPosOld), Reader.array_between sized.segmentsCur,
    Reader.array_between sized.segmentsOld, List.singleton_append, Reader.s8_between]
  simp [messageOf]

theorem readNormalColliderGone_whole (nc : UInt64) :
    Whole readNormalColliderGone (writePtr nc ++ []) (.normalColliderGone nc) := by
  intro done
  simp only [readNormalColliderGone, writePtr, prim_eq_encode, Reader.u64_between,
    Option.bind_eq_bind, Option.bind_some]
  simp

theorem readScolCollider_whole {scol : Collision.ScolCollider} (sized : ScolSized scol) :
    Whole readScolCollider
      (writePtr scol.self ++ (scol.dump ++ (scol.extPosCur ++ (scol.extPosOld ++
        ([scol.worldId] ++ []))))) (messageOf (.scolCollider scol)) := by
  intro done
  simp only [readScolCollider, writePtr, prim_eq_encode, Reader.u64_between, Option.bind_eq_bind,
    Option.bind_some, Reader.read_between (congrArg Nat.cast sized.dump),
    Reader.read_between (congrArg Nat.cast sized.extPosCur),
    Reader.read_between (congrArg Nat.cast sized.extPosOld), List.singleton_append,
    Reader.s8_between]
  simp [messageOf]

theorem readHashedScolCollider_whole (scol : UInt64) :
    Whole readHashedScolCollider (writePtr scol ++ []) (.hashedScolCollider scol) := by
  intro done
  simp only [readHashedScolCollider, writePtr, prim_eq_encode, Reader.u64_between,
    Option.bind_eq_bind, Option.bind_some]
  simp

theorem readBgCollisionTwoPoint_whole {event : Collision.TwopointEvent}
    (sized : TwopointSized event) :
    Whole readBgCollisionTwoPoint
      ([event.worldId] ++ (event.xy1 ++ (event.xy2 ++ (prim 4 event.shapemask.toNat ++
        (writeBool event.enable1 ++ (writeBool event.enable2 ++ (writeBool event.ret ++
          (writeBool event.cp.isSome ++ event.cp.toList.flatten))))))))
      (messageOf (.bgCollisionTwopoint event)) := by
  cases found : event.cp with
  | none =>
      intro done
      simp only [readBgCollisionTwoPoint, prim_eq_encode, writeBool, List.singleton_append,
        Reader.u8_between, Reader.u32_between, Option.bind_eq_bind, Option.bind_some,
        Reader.read_between (congrArg Nat.cast sized.xy1),
        Reader.read_between (congrArg Nat.cast sized.xy2), Option.isSome_none, Option.toList_none,
        List.flatten_nil]
      rw [if_pos (by decide)]
      simp [messageOf, found]
  | some cp =>
      intro done
      have length := sized.cp cp found
      simp only [readBgCollisionTwoPoint, prim_eq_encode, writeBool, List.singleton_append,
        Reader.u8_between, Reader.u32_between, Option.bind_eq_bind, Option.bind_some,
        Reader.read_between (congrArg Nat.cast sized.xy1),
        Reader.read_between (congrArg Nat.cast sized.xy2), Option.isSome_some, Option.toList_some,
        List.flatten_cons, List.flatten_nil, Reader.read_between (congrArg Nat.cast length)]
      rw [if_neg (by decide)]
      simp [messageOf, found]

theorem readBgCollisionPoint_whole {event : Collision.PointEvent} (sized : PointSized event) :
    Whole readBgCollisionPoint
      ([event.worldId] ++ (event.xy ++ (writeBool event.enable1 ++ (writeBool event.enable2 ++
        (writeBool event.ret ++ (event.bic ++ [])))))) (messageOf (.bgCollisionPoint event)) := by
  intro done
  simp only [readBgCollisionPoint, writeBool, List.singleton_append, Reader.u8_between,
    Option.bind_eq_bind, Option.bind_some, Reader.read_between (congrArg Nat.cast sized.xy),
    Reader.read_between (congrArg Nat.cast sized.bic)]
  simp [messageOf]

end Reads

theorem Whole.readMessage {read : Reader → Option (Message × Reader)} {tag rest : Buffer}
    {message : Message} (whole : Whole read rest message) (length : tag.length = 8)
    (found : readCase (tagName tag) = read) :
    readMessage (tag ++ rest) = some (tagName tag, message, between (tag ++ rest) []) := by
  apply readMessage_tagged length
  rw [found]
  exact whole tag

theorem unknown_whole : Whole (fun r => some (.unknown, r)) [] .unknown := by
  intro done
  rw [List.append_nil]

theorem overrun_whole : Whole (fun r => some (.overrun, r)) [] .overrun := by
  intro done
  rw [List.append_nil]

/-- The client reads every packet to its end. -/
theorem readMessage_body (sized : Sized packet) :
    readMessage packet.body = some (nameOf packet, messageOf packet, between packet.body []) := by
  cases packet with
  | hitbox hb contents worldId => exact (readHitbox_whole hb contents worldId).readMessage rfl rfl
  | collisi hb1 hb2 ret => exact (readCollision_whole hb1 hb2 ret).readMessage rfl rfl
  | doMany areaSystem worldId => exact (readDoMany_whole areaSystem worldId).readMessage rfl rfl
  | normalCollider tag collider =>
      cases tag with
      | added => exact (readNormalCollider_whole sized .added).readMessage rfl rfl
      | all => exact (readNormalCollider_whole sized .all).readMessage rfl rfl
  | normalColliderGone nc => exact (readNormalColliderGone_whole nc).readMessage rfl rfl
  | scolCollider scol => exact (readScolCollider_whole sized).readMessage rfl rfl
  | hashedScolCollider scol => exact (readHashedScolCollider_whole scol).readMessage rfl rfl
  | bgCollisionTwopoint event =>
      exact (readBgCollisionTwoPoint_whole sized).readMessage rfl rfl
  | bgCollisionPoint event => exact (readBgCollisionPoint_whole sized).readMessage rfl rfl
  | allcols => exact unknown_whole.readMessage rfl rfl
  | overrun => exact overrun_whole.readMessage rfl rfl

/-! ## The two passes of the writer -/

theorem countAt_lt (dump : Buffer) (offset : Nat) : countAt dump offset < 2 ^ 32 := by
  have bound := LittleEndian.decode_lt ((dump.drop offset).take 4)
  have width : ((dump.drop offset).take 4).length ≤ 4 := by simp
  calc countAt dump offset < 256 ^ ((dump.drop offset).take 4).length := bound
    _ ≤ 256 ^ 4 := Nat.pow_le_pow_right (by decide) width

/-- The largest packets are those with segments, which are counted in 32 bits. -/
theorem body_le (sized : Sized packet) : packet.body.length ≤ Hose.sizeMax := by
  have tagged : ∀ name, (tag8 name).length = 8 := by
    intro name
    simp [tag8]
  have bools : ∀ value, (writeBool value).length = 1 := fun _ => rfl
  unfold Hose.sizeMax
  cases packet with
  | normalCollider tag collider =>
      have cur := countAt_lt collider.dump segmentsCurOffset
      have old := countAt_lt collider.dump segmentsOldOffset
      have name : tag.tag.length = 8 := by cases tag <;> rfl
      simp only [HosePacket.body, Hose.actualWriter, HosePacket.write, List.flatten_cons,
        List.flatten_nil, List.length_append, List.length_nil, List.length_singleton, name,
        writePtr, prim_eq_encode, LittleEndian.encode_length, sized.dump, sized.extPosCur,
        sized.extPosOld, sized.segmentsCur, sized.segmentsOld, colliderSize, point2DSize,
        colliderSegmentSize]
      omega
  | scolCollider scol =>
      simp only [HosePacket.body, Hose.actualWriter, HosePacket.write, List.flatten_cons,
        List.flatten_nil, List.length_append, List.length_nil, List.length_singleton, tagged,
        writePtr, prim_eq_encode, LittleEndian.encode_length, sized.dump, sized.extPosCur,
        sized.extPosOld, scolSize, point2DSize]
      omega
  | hitbox hb contents worldId =>
      have length : contents.length = 0x1c8 := sized
      simp only [HosePacket.body, Hose.actualWriter, HosePacket.write, List.flatten_cons,
        List.flatten_nil, List.length_append, List.length_nil, List.length_singleton, tagged,
        writePtr, prim_eq_encode, LittleEndian.encode_length, length]
      omega
  | bgCollisionTwopoint event =>
      have cp : event.cp.toList.flatten.length ≤ 0x20 := by
        cases found : event.cp with
        | none => simp
        | some cp => simp [sized.cp cp found, collisionPointSize]
      simp only [HosePacket.body, Hose.actualWriter, HosePacket.write, List.cons_append,
        List.nil_append, List.flatten_cons, List.length_append, List.length_cons, tagged, bools,
        prim_eq_encode, LittleEndian.encode_length, sized.xy1, sized.xy2, point2DSize]
      omega
  | bgCollisionPoint event =>
      simp only [HosePacket.body, Hose.actualWriter, HosePacket.write, List.flatten_cons,
        List.flatten_nil, List.length_append, List.length_nil, List.length_singleton, tagged, bools,
        sized.xy, sized.bic, point2DSize, collisionBicSize]
      omega
  | collisi | doMany | normalColliderGone | hashedScolCollider | allcols | overrun =>
      simp [HosePacket.body, Hose.actualWriter, HosePacket.write, tagged, writePtr, prim_eq_encode]

theorem sizeCalculator_body (sized : Sized packet) :
    Hose.sizeCalculator packet.write = packet.body.length := by
  rw [Hose.sizeCalculator_eq]
  exact Nat.min_eq_left (body_le sized)

/-! ## Values on both sides -/

/-- The fields of a message are those of the packet.  The values are those of
the types they are written with: `long`, `int` and `int8_t` are signed, and the
world id of a normal collider is a `uint8_t`. -/
def Recovers : HosePacket → Message → Prop
  | .hitbox hb contents worldId, .hitbox ptr data world =>
      ptr = hb ∧ data = contents ∧ world = worldId.toInt8.toInt
  | .collisi hb1 hb2 ret, .collision first second value =>
      first = hb1 ∧ second = hb2 ∧ (value.toNat : Int) = ret.toInt64.toInt
  | .doMany areaSystem worldId, .doMany areaSys world => areaSys = areaSystem ∧ world = worldId
  | .normalCollider _ collider, .normalCollider data =>
      data.ptr = collider.nc ∧ data.col = collider.dump ∧ data.extPosCur = collider.extPosCur ∧
        data.extPosOld = collider.extPosOld ∧
        data.segmentsCur.length = countAt collider.dump segmentsCurOffset ∧
        data.segmentsCur.flatten = collider.segmentsCur ∧
        data.segmentsOld.length = countAt collider.dump segmentsOldOffset ∧
        data.segmentsOld.flatten = collider.segmentsOld ∧
        (∀ segment ∈ data.segmentsCur ++ data.segmentsOld, segment.length = colliderSegmentSize) ∧
        data.worldId = (collider.worldId.toNat : Int)
  | .normalColliderGone nc, .normalColliderGone ptr => ptr = nc
  | .scolCollider scol, .scolCollider data =>
      data.ptr = scol.self ∧ data.scol = scol.dump ∧ data.extPosCur = scol.extPosCur ∧
        data.extPosOld = scol.extPosOld ∧ data.worldId = scol.worldId.toInt8.toInt
  | .hashedScolCollider scol, .hashedScolCollider ptr => ptr = scol
  | .bgCollisionTwopoint event, .bgCollisionTwoPoint data =>
      data.worldId = event.worldId ∧ data.xy1 = event.xy1 ∧ data.xy2 = event.xy2 ∧
        (data.shapemask.toNat : Int) = event.shapemask.toInt32.toInt ∧
        data.enable1 = event.enable1.toUInt8 ∧ data.enable2 = event.enable2.toUInt8 ∧
        data.ret = event.ret.toUInt8 ∧ data.cp = event.cp
  | .bgCollisionPoint event, .bgCollisionPoint data =>
      data.worldId = event.worldId ∧ data.xy = event.xy ∧ data.enable1 = event.enable1.toUInt8 ∧
        data.enable2 = event.enable2.toUInt8 ∧ data.ret = event.ret.toUInt8 ∧ data.bic = event.bic
  | .allcols, .unknown => True
  | .overrun, .overrun => True
  | _, _ => False

/-- The size is that of the bytes, and the method of the tag reads all of them
and finds the fields. -/
structure Codec (packet : HosePacket) : Prop where
  sized : Hose.sizeCalculator packet.write = (Hose.actualWriter packet.write).length
  recovered : ∃ message r, readMessage (Hose.actualWriter packet.write) = some (nameOf packet, message, r) ∧
    r.AtEnd ∧ Recovers packet message

/-- No field that is signed on one side only has its highest bit set. -/
def SignsKept : HosePacket → Prop
  | .normalCollider _ collider => collider.worldId.toNat < 2 ^ 7
  | .collisi _ _ ret => ret.toNat < 2 ^ 63
  | .bgCollisionTwopoint event => event.shapemask.toNat < 2 ^ 31
  | _ => True

theorem toInt_int8_iff (byte : UInt8) : byte.toInt8.toInt = (byte.toNat : Int) ↔ byte.toNat < 2 ^ 7 := by
  have bound := byte.toNat_lt
  have signed : byte.toInt8.toInt =
      if 2 * byte.toNat < 2 ^ 8 then (byte.toNat : Int) else byte.toNat - 2 ^ 8 :=
    BitVec.toInt_eq_toNat_cond byte.toBitVec
  rw [signed]
  split <;> omega

theorem toInt_int32_iff (word : UInt32) :
    (word.toNat : Int) = word.toInt32.toInt ↔ word.toNat < 2 ^ 31 := by
  have bound := word.toNat_lt
  have signed : word.toInt32.toInt =
      if 2 * word.toNat < 2 ^ 32 then (word.toNat : Int) else word.toNat - 2 ^ 32 :=
    BitVec.toInt_eq_toNat_cond word.toBitVec
  rw [signed]
  split <;> omega

theorem toInt_int64_iff (word : UInt64) :
    (word.toNat : Int) = word.toInt64.toInt ↔ word.toNat < 2 ^ 63 := by
  have bound := word.toNat_lt
  have signed : word.toInt64.toInt =
      if 2 * word.toNat < 2 ^ 64 then (word.toNat : Int) else word.toNat - 2 ^ 64 :=
    BitVec.toInt_eq_toNat_cond word.toBitVec
  rw [signed]
  split <;> omega

theorem recovers_messageOf_iff (sized : Sized packet) :
    Recovers packet (messageOf packet) ↔ SignsKept packet := by
  cases packet with
  | hitbox hb contents worldId => exact iff_of_true ⟨rfl, rfl, rfl⟩ trivial
  | collisi hb1 hb2 ret =>
      refine Iff.trans ?_ (toInt_int64_iff ret)
      exact ⟨fun recovered => recovered.2.2, fun value => ⟨rfl, rfl, value⟩⟩
  | doMany areaSystem worldId => exact iff_of_true ⟨rfl, rfl⟩ trivial
  | normalCollider tag collider =>
      refine Iff.trans ?_ (toInt_int8_iff collider.worldId)
      constructor
      · intro ⟨_, _, _, _, _, _, _, _, _, world⟩
        exact world
      · intro world
        refine ⟨rfl, rfl, rfl, rfl, Reader.fields_length, Reader.fields_flatten sized.segmentsCur,
          Reader.fields_length, Reader.fields_flatten sized.segmentsOld, ?_, world⟩
        intro segment member
        rcases List.mem_append.mp member with cur | old
        · exact Reader.fields_sized sized.segmentsCur segment cur
        · exact Reader.fields_sized sized.segmentsOld segment old
  | normalColliderGone nc => exact iff_of_true rfl trivial
  | scolCollider scol => exact iff_of_true ⟨rfl, rfl, rfl, rfl, rfl⟩ trivial
  | hashedScolCollider scol => exact iff_of_true rfl trivial
  | bgCollisionTwopoint event =>
      refine Iff.trans ?_ (toInt_int32_iff event.shapemask)
      constructor
      · intro ⟨_, _, _, mask, _⟩
        exact mask
      · intro mask
        exact ⟨rfl, rfl, rfl, mask, rfl, rfl, rfl, rfl⟩
  | bgCollisionPoint event => exact iff_of_true ⟨rfl, rfl, rfl, rfl, rfl, rfl⟩ trivial
  | allcols => exact iff_of_true trivial trivial
  | overrun => exact iff_of_true trivial trivial

/-- The codec loses nothing but signs. -/
theorem codec_iff (sized : Sized packet) : Codec packet ↔ SignsKept packet := by
  rw [← recovers_messageOf_iff sized]
  constructor
  · intro ⟨_, message, r, found, _, recovers⟩
    have same : some (nameOf packet, message, r) = some (nameOf packet, messageOf packet, _) :=
      found.symm.trans (readMessage_body sized)
    simp only [Option.some.injEq, Prod.mk.injEq] at same
    rwa [same.2.1] at recovers
  · intro recovers
    exact ⟨sizeCalculator_body sized, _, _, readMessage_body sized, Reader.atEnd_between.mpr rfl,
      recovers⟩

/-! Colliders with two segments now and one before, in the worlds 1 and 200. -/

def colliderDump : Buffer := ((List.replicate colliderSize 0).set segmentsCurOffset 2).set segmentsOldOffset 1

def colliderIn (worldId : UInt8) : HosePacket :=
  .normalCollider .added {
    nc := 0x1000
    dump := colliderDump
    extPosCur := [1, 2, 3, 4, 5, 6, 7, 8]
    extPosOld := List.replicate 8 9
    segmentsCur := List.replicate (2 * colliderSegmentSize) 10
    segmentsOld := List.replicate colliderSegmentSize 11
    worldId }

theorem colliderDump_counts :
    countAt colliderDump segmentsCurOffset = 2 ∧ countAt colliderDump segmentsOldOffset = 1 := by
  decide +kernel

theorem colliderIn_sized (worldId : UInt8) : Sized (colliderIn worldId) where
  dump := by
    show colliderDump.length = colliderSize
    rw [colliderDump, List.length_set, List.length_set, List.length_replicate]
  extPosCur := rfl
  extPosOld := List.length_replicate
  segmentsCur := by
    show (List.replicate (2 * colliderSegmentSize) _).length = countAt colliderDump segmentsCurOffset * colliderSegmentSize
    rw [colliderDump_counts.1, List.length_replicate]
  segmentsOld := by
    show (List.replicate colliderSegmentSize _).length = countAt colliderDump segmentsOldOffset * colliderSegmentSize
    rw [colliderDump_counts.2, List.length_replicate, Nat.one_mul]

theorem codec_iff_colliderIn : Sized (colliderIn 1) ∧ Codec (colliderIn 1) ∧ ¬ Codec (colliderIn 200) := by
  have kept : SignsKept (colliderIn 1) := show (1 : UInt8).toNat < 2 ^ 7 by decide
  have lost : ¬ SignsKept (colliderIn 200) := show ¬ (200 : UInt8).toNat < 2 ^ 7 by decide
  exact ⟨colliderIn_sized 1, (codec_iff (colliderIn_sized 1)).mpr kept, fun codec =>
    lost ((codec_iff (colliderIn_sized 200)).mp codec)⟩

/-- World 200 is read as world -56. -/
theorem colliderIn_world200 : Sized (colliderIn 200) ∧
    (∃ collider, messageOf (colliderIn 200) = .normalCollider collider ∧ collider.worldId = -56) ∧
    ¬Codec (colliderIn 200) := by
  refine ⟨colliderIn_sized 200, ⟨_, rfl, by decide⟩, ?_⟩
  intro ⟨_, message, r, found, _, recovers⟩
  have same : some (nameOf (colliderIn 200), message, r) =
      some (nameOf (colliderIn 200), messageOf (colliderIn 200), _) :=
    found.symm.trans (readMessage_body (colliderIn_sized 200))
  simp only [Option.some.injEq, Prod.mk.injEq] at same
  rw [same.2.1] at recovers
  have world := recovers.2.2.2.2.2.2.2.2.2
  exact absurd world (by decide)

end Smmboss.Client.Wire
