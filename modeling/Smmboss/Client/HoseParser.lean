import Mathlib.Data.List.AList
import Smmboss.Collision.Packet

namespace Smmboss.Client

open Collision (Ptr HosePacket NormalCollider ScolCollider TwopointEvent PointEvent)

/-! # The web client's hose parser

`HoseParser.parse` on a message that has been read into its fields.  An exception
leaves the parser as it was, and the next message is parsed.  The diagram, which
`finalizeFrame` hands the saved frames to, is `Wire.Live`'s.
-/

/-- A JavaScript `Map`, in insertion order. -/
abbrev JsMap (K V : Type) := AList fun _ : K => V

namespace JsMap

variable {K V : Type} [DecidableEq K]

/-- `Map.prototype.set`: a key that is there keeps its place. -/
def set (map : JsMap K V) (key : K) (value : V) : JsMap K V :=
  if absent : key ∈ map then map.replace key value
  else ⟨map.entries ++ [⟨key, value⟩], by
    rw [List.NodupKeys, List.keys, List.map_append, List.nodup_append']
    refine ⟨map.nodupKeys, List.nodup_singleton _, ?_⟩
    rw [List.map_singleton, List.disjoint_singleton]
    exact absent⟩

theorem mem_set {map : JsMap K V} {key other : K} {value : V} :
    other ∈ map.set key value ↔ other = key ∨ other ∈ map := by
  unfold set
  split
  · rw [AList.mem_replace]
    constructor
    · exact Or.inr
    · intro known
      rcases known with rfl | old
      · assumption
      · exact old
  · rw [AList.mem_keys, AList.keys, List.keys, List.map_append, List.mem_append, or_comm]
    simp [AList.mem_keys, AList.keys, List.keys]

end JsMap

/-- `ty.s8`. -/
def s8 (byte : UInt8) : Int := byte.toInt8.toInt

structure HitboxData where
  contents : List UInt8
  worldId : Int

/-- `rawData` is the whole message. -/
structure ColliderData where
  collider : NormalCollider
  worldId : Int
  firstSeenFrameNumber : Nat
  rawData : HosePacket

structure ScolData where
  scol : ScolCollider
  worldId : Int
  originalMessage : HosePacket

structure HitboxCollision where
  hb1 : Option HitboxData
  hb2 : Option HitboxData
  ret : UInt64
  worldId : Int

structure HoseFrame where
  number : Nat
  hitboxes : JsMap Ptr HitboxData
  relevantHoseMessages : List HosePacket
  normalColliders : List ColliderData
  scolColliders : List ScolData
  bgCollisionPointEvents : List PointEvent
  bgCollisionTwoPointEvents : List TwopointEvent
  hitboxCollisionEvents : List HitboxCollision

def HoseFrame.new (number : Nat) : HoseFrame where
  number
  hitboxes := ∅
  relevantHoseMessages := []
  normalColliders := []
  scolColliders := []
  bgCollisionPointEvents := []
  bgCollisionTwoPointEvents := []
  hitboxCollisionEvents := []

structure HoseParser where
  savedFrames : List HoseFrame
  curFrame : HoseFrame
  normalColliderMap : JsMap Ptr ColliderData
  scolColliderMap : JsMap Ptr ScolData

namespace HoseParser

def new : HoseParser where
  savedFrames := []
  curFrame := .new 0
  normalColliderMap := ∅
  scolColliderMap := ∅

/-- The normal colliders that were already there are added behind those of the
frame. -/
def finalizeFrame (parser : HoseParser) : HoseParser :=
  let kept := (parser.normalColliderMap.entries.map Sigma.snd).filter fun data =>
    data.firstSeenFrameNumber ≠ parser.curFrame.number
  let oldFrame :=
    { parser.curFrame with normalColliders := parser.curFrame.normalColliders ++ kept }
  { parser with
    savedFrames := parser.savedFrames ++ [oldFrame]
    curFrame := .new (oldFrame.number + 1) }

def parseDoMany (parser : HoseParser) (worldId : UInt64) : HoseParser :=
  if worldId = 0 then parser.finalizeFrame else parser

/-- `none` is the exception for a property of `undefined`. -/
def collisionWorldId (hb1 hb2 : Ptr) (data1 data2 : Option HitboxData) : Option Int :=
  if hb1 ≠ 0 then data1.map HitboxData.worldId
  else if hb2 ≠ 0 then data2.map HitboxData.worldId
  else some (-1)

def parseCollision (parser : HoseParser) (hb1 hb2 : Ptr) (ret : UInt64) : Option HoseParser :=
  let data1 := parser.curFrame.hitboxes.lookup hb1
  let data2 := parser.curFrame.hitboxes.lookup hb2
  (collisionWorldId hb1 hb2 data1 data2).map fun worldId =>
    { parser with curFrame := { parser.curFrame with
      hitboxCollisionEvents :=
        parser.curFrame.hitboxCollisionEvents ++ [⟨data1, data2, ret, worldId⟩] } }

def parseHitbox (parser : HoseParser) (ptr : Ptr) (contents : List UInt8) (worldId : UInt8) :
    HoseParser :=
  { parser with curFrame := { parser.curFrame with
    hitboxes := parser.curFrame.hitboxes.set ptr ⟨contents, s8 worldId⟩ } }

def parseNormalCollider (parser : HoseParser) (collider : NormalCollider)
    (message : HosePacket) : HoseParser :=
  let data : ColliderData :=
    ⟨collider, s8 collider.worldId, parser.curFrame.number, message⟩
  { parser with
    normalColliderMap := parser.normalColliderMap.set collider.nc data
    curFrame := { parser.curFrame with
      normalColliders := parser.curFrame.normalColliders ++ [data] } }

def parseNormalColliderGone (parser : HoseParser) (ptr : Ptr) : HoseParser :=
  { parser with normalColliderMap := parser.normalColliderMap.erase ptr }

def parseScolCollider (parser : HoseParser) (scol : ScolCollider) (message : HosePacket) :
    HoseParser :=
  let data : ScolData := ⟨scol, s8 scol.worldId, message⟩
  { parser with
    scolColliderMap := parser.scolColliderMap.set scol.self data
    curFrame := { parser.curFrame with
      scolColliders := parser.curFrame.scolColliders ++ [data] } }

/-- The parser afterwards and the message to save, if it is another one. -/
def parseHashedScolCollider (parser : HoseParser) (ptr : Ptr) : HoseParser × Option HosePacket :=
  match parser.scolColliderMap.lookup ptr with
  | some data =>
      ({ parser with curFrame := { parser.curFrame with
        scolColliders := parser.curFrame.scolColliders ++ [data] } }, some data.originalMessage)
  | none => (parser, none)

def parseBgCollisionTwoPoint (parser : HoseParser) (event : TwopointEvent) : HoseParser :=
  { parser with curFrame := { parser.curFrame with
    bgCollisionTwoPointEvents := parser.curFrame.bgCollisionTwoPointEvents ++ [event] } }

def parseBgCollisionPoint (parser : HoseParser) (event : PointEvent) : HoseParser :=
  { parser with curFrame := { parser.curFrame with
    bgCollisionPointEvents := parser.curFrame.bgCollisionPointEvents ++ [event] } }

/-- The `switch`: the parser afterwards and `bufferToSave`. -/
def dispatch (parser : HoseParser) (message : HosePacket) :
    Option (HoseParser × Option HosePacket) :=
  match message with
  | .collisi hb1 hb2 ret => (parser.parseCollision hb1 hb2 ret).map fun parser => (parser, none)
  | .doMany _ worldId => some (parser.parseDoMany worldId, none)
  | .hitbox hb contents worldId => some (parser.parseHitbox hb contents worldId, none)
  | .normalCollider _ collider => some (parser.parseNormalCollider collider message, none)
  | .normalColliderGone nc => some (parser.parseNormalColliderGone nc, none)
  | .scolCollider scol => some (parser.parseScolCollider scol message, none)
  | .hashedScolCollider scol => some (parser.parseHashedScolCollider scol)
  | .bgCollisionTwopoint event => some (parser.parseBgCollisionTwoPoint event, none)
  | .bgCollisionPoint event => some (parser.parseBgCollisionPoint event, none)
  | .overrun => some (parser, none)
  -- an unknown tag is only counted
  | .allcols => some (parser, none)

/-- The message is saved with the frame that is current after it. -/
def save (parser : HoseParser) (message : HosePacket) : HoseParser :=
  { parser with curFrame := { parser.curFrame with
    relevantHoseMessages := parser.curFrame.relevantHoseMessages ++ [message] } }

def parse (parser : HoseParser) (message : HosePacket) : Option HoseParser :=
  (parser.dispatch message).map fun (parser, bufferToSave) =>
    parser.save (bufferToSave.getD message)

def onMessage (parser : HoseParser) (message : HosePacket) : HoseParser :=
  (parser.parse message).getD parser

def receive (parser : HoseParser) (messages : List HosePacket) : HoseParser :=
  messages.foldl onMessage parser

/-! ## The colliders the client knows -/

variable {parser : HoseParser} {ptr : Ptr}

theorem mem_onMessage_normalCollider {tag : Collision.ColliderTag} {collider : NormalCollider} :
    ptr ∈ (parser.onMessage (.normalCollider tag collider)).normalColliderMap ↔
      ptr = collider.nc ∨ ptr ∈ parser.normalColliderMap :=
  JsMap.mem_set

theorem mem_onMessage_normalColliderGone {nc : Ptr} :
    ptr ∈ (parser.onMessage (.normalColliderGone nc)).normalColliderMap ↔
      ptr ≠ nc ∧ ptr ∈ parser.normalColliderMap :=
  AList.mem_erase

end HoseParser

end Smmboss.Client
