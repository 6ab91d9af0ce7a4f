import Smmboss.Client.HoseParser
import Smmboss.Client.Messages

namespace Smmboss.Client.Wire

/-! # The hose parser on buffers

`HoseParser.parse` as it gets messages from the socket or from a file.  An
exception can come from a read, from a property of `undefined`, or from
`expectEnd`, which is after the method has changed the parser.  `finalizeFrame`
also hands the saved frames to the diagram, which can throw as well: that call is
in `Live.finalizeFrame`, and where it returns the parser is this one.
-/

structure HitboxData where
  hb : Buffer
  worldId : Int

/-- `rawData` is the whole message. -/
structure ColliderData where
  collider : NormalCollider
  firstSeenFrameNumber : Nat
  rawData : Buffer

structure ScolData where
  scol : ScolCollider
  originalMessage : Buffer

structure HitboxCollision where
  hb1 : Option HitboxData
  hb2 : Option HitboxData
  ret : UInt64
  worldId : Int

structure HoseFrame where
  number : Nat
  hitboxes : JsMap UInt64 HitboxData
  relevantHoseMessages : List Buffer
  normalColliders : List ColliderData
  scolColliders : List ScolData
  bgCollisionPointEvents : List PointEvent
  bgCollisionTwoPointEvents : List TwoPointEvent
  hitboxCollisionEvents : List HitboxCollision

def HoseFrame.new (number : Nat) : HoseFrame where
  number
  hitboxes := ∅
  relevantHoseMessages := []
  normalColliders := []
  scolColliders := []
  bgCollisionPointEvents := []
  bgCollisionTwoPointEvents := []
  hitboxCollisionEvents := []

structure HoseParser where
  savedFrames : List HoseFrame
  curFrame : HoseFrame
  normalColliderMap : JsMap UInt64 ColliderData
  scolColliderMap : JsMap UInt64 ScolData

namespace HoseParser

def new : HoseParser where
  savedFrames := []
  curFrame := .new 0
  normalColliderMap := ∅
  scolColliderMap := ∅

/-- The colliders that were there before the frame, behind those of the frame. -/
def kept (parser : HoseParser) : List ColliderData :=
  (parser.normalColliderMap.entries.map Sigma.snd).filter fun data =>
    data.firstSeenFrameNumber ≠ parser.curFrame.number

def finalizeFrame (parser : HoseParser) : HoseParser :=
  let oldFrame :=
    { parser.curFrame with normalColliders := parser.curFrame.normalColliders ++ parser.kept }
  { parser with
    savedFrames := parser.savedFrames ++ [oldFrame]
    curFrame := .new (oldFrame.number + 1) }

def parseDoMany (parser : HoseParser) (worldId : UInt64) : HoseParser :=
  if worldId = 0 then parser.finalizeFrame else parser

/-- `none` is the exception for a property of `undefined`. -/
def collisionWorldId (hb1 hb2 : UInt64) (data1 data2 : Option HitboxData) : Option Int :=
  if hb1 ≠ 0 then data1.map HitboxData.worldId
  else if hb2 ≠ 0 then data2.map HitboxData.worldId
  else some (-1)

def parseCollision (parser : HoseParser) (hb1 hb2 ret : UInt64) : Option HoseParser :=
  let data1 := parser.curFrame.hitboxes.lookup hb1
  let data2 := parser.curFrame.hitboxes.lookup hb2
  (collisionWorldId hb1 hb2 data1 data2).map fun worldId =>
    { parser with curFrame := { parser.curFrame with
      hitboxCollisionEvents :=
        parser.curFrame.hitboxCollisionEvents ++ [⟨data1, data2, ret, worldId⟩] } }

def parseHitbox (parser : HoseParser) (ptr : UInt64) (hb : Buffer) (worldId : Int) : HoseParser :=
  { parser with curFrame := { parser.curFrame with
    hitboxes := parser.curFrame.hitboxes.set ptr ⟨hb, worldId⟩ } }

def parseNormalCollider (parser : HoseParser) (collider : NormalCollider) (buffer : Buffer) :
    HoseParser :=
  let data : ColliderData := ⟨collider, parser.curFrame.number, buffer⟩
  { parser with
    normalColliderMap := parser.normalColliderMap.set collider.ptr data
    curFrame := { parser.curFrame with
      normalColliders := parser.curFrame.normalColliders ++ [data] } }

def parseNormalColliderGone (parser : HoseParser) (ptr : UInt64) : HoseParser :=
  { parser with normalColliderMap := parser.normalColliderMap.erase ptr }

def pushScol (parser : HoseParser) (data : ScolData) : HoseParser :=
  { parser with curFrame := { parser.curFrame with
    scolColliders := parser.curFrame.scolColliders ++ [data] } }

def parseScolCollider (parser : HoseParser) (scol : ScolCollider) (buffer : Buffer) : HoseParser :=
  let data : ScolData := ⟨scol, buffer⟩
  { parser with scolColliderMap := parser.scolColliderMap.set scol.ptr data }.pushScol data

def parseHashedScolCollider (parser : HoseParser) (ptr : UInt64) : HoseParser × Option Buffer :=
  match parser.scolColliderMap.lookup ptr with
  | some data => (parser.pushScol data, some data.originalMessage)
  | none => (parser, none)

def parseBgCollisionTwoPoint (parser : HoseParser) (event : TwoPointEvent) : HoseParser :=
  { parser with curFrame := { parser.curFrame with
    bgCollisionTwoPointEvents := parser.curFrame.bgCollisionTwoPointEvents ++ [event] } }

def parseBgCollisionPoint (parser : HoseParser) (event : PointEvent) : HoseParser :=
  { parser with curFrame := { parser.curFrame with
    bgCollisionPointEvents := parser.curFrame.bgCollisionPointEvents ++ [event] } }

/-- A method after its reads: the parser and `bufferToSave`. -/
def act (parser : HoseParser) (message : Message) (buffer : Buffer) :
    Option (HoseParser × Option Buffer) :=
  match message with
  | .collision hb1 hb2 ret => (parser.parseCollision hb1 hb2 ret).map fun parser => (parser, none)
  | .doMany _ worldId => some (parser.parseDoMany worldId, none)
  | .hitbox ptr hb worldId => some (parser.parseHitbox ptr hb worldId, none)
  | .normalCollider collider => some (parser.parseNormalCollider collider buffer, none)
  | .normalColliderGone ptr => some (parser.parseNormalColliderGone ptr, none)
  | .scolCollider scol => some (parser.parseScolCollider scol buffer, none)
  | .hashedScolCollider ptr => some (parser.parseHashedScolCollider ptr)
  | .bgCollisionTwoPoint event => some (parser.parseBgCollisionTwoPoint event, none)
  | .bgCollisionPoint event => some (parser.parseBgCollisionPoint event, none)
  | .overrun => some (parser, none)
  | .unknown => some (parser, none)

/-- The message is saved with the frame that is current after it. -/
def save (parser : HoseParser) (buffer : Buffer) : HoseParser :=
  { parser with curFrame := { parser.curFrame with
    relevantHoseMessages := parser.curFrame.relevantHoseMessages ++ [buffer] } }

/-- The parser after the call and the tag it returns, `none` for an exception. -/
def parse (parser : HoseParser) (buffer : Buffer) : HoseParser × Option Buffer :=
  match readMessage buffer with
  | none => (parser, none)
  | some (tag, message, r) =>
      match parser.act message buffer with
      | none => (parser, none)
      | some (after, bufferToSave) =>
          if r.AtEnd then (after.save (bufferToSave.getD buffer), some tag) else (after, none)

/-- `onMessage` of the connection: an exception ends this message only. -/
def receive (parser : HoseParser) (buffers : List Buffer) : HoseParser :=
  buffers.foldl (fun parser buffer => (parser.parse buffer).1) parser

theorem receive_append (parser : HoseParser) (first second : List Buffer) :
    parser.receive (first ++ second) = (parser.receive first).receive second :=
  List.foldl_append

theorem receive_snoc (parser : HoseParser) (buffers : List Buffer) (last : Buffer) :
    parser.receive (buffers ++ [last]) = ((parser.receive buffers).parse last).1 :=
  receive_append parser buffers [last]

/-- A message that is read to its end and whose method does not throw. -/
theorem parse_eq {parser after : HoseParser} {buffer tag : Buffer} {message : Message} {r : Reader}
    {bufferToSave : Option Buffer} (found : readMessage buffer = some (tag, message, r))
    (ended : r.AtEnd) (acted : parser.act message buffer = some (after, bufferToSave)) :
    parser.parse buffer = (after.save (bufferToSave.getD buffer), some tag) := by
  simp only [parse, found, acted, if_pos ended]

/-- What has to be so when `parse` returns. -/
theorem parse_returns {parser after : HoseParser} {buffer tag : Buffer}
    (parsed : parser.parse buffer = (after, some tag)) :
    ∃ message r next bufferToSave, readMessage buffer = some (tag, message, r) ∧ r.AtEnd ∧
      parser.act message buffer = some (next, bufferToSave) ∧
      after = next.save (bufferToSave.getD buffer) := by
  unfold parse at parsed
  cases found : readMessage buffer with
  | none => simp [found] at parsed
  | some read =>
      obtain ⟨name, message, r⟩ := read
      cases acted : parser.act message buffer with
      | none => simp [found, acted] at parsed
      | some result =>
          obtain ⟨next, bufferToSave⟩ := result
          simp only [found, acted] at parsed
          split at parsed
          · cases parsed
            exact ⟨message, r, next, bufferToSave, rfl, ‹_›, acted, rfl⟩
          · cases parsed

end HoseParser

end Smmboss.Client.Wire
