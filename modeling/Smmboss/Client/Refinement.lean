import Smmboss.Client.JsMap
import Smmboss.Client.Totality
import Smmboss.Collision.Steps
import Smmboss.Rpc.Connection

namespace Smmboss.Client

open Collision (HosePacket Event Memory Env Label State)
open Segments (Grows)

/-! # Packets and their bytes

The parser of packets is the parser of bytes without the bytes.  Every packet
that the hooks publish has its sizes, so a client that gets the bytes of what
the server published is where the packets lead it.
-/

/-! ## The states -/

def HitboxData.toWire (data : HitboxData) : Wire.HitboxData where
  hb := data.contents
  worldId := data.worldId

def ColliderData.toWire (data : ColliderData) : Wire.ColliderData where
  collider := {
    ptr := data.collider.nc
    col := data.collider.dump
    extPosCur := data.collider.extPosCur
    extPosOld := data.collider.extPosOld
    segmentsCur := Reader.fields (Wire.countAt data.collider.dump Wire.segmentsCurOffset)
      Wire.colliderSegmentSize data.collider.segmentsCur
    segmentsOld := Reader.fields (Wire.countAt data.collider.dump Wire.segmentsOldOffset)
      Wire.colliderSegmentSize data.collider.segmentsOld
    worldId := data.worldId }
  firstSeenFrameNumber := data.firstSeenFrameNumber
  rawData := data.rawData.body

def ScolData.toWire (data : ScolData) : Wire.ScolData where
  scol := {
    ptr := data.scol.self
    scol := data.scol.dump
    extPosCur := data.scol.extPosCur
    extPosOld := data.scol.extPosOld
    worldId := data.worldId }
  originalMessage := data.originalMessage.body

def HitboxCollision.toWire (event : HitboxCollision) : Wire.HitboxCollision where
  hb1 := event.hb1.map HitboxData.toWire
  hb2 := event.hb2.map HitboxData.toWire
  ret := event.ret
  worldId := event.worldId

def twoPointEventToWire (event : Collision.TwopointEvent) : Wire.TwoPointEvent where
  worldId := event.worldId
  xy1 := event.xy1
  xy2 := event.xy2
  shapemask := event.shapemask
  enable1 := event.enable1.toUInt8
  enable2 := event.enable2.toUInt8
  ret := event.ret.toUInt8
  cp := event.cp

def pointEventToWire (event : Collision.PointEvent) : Wire.PointEvent where
  worldId := event.worldId
  xy := event.xy
  enable1 := event.enable1.toUInt8
  enable2 := event.enable2.toUInt8
  ret := event.ret.toUInt8
  bic := event.bic

def HoseFrame.toWire (frame : HoseFrame) : Wire.HoseFrame where
  number := frame.number
  hitboxes := JsMap.mapValues HitboxData.toWire frame.hitboxes
  relevantHoseMessages := frame.relevantHoseMessages.map HosePacket.body
  normalColliders := frame.normalColliders.map ColliderData.toWire
  scolColliders := frame.scolColliders.map ScolData.toWire
  bgCollisionPointEvents := frame.bgCollisionPointEvents.map pointEventToWire
  bgCollisionTwoPointEvents := frame.bgCollisionTwoPointEvents.map twoPointEventToWire
  hitboxCollisionEvents := frame.hitboxCollisionEvents.map HitboxCollision.toWire

namespace HoseParser

def toWire (parser : HoseParser) : Wire.HoseParser where
  savedFrames := parser.savedFrames.map HoseFrame.toWire
  curFrame := parser.curFrame.toWire
  normalColliderMap := JsMap.mapValues ColliderData.toWire parser.normalColliderMap
  scolColliderMap := JsMap.mapValues ScolData.toWire parser.scolColliderMap

/-! ## The methods -/

variable {parser after : HoseParser} {packet : HosePacket}

theorem toWire_new : new.toWire = Wire.HoseParser.new := rfl

theorem toWire_save : (parser.save packet).toWire = parser.toWire.save packet.body := by
  simp [toWire, save, Wire.HoseParser.save, HoseFrame.toWire]

theorem toWire_finalizeFrame : parser.finalizeFrame.toWire = parser.toWire.finalizeFrame := by
  have kept : parser.toWire.kept = ((parser.normalColliderMap.entries.map Sigma.snd).filter
      fun data => data.firstSeenFrameNumber ≠ parser.curFrame.number).map ColliderData.toWire := by
    rw [Wire.HoseParser.kept, toWire, JsMap.values_mapValues, List.filter_map]
    rfl
  simp only [Wire.HoseParser.finalizeFrame, kept]
  simp [toWire, finalizeFrame, HoseFrame.toWire, HoseFrame.new, Wire.HoseFrame.new]

theorem toWire_parseDoMany {worldId : UInt64} :
    (parser.parseDoMany worldId).toWire = parser.toWire.parseDoMany worldId := by
  unfold parseDoMany Wire.HoseParser.parseDoMany
  split
  · exact toWire_finalizeFrame
  · rfl

theorem collisionWorldId_toWire {hb1 hb2 : UInt64} {data1 data2 : Option HitboxData} :
    Wire.HoseParser.collisionWorldId hb1 hb2 (data1.map HitboxData.toWire)
        (data2.map HitboxData.toWire) = collisionWorldId hb1 hb2 data1 data2 := by
  unfold collisionWorldId Wire.HoseParser.collisionWorldId
  rw [Option.map_map, Option.map_map]
  rfl

theorem toWire_parseCollision {hb1 hb2 ret : UInt64} :
    (parser.parseCollision hb1 hb2 ret).map toWire = parser.toWire.parseCollision hb1 hb2 ret := by
  have first : parser.toWire.curFrame.hitboxes.lookup hb1 =
      (parser.curFrame.hitboxes.lookup hb1).map HitboxData.toWire := JsMap.lookup_mapValues _ hb1
  have second : parser.toWire.curFrame.hitboxes.lookup hb2 =
      (parser.curFrame.hitboxes.lookup hb2).map HitboxData.toWire := JsMap.lookup_mapValues _ hb2
  rw [parseCollision, Wire.HoseParser.parseCollision, first, second, collisionWorldId_toWire,
    Option.map_map]
  apply congrArg (Option.map · _)
  funext worldId
  simp [toWire, HoseFrame.toWire, HitboxCollision.toWire]

theorem toWire_parseHitbox {ptr : UInt64} {contents : List UInt8} {worldId : UInt8} :
    (parser.parseHitbox ptr contents worldId).toWire =
      parser.toWire.parseHitbox ptr contents worldId.toInt8.toInt := by
  simp only [toWire, parseHitbox, HoseFrame.toWire, Wire.HoseParser.parseHitbox, JsMap.mapValues_set]
  rfl

theorem toWire_parseNormalCollider {collider : Collision.NormalCollider} :
    (parser.parseNormalCollider collider packet).toWire =
      parser.toWire.parseNormalCollider {
        ptr := collider.nc
        col := collider.dump
        extPosCur := collider.extPosCur
        extPosOld := collider.extPosOld
        segmentsCur := Reader.fields (Wire.countAt collider.dump Wire.segmentsCurOffset)
          Wire.colliderSegmentSize collider.segmentsCur
        segmentsOld := Reader.fields (Wire.countAt collider.dump Wire.segmentsOldOffset)
          Wire.colliderSegmentSize collider.segmentsOld
        worldId := collider.worldId.toInt8.toInt } packet.body := by
  simp only [toWire, parseNormalCollider, HoseFrame.toWire, Wire.HoseParser.parseNormalCollider,
    JsMap.mapValues_set, List.map_append]
  rfl

theorem toWire_parseNormalColliderGone {ptr : UInt64} :
    (parser.parseNormalColliderGone ptr).toWire = parser.toWire.parseNormalColliderGone ptr := by
  simp only [toWire, parseNormalColliderGone, Wire.HoseParser.parseNormalColliderGone,
    JsMap.mapValues_erase]

theorem toWire_parseScolCollider {scol : Collision.ScolCollider} :
    (parser.parseScolCollider scol packet).toWire =
      parser.toWire.parseScolCollider {
        ptr := scol.self
        scol := scol.dump
        extPosCur := scol.extPosCur
        extPosOld := scol.extPosOld
        worldId := scol.worldId.toInt8.toInt } packet.body := by
  simp only [toWire, parseScolCollider, HoseFrame.toWire, Wire.HoseParser.parseScolCollider,
    Wire.HoseParser.pushScol, JsMap.mapValues_set, List.map_append]
  rfl

theorem toWire_parseBgCollisionTwoPoint {event : Collision.TwopointEvent} :
    (parser.parseBgCollisionTwoPoint event).toWire =
      parser.toWire.parseBgCollisionTwoPoint (twoPointEventToWire event) := by
  simp [toWire, parseBgCollisionTwoPoint, HoseFrame.toWire, Wire.HoseParser.parseBgCollisionTwoPoint]

theorem toWire_parseBgCollisionPoint {event : Collision.PointEvent} :
    (parser.parseBgCollisionPoint event).toWire =
      parser.toWire.parseBgCollisionPoint (pointEventToWire event) := by
  simp [toWire, parseBgCollisionPoint, HoseFrame.toWire, Wire.HoseParser.parseBgCollisionPoint]

theorem toWire_parseHashedScolCollider {ptr : UInt64} :
    parser.toWire.parseHashedScolCollider ptr =
      ((parser.parseHashedScolCollider ptr).1.toWire,
        (parser.parseHashedScolCollider ptr).2.map HosePacket.body) := by
  have found : parser.toWire.scolColliderMap.lookup ptr =
      (parser.scolColliderMap.lookup ptr).map ScolData.toWire := JsMap.lookup_mapValues _ ptr
  rw [parseHashedScolCollider, Wire.HoseParser.parseHashedScolCollider, found]
  cases parser.scolColliderMap.lookup ptr with
  | none => rfl
  | some data => simp [toWire, HoseFrame.toWire, Wire.HoseParser.pushScol, ScolData.toWire]

/-- The method of the tag, on the fields and on the packet. -/
theorem act_toWire : parser.toWire.act (Wire.messageOf packet) packet.body =
    (parser.dispatch packet).map fun (after, bufferToSave) =>
      (after.toWire, bufferToSave.map HosePacket.body) := by
  cases packet with
  | collisi hb1 hb2 ret =>
      simp only [Wire.messageOf, Wire.HoseParser.act, dispatch, ← toWire_parseCollision,
        Option.map_map]
      rfl
  | doMany areaSystem worldId => exact congrArg (fun after => some (after, none)) toWire_parseDoMany.symm
  | hitbox hb contents worldId => exact congrArg (fun after => some (after, none)) toWire_parseHitbox.symm
  | normalCollider tag collider =>
      exact congrArg (fun after => some (after, none)) toWire_parseNormalCollider.symm
  | normalColliderGone nc =>
      exact congrArg (fun after => some (after, none)) toWire_parseNormalColliderGone.symm
  | scolCollider scol => exact congrArg (fun after => some (after, none)) toWire_parseScolCollider.symm
  | hashedScolCollider scol => exact congrArg some toWire_parseHashedScolCollider
  | bgCollisionTwopoint event =>
      exact congrArg (fun after => some (after, none)) toWire_parseBgCollisionTwoPoint.symm
  | bgCollisionPoint event =>
      exact congrArg (fun after => some (after, none)) toWire_parseBgCollisionPoint.symm
  | allcols => rfl
  | overrun => rfl

/-- One message: its bytes do to the parser of bytes what the packet does to the
parser of packets, also where the method throws. -/
theorem parse_toWire (sized : Wire.Sized packet) :
    parser.toWire.parse packet.body = ((parser.onMessage packet).toWire,
      (parser.parse packet).map fun _ => Wire.nameOf packet) := by
  rw [Wire.parse_hook sized, act_toWire, onMessage, parse]
  cases parser.dispatch packet with
  | none => rfl
  | some result =>
      obtain ⟨after, bufferToSave⟩ := result
      cases bufferToSave with
      | none => exact congrArg (·, some _) toWire_save.symm
      | some saved => exact congrArg (·, some _) toWire_save.symm

/-- Any packets that have their sizes. -/
theorem receive_toWire {packets : List HosePacket} (sized : ∀ packet ∈ packets, Wire.Sized packet) :
    parser.toWire.receive (packets.map HosePacket.body) = (parser.receive packets).toWire := by
  induction packets generalizing parser with
  | nil => rfl
  | cons packet packets ih =>
      have first : (parser.toWire.parse packet.body).1 = (parser.onMessage packet).toWire := by
        rw [parse_toWire (sized packet (by simp))]
      rw [List.map_cons, Wire.HoseParser.receive, List.foldl_cons, first]
      exact ih (fun other member => sized other (by simp [member]))

end HoseParser

/-! ## What the server publishes -/

/-- A published packet is one that a hook's callback writes. -/
def Written : Event → Prop
  | .published packet => ∃ memory, Wire.Writes memory packet
  | .scolsCleared => True

variable {env : Env} {before after : State} {label : Label}

theorem written_frame : Collision.Frame env (fun packet => Written (.published packet))
    (fun before after => Grows Written before.log after.log) :=
  Collision.log_frame ⟨fun _ => 0, .overrun⟩

theorem step_written (stepped : Collision.step env before label = some after) :
    Grows Written before.log after.log := by
  have same (state : State) : Grows Written state.log state.log := Grows.refl state.log
  rcases Collision.step_cases stepped with
    ⟨_, _, rfl, rfl⟩ | ⟨rfl, _, rfl⟩ | ⟨memory, rfl, _, rfl⟩ | ⟨_, played⟩
  · exact same before
  · exact same before
  · exact written_frame.fetchAndAllColls (fun state _ => same state) (fun state _ => same state)
      (fun state => Grows.snoc state.log trivial) ⟨memory, .allcols⟩
      (fun nc => ⟨memory, .normalCollider .all nc⟩) before
  · cases label with
    | setFlags => cases played
    | testAllColls => cases played
    | fetchAndAllColls => cases played
    | frameStart =>
        cases played
        unfold State.frameStart
        split
        · exact same before
        · exact same before
    | addToCollisionGrid memory self =>
        have called : { before with alive := Function.update before.alive self true }.trackCollider
            env memory self = some after := played
        have grows := written_frame.trackCollider (fun state _ => same state)
          ⟨memory, .normalCollider .added self⟩ called
        exact grows
    | removeFromCollisionGridAndLists self =>
        have called : { before with alive := Function.update before.alive self false }.untrackCollider
            env self = some after := played
        have grows := written_frame.untrackCollider (fun state _ => same state)
          ⟨fun _ => 0, .normalColliderGone self⟩ called
        exact grows
    | scolTrueOutmost memory self =>
        exact written_frame.scolTrueOutmost (fun state _ => same state)
          ⟨memory, .scolCollider self⟩ ⟨memory, .hashedScolCollider self⟩ played
    | doManyCollisions memory self boxes =>
        exact written_frame.doManyCollisions (fun state _ => same state)
          (fun hb => ⟨memory, .hitbox hb⟩) ⟨memory, .doMany self⟩ played
    | hitboxCollide memory hb1 hb2 ret =>
        exact written_frame.hitboxCollide (fun state _ => same state)
          (fun hb => ⟨memory, .hitbox hb⟩) ⟨memory, .collisi hb1 hb2 ret⟩ played
    | bgCollideAgainstTwopoint memory call =>
        cases played
        exact written_frame.bgCollide ⟨memory, .twopoint call⟩ before
    | bgCollideAgainstPoint memory call =>
        cases played
        exact written_frame.bgCollide ⟨memory, .point call⟩ before

def AllWritten (state : State) : Prop := ∀ event ∈ state.log, Written event

theorem step_allWritten (written : AllWritten before)
    (stepped : Collision.step env before label = some after) : AllWritten after := by
  obtain ⟨news, log, newsWritten⟩ := step_written stepped
  intro event member
  rw [log] at member
  rcases List.mem_append.mp member with old | new
  · exact written event old
  · exact newsWritten event new

/-- What a run of the server publishes. -/
def published (server : State) : List HosePacket := server.log.filterMap Event.packet?

theorem published_sized {labels : List Label} {server : State}
    (reached : Machine.run (Collision.step env) Collision.initial labels = some server) :
    ∀ packet ∈ published server, Wire.Sized packet := by
  have empty : AllWritten Collision.initial := nofun
  have written : AllWritten server := Machine.run_preserves step_allWritten empty reached
  intro packet member
  obtain ⟨event, logged, same⟩ := List.mem_filterMap.mp member
  cases event with
  | published other =>
      cases same
      obtain ⟨memory, writes⟩ := written _ logged
      exact writes.sized
  | scolsCleared => cases same

/-- The messages of a socket that frames come in on. -/
def messages (frames : List (List UInt8)) : List Buffer :=
  frames.filterMap fun frame => (Rpc.readFrame frame).map Prod.snd

theorem messages_frames {packets : List HosePacket} (sized : ∀ packet ∈ packets, Wire.Sized packet) :
    messages (packets.map fun packet => Hose.frame packet.write) = packets.map HosePacket.body := by
  induction packets with
  | nil => rfl
  | cons packet packets ih =>
      have first := Rpc.readFrame_frame (Wire.sizeCalculator_body (sized packet (by simp)))
      have rest := ih fun other member => sized other (by simp [member])
      rw [messages] at rest ⊢
      rw [List.map_cons, List.filterMap_cons, first, rest]
      rfl

/-- A client that gets the frames of everything a run of the server published. -/
theorem receive_published {labels : List Label} {server : State}
    (reached : Machine.run (Collision.step env) Collision.initial labels = some server) :
    Wire.HoseParser.new.receive
        (messages ((published server).map fun packet => Hose.frame packet.write)) =
      (HoseParser.new.receive (published server)).toWire := by
  have sized := published_sized reached
  rw [messages_frames sized, ← HoseParser.toWire_new]
  exact HoseParser.receive_toWire sized

end Smmboss.Client
