import Smmboss.Client.Codec
import Smmboss.Client.Parser
import Smmboss.Foundation.Segments
import Smmboss.Monitor.Config

namespace Smmboss.Client.Wire

open Collision (HosePacket Memory prim tag8 writePtr)
open Reader (between)

/-! # Which messages make the parser throw

The client can connect in the middle of a frame and lose any packets, so what it
receives is any list of messages of the server.  What the diagram does with it is
not in here.
-/

/-- The callback of `do_reads`. -/
def memmonPacket (config : Monitor.Config) (memory : Memory) : Hose.Packet :=
  tag8 "memmon" :: prim 8 config.uniqid :: (List.range config.entryCount).map fun entry =>
    memory.raw (UInt64.ofNat (config.entryAddr entry)) (config.entryLen entry)

inductive ServerMessage where
  | hook (packet : HosePacket) (sized : Sized packet)
  | memmon (config : Monitor.Config) (memory : Memory) (monitored : config.uniqid ≠ 0)

namespace ServerMessage

def buffer : ServerMessage → Buffer
  | .hook packet _ => packet.body
  | .memmon config memory _ => Hose.actualWriter (memmonPacket config memory)

/-- `do_many` of world 0, at which the client starts a frame. -/
def startsFrame : ServerMessage → Bool
  | .hook (.doMany _ worldId) _ => worldId = 0
  | _ => false

def Reports (hb : UInt64) : ServerMessage → Prop
  | .hook (.hitbox ptr _ _) _ => ptr = hb
  | _ => False

end ServerMessage

/-- The hitbox was received in the client's current frame. -/
def Received (before : List ServerMessage) (hb : UInt64) : Prop :=
  ∃ message ∈ Segments.since ServerMessage.startsFrame before, message.Reports hb

/-- Not a `memmon` packet, and not a collision whose first hitbox (the second
one, if the first is null) is missing. -/
def Parsable (before : List ServerMessage) : ServerMessage → Prop
  | .hook (.collisi hb1 hb2 _) _ =>
      (hb1 ≠ 0 → Received before hb1) ∧ (hb1 = 0 → hb2 ≠ 0 → Received before hb2)
  | .hook _ _ => True
  | .memmon .. => False

/-! ## One message -/

variable {parser : HoseParser} {packet : HosePacket}

theorem parse_hook (sized : Sized packet) :
    parser.parse packet.body =
      match parser.act (messageOf packet) packet.body with
      | none => (parser, none)
      | some (after, bufferToSave) =>
          (after.save (bufferToSave.getD packet.body), some (nameOf packet)) := by
  cases acted : parser.act (messageOf packet) packet.body with
  | none => simp [HoseParser.parse, readMessage_body sized, acted]
  | some result =>
      exact HoseParser.parse_eq (readMessage_body sized) (Reader.atEnd_between.mpr rfl) acted

theorem readMessage_memmon (config : Monitor.Config) (memory : Memory) :
    ∃ tag r, readMessage (Hose.actualWriter (memmonPacket config memory)) = some (tag, .unknown, r) ∧ ¬ r.AtEnd := by
  obtain ⟨rest, split⟩ : ∃ rest, Hose.actualWriter (memmonPacket config memory) =
      tag8 "memmon" ++ (prim 8 config.uniqid ++ rest) := ⟨_, rfl⟩
  refine ⟨tagName (tag8 "memmon"), between (tag8 "memmon") (prim 8 config.uniqid ++ rest), ?_, ?_⟩
  · rw [split]
    exact readMessage_tagged rfl rfl
  · intro ended
    have length := congrArg List.length (List.append_eq_nil_iff.mp (Reader.atEnd_between.mp ended)).1
    simp [prim] at length

/-- `expectEnd` throws for the unknown tag, and nothing has changed. -/
theorem parse_memmon {config : Monitor.Config} {memory : Memory} :
    parser.parse (Hose.actualWriter (memmonPacket config memory)) = (parser, none) := by
  obtain ⟨tag, r, found, left⟩ := readMessage_memmon config memory
  simp only [HoseParser.parse, found, HoseParser.act, left, if_false]

namespace HoseParser

theorem collisionWorldId_isSome_iff {hb1 hb2 : UInt64} {data1 data2 : Option HitboxData} :
    (collisionWorldId hb1 hb2 data1 data2).isSome = true ↔
      (hb1 ≠ 0 → data1.isSome = true) ∧ (hb1 = 0 → hb2 ≠ 0 → data2.isSome = true) := by
  unfold collisionWorldId
  by_cases first : hb1 = 0
  · by_cases second : hb2 = 0
    · simp [first, second]
    · simp [first, second]
  · simp [first]

theorem lookup_isSome {K V : Type} [DecidableEq K] {map : JsMap K V} {key : K} :
    (map.lookup key).isSome = true ↔ key ∈ map := AList.lookup_isSome

theorem parseCollision_isSome_iff {hb1 hb2 ret : UInt64} :
    (parser.parseCollision hb1 hb2 ret).isSome = true ↔
      (hb1 ≠ 0 → hb1 ∈ parser.curFrame.hitboxes) ∧
        (hb1 = 0 → hb2 ≠ 0 → hb2 ∈ parser.curFrame.hitboxes) := by
  rw [parseCollision, Option.isSome_map, collisionWorldId_isSome_iff, lookup_isSome, lookup_isSome]

theorem parseCollision_hitboxes {hb1 hb2 ret : UInt64} {after : HoseParser}
    (parsed : parser.parseCollision hb1 hb2 ret = some after) :
    after.curFrame.hitboxes = parser.curFrame.hitboxes := by
  obtain ⟨worldId, _, rfl⟩ := Option.map_eq_some_iff.mp parsed
  rfl

end HoseParser

/-- What a message does to the hitboxes of the current frame. -/
theorem mem_hitboxes_parse (message : ServerMessage) {hb : UInt64} :
    hb ∈ (parser.parse message.buffer).1.curFrame.hitboxes ↔
      message.Reports hb ∨ message.startsFrame = false ∧ hb ∈ parser.curFrame.hitboxes := by
  cases message with
  | memmon config memory monitored =>
      rw [ServerMessage.buffer, parse_memmon]
      simp [ServerMessage.Reports, ServerMessage.startsFrame]
  | hook packet sized =>
      rw [ServerMessage.buffer, parse_hook sized]
      cases packet with
      | hitbox ptr contents worldId =>
          apply Iff.trans JsMap.mem_set
          simp [ServerMessage.Reports, ServerMessage.startsFrame, eq_comm]
      | collisi hb1 hb2 ret =>
          cases parsed : parser.parseCollision hb1 hb2 ret with
          | none =>
              simp [messageOf, HoseParser.act, parsed, ServerMessage.Reports,
                ServerMessage.startsFrame]
          | some after =>
              have same := HoseParser.parseCollision_hitboxes parsed
              simp [messageOf, HoseParser.act, parsed, HoseParser.save, same, ServerMessage.Reports,
                ServerMessage.startsFrame]
      | doMany areaSystem worldId =>
          by_cases first : worldId = 0
          · simp [messageOf, HoseParser.act, HoseParser.parseDoMany, first, HoseParser.save,
              HoseParser.finalizeFrame, HoseFrame.new, ServerMessage.Reports,
              ServerMessage.startsFrame]
          · simp [messageOf, HoseParser.act, HoseParser.parseDoMany, first, HoseParser.save,
              ServerMessage.Reports, ServerMessage.startsFrame]
      | hashedScolCollider scol =>
          cases known : parser.scolColliderMap.lookup scol with
          | none =>
              simp [messageOf, HoseParser.act, HoseParser.parseHashedScolCollider, known,
                HoseParser.save, ServerMessage.Reports, ServerMessage.startsFrame]
          | some data =>
              simp [messageOf, HoseParser.act, HoseParser.parseHashedScolCollider, known,
                HoseParser.pushScol, HoseParser.save, ServerMessage.Reports,
                ServerMessage.startsFrame]
      | _ =>
          simp [messageOf, HoseParser.act, HoseParser.parseNormalCollider,
            HoseParser.parseNormalColliderGone, HoseParser.parseScolCollider, HoseParser.pushScol,
            HoseParser.parseBgCollisionTwoPoint, HoseParser.parseBgCollisionPoint, HoseParser.save,
            ServerMessage.Reports, ServerMessage.startsFrame]

theorem mem_hitboxes_iff (before : List ServerMessage) {hb : UInt64} :
    hb ∈ (HoseParser.new.receive (before.map ServerMessage.buffer)).curFrame.hitboxes ↔
      Received before hb := by
  induction before using List.reverseRecOn with
  | nil => simp [HoseParser.receive, HoseParser.new, HoseFrame.new, Received]
  | append_singleton before last ih =>
      rw [List.map_append, List.map_singleton, HoseParser.receive_snoc, mem_hitboxes_parse, ih]
      unfold Received
      rw [Segments.since_snoc]
      cases starts : last.startsFrame with
      | true =>
          have other : ¬last.Reports hb := by
            intro reports
            unfold ServerMessage.Reports at reports
            split at reports
            · contradiction
            · exact reports
          simp [other]
      | false => simp [or_and_right, exists_or, or_comm]

theorem parse_returns_iff (before : List ServerMessage) (message : ServerMessage) :
    ((HoseParser.new.receive (before.map ServerMessage.buffer)).parse message.buffer).2.isSome = true ↔
      Parsable before message := by
  cases message with
  | memmon config memory monitored =>
      rw [ServerMessage.buffer, parse_memmon]
      simp [Parsable]
  | hook packet sized =>
      rw [ServerMessage.buffer, parse_hook sized]
      cases packet with
      | collisi hb1 hb2 ret =>
          have known : ((HoseParser.new.receive (before.map ServerMessage.buffer)).parseCollision
              hb1 hb2 ret).isSome = true ↔ Parsable before (.hook (.collisi hb1 hb2 ret) sized) := by
            rw [HoseParser.parseCollision_isSome_iff, mem_hitboxes_iff, mem_hitboxes_iff]
            rfl
          rw [← known]
          cases parsed : (HoseParser.new.receive (before.map ServerMessage.buffer)).parseCollision
              hb1 hb2 ret with
          | none => simp [messageOf, HoseParser.act, parsed]
          | some after => simp [messageOf, HoseParser.act, parsed]
      | _ => simp [messageOf, HoseParser.act, Parsable]

end Smmboss.Client.Wire
