import Smmboss.Client.Diagram
import Smmboss.Client.JsMap
import Smmboss.Client.Totality

namespace Smmboss.Client.Wire

open Collision (HosePacket Ptr)
open LittleEndian (decode)
open Segments (Throughout)

/-! # What makes a page throw

A page gets any list of messages of the server, and between them its user can
move the scrubber or close the connection.
-/

/-! ## The solid colliders of a frame -/

/-- The last dump of a collider. -/
def lastScol (before : List ServerMessage) (self : Ptr) : Option Collision.ScolCollider :=
  before.reverse.findSome? fun
    | .hook (.scolCollider scol) _ => if scol.self = self then some scol else none
    | _ => none

namespace ServerMessage

/-- The message is a dump, or stands for one that was received. -/
def Shows (earlier : List ServerMessage) (scol : Collision.ScolCollider) : ServerMessage → Prop
  | .hook (.scolCollider other) _ => other = scol
  | .hook (.hashedScolCollider self) _ => lastScol earlier self = some scol
  | _ => False

end ServerMessage

/-- The collider is in the client's current frame. -/
def Shown (before : List ServerMessage) (scol : Collision.ScolCollider) : Prop :=
  ∃ earlier message segment, before = earlier ++ message :: segment ∧ message.Shows earlier scol ∧
    ∀ other ∈ segment, other.startsFrame = false

def scolDataOf (scol : Collision.ScolCollider) : ScolData where
  scol :=
    { ptr := scol.self
      scol := scol.dump
      extPosCur := scol.extPosCur
      extPosOld := scol.extPosOld
      worldId := scol.worldId.toInt8.toInt }
  originalMessage := (HosePacket.scolCollider scol).body

theorem lastScol_snoc (before : List ServerMessage) (last : ServerMessage) (self : Ptr) :
    lastScol (before ++ [last]) self =
      match last with
      | .hook (.scolCollider scol) _ => if scol.self = self then some scol else lastScol before self
      | _ => lastScol before self := by
  rw [lastScol, List.reverse_append, List.reverse_singleton, List.singleton_append, List.findSome?_cons]
  cases last with
  | memmon => rfl
  | hook packet sized =>
      cases packet with
      | scolCollider scol =>
          by_cases same : scol.self = self
          · simp [same]
          · simp [same, lastScol]
      | _ => rfl

theorem shown_snoc (before : List ServerMessage) (last : ServerMessage) (scol : Collision.ScolCollider) :
    Shown (before ++ [last]) scol ↔ last.Shows before scol ∨ last.startsFrame = false ∧ Shown before scol := by
  constructor
  · rintro ⟨earlier, message, segment, split, shows_, plain⟩
    rcases List.eq_nil_or_concat segment with rfl | ⟨segment, final, rfl⟩
    · obtain ⟨rfl, same⟩ := List.append_inj' split rfl
      obtain rfl : last = message := by simpa using same
      exact .inl shows_
    · rw [List.concat_eq_append, ← List.cons_append, ← List.append_assoc] at split
      obtain ⟨rfl, same⟩ := List.append_inj' split rfl
      obtain rfl : last = final := by simpa using same
      refine .inr ⟨plain last (by simp), earlier, message, segment, rfl, shows_, ?_⟩
      exact fun other member => plain other (by simp [member])
  · rintro (shows_ | ⟨plain, earlier, message, segment, rfl, shows_, rest⟩)
    · exact ⟨before, last, [], rfl, shows_, by simp⟩
    · refine ⟨earlier, message, segment ++ [last], by simp, shows_, ?_⟩
      intro other member
      rcases List.mem_append.mp member with old | new
      · exact rest other old
      · rwa [List.mem_singleton.mp new]

theorem not_shown_nil (scol : Collision.ScolCollider) : ¬ Shown [] scol := by
  rintro ⟨earlier, message, segment, split, -⟩
  simp at split

theorem lastScol_sized {before : List ServerMessage} {self : Ptr} {scol : Collision.ScolCollider}
    (last : lastScol before self = some scol) : ScolSized scol := by
  obtain ⟨message, -, found⟩ := List.exists_of_findSome?_eq_some last
  split at found
  · rename_i other sized
    split at found
    · cases found
      exact sized
    · cases found
  · cases found

theorem Shown.sized {before : List ServerMessage} {scol : Collision.ScolCollider} (shown : Shown before scol) :
    ScolSized scol := by
  obtain ⟨earlier, message, segment, -, shows_, -⟩ := shown
  unfold ServerMessage.Shows at shows_
  split at shows_
  · rename_i sized
    exact shows_ ▸ sized
  · exact lastScol_sized shows_
  · exact shows_.elim

/-! ## What the parser keeps of them -/

section Keeps

variable {parser : HoseParser} {packet : HosePacket}

/-- The parser has the colliders that were received. -/
structure Scols (before : List ServerMessage) (parser : HoseParser) : Prop where
  map : ∀ self, parser.scolColliderMap.lookup self = (lastScol before self).map scolDataOf
  frame : ∀ data, data ∈ parser.curFrame.scolColliders ↔ ∃ scol, Shown before scol ∧ scolDataOf scol = data
  hitboxes : ∀ hb data, parser.curFrame.hitboxes.lookup hb = some data → data.hb.length = 0x1c8

/-- A message that neither starts a frame nor is about a hitbox or a solid collider. -/
theorem parse_keeps {message : ServerMessage} (plain : message.startsFrame = false)
    (hitbox : ∀ hb contents worldId sized, message ≠ .hook (.hitbox hb contents worldId) sized)
    (scol : ∀ scol sized, message ≠ .hook (.scolCollider scol) sized)
    (hashed : ∀ self sized, message ≠ .hook (.hashedScolCollider self) sized) :
    (parser.parse message.buffer).1.scolColliderMap = parser.scolColliderMap ∧
      (parser.parse message.buffer).1.curFrame.scolColliders = parser.curFrame.scolColliders ∧
      (parser.parse message.buffer).1.curFrame.hitboxes = parser.curFrame.hitboxes := by
  cases message with
  | memmon config memory monitored =>
      rw [ServerMessage.buffer, parse_memmon]
      exact ⟨rfl, rfl, rfl⟩
  | hook packet sized =>
      rw [ServerMessage.buffer, parse_hook sized]
      cases packet with
      | hitbox hb contents worldId => exact absurd rfl (hitbox hb contents worldId sized)
      | scolCollider other => exact absurd rfl (scol other sized)
      | hashedScolCollider self => exact absurd rfl (hashed self sized)
      | doMany areaSystem worldId =>
          have later : worldId ≠ 0 := by simpa [ServerMessage.startsFrame] using plain
          simp [messageOf, HoseParser.act, HoseParser.parseDoMany, later, HoseParser.save]
      | collisi hb1 hb2 ret =>
          cases parsed : parser.parseCollision hb1 hb2 ret with
          | none => simp [messageOf, HoseParser.act, parsed]
          | some after =>
              obtain ⟨worldId, _, rfl⟩ := Option.map_eq_some_iff.mp parsed
              simp [messageOf, HoseParser.act, parsed, HoseParser.save]
      | _ => exact ⟨rfl, rfl, rfl⟩

theorem shows_of_scol {before : List ServerMessage} {message : ServerMessage} {shown : Collision.ScolCollider}
    (scol : ∀ scol sized, message ≠ .hook (.scolCollider scol) sized)
    (hashed : ∀ self sized, message ≠ .hook (.hashedScolCollider self) sized) : ¬ message.Shows before shown := by
  intro shows_
  unfold ServerMessage.Shows at shows_
  split at shows_
  · exact scol _ _ rfl
  · exact hashed _ _ rfl
  · exact shows_

theorem Scols.new : Scols [] HoseParser.new where
  map _ := rfl
  frame data := by simp [HoseParser.new, HoseFrame.new, not_shown_nil]
  hitboxes hb data found := by cases found

theorem Scols.keep {before : List ServerMessage} {after : HoseParser} {message : ServerMessage}
    (scols : Scols before parser) (plain : message.startsFrame = false)
    (scol : ∀ scol sized, message ≠ .hook (.scolCollider scol) sized)
    (hashed : ∀ self sized, message ≠ .hook (.hashedScolCollider self) sized)
    (map : after.scolColliderMap = parser.scolColliderMap)
    (frame : after.curFrame.scolColliders = parser.curFrame.scolColliders)
    (hitboxes : ∀ hb data, after.curFrame.hitboxes.lookup hb = some data → data.hb.length = 0x1c8) :
    Scols (before ++ [message]) after where
  map self := by
    rw [lastScol_snoc, map, scols.map]
    split
    · exact absurd rfl (scol _ _)
    · rfl
  frame data := by
    rw [frame, scols.frame]
    simp only [shown_snoc, shows_of_scol scol hashed, plain, false_or, true_and]
  hitboxes := hitboxes

/-- `do_many` of world 0. -/
theorem Scols.nextFrame {before : List ServerMessage} {areaSystem : Ptr} {sized} (scols : Scols before parser) :
    Scols (before ++ [.hook (.doMany areaSystem 0) sized])
      (parser.parse (HosePacket.doMany areaSystem 0).body).1 := by
  rw [parse_hook sized]
  constructor
  · intro self
    rw [lastScol_snoc]
    exact scols.map self
  · intro data
    simp [messageOf, HoseParser.act, HoseParser.parseDoMany, HoseParser.finalizeFrame, HoseFrame.new,
      HoseParser.save, shown_snoc, ServerMessage.Shows, ServerMessage.startsFrame]
  · intro hb data found
    cases found

theorem Scols.hitbox {before : List ServerMessage} {hb : Ptr} {contents : List UInt8} {worldId : UInt8}
    (sized : Sized (.hitbox hb contents worldId)) (scols : Scols before parser) :
    Scols (before ++ [.hook (.hitbox hb contents worldId) sized])
      (parser.parse (HosePacket.hitbox hb contents worldId).body).1 := by
  rw [parse_hook sized]
  refine scols.keep rfl (by simp) (by simp) rfl rfl ?_
  intro other data found
  have found : (parser.curFrame.hitboxes.set hb ⟨contents, worldId.toInt8.toInt⟩).lookup other = some data := found
  rw [JsMap.lookup_set] at found
  split at found
  · cases found
    exact sized
  · exact scols.hitboxes other data found

theorem Scols.dump {before : List ServerMessage} {scol : Collision.ScolCollider}
    (sized : Sized (.scolCollider scol)) (scols : Scols before parser) :
    Scols (before ++ [.hook (.scolCollider scol) sized]) (parser.parse (HosePacket.scolCollider scol).body).1 := by
  rw [parse_hook sized]
  constructor
  · intro self
    rw [lastScol_snoc]
    show (parser.scolColliderMap.set scol.self (scolDataOf scol)).lookup self = _
    rw [JsMap.lookup_set, scols.map]
    by_cases same : scol.self = self
    · simp [same]
    · simp [same, Ne.symm same]
  · intro data
    show data ∈ parser.curFrame.scolColliders ++ [scolDataOf scol] ↔ _
    simp only [List.mem_append, List.mem_singleton, scols.frame, shown_snoc, ServerMessage.Shows,
      ServerMessage.startsFrame, true_and, or_and_right, exists_or, exists_eq_left']
    rw [or_comm, eq_comm]
  · exact scols.hitboxes

theorem Scols.stands {before : List ServerMessage} {self : Ptr} (sized : Sized (.hashedScolCollider self))
    (scols : Scols before parser) :
    Scols (before ++ [.hook (.hashedScolCollider self) sized])
      (parser.parse (HosePacket.hashedScolCollider self).body).1 := by
  rw [parse_hook sized]
  have known := scols.map self
  cases last : lastScol before self with
  | none =>
      rw [last] at known
      simp only [messageOf, HoseParser.act, HoseParser.parseHashedScolCollider, known, Option.map_none]
      refine ⟨?_, ?_, scols.hitboxes⟩
      · intro other
        rw [lastScol_snoc]
        exact scols.map other
      · intro data
        show data ∈ parser.curFrame.scolColliders ↔ _
        simp [scols.frame, shown_snoc, ServerMessage.Shows, ServerMessage.startsFrame, last]
  | some scol =>
      rw [last] at known
      simp only [messageOf, HoseParser.act, HoseParser.parseHashedScolCollider, known, Option.map_some]
      refine ⟨?_, ?_, scols.hitboxes⟩
      · intro other
        rw [lastScol_snoc]
        exact scols.map other
      · intro data
        show data ∈ parser.curFrame.scolColliders ++ [scolDataOf scol] ↔ _
        simp only [List.mem_append, List.mem_singleton, scols.frame, shown_snoc, ServerMessage.Shows,
          ServerMessage.startsFrame, true_and, or_and_right, exists_or, last, Option.some.injEq, exists_eq_left']
        rw [or_comm, eq_comm]

theorem Scols.other {before : List ServerMessage} {message : ServerMessage} (scols : Scols before parser)
    (plain : message.startsFrame = false)
    (hitbox : ∀ hb contents worldId sized, message ≠ .hook (.hitbox hb contents worldId) sized)
    (scol : ∀ scol sized, message ≠ .hook (.scolCollider scol) sized)
    (hashed : ∀ self sized, message ≠ .hook (.hashedScolCollider self) sized) :
    Scols (before ++ [message]) (parser.parse message.buffer).1 := by
  obtain ⟨map, frame, hitboxes⟩ := parse_keeps plain hitbox scol hashed
  exact scols.keep plain scol hashed map frame (by rw [hitboxes]; exact scols.hitboxes)

theorem Scols.parse {before : List ServerMessage} (scols : Scols before parser) (message : ServerMessage) :
    Scols (before ++ [message]) (parser.parse message.buffer).1 := by
  cases message with
  | memmon config memory monitored => exact scols.other rfl (by simp) (by simp) (by simp)
  | hook packet sized =>
      cases packet with
      | hitbox hb contents worldId => exact scols.hitbox sized
      | scolCollider scol => exact scols.dump sized
      | hashedScolCollider self => exact scols.stands sized
      | doMany areaSystem worldId =>
          by_cases first : worldId = 0
          · subst first
            exact scols.nextFrame
          · exact scols.other (by simp [ServerMessage.startsFrame, first]) (by simp) (by simp) (by simp)
      | _ => exact scols.other rfl (by simp) (by simp) (by simp)

theorem receive_scols (before : List ServerMessage) :
    Scols before (HoseParser.new.receive (before.map ServerMessage.buffer)) := by
  induction before using List.reverseRecOn with
  | nil => exact .new
  | append_singleton before last ih =>
      rw [List.map_append, List.map_singleton, HoseParser.receive_snoc]
      exact ih.parse last

end Keeps

/-! ## Drawing them -/

/-- The points are null or behind the collider, and the results are in their
lists.  4161 is where the last point starts that is inside of the message. -/
def Drawable (scol : Collision.ScolCollider) : Prop :=
  ∀ i < 4, ((scolDataOf scol).xxyPtrCur i = 0 ∨
      scol.self ≤ (scolDataOf scol).xxyPtrCur i ∧ ((scolDataOf scol).xxyPtrCur i).toNat ≤ scol.self.toNat + 4161) ∧
    (scolDataOf scol).resultListIdxCur i < 7

theorem body_length {scol : Collision.ScolCollider} (sized : ScolSized scol) :
    (HosePacket.scolCollider scol).body.length = 4189 := by
  have tag : (Collision.tag8 "scolcol").length = 8 := rfl
  have pointer : (Collision.writePtr scol.self).length = 8 := rfl
  simp [HosePacket.body, HosePacket.write, Hose.actualWriter, sized.dump, sized.extPosCur, sized.extPosOld, tag,
    pointer, scolSize, point2DSize]

theorem readPtrFromWithin_isSome_iff {scol : Collision.ScolCollider} (sized : ScolSized scol) (ptr : UInt64) :
    ((scolDataOf scol).readPtrFromWithin ptr xxySize).isSome = true ↔
      scol.self ≤ ptr ∧ ptr.toNat ≤ scol.self.toNat + 4161 := by
  have length : (scolDataOf scol).originalMessage.length = 4189 := body_length sized
  have self : (scolDataOf scol).scol.ptr = scol.self := rfl
  rw [ScolData.readPtrFromWithin, length, self, UInt64.le_iff_toNat_le]
  simp only [dumpOffset, xxySize]
  split_ifs with near inside
  · simp
    omega
  · simp
    omega
  · simp
    omega

theorem renderThing_isSome_iff {scol : Collision.ScolCollider} (sized : ScolSized scol) :
    (scolDataOf scol).renderThing.isSome = true ↔ Drawable scol := by
  rw [scol_renderThing_isSome_iff]
  refine forall₂_congr fun i _ => and_congr ?_ ?_
  · rw [ScolData.line, ← readPtrFromWithin_isSome_iff sized]
    split
    · simp [*]
    · simp [*]
  · rw [ScolData.result]
    split
    · simp_all [resultCount]
    · simp_all [resultCount]

theorem toInt_int8_eq_zero_iff (byte : UInt8) : byte.toInt8.toInt = 0 ↔ byte = 0 := by
  have bound := byte.toNat_lt
  have signed : byte.toInt8.toInt =
      if 2 * byte.toNat < 2 ^ 8 then (byte.toNat : Int) else byte.toNat - 2 ^ 8 :=
    BitVec.toInt_eq_toNat_cond byte.toBitVec
  rw [signed, ← UInt8.toNat_inj, UInt8.toNat_zero]
  split <;> omega

/-- The frame with what is received can be drawn. -/
def FrameDrawable (before : List ServerMessage) : Prop :=
  ∀ scol, Shown before scol → scol.worldId = 0 → Drawable scol

theorem finalized_renderFrame_iff {before : List ServerMessage} {parser : HoseParser} {frame : HoseFrame}
    (scols : Scols before parser) (hitboxes : frame.hitboxes = parser.curFrame.hitboxes)
    (colliders : frame.scolColliders = parser.curFrame.scolColliders) :
    frame.renderFrame.isSome = true ↔ FrameDrawable before := by
  rw [renderFrame_isSome_iff, hitboxes, colliders]
  have whole : ∀ data ∈ parser.curFrame.hitboxes.entries.map Sigma.snd, data.worldId = diagramWorldId →
      data.renderThing.isSome = true := by
    intro data member _
    obtain ⟨hb, found⟩ := JsMap.mem_values_iff.mp member
    simp [HitboxData.renderThing, scols.hitboxes hb data found, rectOffset, rectSize]
  have world (scol : Collision.ScolCollider) : (scolDataOf scol).scol.worldId = diagramWorldId ↔ scol.worldId = 0 :=
    toInt_int8_eq_zero_iff scol.worldId
  constructor
  · rintro ⟨-, drawn⟩ scol shown inWorld
    exact (renderThing_isSome_iff shown.sized).mp
      (drawn _ ((scols.frame _).mpr ⟨scol, shown, rfl⟩) ((world scol).mpr inWorld))
  · intro drawable
    refine ⟨whole, ?_⟩
    intro data member inWorld
    obtain ⟨scol, shown, rfl⟩ := (scols.frame data).mp member
    exact (renderThing_isSome_iff shown.sized).mpr (drawable scol shown ((world scol).mp inWorld))

/-! ## What happens to a page -/

inductive Input where
  | message (message : ServerMessage)
  /-- The user moves the scrubber. -/
  | scrub (value : Nat)
  | kill

def Live.step (live : Live) : Input → Live
  | .message message => (live.parse message.buffer).1
  | .scrub value => { live with scrubbable := live.scrubbable.onChangeOrInput live.frames.length value }
  | .kill => { live with scrubbable := { live.scrubbable with dead := true } }

def Live.receive (live : Live) (inputs : List Input) : Live := inputs.foldl Live.step live

theorem Live.receive_snoc (live : Live) (inputs : List Input) (last : Input) :
    live.receive (inputs ++ [last]) = (live.receive inputs).step last :=
  List.foldl_append

namespace Input

def messages (inputs : List Input) : List ServerMessage :=
  inputs.filterMap fun
    | .message received => some received
    | _ => none

/-- The number of frames that were finalized. -/
def frames (inputs : List Input) : Nat := (messages inputs).countP ServerMessage.startsFrame

/-- The inputs, the newest first, leave the scrubber at the last frame. -/
def AtLast : List Input → Prop
  | [] => True
  | .scrub value :: earlier => frames earlier ≤ value + 1
  | _ :: earlier => AtLast earlier

/-- The page shows each frame as it comes. -/
def Follows (before : List Input) : Prop :=
  (∀ input ∈ before, input ≠ .kill) ∧ AtLast before.reverse

theorem messages_snoc (before : List Input) (message : ServerMessage) :
    messages (before ++ [.message message]) = messages before ++ [message] := List.filterMap_append

theorem frames_snoc (before : List Input) (message : ServerMessage) :
    frames (before ++ [.message message]) = frames before + if message.startsFrame then 1 else 0 := by
  rw [frames, messages_snoc, List.countP_append, List.countP_singleton]
  rfl

theorem messages_snoc_of {before : List Input} {last : Input} (other : ∀ message, last ≠ .message message) :
    messages (before ++ [last]) = messages before := by
  rw [messages, List.filterMap_append]
  cases last with
  | message message => exact absurd rfl (other message)
  | _ => exact List.append_nil _

theorem frames_reverse (before : List Input) : frames before.reverse = frames before := by
  rw [frames, messages, List.filterMap_reverse, List.countP_reverse]
  rfl

theorem atLast_snoc (before : List Input) (last : Input) :
    AtLast (before ++ [last]).reverse ↔
      match last with
      | .scrub value => frames before ≤ value + 1
      | _ => AtLast before.reverse := by
  rw [List.reverse_append, List.reverse_singleton, List.singleton_append]
  cases last with
  | scrub value => rw [AtLast, frames_reverse]
  | _ => rfl

theorem frames_snoc_of {before : List Input} {last : Input} (other : ∀ message, last ≠ .message message) :
    frames (before ++ [last]) = frames before := by
  rw [frames, messages_snoc_of other, frames]

/-- With one frame there is no other. -/
theorem atLast_of_frames {before : List Input} (few : frames before ≤ 1) : AtLast before.reverse := by
  induction before using List.reverseRecOn with
  | nil => trivial
  | append_singleton before last ih =>
      rw [atLast_snoc]
      cases last with
      | message message =>
          rw [frames_snoc] at few
          exact ih (by omega)
      | scrub value =>
          rw [frames_snoc_of (by simp)] at few
          exact Nat.le_trans few (Nat.le_add_left ..)
      | kill =>
          rw [frames_snoc_of (by simp)] at few
          exact ih few

end Input

/-- A message on which `parse` returns: the parser does not throw, and neither
does the diagram, if it is given the frame. -/
def Returns (before : List Input) (message : ServerMessage) : Prop :=
  Parsable (Input.messages before) message ∧
    (message.startsFrame = true → Input.Follows before → FrameDrawable (Input.messages before))

/-! ## Pages on which nothing threw so far -/

structure Mirrors (before : List Input) (live : Live) : Prop where
  free : live.stuck = 0
  parser : live.parser = HoseParser.new.receive ((Input.messages before).map ServerMessage.buffer)
  length : live.parser.savedFrames.length = Input.frames before
  dead : live.scrubbable.dead = true ↔ Input.kill ∈ before
  framesLength : live.scrubbable.dead = false → live.scrubbable.framesLength = Input.frames before
  last : live.scrubbable.dead = false → Input.AtLast before.reverse →
    live.scrubbable.frameIdx = (Input.frames before : Int) - 1
  earlier : live.scrubbable.dead = false → ¬ Input.AtLast before.reverse →
    live.scrubbable.frameIdx + 1 < Input.frames before

theorem Mirrors.new : Mirrors [] Live.new := by
  refine ⟨rfl, rfl, rfl, by simp [Live.new, Scrubbable.new], fun _ => rfl, fun _ _ => rfl, ?_⟩
  exact fun _ other => absurd trivial other

theorem Mirrors.scrub {before : List Input} {live : Live} (mirrors : Mirrors before live) (value : Nat) :
    Mirrors (before ++ [.scrub value]) (live.step (.scrub value)) := by
  have messages : Input.messages (before ++ [Input.scrub value]) = Input.messages before :=
    Input.messages_snoc_of (by simp)
  have count : Input.frames (before ++ [Input.scrub value]) = Input.frames before :=
    Input.frames_snoc_of (by simp)
  have length : live.frames.length = Input.frames before := by
    rw [Live.frames, mirrors.free, List.replicate_zero, List.append_nil, mirrors.length]
  have killed : Input.kill ∈ before ++ [Input.scrub value] ↔ Input.kill ∈ before := by simp
  have atLast : Input.AtLast (before ++ [Input.scrub value]).reverse ↔ Input.frames before ≤ value + 1 :=
    Input.atLast_snoc before (.scrub value)
  by_cases disabled : live.scrubbable.dead = true ∨ Input.frames before ≤ 1
  · have same : live.step (.scrub value) = live := by
      rw [Live.step, length, Scrubbable.onChangeOrInput, if_pos disabled]
    rw [same]
    refine ⟨mirrors.free, messages ▸ mirrors.parser, count ▸ mirrors.length, mirrors.dead.trans killed.symm,
      count ▸ mirrors.framesLength, ?_, ?_⟩
    · intro alive _
      have few : Input.frames before ≤ 1 := disabled.resolve_left (by simp [alive])
      exact count ▸ mirrors.last alive (Input.atLast_of_frames few)
    · intro alive notLast
      have few : Input.frames before ≤ 1 := disabled.resolve_left (by simp [alive])
      exact absurd (atLast.mpr (by omega)) notLast
  · have moved : live.step (.scrub value) = { live with scrubbable := { live.scrubbable with
        frameIdx := min value (Input.frames before - 1)
        framesLength := Input.frames before } } := by
      rw [Live.step, length, Scrubbable.onChangeOrInput, if_neg disabled]
    rw [not_or] at disabled
    rw [moved]
    refine ⟨mirrors.free, messages ▸ mirrors.parser, count ▸ mirrors.length, mirrors.dead.trans killed.symm, ?_, ?_, ?_⟩
    · exact fun _ => count.symm
    · intro _ last
      rw [atLast] at last
      rw [count]
      show min (value : Int) ((Input.frames before : Int) - 1) = (Input.frames before : Int) - 1
      omega
    · intro _ notLast
      rw [atLast] at notLast
      rw [count]
      show min (value : Int) ((Input.frames before : Int) - 1) + 1 < Input.frames before
      omega

theorem Mirrors.kill {before : List Input} {live : Live} (mirrors : Mirrors before live) :
    Mirrors (before ++ [.kill]) (live.step .kill) := by
  have messages : Input.messages (before ++ [Input.kill]) = Input.messages before :=
    Input.messages_snoc_of (by simp)
  have count : Input.frames (before ++ [Input.kill]) = Input.frames before := Input.frames_snoc_of (by simp)
  refine ⟨mirrors.free, messages ▸ mirrors.parser, count ▸ mirrors.length, by simp [Live.step], ?_, ?_, ?_⟩
  all_goals exact fun alive => absurd alive (by simp [Live.step])

/-! ### A message -/

theorem savedFrames_parse {parser : HoseParser} (message : ServerMessage) :
    (parser.parse message.buffer).1.savedFrames.length =
      parser.savedFrames.length + if message.startsFrame then 1 else 0 := by
  cases message with
  | memmon config memory monitored =>
      rw [ServerMessage.buffer, parse_memmon]
      rfl
  | hook packet sized =>
      rw [ServerMessage.buffer, parse_hook sized]
      cases packet with
      | doMany areaSystem worldId =>
          by_cases first : worldId = 0
          · simp [messageOf, HoseParser.act, HoseParser.parseDoMany, HoseParser.finalizeFrame, HoseParser.save,
              ServerMessage.startsFrame, first]
          · simp [messageOf, HoseParser.act, HoseParser.parseDoMany, HoseParser.save, ServerMessage.startsFrame, first]
      | collisi hb1 hb2 ret =>
          cases parsed : parser.parseCollision hb1 hb2 ret with
          | none => simp [messageOf, HoseParser.act, parsed, ServerMessage.startsFrame]
          | some after =>
              obtain ⟨worldId, _, rfl⟩ := Option.map_eq_some_iff.mp parsed
              simp [messageOf, HoseParser.act, parsed, HoseParser.save, ServerMessage.startsFrame]
      | hashedScolCollider self =>
          cases known : parser.scolColliderMap.lookup self with
          | none =>
              simp [messageOf, HoseParser.act, HoseParser.parseHashedScolCollider, known, HoseParser.save,
                ServerMessage.startsFrame]
          | some data =>
              simp [messageOf, HoseParser.act, HoseParser.parseHashedScolCollider, known, HoseParser.pushScol,
                HoseParser.save, ServerMessage.startsFrame]
      | _ => rfl

theorem readMessage_ne_doMany {message : ServerMessage} (plain : message.startsFrame = false)
    (tag : Buffer) (areaSys : UInt64) (r : Reader) :
    readMessage message.buffer ≠ some (tag, .doMany areaSys 0, r) := by
  cases message with
  | memmon config memory monitored =>
      obtain ⟨unknown, rest, found, -⟩ := readMessage_memmon config memory
      simp [ServerMessage.buffer, found]
  | hook packet sized =>
      rw [ServerMessage.buffer, readMessage_body sized]
      cases packet with
      | doMany areaSystem worldId =>
          have later : worldId ≠ 0 := by simpa [ServerMessage.startsFrame] using plain
          simp [messageOf, later]
      | _ => simp [messageOf]

theorem Mirrors.plain {before : List Input} {live : Live} (mirrors : Mirrors before live) {message : ServerMessage}
    (plain : message.startsFrame = false) :
    Mirrors (before ++ [.message message]) (live.parse message.buffer).1 ∧
      ((live.parse message.buffer).2.isSome = true ↔ Parsable (Input.messages before) message) := by
  have messages := Input.messages_snoc before message
  have count : Input.frames (before ++ [.message message]) = Input.frames before := by
    rw [Input.frames_snoc, plain]
    rfl
  have atLast : Input.AtLast (before ++ [Input.message message]).reverse ↔ Input.AtLast before.reverse :=
    Input.atLast_snoc before (.message message)
  rw [Live.parse_other (readMessage_ne_doMany plain)]
  constructor
  · refine ⟨mirrors.free, ?_, ?_, ?_, ?_, ?_, ?_⟩
    · rw [messages, List.map_append, List.map_singleton, HoseParser.receive_snoc, ← mirrors.parser]
    · rw [savedFrames_parse, mirrors.length, plain, count]
      rfl
    · simpa using mirrors.dead
    · exact count ▸ mirrors.framesLength
    · rw [atLast]
      exact count ▸ mirrors.last
    · rw [atLast]
      exact count ▸ mirrors.earlier
  · rw [mirrors.parser]
    exact parse_returns_iff _ message

theorem Mirrors.follows_alive {before : List Input} {live : Live} (mirrors : Mirrors before live)
    (follows : Input.Follows before) : live.scrubbable.dead = false := by
  rw [← Bool.not_eq_true, mirrors.dead]
  exact fun killed => follows.1 .kill killed rfl

/-- What the scrubber asks for when a frame is saved. -/
theorem Mirrors.updateFrames_last {before : List Input} {live : Live} (mirrors : Mirrors before live)
    (follows : Input.Follows before) :
    (live.scrubbable.updateFrames (Input.frames before + 1)).2 = some (Input.frames before : Int) := by
  have alive := mirrors.follows_alive follows
  have last := mirrors.last alive follows.2
  have framesLength := mirrors.framesLength alive
  rw [Scrubbable.updateFrames, if_neg (by simp [alive])]
  simp only [last, framesLength, ge_iff_le, le_refl, if_true]
  rw [if_pos ⟨by omega, by omega⟩]
  simp

theorem Mirrors.updateFrames_none {before : List Input} {live : Live} (mirrors : Mirrors before live)
    (behind : ¬ Input.Follows before) :
    (live.scrubbable.updateFrames (Input.frames before + 1)).2 = none := by
  cases dead : live.scrubbable.dead with
  | true => rw [Scrubbable.updateFrames, if_pos dead]
  | false =>
      have alive : ∀ input ∈ before, input ≠ .kill := by
        rintro input member rfl
        rw [mirrors.dead.mpr member] at dead
        cases dead
      have notLast : ¬ Input.AtLast before.reverse := fun last => behind ⟨alive, last⟩
      have earlier := mirrors.earlier dead notLast
      have framesLength := mirrors.framesLength dead
      rw [Scrubbable.updateFrames, if_neg (by simp [dead])]
      simp only [framesLength]
      rw [if_neg (show ¬ live.scrubbable.frameIdx ≥ (Input.frames before : Int) - 1 by omega)]
      simp

/-- The diagram is given the frame if the page follows. -/
theorem Mirrors.draws_iff {before : List Input} {live : Live} (mirrors : Mirrors before live) :
    live.Draws ↔ (Input.Follows before → FrameDrawable (Input.messages before)) := by
  have length : live.parser.finalizeFrame.savedFrames.length = Input.frames before + 1 := by
    rw [HoseParser.finalizeFrame, List.length_append, mirrors.length]
    rfl
  have last : live.parser.finalizeFrame.savedFrames[Input.frames before]? =
      some { live.parser.curFrame with
        normalColliders := live.parser.curFrame.normalColliders ++ live.parser.kept } := by
    rw [← mirrors.length]
    exact List.getElem?_concat_length
  have scols : Scols (Input.messages before) live.parser := mirrors.parser ▸ receive_scols _
  rw [Live.draws_iff mirrors.free, length]
  by_cases follows : Input.Follows before
  · simp only [mirrors.updateFrames_last follows, Option.mem_some, forall_eq', Int.toNat_natCast, last,
      Option.bind_some, follows, true_imp_iff]
    exact finalized_renderFrame_iff scols rfl rfl
  · simp [mirrors.updateFrames_none follows, follows]

section DoMany

variable {before : List Input} {live : Live} {areaSystem : Ptr}

theorem parse_finalizes (live : Live) (areaSystem : Ptr) :
    live.parse (HosePacket.doMany areaSystem 0).body =
      if live.finalizeFrame.2 then
        ({ live.finalizeFrame.1 with
          parser := live.finalizeFrame.1.parser.save (HosePacket.doMany areaSystem 0).body },
          some (nameOf (.doMany areaSystem 0)))
      else (live.finalizeFrame.1, none) :=
  Live.parse_doMany (readMessage_body (show Sized (.doMany areaSystem 0) from trivial)) (Reader.atEnd_between.mpr rfl)

theorem updateFrames_dead (scrubbable : Scrubbable) (frames : Nat) :
    (scrubbable.updateFrames frames).1.dead = scrubbable.dead := by
  unfold Scrubbable.updateFrames
  split <;> rfl

theorem updateFrames_alive {scrubbable : Scrubbable} (alive : scrubbable.dead = false) (frames : Nat) :
    (scrubbable.updateFrames frames).1.framesLength = frames ∧
      (scrubbable.updateFrames frames).1.frameIdx =
        if scrubbable.frameIdx ≥ scrubbable.framesLength - 1 then (frames : Int) - 1 else scrubbable.frameIdx := by
  unfold Scrubbable.updateFrames
  rw [if_neg (by simp [alive])]
  exact ⟨rfl, rfl⟩

theorem Mirrors.doMany (mirrors : Mirrors before live) {sized : Sized (.doMany areaSystem 0)} (draws : live.Draws) :
    Mirrors (before ++ [.message (.hook (.doMany areaSystem 0) sized)])
      (live.parse (HosePacket.doMany areaSystem 0).body).1 := by
  have count : Input.frames (before ++ [.message (.hook (.doMany areaSystem 0) sized)]) = Input.frames before + 1 :=
    Input.frames_snoc ..
  have length : live.parser.finalizeFrame.savedFrames.length = Input.frames before + 1 := by
    rw [HoseParser.finalizeFrame, List.length_append, mirrors.length]
    rfl
  have atLast : Input.AtLast (before ++ [Input.message (.hook (.doMany areaSystem 0) sized)]).reverse ↔
      Input.AtLast before.reverse := Input.atLast_snoc before _
  rw [parse_finalizes, Live.finalizeFrame_draws mirrors.free draws, if_pos rfl, length]
  have dead := updateFrames_dead live.scrubbable (Input.frames before + 1)
  have alive : (live.scrubbable.updateFrames (Input.frames before + 1)).1.dead = false →
      live.scrubbable.dead = false := fun alive => dead ▸ alive
  refine ⟨rfl, ?_, ?_, ?_, ?_, ?_, ?_⟩
  · rw [Input.messages_snoc, List.map_append, List.map_singleton, HoseParser.receive_snoc, ← mirrors.parser,
      ServerMessage.buffer, parse_hook sized]
    rfl
  · rw [count]
    exact length
  · simpa [dead] using mirrors.dead
  · intro living
    rw [count]
    exact (updateFrames_alive (alive living) _).1
  · intro living last
    have idx := mirrors.last (alive living) (atLast.mp last)
    have framesLength := mirrors.framesLength (alive living)
    rw [count]
    show (live.scrubbable.updateFrames (Input.frames before + 1)).1.frameIdx = _
    rw [(updateFrames_alive (alive living) _).2, idx, framesLength, if_pos (Int.le_refl _)]
  · intro living behind
    have idx := mirrors.earlier (alive living) (fun last => behind (atLast.mpr last))
    have framesLength := mirrors.framesLength (alive living)
    rw [count]
    show (live.scrubbable.updateFrames (Input.frames before + 1)).1.frameIdx + 1 < _
    rw [(updateFrames_alive (alive living) _).2, framesLength, if_neg (by omega)]
    omega

end DoMany

theorem startsFrame_cases {message : ServerMessage} (starts : message.startsFrame = true) :
    ∃ areaSystem sized, message = .hook (.doMany areaSystem 0) sized := by
  unfold ServerMessage.startsFrame at starts
  split at starts
  · rename_i areaSystem worldId sized
    have first : worldId = 0 := by simpa using starts
    subst first
    exact ⟨areaSystem, sized, rfl⟩
  · cases starts

theorem Mirrors.parse_isSome_iff {before : List Input} {live : Live} (mirrors : Mirrors before live)
    (message : ServerMessage) :
    (live.parse message.buffer).2.isSome = true ↔ Returns before message := by
  cases starts : message.startsFrame with
  | false =>
      rw [(mirrors.plain starts).2, Returns, starts]
      simp
  | true =>
      obtain ⟨areaSystem, sized, rfl⟩ := startsFrame_cases starts
      rw [ServerMessage.buffer, parse_finalizes]
      by_cases draws : live.Draws
      · rw [Live.finalizeFrame_draws mirrors.free draws]
        exact iff_of_true rfl ⟨trivial, fun _ => mirrors.draws_iff.mp draws⟩
      · rw [Live.finalizeFrame_throws draws]
        refine iff_of_false (by simp) ?_
        exact fun returns => draws (mirrors.draws_iff.mpr (returns.2 starts))

theorem Mirrors.message {before : List Input} {live : Live} (mirrors : Mirrors before live) {message : ServerMessage}
    (returns : (live.parse message.buffer).2.isSome = true) :
    Mirrors (before ++ [.message message]) (live.parse message.buffer).1 := by
  cases starts : message.startsFrame with
  | false => exact (mirrors.plain starts).1
  | true =>
      have drawable := ((mirrors.parse_isSome_iff message).mp returns).2 starts
      obtain ⟨areaSystem, sized, rfl⟩ := startsFrame_cases starts
      exact mirrors.doMany (mirrors.draws_iff.mpr drawable)

/-! ## Runs -/

/-- `parse` returns, if the input is a message. -/
def Fine (before : List Input) : Input → Prop
  | .message message => ((Live.new.receive before).parse message.buffer).2.isSome = true
  | _ => True

theorem receive_mirrors {before : List Input} (fine : Throughout Fine before) :
    Mirrors before (Live.new.receive before) := by
  induction before using List.reverseRecOn with
  | nil => exact .new
  | append_singleton before last ih =>
      obtain ⟨earlier, lastFine⟩ := fine.of_snoc
      rw [Live.receive_snoc]
      cases last with
      | message message => exact (ih earlier).message lastFine
      | scrub value => exact (ih earlier).scrub value
      | kill => exact (ih earlier).kill

def Expected (before : List Input) : Input → Prop
  | .message message => Returns before message
  | _ => True

theorem throughout_message_iff {Holds : List Input → Input → Prop} {received : List Input}
    (others : ∀ before input, (∀ message, input ≠ .message message) → Holds before input) :
    Throughout Holds received ↔
      ∀ before message after, received = before ++ .message message :: after → Holds before (.message message) := by
  constructor
  · exact fun throughout before message after split => throughout before _ after split
  · intro messages before input after split
    cases input with
    | message message => exact messages before message after split
    | _ => exact others _ _ (by simp)

/-- The parser returns on every message that a page receives exactly when there
is no `memmon` packet, every collision's hitbox was received since the last
frame start that was, and every frame that is shown as it comes can be drawn. -/
theorem parser_total_iff (received : List Input) :
    (∀ before message after, received = before ++ .message message :: after →
      ((Live.new.receive before).parse message.buffer).2.isSome = true) ↔
    ∀ before message after, received = before ++ .message message :: after → Returns before message := by
  have same : Throughout Fine received ↔ Throughout Expected received := by
    refine Throughout.iff_of_step fun before input fine => ?_
    cases input with
    | message message => exact (receive_mirrors fine).parse_isSome_iff message
    | _ => exact Iff.rfl
  rw [throughout_message_iff, throughout_message_iff] at same
  · exact same
  · intro before input other
    cases input with
    | message message => exact absurd rfl (other message)
    | _ => trivial
  · intro before input other
    cases input with
    | message message => exact absurd rfl (other message)
    | _ => trivial

/-! The client connects after the hitboxes of a collision were sent. -/

def lateConnect : List ServerMessage × List ServerMessage :=
  ([.hook (.hitbox 16 (List.replicate 0x1c8 0) 0) List.length_replicate,
      .hook (.hitbox 32 (List.replicate 0x1c8 0) 0) List.length_replicate],
    [.hook (.collisi 16 32 0) trivial])

theorem lateConnect_throws :
    lateConnect.2.Sublist (lateConnect.1 ++ lateConnect.2) ∧
      ¬∀ before message after, lateConnect.2.map Input.message = before ++ .message message :: after →
        ((Live.new.receive before).parse message.buffer).2.isSome = true := by
  refine ⟨List.sublist_append_right .., ?_⟩
  rw [parser_total_iff]
  intro returns
  have first := returns [] (.hook (.collisi 16 32 0) trivial) [] rfl
  obtain ⟨message, member, -⟩ := first.1.1 (by decide)
  cases member

/-! A solid collider whose points are not in its dump. -/

def strayScol : Collision.ScolCollider where
  self := 16
  dump := List.replicate scolSize 1
  extPosCur := List.replicate point2DSize 0
  extPosOld := List.replicate point2DSize 0
  worldId := 0

theorem strayScol_sized : ScolSized strayScol :=
  ⟨List.length_replicate, List.length_replicate, List.length_replicate⟩

theorem strayScol_not_drawable : ¬ Drawable strayScol := by
  intro drawable
  have point : (scolDataOf strayScol).xxyPtrCur 0 = 0x0101010101010101 := by
    simp only [ScolData.xxyPtrCur, scolDataOf, strayScol, List.drop_replicate, List.take_replicate]
    rfl
  obtain ⟨null | ⟨-, near⟩, -⟩ := drawable 0 (by decide)
  · rw [point] at null
    exact absurd null (by decide)
  · rw [point] at near
    exact absurd near (by decide)

theorem strayScol_throws :
    ¬∀ before message after,
      [ServerMessage.hook (.scolCollider strayScol) strayScol_sized, .hook (.doMany 0 0) trivial].map Input.message =
        before ++ .message message :: after →
      ((Live.new.receive before).parse message.buffer).2.isSome = true := by
  rw [parser_total_iff]
  intro returns
  have second := returns [.message (.hook (.scolCollider strayScol) strayScol_sized)] (.hook (.doMany 0 0) trivial) [] rfl
  have shown : Shown [.hook (.scolCollider strayScol) strayScol_sized] strayScol :=
    ⟨[], _, [], rfl, rfl, by simp⟩
  exact strayScol_not_drawable (second.2 rfl ⟨by simp, trivial⟩ strayScol shown rfl)

end Smmboss.Client.Wire
