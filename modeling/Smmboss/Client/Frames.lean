import Smmboss.Client.JsMap
import Smmboss.Client.Parser

namespace Smmboss.Client.Wire

/-! # Frames that are saved and replayed

A frame is saved as the messages it was made from.
-/

/-- All of the messages are parsed without an exception. -/
def HoseParser.parseAll (parser : HoseParser) : List Buffer → Option HoseParser
  | [] => some parser
  | buffer :: buffers =>
      match parser.parse buffer with
      | (after, some _) => after.parseAll buffers
      | (_, none) => none

/-! ## Saving and loading -/

structure FrameInfo where
  number : Nat
  relevantHoseMessages : List Buffer

/-- `save`.  A frame that is saved was started by its first message. -/
def HoseFrame.save (frame : HoseFrame) (isFirst : Bool) : FrameInfo where
  number := frame.number
  relevantHoseMessages :=
    if isFirst then
      let injected := frame.normalColliders.filter fun data =>
        data.firstSeenFrameNumber ≠ frame.number
      frame.relevantHoseMessages.take 1 ++ injected.map ColliderData.rawData ++
        frame.relevantHoseMessages.drop 1
    else frame.relevantHoseMessages

/-- `shift` of the frame before the first `do_many`. -/
def withoutLeading (frames : List HoseFrame) : List HoseFrame :=
  match frames with
  | [] => []
  | first :: rest => if first.number = 0 then rest else frames

/-- `map` of `save`, which is told of the first frame. -/
def saveFrames (frames : List HoseFrame) : List FrameInfo :=
  match frames with
  | [] => []
  | first :: rest => first.save true :: rest.map fun frame => frame.save false

/-- `none` is an exception of `parse` or of the assertion. -/
def loadInto (info : FrameInfo) (parser : HoseParser) : Option HoseParser :=
  match info.relevantHoseMessages with
  | [] => some parser
  | first :: rest =>
      match parser.parse first with
      | (started, some tag) =>
          if tag = ascii "do_many" then
            { started with curFrame := { started.curFrame with number := info.number } }.parseAll rest
          else none
      | (_, none) => none

def loadFramesInto (frames : List FrameInfo) (parser : HoseParser) : Option HoseParser :=
  (frames.foldlM (fun parser info => loadInto info parser) parser).map HoseParser.finalizeFrame

/-! ## What is to be the same -/

/-- Two frames, with the normal colliders as multisets of their contents. -/
structure SameFrame (left right : HoseFrame) : Prop where
  number : left.number = right.number
  hitboxes : left.hitboxes = right.hitboxes
  scolColliders : left.scolColliders = right.scolColliders
  bgCollisionPointEvents : left.bgCollisionPointEvents = right.bgCollisionPointEvents
  bgCollisionTwoPointEvents : left.bgCollisionTwoPointEvents = right.bgCollisionTwoPointEvents
  hitboxCollisionEvents : left.hitboxCollisionEvents = right.hitboxCollisionEvents
  normalColliders : (left.normalColliders.map ColliderData.collider).Perm
    (right.normalColliders.map ColliderData.collider)

/-- The last frames, without the one before the first `do_many`. -/
def lastFrames (parser : HoseParser) (nframes : Nat) : List HoseFrame :=
  (parser.savedFrames.drop (parser.savedFrames.length - nframes)).filter fun frame =>
    frame.number ≠ 0

def Rereads (buffer : Buffer) (message : Message) : Prop :=
  ∃ tag r, readMessage buffer = some (tag, message, r) ∧ r.AtEnd

def StartsFrame (buffer : Buffer) : Prop := ∃ areaSys, Rereads buffer (.doMany areaSys 0)

structure Stored (parser : HoseParser) : Prop where
  collider : ∀ ptr data, parser.normalColliderMap.lookup ptr = some data →
    data.collider.ptr = ptr ∧ data.firstSeenFrameNumber ≤ parser.curFrame.number ∧
      Rereads data.rawData (.normalCollider data.collider)
  scol : ∀ ptr data, parser.scolColliderMap.lookup ptr = some data →
    data.scol.ptr = ptr ∧ Rereads data.originalMessage (.scolCollider data.scol)
  parsed : ∀ data ∈ parser.curFrame.normalColliders,
    data.firstSeenFrameNumber = parser.curFrame.number

section

variable {parser after : HoseParser} {buffer tag : Buffer} {message : Message}
  {bufferToSave : Option Buffer}

theorem Rereads.parse (reread : Rereads buffer message)
    (acted : parser.act message buffer = some (after, bufferToSave)) :
    ∃ tag, parser.parse buffer = (after.save (bufferToSave.getD buffer), some tag) := by
  obtain ⟨tag, r, found, ended⟩ := reread
  exact ⟨tag, HoseParser.parse_eq found ended acted⟩

theorem new_stored : Stored HoseParser.new where
  collider := by simp [HoseParser.new]
  scol := by simp [HoseParser.new]
  parsed := by simp [HoseParser.new, HoseFrame.new]

theorem Stored.save (stored : Stored parser) : Stored (parser.save buffer) :=
  ⟨stored.collider, stored.scol, stored.parsed⟩

theorem Stored.finalizeFrame (stored : Stored parser) : Stored parser.finalizeFrame where
  collider := by
    intro ptr data found
    obtain ⟨key, seen, reread⟩ := stored.collider ptr data found
    exact ⟨key, Nat.le_succ_of_le seen, reread⟩
  scol := stored.scol
  parsed := by simp [HoseParser.finalizeFrame, HoseFrame.new]

theorem Stored.parseCollision {hb1 hb2 ret : UInt64} (stored : Stored parser)
    (parsed : parser.parseCollision hb1 hb2 ret = some after) : Stored after := by
  obtain ⟨worldId, _, rfl⟩ := Option.map_eq_some_iff.mp parsed
  exact ⟨stored.collider, stored.scol, stored.parsed⟩

theorem Stored.parseNormalCollider {collider : NormalCollider} (stored : Stored parser)
    (reread : Rereads buffer (.normalCollider collider)) :
    Stored (parser.parseNormalCollider collider buffer) where
  collider := by
    intro ptr data found
    simp only [HoseParser.parseNormalCollider, JsMap.lookup_set] at found
    split at found
    · rename_i same
      cases found
      exact ⟨same.symm, Nat.le_refl _, reread⟩
    · exact stored.collider ptr data found
  scol := stored.scol
  parsed := by
    intro data member
    rcases List.mem_append.mp member with old | new
    · exact stored.parsed data old
    · obtain rfl := List.mem_singleton.mp new
      rfl

theorem Stored.parseNormalColliderGone {ptr : UInt64} (stored : Stored parser) :
    Stored (parser.parseNormalColliderGone ptr) where
  collider := by
    intro other data found
    simp only [HoseParser.parseNormalColliderGone, JsMap.lookup_erase] at found
    split at found
    · contradiction
    · exact stored.collider other data found
  scol := stored.scol
  parsed := stored.parsed

theorem Stored.parseScolCollider {scol : ScolCollider} (stored : Stored parser)
    (reread : Rereads buffer (.scolCollider scol)) :
    Stored (parser.parseScolCollider scol buffer) where
  collider := stored.collider
  scol := by
    intro ptr data found
    simp only [HoseParser.parseScolCollider, HoseParser.pushScol, JsMap.lookup_set] at found
    split at found
    · rename_i same
      cases found
      exact ⟨same.symm, reread⟩
    · exact stored.scol ptr data found
  parsed := stored.parsed

theorem Stored.parseHashedScolCollider {ptr : UInt64} (stored : Stored parser) :
    Stored (parser.parseHashedScolCollider ptr).1 := by
  unfold HoseParser.parseHashedScolCollider
  split
  · exact ⟨stored.collider, stored.scol, stored.parsed⟩
  · exact stored

theorem Stored.act (stored : Stored parser) (reread : Rereads buffer message)
    (acted : parser.act message buffer = some (after, bufferToSave)) : Stored after := by
  cases message with
  | collision hb1 hb2 ret =>
      obtain ⟨next, parsed, same⟩ := Option.map_eq_some_iff.mp acted
      cases same
      exact stored.parseCollision parsed
  | doMany areaSys worldId =>
      cases acted
      unfold HoseParser.parseDoMany
      split
      · exact stored.finalizeFrame
      · exact stored
  | normalCollider collider =>
      cases acted
      exact stored.parseNormalCollider reread
  | normalColliderGone ptr =>
      cases acted
      exact stored.parseNormalColliderGone
  | scolCollider scol =>
      cases acted
      exact stored.parseScolCollider reread
  | hashedScolCollider ptr =>
      simp only [HoseParser.act, Option.some.injEq] at acted
      have kept := (stored.parseHashedScolCollider : Stored (parser.parseHashedScolCollider ptr).1)
      rwa [acted] at kept
  | hitbox ptr hb worldId =>
      cases acted
      exact ⟨stored.collider, stored.scol, stored.parsed⟩
  | bgCollisionTwoPoint event =>
      cases acted
      exact ⟨stored.collider, stored.scol, stored.parsed⟩
  | bgCollisionPoint event =>
      cases acted
      exact ⟨stored.collider, stored.scol, stored.parsed⟩
  | overrun =>
      cases acted
      exact stored
  | unknown =>
      cases acted
      exact stored

theorem Stored.parse (stored : Stored parser) (parsed : parser.parse buffer = (after, some tag)) :
    Stored after := by
  obtain ⟨message, r, next, bufferToSave, found, ended, acted, rfl⟩ :=
    HoseParser.parse_returns parsed
  exact (stored.act ⟨tag, r, found, ended⟩ acted).save

end

/-! ## Inside a frame -/

/-- What a frame holds besides its normal colliders. -/
def HoseFrame.others (frame : HoseFrame) : HoseFrame :=
  { frame with normalColliders := [], relevantHoseMessages := [] }

/-- `copy` replays the messages of a frame that `parser` has parsed so far.
A collider map has for each pointer what this frame did to it or what was there
at the start, and `copy` has `injected` colliders in front of its own. -/
structure Replaying (start copyStart : JsMap UInt64 ColliderData) (injected : List ColliderData)
    (parser copy : HoseParser) : Prop where
  others : copy.curFrame.others = parser.curFrame.others
  scols : ∀ ptr ∈ copy.scolColliderMap, ptr ∈ parser.scolColliderMap
  colliders : copy.curFrame.normalColliders = injected ++ parser.curFrame.normalColliders
  each : ∀ ptr,
    (copy.normalColliderMap.lookup ptr = parser.normalColliderMap.lookup ptr ∧
      ∀ data, parser.normalColliderMap.lookup ptr = some data →
        data.firstSeenFrameNumber = parser.curFrame.number) ∨
    (parser.normalColliderMap.lookup ptr = start.lookup ptr ∧
      copy.normalColliderMap.lookup ptr = copyStart.lookup ptr)

section

variable {start copyStart : JsMap UInt64 ColliderData} {injected : List ColliderData}
  {parser copy after : HoseParser} {buffer tag : Buffer} {message : Message}

namespace Replaying

theorem number (replaying : Replaying start copyStart injected parser copy) :
    copy.curFrame.number = parser.curFrame.number := by
  have same := congrArg HoseFrame.number replaying.others
  exact same

theorem hitboxes (replaying : Replaying start copyStart injected parser copy) :
    copy.curFrame.hitboxes = parser.curFrame.hitboxes := by
  have same := congrArg HoseFrame.hitboxes replaying.others
  exact same

theorem save (replaying : Replaying start copyStart injected parser copy) (left right : Buffer) :
    Replaying start copyStart injected (parser.save left) (copy.save right) :=
  ⟨replaying.others, replaying.scols, replaying.colliders, replaying.each⟩

theorem parseCollision {hb1 hb2 ret : UInt64} (replaying : Replaying start copyStart injected parser copy)
    (parsed : parser.parseCollision hb1 hb2 ret = some after) :
    ∃ copied, copy.parseCollision hb1 hb2 ret = some copied ∧
      Replaying start copyStart injected after copied := by
  obtain ⟨worldId, found, rfl⟩ := Option.map_eq_some_iff.mp parsed
  refine ⟨_, Option.map_eq_some_iff.mpr ⟨worldId, ?_, rfl⟩, ?_, replaying.scols,
    replaying.colliders, replaying.each⟩
  · rw [replaying.hitboxes]
    exact found
  · let event : HitboxCollision :=
      ⟨parser.curFrame.hitboxes.lookup hb1, parser.curFrame.hitboxes.lookup hb2, ret, worldId⟩
    rw [replaying.hitboxes]
    exact congrArg (fun frame : HoseFrame => { frame with
      hitboxCollisionEvents := frame.hitboxCollisionEvents ++ [event] }) replaying.others

theorem parseHitbox (replaying : Replaying start copyStart injected parser copy) (ptr : UInt64)
    (hb : Buffer) (worldId : Int) :
    Replaying start copyStart injected (parser.parseHitbox ptr hb worldId)
      (copy.parseHitbox ptr hb worldId) := by
  refine ⟨?_, replaying.scols, replaying.colliders, replaying.each⟩
  exact congrArg (fun frame : HoseFrame => { frame with
    hitboxes := frame.hitboxes.set ptr ⟨hb, worldId⟩ }) replaying.others

theorem parseBgCollisionTwoPoint (replaying : Replaying start copyStart injected parser copy)
    (event : TwoPointEvent) :
    Replaying start copyStart injected (parser.parseBgCollisionTwoPoint event)
      (copy.parseBgCollisionTwoPoint event) := by
  refine ⟨?_, replaying.scols, replaying.colliders, replaying.each⟩
  exact congrArg (fun frame : HoseFrame => { frame with
    bgCollisionTwoPointEvents := frame.bgCollisionTwoPointEvents ++ [event] }) replaying.others

theorem parseBgCollisionPoint (replaying : Replaying start copyStart injected parser copy)
    (event : PointEvent) :
    Replaying start copyStart injected (parser.parseBgCollisionPoint event)
      (copy.parseBgCollisionPoint event) := by
  refine ⟨?_, replaying.scols, replaying.colliders, replaying.each⟩
  exact congrArg (fun frame : HoseFrame => { frame with
    bgCollisionPointEvents := frame.bgCollisionPointEvents ++ [event] }) replaying.others

theorem pushScol (replaying : Replaying start copyStart injected parser copy) (data : ScolData) :
    Replaying start copyStart injected (parser.pushScol data) (copy.pushScol data) := by
  refine ⟨?_, replaying.scols, replaying.colliders, replaying.each⟩
  exact congrArg (fun frame : HoseFrame => { frame with
    scolColliders := frame.scolColliders ++ [data] }) replaying.others

theorem parseScolCollider (replaying : Replaying start copyStart injected parser copy)
    (scol : ScolCollider) (buffer : Buffer) :
    Replaying start copyStart injected (parser.parseScolCollider scol buffer)
      (copy.parseScolCollider scol buffer) := by
  refine ⟨(replaying.pushScol ⟨scol, buffer⟩).others, ?_, replaying.colliders, replaying.each⟩
  intro ptr member
  rcases JsMap.mem_set.mp member with new | old
  · exact JsMap.mem_set.mpr (.inl new)
  · exact JsMap.mem_set.mpr (.inr (replaying.scols ptr old))

/-- A hashed collider that is known is replayed by its original message. -/
theorem knownScol {data : ScolData} (replaying : Replaying start copyStart injected parser copy)
    (known : data.scol.ptr ∈ parser.scolColliderMap) :
    Replaying start copyStart injected (parser.pushScol data)
      (copy.parseScolCollider data.scol data.originalMessage) := by
  refine ⟨(replaying.pushScol data).others, ?_, replaying.colliders, replaying.each⟩
  intro ptr member
  rcases JsMap.mem_set.mp member with rfl | old
  · exact known
  · exact replaying.scols ptr old

theorem parseNormalCollider (replaying : Replaying start copyStart injected parser copy)
    (collider : NormalCollider) (buffer : Buffer) :
    Replaying start copyStart injected (parser.parseNormalCollider collider buffer)
      (copy.parseNormalCollider collider buffer) := by
  refine ⟨replaying.others, replaying.scols, ?_, ?_⟩
  · simp only [HoseParser.parseNormalCollider, replaying.colliders, replaying.number,
      List.append_assoc]
  · intro ptr
    simp only [HoseParser.parseNormalCollider, JsMap.lookup_set, replaying.number]
    by_cases same : ptr = collider.ptr
    · simp only [if_pos same]
      refine .inl ⟨trivial, ?_⟩
      intro data found
      cases found
      rfl
    · simp only [if_neg same]
      exact replaying.each ptr

theorem parseNormalColliderGone (replaying : Replaying start copyStart injected parser copy)
    (gone : UInt64) :
    Replaying start copyStart injected (parser.parseNormalColliderGone gone)
      (copy.parseNormalColliderGone gone) := by
  refine ⟨replaying.others, replaying.scols, replaying.colliders, ?_⟩
  intro ptr
  simp only [HoseParser.parseNormalColliderGone, JsMap.lookup_erase]
  by_cases same : ptr = gone
  · simp only [if_pos same]
    exact .inl ⟨trivial, by simp⟩
  · simp only [if_neg same]
    exact replaying.each ptr

end Replaying

/-- Unless it starts a frame, a message adds to the current one only. -/
structure Inside (parser after : HoseParser) : Prop where
  savedFrames : after.savedFrames = parser.savedFrames
  number : after.curFrame.number = parser.curFrame.number
  messages : after.curFrame.relevantHoseMessages = parser.curFrame.relevantHoseMessages

theorem act_inside {bufferToSave : Option Buffer}
    (acted : parser.act message buffer = some (after, bufferToSave))
    (inside : ∀ areaSys, message ≠ .doMany areaSys 0) : Inside parser after := by
  cases message with
  | collision hb1 hb2 ret =>
      obtain ⟨next, parsed, same⟩ := Option.map_eq_some_iff.mp acted
      cases same
      obtain ⟨worldId, _, rfl⟩ := Option.map_eq_some_iff.mp parsed
      exact ⟨rfl, rfl, rfl⟩
  | doMany areaSys worldId =>
      cases acted
      have other : worldId ≠ 0 := by
        rintro rfl
        exact inside areaSys rfl
      rw [HoseParser.parseDoMany, if_neg other]
      exact ⟨rfl, rfl, rfl⟩
  | hashedScolCollider ptr =>
      simp only [HoseParser.act, HoseParser.parseHashedScolCollider] at acted
      split at acted
      · cases acted
        exact ⟨rfl, rfl, rfl⟩
      · cases acted
        exact ⟨rfl, rfl, rfl⟩
  | _ =>
      cases acted
      exact ⟨rfl, rfl, rfl⟩

/-- The message that is saved does to the copy what the message did. -/
theorem Replaying.act {bufferToSave : Option Buffer}
    (replaying : Replaying start copyStart injected parser copy) (stored : Stored parser)
    (reread : Rereads buffer message) (inside : ∀ areaSys, message ≠ .doMany areaSys 0)
    (acted : parser.act message buffer = some (after, bufferToSave)) :
    ∃ again copied toSave, Rereads (bufferToSave.getD buffer) again ∧
      (∀ areaSys, again ≠ .doMany areaSys 0) ∧
      copy.act again (bufferToSave.getD buffer) = some (copied, toSave) ∧
      Replaying start copyStart injected after copied := by
  cases message with
  | collision hb1 hb2 ret =>
      obtain ⟨next, parsed, same⟩ := Option.map_eq_some_iff.mp acted
      cases same
      obtain ⟨copied, copiedParsed, now⟩ := replaying.parseCollision parsed
      refine ⟨_, copied, none, reread, inside, ?_, now⟩
      simp only [HoseParser.act, copiedParsed, Option.map_some]
  | doMany areaSys worldId =>
      cases acted
      have other : worldId ≠ 0 := by
        rintro rfl
        exact inside areaSys rfl
      refine ⟨_, _, _, reread, inside, rfl, ?_⟩
      simpa only [HoseParser.parseDoMany, if_neg other] using replaying
  | hitbox ptr hb worldId =>
      cases acted
      exact ⟨_, _, _, reread, inside, rfl, replaying.parseHitbox ptr hb worldId⟩
  | normalCollider collider =>
      cases acted
      exact ⟨_, _, _, reread, inside, rfl, replaying.parseNormalCollider collider buffer⟩
  | normalColliderGone ptr =>
      cases acted
      exact ⟨_, _, _, reread, inside, rfl, replaying.parseNormalColliderGone ptr⟩
  | scolCollider scol =>
      cases acted
      exact ⟨_, _, _, reread, inside, rfl, replaying.parseScolCollider scol buffer⟩
  | hashedScolCollider ptr =>
      simp only [HoseParser.act, HoseParser.parseHashedScolCollider] at acted
      cases known : parser.scolColliderMap.lookup ptr with
      | some data =>
          simp only [known, Option.some.injEq, Prod.mk.injEq] at acted
          obtain ⟨rfl, rfl⟩ := acted
          obtain ⟨key, original⟩ := stored.scol ptr data known
          refine ⟨_, _, _, original, by simp, rfl, replaying.knownScol ?_⟩
          rw [key]
          exact AList.lookup_isSome.mp (Option.isSome_iff_exists.mpr ⟨data, known⟩)
      | none =>
          simp only [known, Option.some.injEq, Prod.mk.injEq] at acted
          obtain ⟨rfl, rfl⟩ := acted
          have missing : copy.scolColliderMap.lookup ptr = none := by
            apply AList.lookup_eq_none.mpr
            intro member
            exact AList.lookup_eq_none.mp known (replaying.scols ptr member)
          refine ⟨_, copy, none, reread, inside, ?_, replaying⟩
          simp only [HoseParser.act, HoseParser.parseHashedScolCollider, missing]
  | bgCollisionTwoPoint event =>
      cases acted
      exact ⟨_, _, _, reread, inside, rfl, replaying.parseBgCollisionTwoPoint event⟩
  | bgCollisionPoint event =>
      cases acted
      exact ⟨_, _, _, reread, inside, rfl, replaying.parseBgCollisionPoint event⟩
  | overrun =>
      cases acted
      exact ⟨_, _, _, reread, inside, rfl, replaying⟩
  | unknown =>
      cases acted
      exact ⟨_, _, _, reread, inside, rfl, replaying⟩

/-- One message inside a frame, and the saved one. -/
theorem Replaying.parse (replaying : Replaying start copyStart injected parser copy)
    (stored : Stored parser) (inside : ¬StartsFrame buffer)
    (parsed : parser.parse buffer = (after, some tag)) :
    ∃ saved copied again, copy.parse saved = (copied, some again) ∧
      after.curFrame.relevantHoseMessages = parser.curFrame.relevantHoseMessages ++ [saved] ∧
      after.savedFrames = parser.savedFrames ∧ copied.savedFrames = copy.savedFrames ∧
      after.curFrame.number = parser.curFrame.number ∧
      Replaying start copyStart injected after copied := by
  obtain ⟨message, r, next, bufferToSave, found, ended, acted, rfl⟩ :=
    HoseParser.parse_returns parsed
  have reread : Rereads buffer message := ⟨tag, r, found, ended⟩
  have other : ∀ areaSys, message ≠ .doMany areaSys 0 := by
    rintro areaSys rfl
    exact inside ⟨areaSys, reread⟩
  obtain ⟨again, copied, toSave, rereadAgain, otherAgain, copiedActed, now⟩ :=
    replaying.act stored reread other acted
  obtain ⟨tag, copiedParsed⟩ := rereadAgain.parse copiedActed
  have added := act_inside acted other
  have copyAdded := act_inside copiedActed otherAgain
  refine ⟨_, _, tag, copiedParsed, ?_, added.savedFrames, copyAdded.savedFrames, added.number,
    now.save _ _⟩
  exact congrArg (· ++ [bufferToSave.getD buffer]) added.messages

theorem HoseParser.parseAll_nil (parser : HoseParser) : parser.parseAll [] = some parser := rfl

theorem HoseParser.parseAll_cons_iff {buffers : List Buffer} :
    parser.parseAll (buffer :: buffers) = some after ↔
      ∃ next tag, parser.parse buffer = (next, some tag) ∧ next.parseAll buffers = some after := by
  change (match parser.parse buffer with
    | (next, some _) => next.parseAll buffers
    | (_, none) => none) = some after ↔ _
  cases parser.parse buffer with
  | mk next returned =>
      cases returned with
      | none => simp
      | some tag => simp

theorem HoseParser.parseAll_append_iff {first second : List Buffer} :
    parser.parseAll (first ++ second) = some after ↔
      ∃ middle, parser.parseAll first = some middle ∧ middle.parseAll second = some after := by
  induction first generalizing parser with
  | nil => simp [HoseParser.parseAll_nil]
  | cons buffer buffers ih =>
      simp only [List.cons_append, HoseParser.parseAll_cons_iff, ih]
      constructor
      · intro ⟨next, tag, parsed, middle, left, right⟩
        exact ⟨middle, ⟨next, tag, parsed, left⟩, right⟩
      · intro ⟨middle, ⟨next, tag, parsed, left⟩, right⟩
        exact ⟨next, tag, parsed, middle, left, right⟩

theorem Stored.parseAll {buffers : List Buffer} (stored : Stored parser)
    (ran : parser.parseAll buffers = some after) : Stored after := by
  induction buffers generalizing parser with
  | nil =>
      cases ran
      exact stored
  | cons buffer buffers ih =>
      obtain ⟨next, tag, parsed, rest⟩ := HoseParser.parseAll_cons_iff.mp ran
      exact ih (stored.parse parsed) rest

/-- The messages inside a frame, and the saved ones. -/
theorem Replaying.parseAll {buffers : List Buffer}
    (replaying : Replaying start copyStart injected parser copy) (stored : Stored parser)
    (inside : ∀ buffer ∈ buffers, ¬StartsFrame buffer)
    (ran : parser.parseAll buffers = some after) :
    ∃ saved copied, copy.parseAll saved = some copied ∧
      after.curFrame.relevantHoseMessages = parser.curFrame.relevantHoseMessages ++ saved ∧
      after.savedFrames = parser.savedFrames ∧ copied.savedFrames = copy.savedFrames ∧
      after.curFrame.number = parser.curFrame.number ∧
      Replaying start copyStart injected after copied := by
  induction buffers generalizing parser copy with
  | nil =>
      cases ran
      exact ⟨[], copy, rfl, by simp, rfl, rfl, rfl, replaying⟩
  | cons buffer buffers ih =>
      obtain ⟨next, tag, parsed, rest⟩ := HoseParser.parseAll_cons_iff.mp ran
      obtain ⟨first, copied, again, copyParsed, messages, frames, copyFrames, number, now⟩ :=
        replaying.parse stored (inside buffer (by simp)) parsed
      obtain ⟨saved, last, copyRest, lastMessages, lastFrames, lastCopyFrames, lastNumber, final⟩ :=
        ih now (stored.parse parsed) (fun other member => inside other (by simp [member])) rest
      refine ⟨first :: saved, last, ?_, ?_, lastFrames.trans frames,
        lastCopyFrames.trans copyFrames, lastNumber.trans number, final⟩
      · exact HoseParser.parseAll_cons_iff.mpr ⟨copied, again, copyParsed, copyRest⟩
      · rw [lastMessages, messages, List.append_assoc, List.singleton_append]

end

end Smmboss.Client.Wire
