import Smmboss.Client.Parser

namespace Smmboss.Client.Wire

open LittleEndian (decode)

/-! # The diagram and its scrubber

What `Diagram.renderFrame` reads out of a frame before it draws it.  The drawing
itself always succeeds and is left out, and so are the things whose fields the
parser has read: normal colliders and background events.
-/

/-- `worldID` of the diagram. -/
def diagramWorldId : Int := 0

def xxySize : Nat := 12

def rectOffset : Nat := 0x1b8

def rectSize : Nat := 0x10

def xxyPtrsCurOffset : Nat := 0x1a8

def resultListIdxsCurOffset : Nat := 0x3c4

def resultListsCurOffset : Nat := 0x3e8

def resultSize : Nat := 0x38

/-- The number of entries of a `ScolResultList`. -/
def resultCount : Nat := 7

/-- Where the dump is in its message. -/
def dumpOffset : Nat := 16

/-- `DiagramHitboxes`.  The dump is followed by the byte of the world, and the
rectangle has to end within the message.  The field is exported as `is_circle`,
so that `isCircle` is `undefined` and the branch that asserts a square is never
taken. -/
def HitboxData.renderThing (data : HitboxData) : Option Buffer :=
  if rectOffset + rectSize ≤ data.hb.length + 1 then some ((data.hb.drop rectOffset).take rectSize) else none

namespace ScolData

variable (data : ScolData)

def xxyPtrCur (i : Nat) : UInt64 :=
  UInt64.ofNat (decode ((data.scol.scol.drop (xxyPtrsCurOffset + 8 * i)).take 8))

def resultListIdxCur (i : Nat) : Nat := countAt data.scol.scol (resultListIdxsCurOffset + 4 * i)

/-- What is behind a pointer into the collider itself.  `none` is a failed
assertion: here, or in the constructor of the type. -/
def readPtrFromWithin (ptr : UInt64) (size : Nat) : Option Buffer :=
  let offset : Int := ptr.toNat - data.scol.ptr.toNat
  if 0 ≤ offset ∧ offset < 0x100000 then
    if dumpOffset + offset.toNat + size ≤ data.originalMessage.length then
      some ((data.originalMessage.drop (dumpOffset + offset.toNat)).take size)
    else none
  else none

/-- The line of one point, which a null pointer leaves out. -/
def line (i : Nat) : Option (Option Buffer) :=
  if data.xxyPtrCur i = 0 then some none else (data.readPtrFromWithin (data.xxyPtrCur i) xxySize).map some

def result (i : Nat) : Option Buffer :=
  if data.resultListIdxCur i < resultCount then
    some ((data.scol.scol.drop (resultListsCurOffset + resultSize * (resultCount * i + data.resultListIdxCur i))).take
      resultSize)
  else none

/-- `DiagramScolColliders` -/
def renderThing : Option (List (Option Buffer) × List Buffer) := do
  let lines ← (List.range 4).mapM data.line
  let results ← (List.range 4).mapM data.result
  some (lines, results)

end ScolData

/-- Only the things of one world are drawn. -/
def renderThings {Thing Drawn : Type} (getWorldId : Thing → Int) (renderThing : Thing → Option Drawn)
    (things : List Thing) : Option (List Drawn) :=
  (things.filter fun thing => getWorldId thing = diagramWorldId).mapM renderThing

/-- `none` is an exception. -/
def HoseFrame.renderFrame (frame : HoseFrame) : Option (List Buffer × List (List (Option Buffer) × List Buffer)) := do
  let hitboxes ← renderThings HitboxData.worldId HitboxData.renderThing (frame.hitboxes.entries.map Sigma.snd)
  let scolColliders ← renderThings (fun data => data.scol.worldId) ScolData.renderThing frame.scolColliders
  some (hitboxes, scolColliders)

/-! ### What can be drawn -/

theorem mapM_isSome_iff {α β : Type} {f : α → Option β} {things : List α} :
    (things.mapM f).isSome = true ↔ ∀ thing ∈ things, (f thing).isSome = true := by
  induction things with
  | nil => simp
  | cons first rest ih =>
      rw [List.mapM_cons, List.forall_mem_cons, ← ih]
      cases f first with
      | none => simp
      | some drawn => cases rest.mapM f <;> simp

theorem renderThings_isSome_iff {Thing Drawn : Type} {getWorldId : Thing → Int} {renderThing : Thing → Option Drawn}
    {things : List Thing} :
    (renderThings getWorldId renderThing things).isSome = true ↔
      ∀ thing ∈ things, getWorldId thing = diagramWorldId → (renderThing thing).isSome = true := by
  rw [renderThings, mapM_isSome_iff]
  simp

theorem renderFrame_isSome_iff {frame : HoseFrame} :
    frame.renderFrame.isSome = true ↔
      (∀ data ∈ frame.hitboxes.entries.map Sigma.snd, data.worldId = diagramWorldId → data.renderThing.isSome = true) ∧
        ∀ data ∈ frame.scolColliders, data.scol.worldId = diagramWorldId → data.renderThing.isSome = true := by
  rw [HoseFrame.renderFrame, ← renderThings_isSome_iff, ← renderThings_isSome_iff]
  cases renderThings HitboxData.worldId HitboxData.renderThing (frame.hitboxes.entries.map Sigma.snd) with
  | none => simp
  | some hitboxes =>
      cases renderThings (fun data => data.scol.worldId) ScolData.renderThing frame.scolColliders <;> simp

theorem scol_renderThing_isSome_iff {data : ScolData} :
    data.renderThing.isSome = true ↔ ∀ i < 4, (data.line i).isSome = true ∧ (data.result i).isSome = true := by
  have lines : ((List.range 4).mapM data.line).isSome = true ↔ ∀ i < 4, (data.line i).isSome = true := by
    rw [mapM_isSome_iff]
    simp
  have results : ((List.range 4).mapM data.result).isSome = true ↔ ∀ i < 4, (data.result i).isSome = true := by
    rw [mapM_isSome_iff]
    simp
  simp only [imp_and, forall_and]
  rw [← lines, ← results, ScolData.renderThing]
  cases (List.range 4).mapM data.line with
  | none => simp
  | some lines => cases (List.range 4).mapM data.result <;> simp

variable {live : Live} {buffer tag : Buffer} {r : Reader} {areaSys worldId : UInt64}

/-! ## The scrubber -/

/-- `-1` stands for no frame. -/
structure Scrubbable where
  dead : Bool
  frameIdx : Int
  framesLength : Nat

namespace Scrubbable

/-- After `updateFrames([])` in the constructor. -/
def new : Scrubbable := ⟨false, -1, 0⟩

/-- The scrubber and the index of the frame to draw. -/
def updateFrames (scrubbable : Scrubbable) (frames : Nat) : Scrubbable × Option Int :=
  if scrubbable.dead then (scrubbable, none)
  else
    let frameIdx := if scrubbable.frameIdx ≥ scrubbable.framesLength - 1 then (frames : Int) - 1 else scrubbable.frameIdx
    ({ scrubbable with frameIdx, framesLength := frames },
      if frames ≠ 0 ∧ frameIdx ≠ scrubbable.frameIdx then some frameIdx else none)

/-- The user moves the scrubber, which is disabled below two frames and keeps its
value in its range. -/
def onChangeOrInput (scrubbable : Scrubbable) (frames value : Nat) : Scrubbable :=
  if scrubbable.dead ∨ frames ≤ 1 then scrubbable
  else { scrubbable with frameIdx := min value (frames - 1), framesLength := frames }

end Scrubbable

/-! ## The parser with its scrubber -/

/-- The parser of a page that receives messages. -/
structure Live where
  parser : HoseParser
  scrubbable : Scrubbable
  /-- How often the current frame is among the saved ones, behind those the
  parser is done with: once for each time that drawing it threw. -/
  stuck : Nat

namespace Live

def new : Live := ⟨.new, .new, 0⟩

def frames (live : Live) : List HoseFrame :=
  live.parser.savedFrames ++ List.replicate live.stuck live.parser.curFrame

/-- The frame is saved, with the colliders that were there before it. -/
def saveFrame (live : Live) : Live :=
  { live with
    parser := { live.parser with curFrame :=
      { live.parser.curFrame with normalColliders := live.parser.curFrame.normalColliders ++ live.parser.kept } }
    stuck := live.stuck + 1 }

/-- `scrubbable.updateFrames(this.savedFrames)`, and whether it returns. -/
def updateFrames (live : Live) : Live × Bool :=
  let (scrubbable, shown) := live.scrubbable.updateFrames live.frames.length
  ({ live with scrubbable },
    shown.all fun frameIdx => (live.frames[frameIdx.toNat]?.bind HoseFrame.renderFrame).isSome)

def nextFrame (live : Live) : Live :=
  { live with
    parser := { live.parser with savedFrames := live.frames, curFrame := .new (live.parser.curFrame.number + 1) }
    stuck := 0 }

/-- An exception of the diagram leaves the frame current that was just saved. -/
def finalizeFrame (live : Live) : Live × Bool :=
  if live.saveFrame.updateFrames.2 then (live.saveFrame.updateFrames.1.nextFrame, true)
  else (live.saveFrame.updateFrames.1, false)

def parseDoMany (live : Live) (worldId : UInt64) : Live × Bool :=
  if worldId = 0 then live.finalizeFrame else (live, true)

/-- `parse`.  Only `do_many` goes through the diagram. -/
def parse (live : Live) (buffer : Buffer) : Live × Option Buffer :=
  match readMessage buffer with
  | some (tag, .doMany _ worldId, r) =>
      let (after, returned) := live.parseDoMany worldId
      if returned ∧ r.AtEnd then ({ after with parser := after.parser.save buffer }, some tag) else (after, none)
  | _ =>
      let (parser, tag) := live.parser.parse buffer
      ({ live with parser }, tag)

/-! ### A frame that can be drawn -/

/-- What the diagram is given, if anything, can be drawn. -/
def Draws (live : Live) : Prop := live.saveFrame.updateFrames.2 = true

theorem saveFrame_frames (free : live.stuck = 0) :
    live.saveFrame.frames = live.parser.finalizeFrame.savedFrames := by
  simp only [frames, saveFrame, free]
  rfl

theorem draws_iff (free : live.stuck = 0) :
    live.Draws ↔
      ∀ frameIdx ∈ (live.scrubbable.updateFrames live.parser.finalizeFrame.savedFrames.length).2,
        (live.parser.finalizeFrame.savedFrames[frameIdx.toNat]?.bind HoseFrame.renderFrame).isSome = true := by
  rw [Draws, updateFrames, saveFrame_frames free]
  exact Option.all_eq_true _ _

/-- Without exceptions the parser is the one that never draws. -/
theorem finalizeFrame_draws (free : live.stuck = 0) (draws : live.Draws) :
    live.finalizeFrame =
      (⟨live.parser.finalizeFrame,
        (live.scrubbable.updateFrames live.parser.finalizeFrame.savedFrames.length).1, 0⟩, true) := by
  have after : live.saveFrame.updateFrames.1.nextFrame =
      ⟨live.parser.finalizeFrame,
        (live.scrubbable.updateFrames live.parser.finalizeFrame.savedFrames.length).1, 0⟩ := by
    rw [← saveFrame_frames free, nextFrame]
    simp only [Live.mk.injEq, and_true]
    refine ⟨?_, rfl⟩
    rw [show live.saveFrame.updateFrames.1.frames = live.parser.finalizeFrame.savedFrames from saveFrame_frames free]
    rfl
  rw [Draws] at draws
  rw [finalizeFrame, if_pos draws, after]

theorem finalizeFrame_throws (throws : ¬ live.Draws) : live.finalizeFrame.2 = false := by
  rw [Draws] at throws
  rw [finalizeFrame, if_neg throws]

/-! ### One message -/

theorem parse_doMany (found : readMessage buffer = some (tag, .doMany areaSys worldId, r)) (ended : r.AtEnd) :
    live.parse buffer =
      if (live.parseDoMany worldId).2 then
        ({ (live.parseDoMany worldId).1 with parser := (live.parseDoMany worldId).1.parser.save buffer }, some tag)
      else ((live.parseDoMany worldId).1, none) := by
  simp only [parse, found, ended, and_true]

/-- Other messages do not reach the diagram. -/
theorem parse_other (other : ∀ tag areaSys r, readMessage buffer ≠ some (tag, .doMany areaSys 0, r)) :
    live.parse buffer = ({ live with parser := (live.parser.parse buffer).1 }, (live.parser.parse buffer).2) := by
  unfold parse
  split
  · rename_i tag areaSys worldId r found
    have later : worldId ≠ 0 := by
      rintro rfl
      exact other tag areaSys r found
    simp only [parseDoMany, if_neg later, HoseParser.parse, found, HoseParser.act, HoseParser.parseDoMany]
    by_cases ended : r.AtEnd <;> simp [ended]
  · rfl

end Live

end Smmboss.Client.Wire
