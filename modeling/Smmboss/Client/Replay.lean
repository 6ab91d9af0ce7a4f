import Mathlib.Data.List.Chain
import Mathlib.Data.List.Nodup
import Mathlib.Data.List.Range
import Smmboss.Client.Frames
import Smmboss.Client.Totality

namespace Smmboss.Client.Wire

open Collision (HosePacket)

/-! # Saved frames replay to the same frames

The run of the parser is cut where its frames end.  A copy that loads the frames
from one of the cuts on has, at each later cut, the same colliders; how long ago
they were first seen differs, but not whether it was before the current frame.
-/

/-- The current frame as `finalizeFrame` saves it. -/
def HoseParser.closed (parser : HoseParser) : HoseFrame :=
  { parser.curFrame with normalColliders := parser.curFrame.normalColliders ++ parser.kept }

variable {parser after copy : HoseParser} {buffer : Buffer}

/-! ## The start of a frame -/

theorem name_of_doMany {tag : Buffer} {areaSys worldId : UInt64} {r : Reader}
    (found : readMessage buffer = some (tag, .doMany areaSys worldId, r)) : tag = ascii "do_many" := by
  simp only [readMessage, Option.bind_eq_bind, Option.bind_eq_some_iff] at found
  obtain ⟨⟨bytes, afterTag⟩, _, ⟨message, rest⟩, read, same⟩ := found
  cases same
  unfold readCase at read
  split at read
  · rename_i name method listed
    have name_eq : name = tagName bytes := by simpa using List.find?_some listed
    have member := List.mem_of_find?_eq_some listed
    simp only [cases, List.mem_cons, Prod.mk.injEq, List.not_mem_nil, or_false] at member
    rcases member with ⟨_, rfl⟩ | ⟨isDoMany, _⟩ | ⟨_, rfl⟩ | ⟨_, rfl⟩ | ⟨_, rfl⟩ | ⟨_, rfl⟩ |
      ⟨_, rfl⟩ | ⟨_, rfl⟩ | ⟨_, rfl⟩ | ⟨_, rfl⟩ | ⟨_, rfl⟩
    · simp [readCollision, Option.bind_eq_some_iff] at read
    · rw [← name_eq, isDoMany]
    · simp [readHitbox, Option.bind_eq_some_iff] at read
    · simp [readNormalCollider, Option.bind_eq_some_iff] at read
    · simp [readNormalCollider, Option.bind_eq_some_iff] at read
    · simp [readNormalColliderGone, Option.bind_eq_some_iff] at read
    · simp [readScolCollider, Option.bind_eq_some_iff] at read
    · simp [readHashedScolCollider, Option.bind_eq_some_iff] at read
    · simp only [readBgCollisionTwoPoint, Option.bind_eq_bind, Option.bind_eq_some_iff] at read
      obtain ⟨_, _, _, _, _, _, _, _, _, _, _, _, _, _, _, _, read⟩ := read
      split at read
      · cases read
      · obtain ⟨_, _, read⟩ := Option.bind_eq_some_iff.mp read
        cases read
    · simp [readBgCollisionPoint, Option.bind_eq_some_iff] at read
    · cases read
  · cases read

theorem parse_start (starts : StartsFrame buffer) :
    parser.parse buffer = (parser.finalizeFrame.save buffer, some (ascii "do_many")) := by
  obtain ⟨areaSys, tag, r, found, ended⟩ := starts
  obtain rfl := name_of_doMany found
  exact HoseParser.parse_eq found ended rfl

/-! ## The end of a frame -/

theorem mem_kept_iff {data : ColliderData} :
    data ∈ parser.kept ↔ (∃ ptr, parser.normalColliderMap.lookup ptr = some data) ∧
      data.firstSeenFrameNumber ≠ parser.curFrame.number := by
  rw [HoseParser.kept, List.mem_filter, JsMap.mem_values_iff]
  simp

theorem Stored.kept_pointers (stored : Stored parser) :
    (parser.kept.map fun data => data.collider.ptr).Nodup := by
  have values : ((parser.normalColliderMap.entries.map Sigma.snd).map fun data =>
      data.collider.ptr) = parser.normalColliderMap.keys := by
    rw [List.map_map, AList.keys, List.keys]
    apply List.map_congr_left
    intro entry member
    exact (stored.collider entry.1 entry.2 (AList.mem_lookup_iff.mpr member)).1
  have all := parser.normalColliderMap.keys_nodup
  rw [← values] at all
  exact all.sublist (List.filter_sublist.map _)

theorem Stored.kept_nodup (stored : Stored parser) :
    (parser.kept.map ColliderData.collider).Nodup := by
  have pointers := stored.kept_pointers
  have split : (fun data : ColliderData => data.collider.ptr) =
      NormalCollider.ptr ∘ ColliderData.collider := rfl
  rw [split, ← List.map_map] at pointers
  exact pointers.of_map _

/-- `copy` is at the end of the same frame as `parser`. -/
structure Ended (parser copy : HoseParser) : Prop where
  stored : Stored copy
  same : SameFrame copy.closed parser.closed
  scols : ∀ ptr ∈ copy.scolColliderMap, ptr ∈ parser.scolColliderMap
  contents : ∀ ptr, (copy.normalColliderMap.lookup ptr).map ColliderData.collider =
    (parser.normalColliderMap.lookup ptr).map ColliderData.collider

section

variable {start copyStart : JsMap UInt64 ColliderData} {injected : List ColliderData}

theorem Replaying.same (replaying : Replaying start copyStart injected parser copy)
    (colliders : (copy.closed.normalColliders.map ColliderData.collider).Perm
      (parser.closed.normalColliders.map ColliderData.collider)) :
    SameFrame copy.closed parser.closed := by
  have scols := congrArg HoseFrame.scolColliders replaying.others
  have points := congrArg HoseFrame.bgCollisionPointEvents replaying.others
  have twoPoints := congrArg HoseFrame.bgCollisionTwoPointEvents replaying.others
  have events := congrArg HoseFrame.hitboxCollisionEvents replaying.others
  exact ⟨replaying.number, replaying.hitboxes, scols, points, twoPoints, events, colliders⟩

/-- A frame after the first one: both maps were the same but for the times, all
of which were before the frame. -/
theorem Replaying.ended_later (replaying : Replaying start copyStart [] parser copy)
    (stored : Stored parser) (copyStored : Stored copy)
    (contents : ∀ ptr, (copyStart.lookup ptr).map ColliderData.collider =
      (start.lookup ptr).map ColliderData.collider)
    (older : ∀ ptr data, start.lookup ptr = some data →
      data.firstSeenFrameNumber < parser.curFrame.number)
    (copyOlder : ∀ ptr data, copyStart.lookup ptr = some data →
      data.firstSeenFrameNumber < parser.curFrame.number) : Ended parser copy := by
  have now : ∀ ptr, (copy.normalColliderMap.lookup ptr).map ColliderData.collider =
      (parser.normalColliderMap.lookup ptr).map ColliderData.collider := by
    intro ptr
    rcases replaying.each ptr with ⟨same, _⟩ | ⟨left, right⟩
    · rw [same]
    · rw [left, right, contents ptr]
  have kept : (copy.kept.map ColliderData.collider).Perm
      (parser.kept.map ColliderData.collider) := by
    rw [List.perm_ext_iff_of_nodup copyStored.kept_nodup stored.kept_nodup]
    intro collider
    simp only [List.mem_map, mem_kept_iff, replaying.number]
    constructor
    · rintro ⟨data, ⟨⟨ptr, found⟩, seen⟩, rfl⟩
      rcases replaying.each ptr with ⟨same, current⟩ | ⟨left, right⟩
      · exact absurd (current data (same ▸ found)) seen
      · have known := contents ptr
        rw [← right, found] at known
        obtain ⟨other, otherFound, equal⟩ := Option.map_eq_some_iff.mp known.symm
        exact ⟨other, ⟨⟨ptr, left.trans otherFound⟩, Nat.ne_of_lt (older ptr other otherFound)⟩, equal⟩
    · rintro ⟨data, ⟨⟨ptr, found⟩, seen⟩, rfl⟩
      rcases replaying.each ptr with ⟨same, current⟩ | ⟨left, right⟩
      · exact absurd (current data found) seen
      · have known := contents ptr
        rw [← left, found] at known
        obtain ⟨other, otherFound, equal⟩ := Option.map_eq_some_iff.mp known
        exact ⟨other, ⟨⟨ptr, right.trans otherFound⟩, Nat.ne_of_lt (copyOlder ptr other otherFound)⟩,
          equal⟩
  refine ⟨copyStored, replaying.same ?_, replaying.scols, now⟩
  simp only [HoseParser.closed, replaying.colliders, List.nil_append, List.map_append]
  exact kept.append_left _

/-- The first frame that is loaded: what was kept in it was injected. -/
theorem Replaying.ended_first (replaying : Replaying start copyStart injected parser copy)
    (copyStored : Stored copy)
    (older : ∀ ptr data, start.lookup ptr = some data →
      data.firstSeenFrameNumber < parser.curFrame.number)
    (restamped : injected.map ColliderData.collider = parser.kept.map ColliderData.collider)
    (present : ∀ data ∈ parser.kept, ∃ again, copyStart.lookup data.collider.ptr = some again ∧
      again.collider = data.collider)
    (absent : ∀ ptr data, copyStart.lookup ptr = some data →
      data.firstSeenFrameNumber = parser.curFrame.number ∧
        ∃ original ∈ parser.kept, original.collider = data.collider ∧ original.collider.ptr = ptr)
    (stored : Stored parser) : Ended parser copy := by
  have kept : copy.kept = [] := by
    apply List.eq_nil_iff_forall_not_mem.mpr
    intro data member
    obtain ⟨⟨ptr, found⟩, seen⟩ := mem_kept_iff.mp member
    rw [replaying.number] at seen
    rcases replaying.each ptr with ⟨same, current⟩ | ⟨_, right⟩
    · exact seen (current data (same ▸ found))
    · exact seen (absent ptr data (right ▸ found)).1
  have contents : ∀ ptr, (copy.normalColliderMap.lookup ptr).map ColliderData.collider =
      (parser.normalColliderMap.lookup ptr).map ColliderData.collider := by
    intro ptr
    rcases replaying.each ptr with ⟨same, _⟩ | ⟨left, right⟩
    · rw [same]
    · rw [right]
      cases found : parser.normalColliderMap.lookup ptr with
      | some data =>
          have seen := older ptr data (left ▸ found)
          obtain ⟨again, againFound, equal⟩ :=
            present data (mem_kept_iff.mpr ⟨⟨ptr, found⟩, Nat.ne_of_lt seen⟩)
          rw [(stored.collider ptr data found).1] at againFound
          rw [againFound]
          exact congrArg some equal
      | none =>
          cases again : copyStart.lookup ptr with
          | none => rfl
          | some data =>
              obtain ⟨_, original, member, _, key⟩ := absent ptr data again
              obtain ⟨⟨other, otherFound⟩, _⟩ := mem_kept_iff.mp member
              rw [← (stored.collider other original otherFound).1, key, found] at otherFound
              contradiction
  refine ⟨copyStored, replaying.same ?_, replaying.scols, contents⟩
  simp only [HoseParser.closed, replaying.colliders, kept, List.append_nil, List.map_append, restamped]
  exact List.perm_append_comm

end

/-! ## Injecting colliders -/

def ColliderData.stamp (data : ColliderData) (number : Nat) : ColliderData :=
  { data with firstSeenFrameNumber := number }

/-- The messages of colliders, parsed at the start of a frame. -/
theorem parseAll_rawData {data : List ColliderData}
    (reread : ∀ entry ∈ data, Rereads entry.rawData (.normalCollider entry.collider))
    (distinct : (data.map fun entry => entry.collider.ptr).Nodup) :
    ∃ loaded, parser.parseAll (data.map ColliderData.rawData) = some loaded ∧
      loaded.curFrame.others = parser.curFrame.others ∧
      loaded.savedFrames = parser.savedFrames ∧
      loaded.scolColliderMap = parser.scolColliderMap ∧
      loaded.curFrame.normalColliders = parser.curFrame.normalColliders ++
        data.map (fun entry => entry.stamp parser.curFrame.number) ∧
      (∀ entry ∈ data, loaded.normalColliderMap.lookup entry.collider.ptr =
        some (entry.stamp parser.curFrame.number)) ∧
      ∀ ptr, (∀ entry ∈ data, entry.collider.ptr ≠ ptr) →
        loaded.normalColliderMap.lookup ptr = parser.normalColliderMap.lookup ptr := by
  induction data generalizing parser with
  | nil => exact ⟨parser, rfl, rfl, rfl, rfl, by simp, by simp, by simp⟩
  | cons first rest ih =>
      obtain ⟨tag, parsed⟩ := (reread first (by simp)).parse
        (rfl : parser.act (.normalCollider first.collider) first.rawData = some (_, none))
      rw [List.map_cons, List.nodup_cons] at distinct
      obtain ⟨loaded, ran, others, frames, scols, colliders, present, absent⟩ :=
        @ih ((parser.parseNormalCollider first.collider first.rawData).save first.rawData)
          (fun entry member => reread entry (by simp [member])) distinct.2
      refine ⟨loaded, ?_, others, frames, scols, ?_, ?_, ?_⟩
      · exact HoseParser.parseAll_cons_iff.mpr ⟨_, tag, parsed, ran⟩
      · rw [colliders]
        simp [HoseParser.save, HoseParser.parseNormalCollider, ColliderData.stamp]
      · intro entry member
        rcases List.mem_cons.mp member with rfl | later
        · rw [absent _ ?_]
          · simp only [HoseParser.save, HoseParser.parseNormalCollider, JsMap.lookup_set, if_true]
            rfl
          · intro other otherMember same
            exact distinct.1 (List.mem_map.mpr ⟨other, otherMember, same⟩)
        · exact present entry later
      · intro ptr missing
        rw [absent ptr (fun entry member => missing entry (by simp [member]))]
        simp only [HoseParser.save, HoseParser.parseNormalCollider, JsMap.lookup_set]
        rw [if_neg (missing first (by simp)).symm]

/-! ## From one frame to the next -/

/-- `after` is at the end of the frame behind the one `parser` is at the end of. -/
def NextFrame (parser after : HoseParser) : Prop :=
  ∃ first rest, StartsFrame first ∧ (∀ buffer ∈ rest, ¬StartsFrame buffer) ∧
    (parser.finalizeFrame.save first).parseAll rest = some after

theorem Replaying.refl (parser : HoseParser) :
    Replaying parser.normalColliderMap parser.normalColliderMap [] parser parser where
  others := rfl
  scols := fun _ member => member
  colliders := rfl
  each := fun _ => .inr ⟨rfl, rfl⟩

/-- A parser that starts the same frame with no colliders but those injected. -/
theorem Replaying.start {first : Buffer} {copied : HoseParser}
    (others : copied.curFrame.others = (parser.finalizeFrame.save first).curFrame.others)
    (scols : ∀ ptr ∈ copied.scolColliderMap, ptr ∈ parser.scolColliderMap) :
    Replaying parser.normalColliderMap copied.normalColliderMap copied.curFrame.normalColliders
      (parser.finalizeFrame.save first) copied where
  others := others
  scols := scols
  colliders := (List.append_nil _).symm
  each := fun _ => .inr ⟨rfl, rfl⟩

structure NextFrame.Facts (parser after : HoseParser) : Prop where
  stored : Stored after
  savedFrames : after.savedFrames = parser.savedFrames ++ [parser.closed]
  number : after.curFrame.number = parser.curFrame.number + 1

theorem NextFrame.facts (next : NextFrame parser after) (stored : Stored parser) :
    NextFrame.Facts parser after := by
  obtain ⟨first, rest, starts, inside, ran⟩ := next
  have started : Stored (parser.finalizeFrame.save first) := stored.finalizeFrame.save
  obtain ⟨_, _, _, _, frames, _, number, _⟩ :=
    (Replaying.refl _).parseAll started inside ran
  exact ⟨started.parseAll ran, frames, number⟩

theorem Stored.older (stored : Stored parser) {ptr : UInt64} {data : ColliderData}
    (found : parser.normalColliderMap.lookup ptr = some data) :
    data.firstSeenFrameNumber < parser.curFrame.number + 1 :=
  Nat.lt_succ_of_le (stored.collider ptr data found).2.1

/-- Loading a frame behind the first one. -/
theorem NextFrame.load (next : NextFrame parser after) (stored : Stored parser)
    (ended : Ended parser copy) :
    ∃ loaded, loadInto (after.closed.save false) copy = some loaded ∧ Ended after loaded ∧
      loaded.savedFrames = copy.savedFrames ++ [copy.closed] := by
  obtain ⟨_, _, number⟩ := next.facts stored
  obtain ⟨first, rest, starts, inside, ran⟩ := next
  have copyNumber : copy.curFrame.number = parser.curFrame.number := ended.same.number
  have startStored : Stored (parser.finalizeFrame.save first) := stored.finalizeFrame.save
  have copyStored : Stored (copy.finalizeFrame.save first) := ended.stored.finalizeFrame.save
  have others : (copy.finalizeFrame.save first).curFrame.others =
      (parser.finalizeFrame.save first).curFrame.others := by
    simp only [HoseParser.save, HoseParser.finalizeFrame, HoseFrame.others, copyNumber]
  have replaying := Replaying.start others ended.scols
  obtain ⟨saved, loaded, copyRan, messages, _, copyFrames, startNumber, final⟩ :=
    replaying.parseAll startStored inside ran
  have parsed := @parse_start copy first starts
  refine ⟨loaded, ?_, ?_, copyFrames⟩
  · have same : { copy.finalizeFrame.save first with curFrame :=
        { (copy.finalizeFrame.save first).curFrame with number := after.curFrame.number } } =
        copy.finalizeFrame.save first := by
      simp only [HoseParser.save, HoseParser.finalizeFrame, HoseFrame.new, number, copyNumber]
    have list : (after.closed.save false).relevantHoseMessages = first :: saved := messages
    simp only [loadInto, list, parsed, if_true]
    exact same ▸ copyRan
  · apply final.ended_later (startStored.parseAll ran) (copyStored.parseAll copyRan) ended.contents
    · intro ptr data found
      rw [number]
      exact stored.older found
    · intro ptr data found
      rw [number, ← copyNumber]
      exact ended.stored.older found

/-- In a frame that is saved first, the colliders that were kept are injected. -/
theorem save_first (stored : Stored parser) {first : Buffer} {saved : List Buffer}
    (messages : parser.curFrame.relevantHoseMessages = first :: saved) :
    (parser.closed.save true).relevantHoseMessages =
      first :: (parser.kept.map ColliderData.rawData ++ saved) := by
  have own : parser.curFrame.normalColliders.filter (fun data =>
      data.firstSeenFrameNumber ≠ parser.curFrame.number) = [] := by
    apply List.filter_eq_nil_iff.mpr
    intro data member
    simp [stored.parsed data member]
  have old : parser.kept.filter (fun data =>
      data.firstSeenFrameNumber ≠ parser.curFrame.number) = parser.kept := by
    apply List.filter_eq_self.mpr
    intro data member
    simpa using (mem_kept_iff.mp member).2
  simp only [HoseFrame.save, HoseParser.closed, if_true, List.filter_append, own, old, messages]
  simp

/-- Loading the first frame into a fresh parser. -/
theorem NextFrame.loadFirst (next : NextFrame parser after) (stored : Stored parser) :
    ∃ loaded, loadInto (after.closed.save true) HoseParser.new = some loaded ∧
      Ended after loaded ∧ loaded.savedFrames = [HoseParser.new.closed] := by
  obtain ⟨afterStored, _, number⟩ := next.facts stored
  obtain ⟨first, rest, starts, inside, ran⟩ := next
  have startStored : Stored (parser.finalizeFrame.save first) := stored.finalizeFrame.save
  -- the fresh parser after the first message, with the frame's number
  let started : HoseParser :=
    { HoseParser.new.finalizeFrame.save first with curFrame :=
      { (HoseParser.new.finalizeFrame.save first).curFrame with number := after.curFrame.number } }
  have startedStored : Stored started :=
    ⟨by simp [started, HoseParser.save, HoseParser.finalizeFrame, HoseParser.new],
      by simp [started, HoseParser.save, HoseParser.finalizeFrame, HoseParser.new],
      by simp [started, HoseParser.save, HoseParser.finalizeFrame, HoseFrame.new]⟩
  have reread : ∀ data ∈ after.kept, Rereads data.rawData (.normalCollider data.collider) := by
    intro data member
    obtain ⟨⟨ptr, found⟩, _⟩ := mem_kept_iff.mp member
    exact (afterStored.collider ptr data found).2.2
  obtain ⟨injected, injectedRan, others, frames, scols, colliders, present, absent⟩ :=
    @parseAll_rawData started after.kept reread afterStored.kept_pointers
  have replaying : Replaying parser.normalColliderMap injected.normalColliderMap
      injected.curFrame.normalColliders (parser.finalizeFrame.save first) injected := by
    apply Replaying.start
    · rw [others]
      simp only [started, HoseParser.save, HoseParser.finalizeFrame, HoseFrame.others, HoseFrame.new,
        number]
    · rw [scols]
      intro ptr member
      exact absurd member (AList.notMem_empty ptr)
  obtain ⟨saved, loaded, copyRan, messages, _, copyFrames, _, final⟩ :=
    replaying.parseAll startStored inside ran
  have loadedStored : Stored loaded := (startedStored.parseAll injectedRan).parseAll copyRan
  refine ⟨loaded, ?_, ?_, copyFrames.trans frames⟩
  · have list := save_first afterStored messages
    simp only [loadInto, list, parse_start starts, if_true]
    exact HoseParser.parseAll_append_iff.mpr ⟨injected, injectedRan, copyRan⟩
  · apply final.ended_first loadedStored
    · intro ptr data found
      rw [number]
      exact stored.older found
    · rw [colliders]
      simp [started, HoseParser.save, HoseParser.finalizeFrame, HoseFrame.new, ColliderData.stamp,
        Function.comp_def]
    · intro data member
      exact ⟨_, present data member, rfl⟩
    · intro ptr data found
      by_cases kept : ∃ entry ∈ after.kept, entry.collider.ptr = ptr
      · obtain ⟨entry, member, rfl⟩ := kept
        rw [present entry member] at found
        cases found
        exact ⟨rfl, entry, member, rfl, rfl⟩
      · rw [absent ptr (fun entry member same => kept ⟨entry, member, same⟩)] at found
        simp [started, HoseParser.save, HoseParser.finalizeFrame, HoseParser.new] at found
    · exact afterStored

/-- Loading the frames behind the one `copy` is at the end of. -/
theorem load_rest {rest : List HoseParser} (chain : List.IsChain NextFrame (parser :: rest))
    (stored : Stored parser) (ended : Ended parser copy) :
    ∃ loaded frames,
      (rest.map fun parser => parser.closed.save false).foldlM
        (fun parser info => loadInto info parser) copy = some loaded ∧
      loaded.savedFrames ++ [loaded.closed] = copy.savedFrames ++ frames ∧
      List.Forall₂ SameFrame frames ((parser :: rest).map HoseParser.closed) := by
  induction rest generalizing parser copy with
  | nil => exact ⟨copy, [copy.closed], rfl, rfl, .cons ended.same .nil⟩
  | cons next rest ih =>
      obtain ⟨here, later⟩ := List.isChain_cons_cons.mp chain
      obtain ⟨middle, loaded, nextEnded, saved⟩ := here.load stored ended
      obtain ⟨last, frames, ran, lastSaved, same⟩ := ih later (here.facts stored).stored nextEnded
      refine ⟨last, copy.closed :: frames, ?_, ?_, .cons ended.same same⟩
      · rw [List.map_cons, List.foldlM_cons, loaded]
        exact ran
      · rw [lastSaved, saved, List.append_assoc, List.singleton_append]

/-- Frames in a row, loaded into a fresh parser. -/
theorem load_frames {rest : List HoseParser} (chain : List.IsChain NextFrame (parser :: rest))
    (stored : Stored parser) :
    ∃ loaded frames,
      loadFramesInto (saveFrames (rest.map HoseParser.closed)) HoseParser.new = some loaded ∧
      loaded.savedFrames = HoseParser.new.closed :: frames ∧
      List.Forall₂ SameFrame frames (rest.map HoseParser.closed) := by
  cases rest with
  | nil => exact ⟨_, [], rfl, rfl, .nil⟩
  | cons first rest =>
      obtain ⟨here, later⟩ := List.isChain_cons_cons.mp chain
      obtain ⟨middle, loaded, ended, saved⟩ := here.loadFirst stored
      obtain ⟨last, frames, ran, lastSaved, same⟩ := load_rest later (here.facts stored).stored ended
      refine ⟨last.finalizeFrame, frames, ?_, ?_, same⟩
      · simp only [loadFramesInto, saveFrames, List.map_cons, List.foldlM_cons, loaded,
          List.map_map]
        exact congrArg (Option.map HoseParser.finalizeFrame) ran
      · rw [saved] at lastSaved
        exact lastSaved

/-! ## The frames of a run -/

/-- The parser at the ends of its frames, and where it is now. -/
inductive Ends : List HoseParser → HoseParser → Prop where
  | first {now : HoseParser} (inside : ∀ message ∈ messages, ¬StartsFrame message)
      (ran : HoseParser.new.parseAll messages = some now) : Ends [] now
  | next {last now : HoseParser} (ends : Ends parsers last) (next : NextFrame last now) :
      Ends (parsers ++ [last]) now

theorem Ends.inside {parsers : List HoseParser} {tag : Buffer} (ends : Ends parsers parser)
    (inside : ¬StartsFrame buffer) (parsed : parser.parse buffer = (after, some tag)) :
    Ends parsers after := by
  have last : parser.parseAll [buffer] = some after :=
    HoseParser.parseAll_cons_iff.mpr ⟨after, tag, parsed, rfl⟩
  cases ends with
  | first others ran =>
      refine .first ?_ (HoseParser.parseAll_append_iff.mpr ⟨parser, ran, last⟩)
      intro other member
      rcases List.mem_append.mp member with old | new
      · exact others other old
      · rwa [List.mem_singleton.mp new]
  | next before next =>
      obtain ⟨first, rest, starts, others, ran⟩ := next
      refine .next before ⟨first, rest ++ [buffer], starts, ?_,
        HoseParser.parseAll_append_iff.mpr ⟨parser, ran, last⟩⟩
      intro other member
      rcases List.mem_append.mp member with old | new
      · exact others other old
      · rwa [List.mem_singleton.mp new]

structure Ends.Facts (parsers : List HoseParser) (parser : HoseParser) : Prop where
  stored : ∀ last ∈ parsers ++ [parser], Stored last
  chain : List.IsChain NextFrame (parsers ++ [parser])
  savedFrames : parser.savedFrames = parsers.map HoseParser.closed
  number : parser.curFrame.number = parsers.length
  numbers : parsers.map (fun parser => parser.curFrame.number) = List.range parsers.length

theorem Ends.facts {parsers : List HoseParser} (ends : Ends parsers parser) :
    Ends.Facts parsers parser := by
  induction ends with
  | first inside ran =>
      obtain ⟨_, _, _, _, frames, _, number, _⟩ :=
        (Replaying.refl _).parseAll new_stored inside ran
      refine ⟨?_, List.isChain_singleton _, frames, number, rfl⟩
      intro other member
      rw [List.mem_singleton.mp member]
      exact new_stored.parseAll ran
  | next ends next ih =>
      have before := ih.stored _ (List.mem_append_right _ (List.mem_singleton_self _))
      obtain ⟨stored, frames, number⟩ := next.facts before
      refine ⟨?_, ?_, ?_, ?_, ?_⟩
      · intro other member
        rcases List.mem_append.mp member with old | new
        · exact ih.stored other old
        · rwa [List.mem_singleton.mp new]
      · apply ih.chain.append (List.isChain_singleton _)
        intro left isLast right isFirst
        simp only [List.getLast?_append, List.getLast?_singleton, Option.some_or,
          Option.mem_some_iff, List.head?_cons] at isLast isFirst
        subst isLast isFirst
        exact next
      · rw [frames, ih.savedFrames, List.map_append, List.map_singleton]
      · rw [number, ih.number, List.length_append, List.length_singleton]
      · rw [List.map_append, ih.numbers, List.map_singleton, ih.number, List.length_append,
          List.length_singleton, List.range_succ]

/-! ## Slices of the saved frames -/

section Slices

variable {frames : List HoseFrame}

theorem number_drop (numbers : frames.map HoseFrame.number = List.range frames.length)
    {dropped : Nat} {frame : HoseFrame} (member : frame ∈ frames.drop dropped) :
    dropped ≤ frame.number := by
  have listed : frame.number ∈ (frames.map HoseFrame.number).drop dropped := by
    rw [← List.map_drop]
    exact List.mem_map_of_mem member
  rw [numbers, List.range_eq_range', List.drop_range'] at listed
  have bounds := List.mem_range'_1.mp listed
  omega

theorem withoutLeading_drop (numbers : frames.map HoseFrame.number = List.range frames.length)
    (dropped : Nat) : withoutLeading (frames.drop dropped) = frames.drop (dropped - 1 + 1) := by
  cases dropped with
  | zero =>
      cases frames with
      | nil => rfl
      | cons first rest =>
          have leading : first.number = 0 := by
            rw [List.map_cons, List.length_cons, List.range_succ_eq_map, List.cons.injEq] at numbers
            exact numbers.1
          simp [withoutLeading, leading]
  | succ dropped =>
      have tail : frames.drop (dropped + 1 - 1 + 1) = frames.drop (dropped + 1) := by simp
      rw [tail]
      cases found : frames.drop (dropped + 1) with
      | nil => rfl
      | cons first rest =>
          have late : dropped + 1 ≤ first.number := number_drop numbers (by rw [found]; simp)
          simp only [withoutLeading]
          rw [if_neg (by omega)]

theorem filter_drop (numbers : frames.map HoseFrame.number = List.range frames.length)
    (dropped : Nat) : (frames.drop dropped).filter (fun frame => frame.number ≠ 0) =
      frames.drop (dropped - 1 + 1) := by
  have later : ∀ count, (frames.drop (count + 1)).filter (fun frame => frame.number ≠ 0) =
      frames.drop (count + 1) := by
    intro count
    apply List.filter_eq_self.mpr
    intro frame member
    have late := number_drop numbers member
    simp
    omega
  cases dropped with
  | zero =>
      cases frames with
      | nil => rfl
      | cons first rest =>
          have leading : first.number = 0 := by
            rw [List.map_cons, List.length_cons, List.range_succ_eq_map, List.cons.injEq] at numbers
            exact numbers.1
          have tail := later 0
          simp only [List.drop_succ_cons, List.drop_zero] at tail
          rw [List.drop_zero, List.filter_cons_of_neg (by simp [leading]), tail]
          rfl
  | succ dropped => exact later dropped

end Slices

/-! ## Saving and loading -/

theorem Ends.Facts.frameNumbers {parsers : List HoseParser} (facts : Ends.Facts parsers parser) :
    parser.savedFrames.map HoseFrame.number = List.range parser.savedFrames.length := by
  rw [facts.savedFrames, List.map_map, List.length_map]
  exact facts.numbers

theorem Ends.Facts.load {parsers : List HoseParser} (facts : Ends.Facts parsers parser)
    (dropped : Nat) :
    ∃ loaded frames,
      loadFramesInto (saveFrames (withoutLeading (parser.savedFrames.drop dropped)))
        HoseParser.new = some loaded ∧
      loaded.savedFrames = HoseParser.new.closed :: frames ∧
      List.Forall₂ SameFrame frames
        ((parser.savedFrames.drop dropped).filter fun frame => frame.number ≠ 0) := by
  rw [withoutLeading_drop facts.frameNumbers, filter_drop facts.frameNumbers, facts.savedFrames,
    ← List.map_drop]
  have chain := (List.isChain_append.mp facts.chain).1.drop (dropped - 1)
  cases slice : parsers.drop (dropped - 1) with
  | nil =>
      have none : parsers.drop (dropped - 1 + 1) = [] := by
        rw [← List.drop_drop, slice, List.drop_nil]
      rw [none]
      exact ⟨_, [], rfl, rfl, .nil⟩
  | cons previous rest =>
      have tail : parsers.drop (dropped - 1 + 1) = rest := by
        rw [← List.drop_drop, slice, List.drop_succ_cons, List.drop_zero]
      have member : previous ∈ parsers := List.mem_of_mem_drop (by rw [slice]; simp)
      rw [slice] at chain
      rw [tail]
      exact load_frames chain (facts.stored previous (List.mem_append_left _ member))

def HoseFrame.pointers (frame : HoseFrame) : Nat × List UInt64 × List UInt64 :=
  (frame.number, frame.normalColliders.map fun data => data.collider.ptr,
    frame.scolColliders.map fun data => data.scol.ptr)

def frameStart : Buffer := ascii "do_many" ++ List.replicate 17 0

end Smmboss.Client.Wire
