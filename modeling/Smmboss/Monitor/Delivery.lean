import Smmboss.Rpc.Requests

namespace Smmboss.Monitor

open LittleEndian (encode)
open Smmboss.Client.Wire (memmonPacket)
open Smmboss.Collision (HosePacket prim tag8)
open Smmboss.Guest (GuestMemory MemoryMap MemRegions)
open Smmboss.Hose (actualWriter)
open Smmboss.Rpc (Server mustRead read64 mustRead_append read64_append packConfig packConfig_uniqid
  packConfig_length packConfig_count entriesOf_packConfig word64)

/-! # `RPCGuest.monitor`

What the Python client makes of the hose while it monitors some pointers.
-/

structure GuestPtr (Value : Type) where
  addr : UInt64
  sizeofStar : UInt64
  decodeData : List UInt8 → Value

variable {Value : Type}

def addrLens (ptrs : List (GuestPtr Value)) : List (UInt64 × UInt64) :=
  ptrs.map fun p => (p.addr, p.sizeofStar)

def memmonMagic : List UInt8 := [0x6d, 0x65, 0x6d, 0x6d, 0x6f, 0x6e, 0, 0]

inductive Outcome (Value : Type) where
  | ignored
  | delivered (vals : List Value)

/-- The loop over the pointers. -/
def readVals : List (GuestPtr Value) → List UInt8 → Option (List Value × List UInt8)
  | [], fp => some ([], fp)
  | p :: ptrs, fp => do
      let (myData, fp) ← mustRead fp p.sizeofStar.toNat
      let (vals, fp) ← readVals ptrs fp
      some (p.decodeData myData :: vals, fp)

/-- One round of the loop; `none` is an exception. -/
def monitorData (uniqid : UInt64) (ptrs : List (GuestPtr Value)) (data : List UInt8) :
    Option (Outcome Value) :=
  if data.take 8 ≠ memmonMagic then none
  else do
    let (magic, fp) ← mustRead data 8
    if magic ≠ memmonMagic then some .ignored
    else do
      let (seenUniqid, fp) ← read64 fp
      if seenUniqid ≠ uniqid.toNat then some .ignored
      else do
        let (vals, fp) ← readVals ptrs fp
        if fp = [] then some (.delivered vals) else none

def Outcome.vals : Outcome Value → List (List Value)
  | .ignored => []
  | .delivered vals => [vals]

/-- The values passed on for the messages of the queue. -/
def monitor (uniqid : UInt64) (ptrs : List (GuestPtr Value)) :
    List (List UInt8) → Option (List (List Value))
  | [] => some []
  | data :: queue => do
      let outcome ← monitorData uniqid ptrs data
      let rest ← monitor uniqid ptrs queue
      some (outcome.vals ++ rest)

/-! ## The hose -/

/-- A message of the hose: a report under an accepted configuration, or a packet
with another tag. -/
inductive HoseMessage where
  | memmon (config : List UInt8) (memory : GuestMemory)
  | tagged (tag body : List UInt8)

namespace HoseMessage

def bytes : HoseMessage → List UInt8
  | .memmon config memory => actualWriter (memmonPacket (configOf config) fun ptr => memory ptr.toNat)
  | .tagged tag body => tag ++ body

/-- The server can have sent the message.  Another configuration has another
`uniqid`. -/
def Possible (map : MemoryMap) (regions : MemRegions) (own : List UInt8) : HoseMessage → Prop
  | .memmon config _ =>
      Acceptable map regions config ∧ word64 config 0 ≠ 0 ∧
        (word64 config 0 = word64 own 0 → config = own)
  | .tagged tag _ => tag.length = 8 ∧ tag ≠ tag8 "memmon"

def isMemmon : HoseMessage → Bool
  | .memmon _ _ => true
  | .tagged _ _ => false

/-- What is to be delivered for the message: under the own configuration, the
decoded contents of all pointers. -/
def vals (own : List UInt8) (ptrs : List (GuestPtr Value)) : HoseMessage → List (List Value)
  | .memmon config memory =>
      if config = own then
        [ptrs.map fun p => p.decodeData (memory.read p.addr.toNat p.sizeofStar.toNat)]
      else []
  | .tagged _ _ => []

end HoseMessage

/-- Every packet of the collision hooks, and the overrun packet, has another tag. -/
theorem hook_tagged (packet : HosePacket) :
    ∃ tag body, packet.body = (HoseMessage.tagged tag body).bytes ∧ tag.length = 8 ∧
      tag ≠ tag8 "memmon" := by
  cases packet with
  | normalCollider tag collider =>
      cases tag <;> exact ⟨_, _, rfl, by decide, by decide⟩
  | _ => exact ⟨_, _, rfl, by decide, by decide⟩

theorem readVals_reads (memory : GuestMemory) (ptrs : List (GuestPtr Value)) (rest : List UInt8) :
    readVals ptrs (((addrLens ptrs).flatMap fun entry =>
        memory.read entry.1.toNat entry.2.toNat) ++ rest) =
      some (ptrs.map fun p => p.decodeData (memory.read p.addr.toNat p.sizeofStar.toNat), rest) := by
  induction ptrs with
  | nil => rfl
  | cons p ptrs ih =>
      have field := GuestMemory.length_read memory p.addr.toNat p.sizeofStar.toNat
      unfold addrLens at ih ⊢
      rw [List.map_cons, List.flatMap_cons, List.append_assoc, readVals, mustRead_append field]
      simp only [Option.bind_eq_bind, Option.bind_some, ih, List.map_cons]

/-- A report under a configuration the client can have sent is read up to its end. -/
theorem monitorData_report (uniqid : UInt64) (ptrs : List (GuestPtr Value)) (memory : GuestMemory)
    {seen : UInt64} {entries : List (Nat × Nat)}
    (own : seen = uniqid → entries = (addrLens ptrs).map fun entry =>
      (entry.1.toNat, entry.2.toNat)) :
    monitorData uniqid ptrs (report memory seen.toNat entries) =
      if seen = uniqid then
        some (.delivered (ptrs.map fun p =>
          p.decodeData (memory.read p.addr.toNat p.sizeofStar.toNat)))
      else some .ignored := by
  have magic : memmonMagic = tag8 "memmon" := by decide
  have length : (tag8 "memmon").length = 8 := by decide
  have front : report memory seen.toNat entries = tag8 "memmon" ++ (encode 8 seen.toNat ++
      entries.flatMap fun entry => memory.read entry.1 entry.2) := by
    rw [report, List.append_assoc]
    rfl
  have starts : (report memory seen.toNat entries).take 8 = memmonMagic := by
    rw [front, List.take_left' length, magic]
  rw [monitorData, if_neg (not_not.mpr starts), front, mustRead_append length]
  simp only [Option.bind_eq_bind, Option.bind_some, magic, ne_eq, not_true_eq_false, if_false,
    read64_append, UInt64.toNat_inj]
  by_cases same : seen = uniqid
  · have reads := readVals_reads memory ptrs []
    rw [List.append_nil] at reads
    rw [if_neg (not_not.mpr same), if_pos same, own same, List.flatMap_map, reads]
    rfl
  · rw [if_pos same, if_neg same]

section Run

variable {map : MemoryMap} {server : Server} {uniqid : UInt64} {ptrs : List (GuestPtr Value)}

theorem monitorData_memmon (reached : map.Reached server.regions) {config : List UInt8}
    (memory : GuestMemory)
    (possible : (HoseMessage.memmon config memory).Possible map server.regions
      (packConfig uniqid (addrLens ptrs))) :
    ∃ outcome, monitorData uniqid ptrs (HoseMessage.memmon config memory).bytes = some outcome ∧
      outcome.vals =
        (HoseMessage.memmon config memory).vals (packConfig uniqid (addrLens ptrs)) ptrs := by
  obtain ⟨acceptable, named, unique⟩ := possible
  rw [packConfig_uniqid] at unique
  have word : (UInt64.ofNat (word64 config 0)).toNat = word64 config 0 := by
    rw [UInt64.toNat_ofNat', Nat.mod_eq_of_lt (Rpc.word64_lt config 0)]
  have sameUniqid : UInt64.ofNat (word64 config 0) = uniqid ↔
      config = packConfig uniqid (addrLens ptrs) := by
    rw [← UInt64.toNat_inj, word]
    constructor
    · exact unique
    · intro same
      rw [same, packConfig_uniqid]
  have read := @monitorData_report Value uniqid ptrs memory (UInt64.ofNat (word64 config 0))
    (entriesOf config) (by
      intro same
      rw [sameUniqid.mp same, entriesOf_packConfig])
  rw [word] at read
  rw [HoseMessage.bytes, report_of_acceptable memory reached acceptable, read]
  simp only [sameUniqid, HoseMessage.vals]
  split_ifs
  · exact ⟨_, rfl, rfl⟩
  · exact ⟨_, rfl, rfl⟩

/-- The assertion comes before the test for other packets. -/
theorem monitorData_tagged {tag body : List UInt8} (length : tag.length = 8)
    (other : tag ≠ tag8 "memmon") :
    monitorData uniqid ptrs (HoseMessage.tagged tag body).bytes = none := by
  have magic : memmonMagic = tag8 "memmon" := by decide
  rw [monitorData, HoseMessage.bytes, List.take_left' length, magic, if_pos other]

/-- Everything is delivered as it should be exactly if no packet with another
tag comes in. -/
theorem monitor_delivers_iff (reached : map.Reached server.regions)
    (messages : List HoseMessage)
    (possible : ∀ message ∈ messages,
      message.Possible map server.regions (packConfig uniqid (addrLens ptrs))) :
    monitor uniqid ptrs (messages.map HoseMessage.bytes) =
        some (messages.flatMap (HoseMessage.vals (packConfig uniqid (addrLens ptrs)) ptrs)) ↔
      ∀ message ∈ messages, message.isMemmon = true := by
  induction messages with
  | nil => simp [monitor]
  | cons message messages ih =>
      have first := possible message (by simp)
      have later := ih fun other member => possible other (by simp [member])
      simp only [List.map_cons, monitor, List.flatMap_cons, List.forall_mem_cons]
      cases message with
      | memmon config memory =>
          obtain ⟨outcome, read, vals⟩ := monitorData_memmon reached memory first
          rw [read, ← later, ← vals]
          cases rest : monitor uniqid ptrs (messages.map HoseMessage.bytes) with
          | none => simp
          | some delivered => simp [HoseMessage.isMemmon]
      | tagged tag body =>
          rw [monitorData_tagged first.1 first.2]
          simp [HoseMessage.isMemmon]

end Run

/-- What the client packs is accepted where the pointers can be read. -/
theorem acceptable_packConfig {map : MemoryMap} {regions : MemRegions} {uniqid : UInt64}
    {entries : List (UInt64 × UInt64)} (named : uniqid ≠ 0) (few : entries.length ≤ maxEntries)
    (readable : ∀ entry ∈ entries, Readable map regions (entry.1.toNat, entry.2.toNat)) :
    Acceptable map regions (packConfig uniqid entries) where
  whole := ⟨entries.length, few, packConfig_length⟩
  counted := by
    have limit : maxEntries < 2 ^ 64 := by decide
    rw [packConfig_count (by omega), entriesOf_packConfig, List.length_map]
  named := by
    rw [packConfig_uniqid]
    exact .inl fun zero => named (UInt64.toNat_inj.mp zero)
  readable := by
    intro entry member
    rw [entriesOf_packConfig] at member
    obtain ⟨other, listed, rfl⟩ := List.mem_map.mp member
    exact readable other listed

/-! Four bytes, none, and eight bytes at the end of a page. -/

def watchedPtrs : List (GuestPtr (List UInt8)) :=
  [⟨0x2010, 4, id⟩, ⟨0x2020, 0, id⟩, ⟨0x2ff8, 8, id⟩]

/-- Reports of an earlier configuration are still in the queue. -/
def watchedMessages : List HoseMessage :=
  [.memmon (packConfig 6 [(0x2ff8, 8)]) fun _ => 0,
    .memmon (packConfig 7 (addrLens watchedPtrs)) fun addr => UInt8.ofNat addr,
    .memmon (packConfig 6 [(0x2ff8, 8)]) fun _ => 1,
    .memmon (packConfig 7 (addrLens watchedPtrs)) fun addr => UInt8.ofNat addr + 1]

theorem watchedMessages_possible : ∀ message ∈ watchedMessages,
    message.Possible .threeRuns freshServer.regions (packConfig 7 (addrLens watchedPtrs)) := by
  have stale (memory : GuestMemory) : (HoseMessage.memmon (packConfig 6 [(0x2ff8, 8)]) memory).Possible
      .threeRuns freshServer.regions (packConfig 7 (addrLens watchedPtrs)) := by
    refine ⟨acceptable_packConfig (by decide) (by decide) ?_, ?_, ?_⟩
    · intro entry member
      obtain rfl := List.mem_singleton.mp member
      exact threeRuns_readable (by decide) (by decide) (by decide)
    · rw [packConfig_uniqid]
      decide
    · rw [packConfig_uniqid, packConfig_uniqid]
      exact fun same => absurd same (by decide)
  have own (memory : GuestMemory) :
      (HoseMessage.memmon (packConfig 7 (addrLens watchedPtrs)) memory).Possible
        .threeRuns freshServer.regions (packConfig 7 (addrLens watchedPtrs)) := by
    refine ⟨acceptable_packConfig (by decide) (by decide) ?_, ?_, fun _ => rfl⟩
    · simp only [watchedPtrs, addrLens, List.map_cons, List.map_nil, List.forall_mem_cons]
      exact ⟨threeRuns_readable (by decide) (by decide) (by decide),
        threeRuns_readable (by decide) (by decide) (by decide),
        threeRuns_readable (by decide) (by decide) (by decide), by simp⟩
    · rw [packConfig_uniqid]
      decide
  simp only [watchedMessages, List.forall_mem_cons]
  exact ⟨stale _, own _, stale _, own _, by simp⟩

theorem monitor_delivers_iff_watched :
    monitor 7 watchedPtrs (watchedMessages.map HoseMessage.bytes) =
      some [[[0x10, 0x11, 0x12, 0x13], [], [0xf8, 0xf9, 0xfa, 0xfb, 0xfc, 0xfd, 0xfe, 0xff]],
        [[0x11, 0x12, 0x13, 0x14], [], [0xf9, 0xfa, 0xfb, 0xfc, 0xfd, 0xfe, 0xff, 0]]] :=
  (monitor_delivers_iff (.inl rfl) watchedMessages watchedMessages_possible).mpr
    (by simp [watchedMessages, HoseMessage.isMemmon])

/-- A pointer to something of no size, which is kept as it is. -/
def emptyPtr : GuestPtr (List UInt8) := { addr := 0, sizeofStar := 0, decodeData := id }

/-- One overrun report ends the monitoring. -/
theorem overrun_ends_monitor :
    HosePacket.overrun.body = (HoseMessage.tagged (tag8 "overrun") []).bytes ∧
    (HoseMessage.tagged (tag8 "overrun") []).Possible .twoRuns freshServer.regions
      (packConfig 7 (addrLens [emptyPtr])) ∧
    (HoseMessage.tagged (tag8 "overrun") []).vals (packConfig 7 (addrLens [emptyPtr]))
      [emptyPtr] = [] ∧
    monitor 7 [emptyPtr] [HosePacket.overrun.body] = none :=
  ⟨rfl, ⟨by decide, by decide⟩, rfl, rfl⟩

end Smmboss.Monitor
