import Smmboss.Client.Totality
import Smmboss.Rpc.Replies

namespace Smmboss.Monitor

open Smmboss.Client.Wire (memmonPacket)
open Smmboss.Collision (Memory prim tag8)
open Smmboss.Guest (GuestMemory MemoryMap MemRegions)
open Smmboss.Hose (Packet actualWriter sizeCalculator sizeCalculator_eq sizeMax)
open Smmboss.Rpc (Server configure setConfig word64 word64_lt)

/-! # Parsing a monitor configuration -/

/-- The addresses and lengths behind the header of `data`. -/
def entriesOf (data : List UInt8) : List (Nat × Nat) :=
  (List.range ((data.length - entriesOffset) / entrySize)).map fun entry =>
    (word64 data (entriesOffset + entrySize * entry),
      word64 data (entriesOffset + entrySize * entry + 8))

/-- All of the entry can be read. -/
def Readable (map : MemoryMap) (regions : MemRegions) (entry : Nat × Nat) : Prop :=
  ∃ bytes after, map.accessibleBytesAt regions entry.1 false = some (bytes, after) ∧ entry.2 ≤ bytes

structure Acceptable (map : MemoryMap) (regions : MemRegions) (data : List UInt8) : Prop where
  whole : ∃ count ≤ maxEntries, data.length = entriesOffset + entrySize * count
  counted : word64 data 8 = (entriesOf data).length
  named : word64 data 0 ≠ 0 ∨ (entriesOf data).length = 0
  readable : ∀ entry ∈ entriesOf data, Readable map regions entry

/-- What a report of the entries consists of. -/
def report (memory : GuestMemory) (uniqid : Nat) (entries : List (Nat × Nat)) : List UInt8 :=
  tag8 "memmon" ++ prim 8 uniqid ++ entries.flatMap fun entry => memory.read entry.1 entry.2

/-- The packet that `do_reads` writes, if any. -/
def doReads (server : Server) : Option (Option Packet × Server) :=
  match taken : prepRead server.tripleBuffer.1 with
  | none => none
  | some atomic =>
      let cfg := server.configs atomic.inuseBufIdx
      let memory : Memory := fun ptr => server.memory ptr.toNat
      some (if cfg.uniqid = 0 then none else some (memmonPacket cfg memory),
        { server with tripleBuffer := ⟨atomic, prepRead_valid server.tripleBuffer.2 taken⟩ })

/-! ## The words of a filled slot -/

theorem decode_take (bytes : List UInt8) (count : Nat) :
    LittleEndian.decode (bytes.take count) =
      (List.range count).foldr (fun place rest => (bytes.getD place 0).toNat + 256 * rest) 0 := by
  induction count generalizing bytes with
  | zero => rfl
  | succ count ih =>
      rw [List.range_succ_eq_map, List.foldr_cons, List.foldr_map]
      cases bytes with
      | nil =>
          have rest := ih []
          simp only [List.take_nil, LittleEndian.decode_nil, List.getD_nil] at rest ⊢
          rw [← rest]
          rfl
      | cons byte bytes =>
          rw [List.take_succ_cons, LittleEndian.decode_cons, ih bytes]
          rfl

variable {data : List UInt8}

/-- Past the end of the data a word reads the zeros of the `memset`. -/
theorem configOf_word {offset : Nat} (inside : offset + 8 ≤ configSize) :
    (configOf data).word offset = word64 data offset := by
  rw [word64, decode_take, Config.word]
  have bytes : ∀ place ∈ List.range 8,
      (configOf data).byte (offset + place) = (data.drop offset).getD place 0 := by
    intro place member
    have below := List.mem_range.mp member
    rw [Config.byte, dif_pos (by omega), configOf, List.getD_eq_getElem?_getD,
      List.getD_eq_getElem?_getD, List.getElem?_drop]
  generalize List.range 8 = places at bytes
  induction places with
  | nil => rfl
  | cons place places ih =>
      rw [List.foldr_cons, List.foldr_cons, bytes place (by simp),
        ih fun other member => bytes other (by simp [member])]

theorem word64_beyond {offset : Nat} (beyond : data.length ≤ offset) : word64 data offset = 0 := by
  rw [word64, List.drop_eq_nil_of_le beyond]
  rfl

theorem configOf_uniqid : (configOf data).uniqid = word64 data 0 := configOf_word (by decide)

theorem configOf_entryCount : (configOf data).entryCount = word64 data 8 :=
  configOf_word (by decide)

theorem configOf_entry {entry : Nat} (inside : entry < maxEntries) :
    ((configOf data).entryAddr entry, (configOf data).entryLen entry) =
      (word64 data (entriesOffset + entrySize * entry),
        word64 data (entriesOffset + entrySize * entry + 8)) := by
  unfold maxEntries at inside
  have address : entriesOffset + entrySize * entry + 8 ≤ configSize := by
    unfold entriesOffset entrySize configSize maxEntries entriesOffset entrySize
    omega
  have length : entriesOffset + entrySize * entry + 8 + 8 ≤ configSize := by
    unfold entriesOffset entrySize configSize maxEntries entriesOffset entrySize
    omega
  rw [Config.entryAddr, Config.entryLen, configOf_word address, configOf_word length]

/-! ## Which data is accepted -/

theorem checkSize_eq_none_iff : checkSize data = none ↔
    ∃ count ≤ maxEntries, data.length = entriesOffset + entrySize * count := by
  unfold checkSize
  constructor
  · intro passed
    split_ifs at passed with invalid many
    simp only [entriesOffset, entrySize, maxEntries] at invalid many ⊢
    exact ⟨(data.length - 16) / 16, by omega, by omega⟩
  · intro ⟨count, few, length⟩
    have size : data.length - entriesOffset = entrySize * count := by omega
    have entries : entrySize * count / entrySize = count := Nat.mul_div_cancel_left count (by decide)
    rw [size, entries, Nat.mul_mod_right, if_neg (by omega), if_neg (by omega)]

/-- The copy into the slot stays inside it. -/
theorem checkSize_fits (passed : checkSize data = none) : data.length ≤ configSize := by
  obtain ⟨count, few, length⟩ := checkSize_eq_none_iff.mp passed
  have sizes : entriesOffset = 16 ∧ entrySize = 16 ∧ maxEntries = 32 ∧ configSize = 528 :=
    ⟨rfl, rfl, rfl, rfl⟩
  rw [sizes.1, sizes.2.1] at length
  omega

theorem entriesOf_length :
    (entriesOf data).length = (data.length - entriesOffset) / entrySize := by
  simp [entriesOf]

theorem mem_entriesOf {entry : Nat × Nat} : entry ∈ entriesOf data ↔
    ∃ place < (data.length - entriesOffset) / entrySize,
      (word64 data (entriesOffset + entrySize * place),
        word64 data (entriesOffset + entrySize * place + 8)) = entry := by
  simp only [entriesOf, List.mem_map, List.mem_range]

section Validate

variable {map : MemoryMap} {server : Server}

theorem accessible_eq {addr bytes : Nat} {after : MemRegions} (entry : Nat)
    (called : map.accessibleBytesAt server.regions addr false = some (bytes, after)) :
    server.accessible map entry addr = bytes := by
  rw [Server.accessible, called]
  rfl

/-- `validate_config` compares against what the entry can read. -/
theorem readable_iff (reached : map.Reached server.regions) (place : Nat) {entry : Nat × Nat}
    (bound : entry.1 < 2 ^ 64) :
    Readable map server.regions entry ↔ entry.2 ≤ server.accessible map place entry.1 := by
  obtain ⟨bytes, after, called, -⟩ := MemoryMap.accessibleBytesAt_chunk reached bound false
  rw [accessible_eq place called]
  constructor
  · intro ⟨others, later, same, enough⟩
    rw [called, Option.some.injEq, Prod.mk.injEq] at same
    rwa [same.1]
  · intro enough
    exact ⟨bytes, after, called, enough⟩

/-- The entries behind the data are zeros and pass. -/
theorem unreadable_iff (passed : checkSize data = none) :
    (∃ place ∈ List.range maxEntries, server.accessible map place
        ((configOf data).entryAddr place) < (configOf data).entryLen place) ↔
      ∃ entry ∈ entriesOf data, server.accessible map 0 entry.1 < entry.2 := by
  obtain ⟨count, few, length⟩ := checkSize_eq_none_iff.mp passed
  have whole : (data.length - entriesOffset) / entrySize = count := by
    rw [length, Nat.add_sub_cancel_left, Nat.mul_div_cancel_left count (by decide)]
  constructor
  · intro ⟨place, member, short⟩
    have inside := List.mem_range.mp member
    have words := @configOf_entry data place inside
    rw [Prod.mk.injEq] at words
    rw [words.1, words.2] at short
    by_cases listed : place < count
    · exact ⟨_, mem_entriesOf.mpr ⟨place, by omega, rfl⟩, short⟩
    · have beyond : data.length ≤ entriesOffset + entrySize * place := by
        rw [length]
        exact Nat.add_le_add_left (Nat.mul_le_mul_left entrySize (by omega)) _
      rw [@word64_beyond data (_ + 8) (by omega)] at short
      omega
  · intro ⟨entry, member, short⟩
    obtain ⟨place, inside, rfl⟩ := mem_entriesOf.mp member
    have words := @configOf_entry data place (by omega)
    rw [Prod.mk.injEq] at words
    refine ⟨place, List.mem_range.mpr (by omega), ?_⟩
    rw [words.1, words.2]
    exact short

theorem entriesOf_bound {entry : Nat × Nat} (member : entry ∈ entriesOf data) :
    entry.1 < 2 ^ 64 := by
  obtain ⟨place, -, rfl⟩ := mem_entriesOf.mp member
  exact word64_lt _ _

theorem validateConfig_eq_none_iff (reached : map.Reached server.regions)
    (passed : checkSize data = none) :
    validateConfig (configOf data) (server.accessible map) = none ↔
      (word64 data 0 ≠ 0 ∨ word64 data 8 = 0) ∧
        ∀ entry ∈ entriesOf data, Readable map server.regions entry := by
  have entries : (∀ entry ∈ entriesOf data, Readable map server.regions entry) ↔
      ¬ ∃ entry ∈ entriesOf data, server.accessible map 0 entry.1 < entry.2 := by
    constructor
    · intro readable ⟨entry, member, short⟩
      have enough := (readable_iff reached 0 (entriesOf_bound member)).mp (readable entry member)
      omega
    · intro fine entry member
      rw [readable_iff reached 0 (entriesOf_bound member)]
      by_contra short
      exact fine ⟨entry, member, by omega⟩
  rw [entries, ← unreadable_iff passed]
  unfold validateConfig
  rw [configOf_uniqid, configOf_entryCount]
  constructor
  · intro valid
    split_ifs at valid with unnamed unreadable
    exact ⟨by omega, unreadable⟩
  · intro ⟨named, readable⟩
    rw [if_neg (by omega), if_neg readable]

theorem acceptable_iff (reached : map.Reached server.regions) :
    Acceptable map server.regions data ↔ checkSize data = none ∧
      checkFilled data (configOf data) (server.accessible map) = none := by
  constructor
  · intro acceptable
    have passed := checkSize_eq_none_iff.mpr acceptable.whole
    have counted := acceptable.counted
    have named := acceptable.named
    refine ⟨passed, ?_⟩
    rw [entriesOf_length] at counted named
    rw [checkFilled, configOf_entryCount, if_neg (by omega)]
    exact (validateConfig_eq_none_iff reached passed).mpr ⟨by omega, acceptable.readable⟩
  · intro accepted
    obtain ⟨passed, filled⟩ := accepted
    rw [checkFilled, configOf_entryCount] at filled
    split_ifs at filled with miscounted
    obtain ⟨named, readable⟩ := (validateConfig_eq_none_iff reached passed).mp filled
    have counted : word64 data 8 = (entriesOf data).length := by
      rw [entriesOf_length]
      omega
    exact ⟨checkSize_eq_none_iff.mp passed, counted, by omega, readable⟩

end Validate

/-! ## What the reader sees -/

section Configured

variable {map : MemoryMap} {server after : Server}

/-- What is published and what is in use are left alone. -/
structure OutOfSight (before after : Server) : Prop where
  only : after = { before with configs := after.configs }
  inuse : after.configs before.tripleBuffer.1.inuseBufIdx =
    before.configs before.tripleBuffer.1.inuseBufIdx
  next : after.configs before.tripleBuffer.1.nextBufIdx =
    before.configs before.tripleBuffer.1.nextBufIdx

section Slot

variable {slot : Fin 4} {data : List UInt8} (passed : checkSize data = none)
  (prepared : prepWrite server.tripleBuffer.1 = some slot)

include passed prepared

theorem setConfig_refused {err : String}
    (filled : checkFilled data (configOf data) (server.accessible map) = some err) :
    setConfig map server data = some (some err,
      { server with configs := Function.update server.configs slot (configOf data) }) := by
  unfold setConfig configure
  simp only [passed]
  split
  · rename_i unprepared
    rw [prepared] at unprepared
    cases unprepared
  · rename_i handed same
    obtain rfl : handed = slot := Option.some.inj (same.symm.trans prepared)
    simp only [filled]

theorem setConfig_accepted (free : slot ≠ server.tripleBuffer.1.inuseBufIdx ∧
      slot ≠ server.tripleBuffer.1.nextBufIdx)
    (filled : checkFilled data (configOf data) (server.accessible map) = none) :
    ∃ after, setConfig map server data = some (none, after) ∧
      after.tripleBuffer.1.nextBufIdx = slot ∧
      after.configs = Function.update server.configs slot (configOf data) := by
  have posted : postWrite slot server.tripleBuffer.1 =
      some { server.tripleBuffer.1 with nextBufIdx := slot } := if_pos free
  unfold setConfig configure
  simp only [passed]
  split
  · rename_i unprepared
    rw [prepared] at unprepared
    cases unprepared
  · rename_i handed same
    obtain rfl : handed = slot := Option.some.inj (same.symm.trans prepared)
    simp only [filled]
    split
    · rename_i refused
      rw [posted] at refused
      cases refused
    · rename_i atomic written
      rw [posted, Option.some.injEq] at written
      exact ⟨_, rfl, congrArg AtomicState.nextBufIdx written.symm, rfl⟩

end Slot

theorem setConfig_outcome {slot : Fin 4} (data : List UInt8) (reached : map.Reached server.regions)
    (prepared : prepWrite server.tripleBuffer.1 = some slot)
    (notInuse : slot ≠ server.tripleBuffer.1.inuseBufIdx)
    (notNext : slot ≠ server.tripleBuffer.1.nextBufIdx) :
    ∃ result after, setConfig map server data = some (result, after) ∧
      (result = none ↔ Acceptable map server.regions data) ∧
      (result = none → after.configs after.tripleBuffer.1.nextBufIdx = configOf data) ∧
      (result ≠ none → OutOfSight server after) := by
  rw [acceptable_iff reached]
  cases passed : checkSize data with
  | some err =>
      refine ⟨some err, server, ?_, by simp, by simp, fun _ => ⟨rfl, rfl, rfl⟩⟩
      simp only [setConfig, passed]
  | none =>
      cases filled : checkFilled data (configOf data) (server.accessible map) with
      | some err =>
          have inuse := Function.update_of_ne notInuse.symm (configOf data) server.configs
          have next := Function.update_of_ne notNext.symm (configOf data) server.configs
          exact ⟨some err, _, setConfig_refused passed prepared filled, by simp, by simp,
            fun _ => ⟨rfl, inuse, next⟩⟩
      | none =>
          obtain ⟨after, accepted, published, configs⟩ :=
            setConfig_accepted passed prepared ⟨notInuse, notNext⟩ filled
          refine ⟨none, after, accepted, by simp, fun _ => ?_, by simp⟩
          rw [published, configs, Function.update_self]

theorem doReads_eq (server : Server) : ∃ taken, doReads server =
    some (if (server.configs server.tripleBuffer.1.nextBufIdx).uniqid = 0 then none
      else some (memmonPacket (server.configs server.tripleBuffer.1.nextBufIdx) fun ptr =>
        server.memory ptr.toNat), taken) := by
  unfold doReads
  split
  · rename_i missing
    cases missing
  · rename_i atomic taken
    cases taken
    exact ⟨_, rfl⟩

/-- A readable entry ends below 2^64, and its bytes are copied in order. -/
theorem raw_eq_read (memory : GuestMemory) (reached : map.Reached server.regions)
    {entry : Nat × Nat} (bound : entry.1 < 2 ^ 64)
    (readable : Readable map server.regions entry) :
    Memory.raw (fun ptr => memory ptr.toNat) (UInt64.ofNat entry.1) entry.2 =
      memory.read entry.1 entry.2 := by
  obtain ⟨bytes, after, called, enough⟩ := readable
  obtain ⟨others, later, same, -, below, -⟩ :=
    MemoryMap.accessibleBytesAt_chunk reached bound false
  rw [called, Option.some.injEq, Prod.mk.injEq] at same
  apply List.map_congr_left
  intro offset member
  have inside := List.mem_range.mp member
  have address : (UInt64.ofNat entry.1 + UInt64.ofNat offset).toNat = entry.1 + offset := by
    rw [UInt64.toNat_add, UInt64.toNat_ofNat', UInt64.toNat_ofNat']
    omega
  exact congrArg memory address

theorem report_of_acceptable (memory : GuestMemory) (reached : map.Reached server.regions)
    (acceptable : Acceptable map server.regions data) :
    actualWriter (memmonPacket (configOf data) fun ptr => memory ptr.toNat) =
      report memory (word64 data 0) (entriesOf data) := by
  have counted := acceptable.counted
  rw [entriesOf_length] at counted
  obtain ⟨count, few, length⟩ := acceptable.whole
  have whole : (data.length - entriesOffset) / entrySize = count := by
    rw [length, Nat.add_sub_cancel_left, Nat.mul_div_cancel_left count (by decide)]
  have bytes : ((List.range (configOf data).entryCount).map fun place =>
      Memory.raw (fun ptr => memory ptr.toNat) (UInt64.ofNat ((configOf data).entryAddr place))
        ((configOf data).entryLen place)) =
      (entriesOf data).map fun entry => memory.read entry.1 entry.2 := by
    rw [configOf_entryCount, counted, entriesOf, List.map_map]
    apply List.map_congr_left
    intro place member
    have inside := List.mem_range.mp member
    have words := @configOf_entry data place (by omega)
    rw [Prod.mk.injEq] at words
    rw [words.1, words.2]
    have readable := acceptable.readable _ (mem_entriesOf.mpr ⟨place, inside, rfl⟩)
    exact @raw_eq_read map server memory reached (word64 data _, word64 data _) (word64_lt _ _)
      readable
  rw [actualWriter, memmonPacket, bytes, configOf_uniqid, report, List.flatten_cons,
    List.flatten_cons, List.append_assoc, List.flatMap_def]

theorem report_length (memory : GuestMemory) (uniqid : Nat) (entries : List (Nat × Nat)) :
    (report memory uniqid entries).length = 16 + (entries.map Prod.snd).sum := by
  have header : (tag8 "memmon" ++ prim 8 uniqid).length = 16 := by simp [tag8, prim]
  rw [report, List.length_append, header, List.length_flatMap]
  simp only [GuestMemory.length_read]

/-- Acceptance is exact; what is accepted is reported, whatever the memory holds
by then, and what is refused stays out of sight. -/
theorem setConfig_exact {slot : Fin 4} (data : List UInt8) (reached : map.Reached server.regions)
    (prepared : prepWrite server.tripleBuffer.1 = some slot)
    (notInuse : slot ≠ server.tripleBuffer.1.inuseBufIdx)
    (notNext : slot ≠ server.tripleBuffer.1.nextBufIdx) :
    (checkSize data = none → data.length ≤ configSize) ∧
    ∃ result after, setConfig map server data = some (result, after) ∧
      (result = none ↔ Acceptable map server.regions data) ∧
      (result ≠ none → OutOfSight server after) ∧
      (result = none → ∀ memory, ∃ emitted taken,
        doReads { after with memory } = some (emitted, taken) ∧
        (word64 data 0 = 0 → emitted = none) ∧
        (word64 data 0 ≠ 0 → ∃ packet, emitted = some packet ∧
          actualWriter packet = report memory (word64 data 0) (entriesOf data) ∧
          sizeCalculator packet =
            min (16 + ((entriesOf data).map Prod.snd).sum) sizeMax)) := by
  refine ⟨checkSize_fits, ?_⟩
  obtain ⟨result, after, configured, exact, published, refused⟩ :=
    setConfig_outcome data reached prepared notInuse notNext
  refine ⟨result, after, configured, exact, refused, ?_⟩
  intro accepted memory
  have config := published accepted
  obtain ⟨taken, reads⟩ := doReads_eq { after with memory }
  simp only [config, configOf_uniqid] at reads
  refine ⟨_, taken, reads, fun unnamed => if_pos unnamed, fun named => ⟨_, if_neg named, ?_, ?_⟩⟩
  · exact report_of_acceptable memory reached (exact.mp accepted)
  · rw [sizeCalculator_eq, report_of_acceptable memory reached (exact.mp accepted), report_length]

end Configured

def freshServer : Server := { Rpc.doubledServer with tripleBuffer := initialState }

/-- Reads of the page that can only be read. -/
theorem threeRuns_readable {addr len : Nat} (lower : 0x2000 ≤ addr) (below : addr < 0x3000)
    (upper : addr + len ≤ 0x3000) : Readable .threeRuns {} (addr, len) := by
  have mapped (place : Nat) (first : 0x2000 ≤ place) (last : place < 0x3000) :
      MemoryMap.threeRuns.mapping place = some Guest.permR := by
    simp only [MemoryMap.mapping, Guest.mappingIn, MemoryMap.threeRuns, Guest.blockAt]
    split_ifs <;> first | rfl | omega
  obtain ⟨bytes, after, called, -, answer⟩ :=
    @MemoryMap.accessibleBytesAt_answer .threeRuns {} addr (.inl rfl) (by omega) false
  have reaches := answer.reaches ⟨Guest.permR, mapped addr lower below, by decide⟩
    (MemoryMap.threeRuns_findable below) (show 0x3000 ≤ 2 ^ 64 by decide) (by
      intro other first last
      rw [mapped other (by omega) last, mapped addr lower below])
  exact ⟨bytes, after, called, by omega⟩

/-- Four bytes to watch. -/
def watchFour : List UInt8 := prim 8 7 ++ prim 8 1 ++ prim 8 0x2010 ++ prim 8 4

theorem watchFour_entries : entriesOf watchFour = [(0x2010, 4)] := by decide

theorem watchFour_acceptable : Acceptable .threeRuns freshServer.regions watchFour where
  whole := ⟨1, by decide, by decide⟩
  counted := by decide
  named := by decide
  readable := by
    rw [watchFour_entries]
    intro entry member
    obtain rfl := List.mem_singleton.mp member
    exact threeRuns_readable (by decide) (by decide) (by decide)

theorem setConfig_exact_watchFour : ∃ after,
    setConfig .threeRuns freshServer watchFour = some (none, after) ∧
    ∀ memory, ∃ packet taken, doReads { after with memory } = some (some packet, taken) ∧
      actualWriter packet = report memory 7 [(0x2010, 4)] := by
  obtain ⟨result, after, configured, accepted, -, reported⟩ :=
    (@setConfig_exact .threeRuns freshServer 2 watchFour (.inl rfl) rfl (by decide) (by decide)).2
  obtain rfl := accepted.mpr watchFour_acceptable
  refine ⟨after, configured, fun memory => ?_⟩
  obtain ⟨emitted, taken, reads, -, named⟩ := reported rfl memory
  obtain ⟨packet, rfl, written, -⟩ := named (by decide)
  rw [watchFour_entries] at written
  exact ⟨packet, taken, reads, written⟩

end Smmboss.Monitor
