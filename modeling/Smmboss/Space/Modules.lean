import Smmboss.Space.ModuleTable

namespace Smmboss.Space

open Tiling

/-! # The module table -/

variable {header : Nat → Nat} {space : AddressSpace} {module_start fuel : Nat} {found before : List ModuleInfo}

variable (before) in
theorem fill_eq {free : Nat} (room : found.length ≤ free) :
    fill (before.map some ++ List.replicate free none) before.length found =
      (before ++ found).map some ++ List.replicate (free - found.length) none := by
  induction found generalizing before free with
  | nil => simp [fill]
  | cons first found ih =>
      obtain ⟨free, rfl⟩ := Nat.exists_eq_succ_of_ne_zero (show free ≠ 0 by simp at room; omega)
      have step : (before.map some ++ List.replicate (free + 1) none).set before.length (some first) =
          (before ++ [first]).map some ++ List.replicate free none := by
        rw [List.set_append_right _ _ (by simp), List.length_map, Nat.sub_self, List.replicate_succ, List.set_cons_zero]
        simp
      have rest := ih (before ++ [first]) (show found.length ≤ free by simpa using room)
      rw [List.length_append, List.length_singleton] at rest
      rw [fill, step, rest, List.append_assoc, List.length_cons, Nat.succ_sub_succ]
      rfl

theorem moveSdk_eq (last : ModuleInfo) {free : Nat} (whole : before.length + 1 + (free + 1) = ModuleIndex.End) :
    moveSdk (before.length + 1) ((before ++ [last]).map some ++ List.replicate (free + 1) none) =
      before.map some ++ List.replicate (free + 1) none ++ [some last] := by
  have size : ModuleIndex.End = 13 := rfl
  have place : ModuleIndex.Sdk = (before.map some ++ [some last] ++ List.replicate free none).length := by
    have sdk : ModuleIndex.Sdk = 12 := rfl
    simp
    omega
  have here : ((before ++ [last]).map some ++ List.replicate (free + 1) none)[before.length]? = some (some last) := by
    rw [List.getElem?_append_left (by simp), List.getElem?_map, List.getElem?_append_right (Nat.le_refl _), Nat.sub_self]
    rfl
  have table : (before ++ [last]).map some ++ List.replicate (free + 1) none =
      (before.map some ++ [some last] ++ List.replicate free none) ++ [none] := by
    rw [List.replicate_succ', List.map_append, List.append_assoc, List.append_assoc, List.append_assoc]
    rfl
  rw [moveSdk, if_neg (by omega), Nat.add_sub_cancel, here, table, place, List.set_append_right _ _ (Nat.le_refl _),
    Nat.sub_self, List.set_cons_zero, Option.getD_some, List.append_assoc, List.append_assoc,
    List.set_append_right _ _ (by simp), List.length_map, Nat.sub_self, List.singleton_append, List.set_cons_zero,
    List.append_assoc, List.replicate_succ]
  rfl

/-- A module that is nowhere near the end of the addresses lies at one place. -/
def Placed (low : Nat) (found : ModuleInfo) : Prop :=
  low ≤ found.m_Total.m_Start ∧ found.m_Total.m_Start + found.m_Total.m_Size < 2 ^ 64

variable (header) in
theorem completeModules_placed {low : Nat} {ranges : List MemoryInfo} (orderly : Orderly ranges)
    (tiles : Tiles low (2 ^ 64) ranges) :
    (∀ found ∈ completeModules header ranges, Placed low found) ∧
      (completeModules header ranges).Pairwise fun first second =>
        first.m_Total.m_Start + first.m_Total.m_Size ≤ second.m_Total.m_Start := by
  induction orderly generalizing low with
  | nil => exact ⟨by simp [completeModules], List.Pairwise.nil⟩
  | @other first rest kind _ ih =>
      obtain ⟨start, positive, later⟩ := tiles
      obtain ⟨placed, apart⟩ := ih later
      rw [completeModules_skip kind]
      refine ⟨fun found member => ⟨Nat.le_trans ?_ (placed found member).1, (placed found member).2⟩, apart⟩
      rw [stop]
      omega
  | @module text rodata data rest isText isRodata isData more _ ih =>
      obtain ⟨textStart, textSize, rodataStart, rodataSize, dataStart, dataSize, later⟩ := tiles
      obtain ⟨placed, apart⟩ := ih later
      have below : stop data < 2 ^ 64 := by
        cases rest with
        | nil => exact absurd rfl more
        | cons next rest =>
            have start := later.1
            have some_ := later.2.1
            have bound := later.2.2.le
            simp only [stop] at *
            omega
      have whole : (moduleOf header text rodata data).m_Total.m_Start = text.addr ∧
          text.addr + (moduleOf header text rodata data).m_Total.m_Size = stop data := by
        simp only [moduleOf, MemoryInfo.next, stop, Block.start, Block.size] at *
        refine ⟨trivial, ?_⟩
        rw [Nat.mod_eq_of_lt (a := data.addr + data.size) below, show data.addr + data.size + 2 ^ 64 - text.addr =
          data.addr + data.size - text.addr + 2 ^ 64 by omega, Nat.add_mod_right, Nat.mod_eq_of_lt (by omega)]
        omega
      have order : low ≤ text.addr ∧ low ≤ stop data := by
        simp only [stop, Block.start, Block.size] at *
        omega
      rw [completeModules_whole isText isRodata isData]
      constructor
      · intro found member
        rcases List.mem_cons.mp member with rfl | later
        · exact ⟨by rw [whole.1]; exact order.1, by rw [whole.1, whole.2]; exact below⟩
        · exact ⟨Nat.le_trans order.2 (placed found later).1, (placed found later).2⟩
      · refine List.Pairwise.cons (fun other member => ?_) apart
        rw [whole.1, whole.2]
        exact (placed other member).1

/-! ### What the process knows of its modules -/

/-- The modules are in the order of their addresses, but for the last one, which
is the SDK. -/
structure Loaded (found : List ModuleInfo) (module_start : Nat) (modules : Modules) (self : Nat) : Prop where
  table : ∃ before last, found = before ++ [last] ∧
    modules = before.map some ++ List.replicate (ModuleIndex.End - found.length) none ++ [some last]
  self : ∃ info, modules[self]? = some (some info) ∧ info.m_Total.m_Start = module_start
  lookup : ∀ pointer info, TryGetModule modules pointer = some info ↔ info ∈ found ∧ info.m_Total.InRange pointer

inductive Outcome (found : List ModuleInfo) (module_start : Nat) : Except Abort (Modules × Nat) → Prop where
  | tooMany : ModuleIndex.End ≤ found.length → Outcome found module_start (.error .TooManyStaticModules)
  | noRtld : found.length = 0 → Outcome found module_start (.error .noRtld)
  | noMain : found.length = 1 → Outcome found module_start (.error .noMain)
  | noSelf : 2 ≤ found.length → found.length < ModuleIndex.End →
      (∀ info ∈ found, info.m_Total.m_Start ≠ module_start) → Outcome found module_start (.error .noSelf)
  | loaded {modules self} : 2 ≤ found.length → found.length < ModuleIndex.End →
      Loaded found module_start modules self → Outcome found module_start (.ok (modules, self))

theorem TryGetModule_eq (modules : Modules) (pointer : Nat) :
    TryGetModule modules pointer =
      (modules.filterMap id).find? fun info => decide (info.m_Total.InRange pointer) := by
  induction modules with
  | nil => rfl
  | cons entry modules ih =>
      cases entry with
      | none => exact ih
      | some info =>
          rw [TryGetModule, List.findSome?_cons, List.filterMap_cons]
          by_cases inside : info.m_Total.InRange pointer
          · simp [Option.filter, inside]
          · simp only [Option.filter, inside, decide_false, Bool.false_eq_true, if_false, id, List.find?_cons]
            exact ih

theorem Placed.getEnd {low : Nat} {info : ModuleInfo} (placed : Placed low info) :
    info.m_Total.GetEnd = info.m_Total.m_Start + info.m_Total.m_Size := Nat.mod_eq_of_lt placed.2

theorem lookup_iff {modules : Modules} (listed : modules.filterMap id = found) (placed : ∀ info ∈ found, Placed 0 info)
    (apart : found.Pairwise fun first second =>
      first.m_Total.m_Start + first.m_Total.m_Size ≤ second.m_Total.m_Start) (pointer : Nat) (info : ModuleInfo) :
    TryGetModule modules pointer = some info ↔ info ∈ found ∧ info.m_Total.InRange pointer := by
  rw [TryGetModule_eq, listed]
  clear listed
  induction found with
  | nil => simp
  | cons first found ih =>
      obtain ⟨ahead, later⟩ := List.pairwise_cons.mp apart
      have rest := ih (fun info member => placed info (List.mem_cons_of_mem _ member)) later
      by_cases inside : first.m_Total.InRange pointer
      · simp only [List.find?_cons, inside, decide_true, Option.some.injEq]
        constructor
        · rintro rfl
          exact ⟨List.mem_cons_self .., inside⟩
        · rintro ⟨member, also⟩
          rcases List.mem_cons.mp member with rfl | other
          · rfl
          · have behind := ahead info other
            have above := inside.2
            rw [(placed first (List.mem_cons_self ..)).getEnd] at above
            have below := also.1
            omega
      · simp only [List.find?_cons, inside, decide_false, rest]
        constructor
        · rintro ⟨member, also⟩
          exact ⟨List.mem_cons_of_mem _ member, also⟩
        · rintro ⟨member, also⟩
          rcases List.mem_cons.mp member with rfl | other
          · exact absurd also inside
          · exact ⟨other, also⟩

theorem finish_outcome (few : found.length < ModuleIndex.End) (placed : ∀ info ∈ found, Placed 0 info)
    (apart : found.Pairwise fun first second =>
      first.m_Total.m_Start + first.m_Total.m_Size ≤ second.m_Total.m_Start) :
    Outcome found module_start (finish module_start found.length (fill noModules 0 found)) := by
  have size : ModuleIndex.End = 13 := rfl
  have filled : fill noModules 0 found = found.map some ++ List.replicate (ModuleIndex.End - found.length) none :=
    fill_eq [] (Nat.le_of_lt few)
  rw [filled]
  cases found with
  | nil => exact .noRtld rfl
  | cons rtld others =>
      cases others with
      | nil => exact .noMain rfl
      | cons main others =>
          obtain ⟨before, last, split⟩ := List.eq_nil_or_concat' (rtld :: main :: others) |>.resolve_left (by simp)
          have length : (rtld :: main :: others).length = before.length + 1 := by rw [split, List.length_append]; rfl
          obtain ⟨free, spare⟩ : ∃ free, ModuleIndex.End - (rtld :: main :: others).length = free + 1 :=
            Nat.exists_eq_succ_of_ne_zero (by omega)
          have moved := moveSdk_eq last (show before.length + 1 + (free + 1) = ModuleIndex.End by omega)
          rw [finish, if_neg (by simp [ModuleIndex.Rtld]), if_neg (by simp [ModuleIndex.Main]), spare, length, split, moved]
          have listed : (before.map some ++ List.replicate (free + 1) none ++ [some last]).filterMap id =
              rtld :: main :: others := by
            rw [split, List.filterMap_append, List.filterMap_append, List.filterMap_map]
            simp
          have many : 2 ≤ (rtld :: main :: others).length := by simp
          rw [← split]
          cases here : selfIdx module_start (before.map some ++ List.replicate (free + 1) none ++ [some last]) with
          | none =>
              refine .noSelf many few fun info member same => ?_
              rw [selfIdx, List.findIdx?_eq_none_iff] at here
              rw [← listed] at member
              have entry : some info ∈ before.map some ++ List.replicate (free + 1) none ++ [some last] := by
                simpa using member
              simpa [same] using here (some info) entry
          | some self =>
              refine .loaded many few ⟨⟨before, last, split, by rw [spare]⟩, ?_, lookup_iff listed placed apart⟩
              rw [selfIdx, List.findIdx?_eq_some_iff_getElem] at here
              obtain ⟨within, start, _⟩ := here
              obtain ⟨info, entry, same⟩ := Option.any_eq_true _ _ |>.mp start
              exact ⟨info, by rw [List.getElem?_eq_getElem within, entry], of_decide_eq_true same⟩

/-- In a map of whole modules, the search ends, and it finds them all unless they
are thirteen or more.  The thirteen for which there are numbers are too many. -/
theorem modules_found (orderly : Orderly space.ranges) (enough : space.ranges.length < fuel) :
    ∃ result, FindModules header space.svcQueryMemory module_start fuel = some result ∧
      Outcome (completeModules header space.ranges) module_start result := by
  obtain ⟨withFirst, found⟩ := modulesOf_eq header orderly space.first
  obtain ⟨placed, apart⟩ := completeModules_placed header orderly space.tiles
  rw [FindModules, loop_eq enough, found]
  by_cases many : ModuleIndex.End ≤ (completeModules header space.ranges).length
  · rw [if_pos many]
    exact ⟨_, rfl, .tooMany many⟩
  · have start : Finder.At 0 noModules {} := ⟨rfl, rfl, rfl, rfl⟩
    have turned := turns_eq header (space.ranges ++ [space.first]) start
    rw [withFirst, Nat.zero_add] at turned
    rw [if_neg many]
    refine ⟨_, rfl, ?_⟩
    show Outcome _ _ (finish module_start ((space.ranges ++ [space.first]).foldl (Finder.turn header) {}).nextModIdx _)
    rw [turned.1, turned.2]
    exact finish_outcome (Nat.not_le.mp many) placed apart

/-- Nothing, three modules, and what the process cannot reach. -/
def threeModules : AddressSpace where
  first := ⟨0, 0x8000000, 0, 0⟩
  others :=
    [⟨0x8000000, 0x1000, 3, 5⟩, ⟨0x8001000, 0x1000, 3, 1⟩, ⟨0x8002000, 0x2000, 4, 3⟩, ⟨0x8004000, 0x1000, 3, 5⟩,
      ⟨0x8005000, 0x1000, 3, 1⟩, ⟨0x8006000, 0x1000, 4, 3⟩, ⟨0x8007000, 0x1000, 0, 0⟩, ⟨0x8008000, 0x3000, 3, 5⟩,
      ⟨0x800b000, 0x1000, 3, 1⟩, ⟨0x800c000, 0x1000, 4, 3⟩, ⟨0x800d000, 2 ^ 64 - 0x800d000, 16, 0⟩]
  more := by decide
  tiles := by decide

theorem modules_found_three :
    ∃ result, FindModules (fun _ => 8) threeModules.svcQueryMemory 0x8008000 13 = some result ∧
      Outcome (completeModules (fun _ => 8) threeModules.ranges) 0x8008000 result := by
  have rest : Orderly [⟨0x800d000, 2 ^ 64 - 0x800d000, 16, 0⟩] := .other rfl .nil
  have sdk : Orderly (threeModules.ranges.drop 8) := .module rfl rfl rfl (by decide) rest
  have main : Orderly (threeModules.ranges.drop 4) := .module rfl rfl rfl (by decide) (.other rfl sdk)
  have orderly : Orderly threeModules.ranges := .other rfl (.module rfl rfl rfl (by decide) main)
  exact modules_found orderly (by decide)

end Smmboss.Space
