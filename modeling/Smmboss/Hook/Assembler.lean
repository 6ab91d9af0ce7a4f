import Smmboss.Hook.Encodings

namespace Smmboss.Hook

open Aarch64 Backpatch

/-! # An assembler in two passes

The first pass finds the size of what every instruction becomes; the second writes
the words, each with its displacement in it.  The loop, which goes over the block
once and fixes what it has written, comes to the same words.
-/

variable {site : Site} {label other : Nat → Int} {k : Nat}

/-- The first pass: how many words are before each instruction. -/
def Site.layout (site : Site) : Nat → Nat
  | 0 => 0
  | k + 1 => site.layout k + (emission site (fun _ => 0) ⟨k, site.layout k⟩).chunk.words.length

/-- What an instruction becomes before any address is known. -/
def Site.laid (site : Site) (k : Nat) : Emission := emission site (fun _ => 0) ⟨k, site.layout k⟩

/-- The address that is set for an instruction, ADRP's in the writable mapping. -/
def Site.recorded (site : Site) (k : Nat) : Int := (site.laid k).label

/-- The address an instruction is moved to. -/
def Site.address (site : Site) (k : Nat) : Int := Site.recorded { site with outrw := site.outrx } k

/-- An instruction of one word with its displacement in it. -/
def nearWord (ins : Word) (offset : Int) : Word :=
  match classify ins with
  | .branch => ins &&& 0xfc000000#32 ||| (BitVec.ofInt 32 (offset / 4) &&& ~~~0xfc000000#32)
  | .test lmask => ((BitVec.ofInt 32 (offset / 4) <<< 5) &&& ~~~lmask) ||| (ins &&& lmask)
  | .adr => ((BitVec.ofInt 32 offset <<< 3) &&& 0x00ffffff#32) ||| (ins &&& 0xff00001f#32)
  | _ => ins

/-- The second pass: an instruction that names a moved one goes to its address. -/
def Site.written (site : Site) (address : Nat → Int) (k : Nat) : List Word :=
  let spot : Spot := ⟨k, site.layout k⟩
  match site.named k with
  | some target => [nearWord (spot.ins site) (address target - spot.here site)]
  | none => (site.laid k).chunk.words

def Site.assemble (site : Site) (address : Nat → Int) : List Word :=
  (List.range site.count).flatMap (site.written address)

theorem written_congr (same : ∀ target, site.named k = some target → label target = other target) :
    site.written label k = site.written other k := by
  unfold Site.written
  split
  · next target named => rw [same target named]
  · rfl

/-! ### The addresses -/

theorem position_layout (few : site.count ≤ MaxReferences) (within : k ≤ site.count) :
    site.position k = site.layout k := by
  induction k with
  | zero => rfl
  | succ k ih =>
      have here := ih (by omega)
      rw [position_succ few (by omega), here, Site.layout, Site.moved, Site.spot, here,
        (emission_fixed site site.label (fun _ => 0) _).2]

theorem label_recorded (few : site.count ≤ MaxReferences) (bound : k < site.count) :
    site.label k = site.recorded k := by
  rw [label_moved few bound, Site.moved, Site.spot, position_layout few bound.le, Site.recorded, Site.laid,
    (emission_fixed site site.label (fun _ => 0) _).1]

/-- Only ADRP has to do with the writable mapping, and only for its address. -/
theorem emission_outrw (site : Site) (outrw : Int) (label : Nat → Int) (spot : Spot) :
    (emission { site with outrw := outrw } label spot).chunk = (emission site label spot).chunk ∧
      (¬ site.IsAdrp spot.index →
        (emission { site with outrw := outrw } label spot).label = (emission site label spot).label) := by
  have word : spot.ins { site with outrw := outrw } = spot.ins site := rfl
  have known := classify_of (spot.ins site)
  unfold emission
  rw [word]
  cases kind : classify (spot.ins site) with
  | adrp =>
      rw [kind] at known
      cases known with
      | adrp opcode =>
          refine ⟨?_, fun other => absurd opcode other⟩
          unfold adrpEmission
          dsimp only
          have target : adrpTarget { site with outrw := outrw } spot = adrpTarget site spot := rfl
          have inside : Site.isInFixingRange { site with outrw := outrw } = site.isInFixingRange := rfl
          rw [target, inside]
          split <;> rfl
  | _ => exact ⟨rfl, fun _ => rfl⟩

theorem layout_outrw (site : Site) (outrw : Int) (k : Nat) :
    Site.layout { site with outrw := outrw } k = site.layout k := by
  induction k with
  | zero => rfl
  | succ k ih => rw [Site.layout, Site.layout, ih, (emission_outrw site outrw _ _).1]

/-- The address that is set is the one moved to. -/
theorem recorded_address (other : ¬ site.IsAdrp k) : site.recorded k = site.address k := by
  have moved : site.address k = (emission { site with outrw := site.outrx } (fun _ => 0)
      ⟨k, Site.layout { site with outrw := site.outrx } k⟩).label := rfl
  rw [moved, layout_outrw]
  exact ((emission_outrw site site.outrx _ ⟨k, site.layout k⟩).2 other).symm

theorem address_moved (site : Site) (k : Nat) :
    ∃ pad words, (site.laid k).chunk.words = List.replicate pad Aarch64Nop ++ words ∧
      site.address k = site.outrx + 4 * (site.layout k + pad) := by
  obtain ⟨pad, words, split, address⟩ :=
    emission_address { site with outrw := site.outrx } (fun _ => 0) ⟨k, site.layout k⟩
  rw [(emission_outrw site site.outrx _ _).1] at split
  refine ⟨pad, words, split, ?_⟩
  rw [Site.address, Site.recorded, Site.laid, layout_outrw]
  exact address.elim id And.right

theorem recorded_aligned (aligned : site.outrx % 4 = 0) (mapped : site.outrw % 4 = 0) (k : Nat) :
    site.recorded k % 4 = 0 := by
  obtain ⟨_, _, _, place⟩ := emission_address site (fun _ => 0) ⟨k, site.layout k⟩
  rw [Site.recorded, Site.laid]
  omega

/-! ### The fixes -/

/-- The shift and the mask of an instruction's fixes. -/
def fixKind (ins : Word) : FixKind :=
  match classify ins with
  | .branch => (0, 0x03ffffff#32)
  | .test lmask => (5, ~~~lmask)
  | _ => (5, 0x00ffffff#32)

/-- An instruction that names a moved one becomes one word. -/
theorem emission_named {spot : Spot} {target : Nat} (named : site.named spot.index = some target) :
    ∃ absolute reference, site.isInFixingRange absolute = true ∧ site.getRefInsIndex reference = target ∧
      ∀ label, emission site label spot =
        near site label spot absolute reference (fixKind (spot.ins site)) (nearWord (spot.ins site)) := by
  have word : spot.ins site = (⟨spot.index, 0⟩ : Spot).ins site := rfl
  unfold Site.named at named
  unfold emission nearWord fixKind
  dsimp only at named
  rw [← word] at named
  cases kind : classify (spot.ins site) with
  | branch =>
      rw [kind] at named
      obtain ⟨inside, index⟩ := Option.ite_none_right_eq_some.mp named
      refine ⟨_, _, inside, Option.some.inj index, fun label => ?_⟩
      have here : site.isInFixingRange (branchTarget site spot) = true := inside
      simp only [branchEmission, here]
      rfl
  | test lmask =>
      rw [kind] at named
      obtain ⟨inside, index⟩ := Option.ite_none_right_eq_some.mp named
      refine ⟨_, _, inside, Option.some.inj index, fun label => ?_⟩
      have here : site.isInFixingRange (testTarget site spot lmask) = true := inside
      simp only [testEmission, here]
      rfl
  | adr =>
      rw [kind] at named
      obtain ⟨inside, index⟩ := Option.ite_none_right_eq_some.mp named
      refine ⟨_, _, inside, Option.some.inj index, fun label => ?_⟩
      have here : site.isInFixingRange (adrTarget site spot) = true := inside
      simp only [adrEmission, here]
      rfl
  | _ =>
      rw [kind] at named
      contradiction

/-- The fixes of a word put the displacement in it. -/
theorem finish_named {spot : Spot} {target : Nat} (named : site.named spot.index = some target) {address : Int}
    (multiple : (address - spot.here site) % 4 = 0) :
    finish site (fixKind (spot.ins site)) address spot.position (nearWord (spot.ins site) 0) =
      nearWord (spot.ins site) (address - spot.here site) := by
  have word : spot.ins site = (⟨spot.index, 0⟩ : Spot).ins site := rfl
  have known := classify_of (spot.ins site)
  unfold Site.named at named
  dsimp only at named
  rw [← word] at named
  unfold nearWord fixKind
  cases kind : classify (spot.ins site) with
  | branch => exact finish_branch
  | test lmask =>
      rw [kind] at known
      cases known with
      | test masked => exact finish_test masked
  | adr => exact finish_adr multiple
  | _ =>
      rw [kind] at named
      contradiction

/-- A moved instruction with its fix made is what the second pass writes. -/
theorem resolved_written (aligned : site.outrx % 4 = 0) (mapped : site.outrw % 4 = 0)
    (few : site.count ≤ MaxReferences) (bound : k < site.count) :
    resolveChunk (finish site) site.label site.count (site.layout k) (site.moved k).chunk =
      site.written site.recorded k := by
  have spot : site.spot k = ⟨k, site.layout k⟩ := by rw [Site.spot, position_layout few bound.le]
  unfold Site.written
  rw [Site.moved, spot]
  cases named : site.named k with
  | none =>
      have still : (site.laid k).chunk.ref = none := by
        cases refers : (site.laid k).chunk.ref with
        | none => rfl
        | some forward =>
            have names := (emission_forward refers).2.2
            rw [named] at names
            contradiction
      have same : emission site site.label ⟨k, site.layout k⟩ = site.laid k := by
        refine emission_congr fun target names _ => ?_
        rw [named] at names
        contradiction
      rw [resolveChunk, same, still]
  | some target =>
      obtain ⟨absolute, reference, inside, index, shape⟩ := @emission_named site ⟨k, site.layout k⟩ target named
      have known := label_recorded few (named_lt named)
      rw [shape]
      simp only [near, displacement, if_pos inside, index]
      by_cases back : target ≤ k
      · have self : site.label k = (⟨k, site.layout k⟩ : Spot).here site := by
          rw [label_recorded few bound, Site.recorded, Site.laid, shape]
          rfl
        rw [if_pos back, ← self, Function.update_eq_self, known]
        rfl
      · have multiple := recorded_aligned aligned mapped target
        have place := here_aligned aligned ⟨k, site.layout k⟩
        rw [if_neg back]
        simp only [resolveChunk, Option.map_some, if_pos (named_lt named), List.modifyHead_cons]
        rw [known, @finish_named site ⟨k, site.layout k⟩ target named _ (by omega)]

/-- One pass and its fixes come to the same words. -/
theorem fixLoop_out (aligned : site.outrx % 4 = 0) (mapped : site.outrw % 4 = 0)
    (few : site.count ≤ MaxReferences) : (fixLoop site site.count {}).out = site.assemble site.recorded := by
  obtain ⟨emissions, length, moved, _, _, out, _⟩ := moved_layout few
  have listed : chunks emissions = (List.range site.count).map fun k => (site.moved k).chunk := by
    apply List.ext_getElem
    · rw [chunks_length, length, List.length_map, List.length_range]
    · intro k _ _
      simp only [chunks, List.getElem_map, List.getElem_range, moved k]
  have next : ∀ k < site.count, site.layout (k + 1) = site.layout k + (site.moved k).chunk.words.length := by
    intro k bound
    rw [← position_layout few bound.le, ← position_layout few bound, position_succ few bound]
  rw [out, listed, @resolve_range _ _ _ _ _ site.layout _ _ rfl next]
  exact List.flatMap_congr fun k bound => resolved_written aligned mapped few (List.mem_range.mp bound)

/-- One pass with its fixes comes to what an assembler writes that has laid out the
block before, with the addresses moved to unless an ADRP is named.  Every fix has
been made, and the words are few. -/
theorem fixLoop_two_pass (aligned : site.outrx % 4 = 0) (mapped : site.outrw % 4 = 0)
    (few : site.count ≤ MaxInstructions) :
    (fixLoop site site.count {}).out = site.assemble site.recorded ∧
      (∀ k < site.count, site.label k = site.recorded k) ∧
      (∀ k, ¬ site.IsAdrp k → site.recorded k = site.address k) ∧
      (∀ k, ∃ pad words, (site.laid k).chunk.words =
          List.replicate pad Aarch64Nop ++ words ∧ site.address k = site.outrx + 4 * (site.layout k + pad)) ∧
      ((∀ k < site.count, ∀ target, site.named k = some target → ¬ site.IsAdrp target) →
        (fixLoop site site.count {}).out = site.assemble site.address) ∧
      (∀ idx, ((fixLoop site site.count {}).dat idx).fmap = []) ∧
      (fixBlock site).out.length ≤ 9 * site.count + 5 := by
  have room : site.count ≤ MaxReferences := few.trans (by decide)
  obtain ⟨_, _, _, _, _, _, _, none⟩ := moved_layout room
  refine ⟨fixLoop_out aligned mapped room, fun k bound => label_recorded room bound, fun k => recorded_address,
    address_moved site, fun others => ?_, none, fixBlock_length aligned room⟩
  rw [fixLoop_out aligned mapped room]
  exact List.flatMap_congr fun k bound => written_congr fun target named =>
    recorded_address (others k (List.mem_range.mp bound) target named)

/-- `B #12; ADRP X0, #0x1000; NOP; CBZ X0, #4; B #-4`, far from the trampoline. -/
def loopSite : Site where
  basep := 0x1000
  count := 5
  outrx := 0x40000000
  outrw := 0x80000000
  memory place :=
    if place = 0x1000 then 0x14000003#32
    else if place = 0x1004 then 0xb0000000#32
    else if place = 0x100c then 0xb4000020#32
    else if place = 0x1010 then 0x17ffffff#32
    else Aarch64Nop

theorem fixLoop_two_pass_loop :
    (fixLoop loopSite 5 {}).out = loopSite.assemble loopSite.address ∧
      (fixLoop loopSite 5 {}).out =
        [0x14000007#32, Aarch64Nop, 0x58000040#32, 0x14000003#32, 0x2000#32, 0#32, Aarch64Nop, 0xb4000020#32,
          0x17ffffff#32] := by
  obtain ⟨_, _, _, _, same, _⟩ := fixLoop_two_pass (show loopSite.outrx % 4 = 0 by decide) (by decide) (by decide)
  have others : ∀ k < loopSite.count, ∀ target, loopSite.named k = some target → ¬ loopSite.IsAdrp target := by decide
  exact ⟨same others, by decide⟩

end Smmboss.Hook
