import Smmboss.Hook.Emissions

namespace Smmboss.Hook

open Aarch64 Backpatch

/-! # The one pass agrees with the two -/

/-- Where the words of a moved instruction begin. -/
def Site.position (site : Site) (k : Nat) : Nat := (fixLoop site k {}).out.length

def Site.entry (site : Site) (k : Nat) : Int := site.outrx + 4 * site.position k

/-- The address a branch to a moved instruction goes to. -/
def Site.label (site : Site) : Nat → Int := (fixLoop site site.count {}).labels

def Site.spot (site : Site) (k : Nat) : Spot := ⟨k, site.position k⟩

def Site.moved (site : Site) (k : Nat) : Emission := emission site site.label (site.spot k)

variable {site : Site} {fixer : Fixer} {emissions : List Emission} {laid : Emission}

def chunks (emissions : List Emission) : List (Chunk Word FixKind) := emissions.map Emission.chunk

@[simp] theorem chunks_append (first second : List Emission) :
    chunks (first ++ second) = chunks first ++ chunks second :=
  List.map_append

@[simp] theorem chunks_length : (chunks emissions).length = emissions.length := List.length_map ..

@[simp] theorem chunks_singleton : chunks [laid] = [laid.chunk] := rfl

/-! ### What one emission leaves behind -/

theorem labels_refer (fixer : Fixer) (reference : Option (Nat × FixKind)) :
    (fixer.refer reference).labels = fixer.labels := by
  funext idx
  cases reference with
  | none => rfl
  | some entry =>
      simp only [Fixer.refer, Fixer.insertFixMap, Fixer.labels]
      split
      · by_cases same : idx = entry.1
        · subst same
          simp
        · simp [same]
      · rfl

theorem index_refer (fixer : Fixer) (reference : Option (Nat × FixKind)) :
    (fixer.refer reference).index = fixer.index := by
  cases reference with
  | none => rfl
  | some entry =>
      simp only [Fixer.refer, Fixer.insertFixMap]
      split <;> rfl

theorem labels_processFixMap (fixer : Fixer) (idx : Nat) :
    (fixer.processFixMap site idx).labels = fixer.labels := by
  funext other
  by_cases same : other = idx
  · subst same
    simp [Fixer.labels, Fixer.processFixMap]
  · simp [Fixer.labels, Fixer.processFixMap, same]

theorem labels_place (site : Site) (fixer : Fixer) (laid : Emission) :
    (fixer.place site laid).labels = Function.update fixer.labels fixer.index laid.label := by
  have reset : (fixer.resetCurrentIns fixer.index laid.label).labels =
      Function.update fixer.labels fixer.index laid.label :=
    funext fun idx => labels_resetCurrentIns fixer fixer.index laid.label idx
  rw [Fixer.place, labels_processFixMap, ← reset]
  exact labels_refer _ laid.chunk.ref

/-- The fixes that wait for an instruction, as the entries of the library. -/
def Fixer.entries (fixer : Fixer) (idx : Nat) : List (Nat × FixKind) := (fixer.dat idx).fmap.map FixInfo.entry

theorem entries_place_current (site : Site) (fixer : Fixer) (laid : Emission) :
    (fixer.place site laid).entries fixer.index = [] := by
  simp [Fixer.entries, Fixer.place, Fixer.processFixMap]

theorem entries_refer {idx : Nat} {reference : Option (Nat × FixKind)}
    (room : ∀ idx, (fixer.dat idx).fmap.length < MaxReferences) :
    (fixer.refer reference).entries idx = fixer.entries idx ++ waits idx fixer.out.length reference := by
  cases reference with
  | none => simp [Fixer.refer, waits]
  | some entry =>
      obtain ⟨wanted, kind⟩ := entry
      simp only [Fixer.refer, Fixer.insertFixMap, Fixer.entries, room wanted, if_true]
      by_cases same : wanted = idx
      · subst same
        simp [FixInfo.entry, waits]
      · simp [waits, same, Ne.symm same]

theorem dat_reset_fmap (fixer : Fixer) (idx : Nat) (outp : Int) (other : Nat) :
    ((fixer.resetCurrentIns idx outp).dat other).fmap = (fixer.dat other).fmap := by
  by_cases same : other = idx
  · subst same
    simp [Fixer.resetCurrentIns]
  · simp [Fixer.resetCurrentIns, same]

/-- The state after some instructions: their words with every label known so far,
and a fix for every reference to a label that is not. -/
structure Placed (site : Site) (emissions : List Emission) (fixer : Fixer) : Prop where
  index : fixer.index = emissions.length
  labels : ∀ k (bound : k < emissions.length), fixer.labels k = emissions[k].label
  out : fixer.out = resolve (finish site) fixer.labels emissions.length 0 (chunks emissions)
  entries : ∀ idx, fixer.entries idx = if idx < emissions.length then [] else waiting idx 0 (chunks emissions)
  sound : ∀ laid ∈ emissions, laid.chunk.Sound
  forward : ∀ k (bound : k < emissions.length), ∀ target kind,
    emissions[k].chunk.ref = some (target, kind) → k < target ∧ target < site.count

theorem Placed.initial (site : Site) : Placed site [] {} where
  index := rfl
  labels := by simp
  out := rfl
  entries := by simp [Fixer.entries, chunks, waiting]
  sound := by simp
  forward := by simp

theorem Placed.chunks_sound (placed : Placed site emissions fixer) :
    ∀ chunk ∈ chunks emissions, chunk.Sound := by
  intro chunk member
  obtain ⟨laid, atLaid, rfl⟩ := List.mem_map.mp member
  exact placed.sound laid atLaid

theorem Placed.out_length (placed : Placed site emissions fixer) : fixer.out.length = size (chunks emissions) := by
  rw [placed.out, resolve_length]

theorem Placed.room (placed : Placed site emissions fixer) (few : emissions.length < MaxReferences) (idx : Nat) :
    (fixer.dat idx).fmap.length < MaxReferences := by
  have same := congrArg List.length (placed.entries idx)
  rw [Fixer.entries, List.length_map] at same
  rw [same]
  split
  · exact Nat.lt_of_le_of_lt (Nat.zero_le _) few
  · exact Nat.lt_of_le_of_lt (waiting_length_le _) (by rwa [chunks_length])

/-- The fixes of the instruction to come are in what is written. -/
theorem Placed.earlier (placed : Placed site emissions fixer) :
    ∀ fix ∈ (fixer.dat fixer.index).fmap, fix.bpr < fixer.out.length := by
  intro fix member
  have entry : fix.entry ∈ fixer.entries fixer.index := List.mem_map_of_mem member
  rw [placed.entries, placed.index, if_neg (Nat.lt_irrefl _)] at entry
  have bound := waiting_lt placed.chunks_sound _ entry
  rw [placed.out_length]
  simpa [FixInfo.entry] using bound

theorem entries_place_later (room : ∀ idx, (fixer.dat idx).fmap.length < MaxReferences) {idx : Nat}
    (other : idx ≠ fixer.index) :
    (fixer.place site laid).entries idx = fixer.entries idx ++ waits idx fixer.out.length laid.chunk.ref := by
  let fixer' := fixer.resetCurrentIns fixer.index laid.label
  have room' : ∀ idx, (fixer'.dat idx).fmap.length < MaxReferences := by
    intro idx
    rw [dat_reset_fmap]
    exact room idx
  have kept : fixer'.entries idx = fixer.entries idx := by
    rw [Fixer.entries, Fixer.entries, dat_reset_fmap]
  rw [← kept]
  refine Eq.trans ?_ (entries_refer room' : (fixer'.refer laid.chunk.ref).entries idx = _)
  simp only [Fixer.place, Fixer.entries, Fixer.processFixMap, Function.update_of_ne other]
  rfl

theorem out_place (room : ∀ idx, (fixer.dat idx).fmap.length < MaxReferences)
    (forward : ∀ target kind, laid.chunk.ref = some (target, kind) → target ≠ fixer.index) :
    (fixer.place site laid).out =
      (fixer.entries fixer.index).foldl (patch (finish site) laid.label) (fixer.out ++ laid.chunk.words) := by
  let fixer' := fixer.resetCurrentIns fixer.index laid.label
  have room' : ∀ idx, (fixer'.dat idx).fmap.length < MaxReferences := by
    intro idx
    rw [dat_reset_fmap]
    exact room idx
  have kept : (fixer'.refer laid.chunk.ref).entries fixer.index = fixer.entries fixer.index := by
    rw [entries_refer room', Fixer.entries, dat_reset_fmap, ← Fixer.entries]
    cases atRef : laid.chunk.ref with
    | none => simp [waits]
    | some reference =>
        obtain ⟨target, kind⟩ := reference
        simp [waits, forward target kind atRef]
  have label : ((fixer'.refer laid.chunk.ref).dat fixer.index).ins = laid.label := by
    have same := congrFun (labels_refer fixer' laid.chunk.ref) fixer.index
    rw [Fixer.labels, Fixer.labels, labels_resetCurrentIns, Function.update_self] at same
    exact same
  have written : (fixer'.refer laid.chunk.ref).out = fixer.out := by
    cases laid.chunk.ref with
    | none => rfl
    | some reference =>
        simp only [Fixer.refer, Fixer.insertFixMap]
        split <;> rfl
  have placed : (fixer.place site laid).out =
      ((fixer'.refer laid.chunk.ref).entries fixer.index).foldl
        (patch (finish site) ((fixer'.refer laid.chunk.ref).dat fixer.index).ins)
        ((fixer'.refer laid.chunk.ref).out ++ laid.chunk.words) := processFixMap_out _ _
  rw [placed, kept, label, written]

theorem Placed.place (placed : Placed site emissions fixer) (few : emissions.length < MaxReferences)
    (sound : laid.chunk.Sound)
    (forward : ∀ target kind, laid.chunk.ref = some (target, kind) → fixer.index < target ∧ target < site.count) :
    Placed site (emissions ++ [laid]) (fixer.place site laid) := by
  have room := placed.room few
  have other : ∀ target kind, laid.chunk.ref = some (target, kind) → target ≠ fixer.index := fun target kind atRef =>
    (forward target kind atRef).1.ne'
  have before : ∀ k < emissions.length, (fixer.place site laid).labels k = fixer.labels k := by
    intro k bound
    rw [labels_place, Function.update_of_ne (by rw [placed.index]; exact bound.ne)]
  have current : (fixer.place site laid).labels emissions.length = laid.label := by
    rw [labels_place, placed.index, Function.update_self]
  refine ⟨?_, ?_, ?_, ?_, ?_, ?_⟩
  · rw [List.length_append, List.length_singleton, ← placed.index]
    exact congrArg (· + 1) (index_refer _ laid.chunk.ref)
  · intro k bound
    rw [List.length_append, List.length_singleton] at bound
    rcases Nat.lt_succ_iff_lt_or_eq.mp bound with earlier | rfl
    · rw [before k earlier, placed.labels k earlier, List.getElem_append_left earlier]
    · rw [current, List.getElem_append_right (Nat.le_refl _)]
      simp
  · rw [out_place room other, placed.entries, placed.index, if_neg (Nat.lt_irrefl _), placed.out, ← current]
    have inside : ∀ entry ∈ waiting emissions.length 0 (chunks emissions),
        entry.1 < (resolve (finish site) fixer.labels emissions.length 0 (chunks emissions)).length := by
      intro entry member
      have bound := waiting_lt placed.chunks_sound entry member
      rw [resolve_length]
      omega
    rw [patch_append inside]
    rw [resolve_congr fun _ _ target _ _ bound => (before target bound).symm]
    have patched := patch_waiting (finish site) (fixer.place site laid).labels emissions.length []
      placed.chunks_sound
    simp only [List.length_nil, List.nil_append] at patched
    rw [patched, chunks_append, resolve_append, List.length_append, List.length_singleton, chunks_singleton]
    congr 1
    simp only [resolve, resolveChunk, List.append_nil]
    split
    · next target kind atRef =>
        have later := (forward target kind atRef).1
        rw [placed.index] at later
        rw [if_neg (by omega)]
    · rfl
  · intro idx
    rw [List.length_append, List.length_singleton, chunks_append, waiting_append, chunks_singleton]
    by_cases same : idx = fixer.index
    · subst same
      rw [entries_place_current, placed.index, if_pos (Nat.lt_succ_self _)]
    · rw [entries_place_later room same, placed.entries]
      by_cases done : idx < emissions.length
      · rw [if_pos done, if_pos (by omega)]
        cases atRef : laid.chunk.ref with
        | none => rfl
        | some reference =>
            have later := (forward reference.1 reference.2 atRef).1
            rw [placed.index] at later
            exact if_neg (by omega)
      · rw [placed.index] at same
        rw [if_neg done, if_neg (by omega), placed.out_length]
        simp only [waiting, List.append_nil, Nat.zero_add]
  · intro other member
    rcases List.mem_append.mp member with earlier | last
    · exact placed.sound other earlier
    · rw [List.mem_singleton.mp last]
      exact sound
  · intro k bound target kind atRef
    rw [List.length_append, List.length_singleton] at bound
    rcases Nat.lt_succ_iff_lt_or_eq.mp bound with earlier | rfl
    · rw [List.getElem_append_left earlier] at atRef
      exact placed.forward k earlier target kind atRef
    · rw [List.getElem_append_right (Nat.le_refl _)] at atRef
      rw [← placed.index]
      exact forward target kind (by simpa using atRef)

/-! ### What an emission refers to -/

variable {label other : Nat → Int} {spot : Spot}

/-- The moved instruction that a displacement names. -/
def Site.named (site : Site) (k : Nat) : Option Nat :=
  let spot : Spot := ⟨k, 0⟩
  let index (absolute reference : Int) : Option Nat :=
    if site.isInFixingRange absolute then some (site.getRefInsIndex reference) else none
  match classify (spot.ins site) with
  | .branch => index (branchTarget site spot) (branchTarget site spot)
  | .test lmask => index (testTarget site spot lmask) (testTarget site spot lmask)
  | .adr => index (adrTarget site spot) (adrTarget site spot - adrTarget site spot % 4)
  | _ => none

/-- An emission stands by itself, or is one word with a displacement in it. -/
theorem emission_shape (site : Site) (spot : Spot) :
    (∃ laid : Emission, laid.chunk.ref = none ∧ ∀ label, emission site label spot = laid) ∨
      ∃ absolute reference kind encode, reference ≤ absolute ∧
        (site.isInFixingRange absolute = true → site.named spot.index = some (site.getRefInsIndex reference)) ∧
        ∀ label, emission site label spot = near site label spot absolute reference kind encode := by
  have word : spot.ins site = (⟨spot.index, 0⟩ : Spot).ins site := rfl
  unfold emission Site.named
  dsimp only
  rw [← word]
  cases classify (spot.ins site) with
  | branch =>
      simp only [branchEmission]
      split
      · left
        split <;> exact ⟨_, rfl, fun _ => rfl⟩
      · exact .inr ⟨_, _, _, _, Int.le_refl _, fun inside => if_pos inside, fun _ => rfl⟩
  | test lmask =>
      simp only [testEmission]
      split
      · exact .inl ⟨_, rfl, fun _ => rfl⟩
      · exact .inr ⟨_, _, _, _, Int.le_refl _, fun inside => if_pos inside, fun _ => rfl⟩
  | prefetch => exact .inl ⟨_, rfl, fun _ => rfl⟩
  | load mask faligned =>
      left
      simp only [loadEmission]
      split <;> exact ⟨_, rfl, fun _ => rfl⟩
  | adr =>
      simp only [adrEmission]
      split
      · exact .inl ⟨_, rfl, fun _ => rfl⟩
      · exact .inr ⟨_, _, _, _, Int.sub_le_self _ (Int.emod_nonneg _ (by decide)), fun inside => if_pos inside, fun _ => rfl⟩
  | adrp =>
      left
      simp only [adrpEmission]
      split <;> exact ⟨_, rfl, fun _ => rfl⟩
  | plain => exact .inl ⟨_, rfl, fun _ => rfl⟩

/-- The size of an emission and its address are known before any label is. -/
theorem emission_fixed (site : Site) (label other : Nat → Int) (spot : Spot) :
    (emission site label spot).label = (emission site other spot).label ∧
      (emission site label spot).chunk.words.length = (emission site other spot).chunk.words.length := by
  rcases emission_shape site spot with ⟨laid, _, same⟩ | ⟨_, _, _, _, _, _, same⟩
  · rw [same, same]
    exact ⟨rfl, rfl⟩
  · rw [same, same]
    exact ⟨rfl, rfl⟩

theorem isInFixingRange_iff {absolute : Int} : site.isInFixingRange absolute = true ↔
    site.basep ≤ absolute ∧ absolute < site.basep + 4 * site.count := by
  rw [Site.isInFixingRange, Bool.and_eq_true, decide_eq_true_eq, decide_eq_true_eq, Site.endp]

theorem emission_sound (site : Site) (label : Nat → Int) (spot : Spot) :
    (emission site label spot).chunk.Sound := by
  rcases emission_shape site spot with ⟨laid, still, same⟩ | ⟨absolute, reference, kind, encode, _, _, same⟩
  · rw [same]
    intro refers
    rw [still] at refers
    contradiction
  · rw [same]
    intro _
    exact List.cons_ne_nil _ _

theorem named_lt {k target : Nat} (named : site.named k = some target) : target < site.count := by
  have reached {absolute reference : Int} (below : reference ≤ absolute)
      (index : (if site.isInFixingRange absolute then some (site.getRefInsIndex reference) else none) = some target) :
      target < site.count := by
    split at index
    · next inside =>
        have bounds := isInFixingRange_iff.mp inside
        obtain rfl := Option.some.inj index
        simp only [Site.getRefInsIndex]
        omega
    · contradiction
  unfold Site.named at named
  dsimp only at named
  split at named
  · exact reached (Int.le_refl _) named
  · exact reached (Int.le_refl _) named
  · exact reached (Int.sub_le_self _ (Int.emod_nonneg _ (by decide))) named
  · contradiction

/-- Every reference is to the named instruction, a later one that is moved too. -/
theorem emission_forward {target : Nat} {kind : FixKind}
    (refers : (emission site label spot).chunk.ref = some (target, kind)) :
    spot.index < target ∧ target < site.count ∧ site.named spot.index = some target := by
  rcases emission_shape site spot with ⟨laid, still, same⟩ | ⟨absolute, reference, kind, encode, below, named, same⟩
  · rw [same, still] at refers
    contradiction
  · rw [same] at refers
    simp only [near, displacement] at refers
    by_cases inside : site.isInFixingRange absolute = true
    · rw [if_pos inside] at refers
      by_cases back : site.getRefInsIndex reference ≤ spot.index
      · rw [if_pos back] at refers
        contradiction
      · rw [if_neg back] at refers
        simp only [Option.map_some, Option.some.injEq, Prod.mk.injEq] at refers
        obtain ⟨rfl, _⟩ := refers
        have bounds := isInFixingRange_iff.mp inside
        refine ⟨by omega, ?_, named inside⟩
        simp only [Site.getRefInsIndex] at back ⊢
        omega
    · rw [if_neg inside] at refers
      contradiction

/-- Only the label of the instruction that is named matters, if it is an earlier one. -/
theorem emission_congr
    (same : ∀ target, site.named spot.index = some target → target < spot.index → label target = other target) :
    emission site label spot = emission site other spot := by
  rcases emission_shape site spot with ⟨laid, _, still⟩ | ⟨absolute, reference, kind, encode, _, named, shape⟩
  · rw [still, still]
  · have displaced : displacement site label spot absolute reference =
        displacement site other spot absolute reference := by
      unfold displacement
      split
      · next inside =>
          split
          · next back =>
              congr 2
              by_cases self : site.getRefInsIndex reference = spot.index
              · rw [self, Function.update_self, Function.update_self]
              · rw [Function.update_of_ne self, Function.update_of_ne self, same _ (named inside) (by omega)]
          · rfl
      · rfl
    rw [shape, shape, near, near, displaced]

/-! ### The loop -/

theorem place_fixInstruction (placed : Placed site emissions fixer) (few : emissions.length < MaxReferences) :
    Placed site (emissions ++ [emission site fixer.labels fixer.spot]) (fixInstruction site fixer) := by
  rw [fixInstruction_eq placed.earlier]
  exact placed.place few (emission_sound _ _ _) fun _ _ refers =>
    ⟨(emission_forward refers).1, (emission_forward refers).2.1⟩

/-- Every emission is the one for its place. -/
def Laid (site : Site) (label : Nat → Int) (emissions : List Emission) : Prop :=
  ∀ k (bound : k < emissions.length),
    emissions[k] = emission site label ⟨k, size (chunks (emissions.take k))⟩

theorem Laid.congr (done : Laid site label emissions) (same : ∀ k < emissions.length, label k = other k) :
    Laid site other emissions := by
  intro k bound
  rw [done k bound]
  exact emission_congr fun earlier _ below => same earlier (Nat.lt_trans below bound)

theorem laid_fixInstruction (placed : Placed site emissions fixer) (done : Laid site fixer.labels emissions) :
    Laid site (fixInstruction site fixer).labels (emissions ++ [emission site fixer.labels fixer.spot]) := by
  have labels : (fixInstruction site fixer).labels =
      Function.update fixer.labels emissions.length (emission site fixer.labels fixer.spot).label := by
    rw [fixInstruction_eq placed.earlier, labels_place, placed.index]
  have before : ∀ k < emissions.length, fixer.labels k = (fixInstruction site fixer).labels k := by
    intro k bound
    rw [labels, Function.update_of_ne bound.ne]
  intro k bound
  rw [List.length_append, List.length_singleton] at bound
  rcases Nat.lt_succ_iff_lt_or_eq.mp bound with earlier | rfl
  · rw [List.getElem_append_left earlier, List.take_append_of_le_length earlier.le]
    exact done.congr before k earlier
  · rw [List.getElem_append_right (Nat.le_refl _), List.take_append_of_le_length (Nat.le_refl _), List.take_length]
    have spot : fixer.spot = ⟨emissions.length, size (chunks emissions)⟩ := by
      rw [Fixer.spot, placed.index, placed.out_length]
    simp only [Nat.sub_self, List.getElem_cons_zero, spot]
    exact emission_congr fun earlier _ below => before earlier below

theorem fixLoop_placed (few : emissions.length + count ≤ MaxReferences) (placed : Placed site emissions fixer)
    (done : Laid site fixer.labels emissions) :
    ∃ later : List Emission, later.length = count ∧
      Placed site (emissions ++ later) (fixLoop site count fixer) ∧
      Laid site (fixLoop site count fixer).labels (emissions ++ later) ∧
      ∀ turns ≤ count,
        (fixLoop site turns fixer).out.length = size (chunks emissions) + size (chunks (later.take turns)) := by
  induction count generalizing emissions fixer with
  | zero =>
      refine ⟨[], rfl, by simpa [fixLoop] using placed, by simpa [fixLoop] using done, ?_⟩
      intro turns none
      rw [Nat.le_zero.mp none, fixLoop, placed.out_length]
      rfl
  | succ count ih =>
      have more : (emissions ++ [emission site fixer.labels fixer.spot]).length + count ≤ MaxReferences := by
        rw [List.length_append, List.length_singleton]
        omega
      obtain ⟨later, length, placed', done', sizes⟩ :=
        ih more (place_fixInstruction placed (by omega)) (laid_fixInstruction placed done)
      refine ⟨emission site fixer.labels fixer.spot :: later, by simp [length],
        by simpa [fixLoop] using placed', by simpa [fixLoop] using done', ?_⟩
      intro turns within
      cases turns with
      | zero =>
          rw [fixLoop, placed.out_length]
          rfl
      | succ turns =>
          rw [fixLoop, sizes turns (by omega), chunks_append, size_append, Nat.add_assoc]
          rfl

/-- The moved instructions, with every fix made: the words of an assembler that
knows all the labels before it begins. -/
theorem moved_layout (few : site.count ≤ MaxReferences) :
    ∃ emissions : List Emission, emissions.length = site.count ∧
      (∀ k (bound : k < emissions.length), emissions[k] = site.moved k) ∧
      (∀ k < site.count, site.label k = (site.moved k).label) ∧
      (∀ k ≤ site.count, site.position k = size (chunks (emissions.take k))) ∧
      (fixLoop site site.count {}).out = resolve (finish site) site.label site.count 0 (chunks emissions) ∧
      (fixLoop site site.count {}).index = site.count ∧
      ∀ idx, ((fixLoop site site.count {}).dat idx).fmap = [] := by
  obtain ⟨emissions, length, placed, done, sizes⟩ :=
    fixLoop_placed (show ([] : List Emission).length + site.count ≤ MaxReferences by simpa using few)
      (Placed.initial site) fun k bound => by simp at bound
  simp only [List.nil_append] at placed done
  have position : ∀ k ≤ site.count, site.position k = size (chunks (emissions.take k)) := by
    intro k within
    rw [Site.position, sizes k within]
    exact Nat.zero_add _
  have moved : ∀ k (bound : k < emissions.length), emissions[k] = site.moved k := by
    intro k bound
    rw [done k bound, Site.moved, Site.spot, position k (by omega)]
    rfl
  refine ⟨emissions, length, moved, ?_, position, ?_, placed.index.trans length, ?_⟩
  · intro k bound
    rw [← moved k (by omega), Site.label, placed.labels k (by omega)]
  · rw [placed.out, length]
    rfl
  · intro idx
    have entries := placed.entries idx
    rw [length] at entries
    have none : (fixLoop site site.count {}).entries idx = [] := by
      rw [entries]
      split
      · rfl
      · next later =>
          refine waiting_eq_nil fun chunk member wanted kind refers => ?_
          obtain ⟨laid, atLaid, rfl⟩ := List.mem_map.mp member
          obtain ⟨k, bound, rfl⟩ := List.getElem_of_mem atLaid
          have inside := (placed.forward k bound wanted kind refers).2
          omega
    exact List.map_eq_nil_iff.mp none

theorem position_succ {k : Nat} (few : site.count ≤ MaxReferences) (bound : k < site.count) :
    site.position (k + 1) = site.position k + (site.moved k).chunk.words.length := by
  obtain ⟨emissions, length, moved, _, position, _⟩ := moved_layout few
  have inside : k < emissions.length := by omega
  rw [position k (by omega), position (k + 1) (by omega), List.take_succ_eq_append_getElem inside, chunks_append,
    size_append, moved k inside]
  rfl

theorem label_moved {k : Nat} (few : site.count ≤ MaxReferences) (bound : k < site.count) :
    site.label k = (site.moved k).label := by
  obtain ⟨_, _, _, labels, _⟩ := moved_layout few
  exact labels k bound

end Smmboss.Hook
