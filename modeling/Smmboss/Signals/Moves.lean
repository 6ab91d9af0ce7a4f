import Smmboss.Signals.Graph

namespace Smmboss.Signals

/-! # The moves on a heap

What each assignment and each change of a link set keeps.
-/

namespace LinkSet

theorem getElem?_delete {links : LinkSet} {link other : LinkId} {index : Nat} :
    (links.delete link)[index]? = some (some other) ↔
      links[index]? = some (some other) ∧ other ≠ link := by
  rw [delete, List.getElem?_map, Option.map_eq_some_iff]
  constructor
  · rintro ⟨entry, found, same⟩
    split at same
    · cases same
    · rename_i kept
      rw [same] at found kept
      exact ⟨found, fun equal => kept (congrArg some equal)⟩
  · rintro ⟨found, different⟩
    refine ⟨some other, found, if_neg ?_⟩
    exact fun equal => different (Option.some_inj.mp equal)

theorem mem_delete {links : LinkSet} {link other : LinkId} :
    some other ∈ links.delete link ↔ some other ∈ links ∧ other ≠ link := by
  rw [List.mem_iff_getElem?, List.mem_iff_getElem?]
  simp only [getElem?_delete, exists_and_right]

theorem length_delete (links : LinkSet) (link : LinkId) :
    (links.delete link).length = links.length := List.length_map _

end LinkSet

namespace Heap

variable {V E : Type} {heap : Heap V E}

theorem mem_linksIn_kill {signal : SignalId} {link other : LinkId} :
    some other ∈ (heap.kill link).linksIn signal →
      some other ∈ heap.linksIn signal := by
  simp only [kill, Function.update_apply]
  split
  · rename_i same
    rw [same]
    exact fun member => (LinkSet.mem_delete.mp member).1
  · exact id

theorem linksIn_kill {signal : SignalId} {link : LinkId}
    (other : signal ≠ (heap.link link).target) :
    (heap.kill link).linksIn signal = heap.linksIn signal := Function.update_of_ne other _ _

theorem live_kill {link other : LinkId} :
    (heap.kill link).Live other ↔ heap.Live other ∧ other ≠ link := by
  simp only [Live, kill]
  by_cases same : (heap.link other).target = (heap.link link).target
  · rw [same, Function.update_self, LinkSet.mem_delete]
  · rw [Function.update_of_ne same]
    constructor
    · intro member
      exact ⟨member, fun equal => same (by rw [equal])⟩
    · exact And.left

theorem getElem?_linksOut_kill {signal : SignalId} {link other : LinkId} {index : Nat} :
    ((heap.kill link).linksOut signal)[index]? = some (some other) →
      (heap.linksOut signal)[index]? = some (some other) ∧
        ((heap.link other).source = signal → other ≠ link) := by
  simp only [kill, Function.update_apply]
  split
  · rename_i same
    rw [LinkSet.getElem?_delete, same]
    exact fun found => ⟨found.1, fun _ => found.2⟩
  · rename_i different
    intro found
    refine ⟨found, fun source equal => different ?_⟩
    rw [← source, equal]

theorem getElem?_linksOut_kill_of {signal : SignalId} {link other : LinkId} {index : Nat}
    (found : (heap.linksOut signal)[index]? = some (some other)) (different : other ≠ link) :
    ((heap.kill link).linksOut signal)[index]? = some (some other) := by
  simp only [kill, Function.update_apply]
  split
  · rename_i same
    rw [LinkSet.getElem?_delete, ← same]
    exact ⟨found, different⟩
  · exact found

theorem length_linksOut_kill (signal : SignalId) (link : LinkId) :
    ((heap.kill link).linksOut signal).length = (heap.linksOut signal).length := by
  simp only [kill, Function.update_apply]
  split
  · rename_i same
    rw [LinkSet.length_delete, same]
  · rfl

theorem names_killAll (links : LinkSet) :
    ∀ {heap : Heap V E}, (heap.killAll links).names = heap.names := by
  induction links with
  | nil => exact rfl
  | cons entry links ih =>
      intro heap
      cases entry with
      | none => exact ih
      | some link => exact @ih (heap.kill link)

end Heap

namespace Graph

variable {V E : Type} {base : Nat → Ordinal.{0}} {graph : Graph V E}

def assign (graph : Graph V E) (signal : SignalId) (held : Held V E) : Graph V E :=
  { graph with heap := graph.heap.assign signal held }

def setForwardingLink (graph : Graph V E) (signal : SignalId) (link : Option LinkId) :
    Graph V E :=
  { graph with heap := graph.heap.setForwardingLink signal link }

def kill (graph : Graph V E) (link : LinkId) : Graph V E :=
  { graph with heap := graph.heap.kill link }

def newSignal (graph : Graph V E) (value : V) (level : Ordinal.{0}) (const : Option V) :
    Graph V E where
  heap := graph.heap.newSignal value
  level := Function.update graph.level graph.heap.signals level
  height := graph.height
  const := Function.update graph.const graph.heap.signals const

def addLink (graph : Graph V E) (source : SignalId) (update : Update V)
    (height : Ordinal.{0}) : Graph V E :=
  { graph with
    heap := graph.heap.addLink source update
    height := Function.update graph.height graph.heap.links height }

/-! ## What a signal holds -/

theorem held_assign (signal : SignalId) (held : Held V E) :
    (graph.assign signal held).heap.held signal = held := Function.update_self ..

theorem held_assign_of_ne {signal other : SignalId} (different : other ≠ signal)
    (held : Held V E) :
    (graph.assign signal held).heap.held other = graph.heap.held other :=
  Function.update_of_ne different ..

theorem Valid.assign (valid : graph.Valid base) {signal : SignalId} {held : Held V E}
    (allowed : graph.const signal = none ∨ ∃ exception, held = .exception exception) :
    (graph.assign signal held).Valid base where
  out := valid.out
  live := valid.live
  into := valid.into
  ends := valid.ends
  sole := valid.sole
  forwarding := valid.forwarding
  names := valid.names
  heights := valid.heights
  const := by
    intro other value found
    obtain ⟨known, noLink, holds⟩ := valid.const found
    refine ⟨known, noLink, ?_⟩
    by_cases same : other = signal
    · subst same
      rcases allowed with plain | ⟨exception, rfl⟩
      · rw [show graph.const other = some value from found] at plain
        cases plain
      · exact Or.inr ⟨exception, held_assign other _⟩
    · rw [Heap.Rejected, held_assign_of_ne same]
      exact holds

theorem evolves_assign {signal : SignalId} {held : Held V E} {value : V}
    (alive : graph.heap.held signal = .value value) :
    Evolves (· = signal) graph (graph.assign signal held) :=
  { @Evolves.refl _ _ (· = signal) graph with
    frozen := by
      intro other exception _ holds
      have different : other ≠ signal := by
        rintro rfl
        rw [alive] at holds
        cases holds
      rw [held_assign_of_ne different, holds]
    kept := fun _ live _ => Or.inl live
    same := fun _ untouched => ⟨held_assign_of_ne untouched held, rfl, rfl⟩ }

/-! ## The variable of `bind` -/

theorem forwardingLink_setForwardingLink (signal : SignalId) (link : Option LinkId) :
    (graph.setForwardingLink signal link).heap.forwardingLink signal = link :=
  Function.update_self ..

theorem forwardingLink_setForwardingLink_of_ne {signal other : SignalId}
    (different : other ≠ signal) (link : Option LinkId) :
    (graph.setForwardingLink signal link).heap.forwardingLink other =
      graph.heap.forwardingLink other := Function.update_of_ne different ..

theorem Valid.setForwardingLink (valid : graph.Valid base) {signal : SignalId}
    {link : Option LinkId}
    (allowed : ∀ forwardingLink, link = some forwardingLink →
      forwardingLink < graph.heap.links ∧
        (graph.heap.link forwardingLink).update = .forward signal) :
    (graph.setForwardingLink signal link).Valid base where
  out := valid.out
  live := valid.live
  into := valid.into
  ends := valid.ends
  sole := valid.sole
  forwarding := by
    intro other found there
    by_cases same : other = signal
    · subst same
      rw [forwardingLink_setForwardingLink] at there
      exact allowed found there
    · rw [forwardingLink_setForwardingLink_of_ne same] at there
      exact valid.forwarding there
  names := valid.names
  heights := valid.heights
  const := valid.const

theorem evolves_setForwardingLink (signal : SignalId) (link : Option LinkId) :
    Evolves (· = signal) graph (graph.setForwardingLink signal link) :=
  { @Evolves.refl _ _ (· = signal) graph with
    same := fun _ untouched =>
      ⟨rfl, forwardingLink_setForwardingLink_of_ne untouched link, rfl⟩ }

/-! ## Naming a signal -/

/-- A variable of the network gets a signal. -/
def addName (graph : Graph V E) (signal : SignalId) : Graph V E :=
  { graph with heap := { graph.heap with names := graph.heap.names ++ [signal] } }

theorem getElem?_addName {signal named : SignalId} {name : Nat}
    (found : (graph.addName signal).heap.names[name]? = some named) :
    graph.heap.names[name]? = some named ∨
      name = graph.heap.names.length ∧ named = signal := by
  rcases Nat.lt_or_ge name graph.heap.names.length with inside | beyond
  · exact Or.inl ((List.getElem?_append_left inside).symm.trans found)
  · have last := (List.getElem?_append_right beyond).symm.trans found
    obtain ⟨short, -⟩ := List.getElem?_eq_some_iff.mp last
    rw [List.length_singleton] at short
    refine Or.inr ⟨by omega, ?_⟩
    exact List.mem_singleton.mp (List.mem_of_getElem? last)

theorem Valid.addName (valid : graph.Valid base) {signal : SignalId}
    (known : signal < graph.heap.signals)
    (above : base graph.heap.names.length ≤ graph.level signal) :
    (graph.addName signal).Valid base where
  out := valid.out
  live := valid.live
  into := valid.into
  ends := valid.ends
  sole := valid.sole
  forwarding := valid.forwarding
  names := by
    intro name named found
    rcases getElem?_addName found with old | ⟨rfl, rfl⟩
    · exact valid.names old
    · exact ⟨known, above⟩
  heights := valid.heights
  const := valid.const

theorem evolves_addName {may : SignalId → Prop} (signal : SignalId) :
    Evolves may graph (graph.addName signal) :=
  { @Evolves.refl _ _ may graph with
    names := fun found =>
      (List.getElem?_append_left (List.getElem?_eq_some_iff.mp found).1).trans found }

/-! ## Killing a link -/

theorem Valid.kill (valid : graph.Valid base) (link : LinkId) : (graph.kill link).Valid base where
  out := by
    intro signal other member
    obtain ⟨index, found⟩ := List.mem_iff_getElem?.mp member
    obtain ⟨there, different⟩ := Heap.getElem?_linksOut_kill found
    obtain ⟨live, source⟩ := valid.out (List.mem_of_getElem? there)
    exact ⟨Heap.live_kill.mpr ⟨live, different source⟩, source⟩
  live := by
    intro other live
    obtain ⟨before, different⟩ := Heap.live_kill.mp live
    obtain ⟨index, found⟩ := List.mem_iff_getElem?.mp (valid.live before)
    exact List.mem_of_getElem? (Heap.getElem?_linksOut_kill_of found different)
  into := fun member => valid.into (Heap.mem_linksIn_kill member)
  ends := valid.ends
  sole := valid.sole
  forwarding := valid.forwarding
  names := valid.names
  heights := fun live => valid.heights (Heap.live_kill.mp live).1
  const := valid.const

/-- A link may be killed that is one of `bind`'s inner kind, or into a rejected signal. -/
theorem evolves_kill {link : LinkId}
    (allowed : (∃ signal, (graph.heap.link link).update = .forward signal) ∨
      graph.heap.Rejected (graph.heap.link link).target) :
    Evolves (· = (graph.heap.link link).target) graph (graph.kill link) :=
  { @Evolves.refl _ _ (· = (graph.heap.link link).target) graph with
    kept := by
      intro other _ live plain
      by_cases same : other = link
      · subst same
        rcases allowed with ⟨signal, forward⟩ | rejected
        · exact absurd forward (plain signal)
        · exact Or.inr rejected
      · exact Or.inl (Heap.live_kill.mpr ⟨live, same⟩)
    revived := fun _ live => (Heap.live_kill.mp live).1
    same := fun _ untouched => ⟨rfl, rfl, Heap.linksIn_kill untouched⟩
    longer := fun _ => (Heap.length_linksOut_kill _ _).ge
    outOld := fun _ found => Or.inl (Heap.getElem?_linksOut_kill found).1
    stays := fun _ found live => Heap.getElem?_linksOut_kill_of found (Heap.live_kill.mp live).2 }

/-! ## New signals and links -/

section NewSignal

variable {value : V} {level : Ordinal.{0}} {const : Option V}

theorem level_newSignal :
    (graph.newSignal value level const).level graph.heap.signals = level :=
  Function.update_self ..

theorem const_newSignal :
    (graph.newSignal value level const).const graph.heap.signals = const :=
  Function.update_self ..

theorem held_newSignal :
    (graph.newSignal value level const).heap.held graph.heap.signals = .value value :=
  Function.update_self ..

theorem linksOut_newSignal :
    (graph.newSignal value level const).heap.linksOut graph.heap.signals = [] :=
  Function.update_self ..

theorem linksIn_newSignal :
    (graph.newSignal value level const).heap.linksIn graph.heap.signals = [] :=
  Function.update_self ..

theorem forwardingLink_newSignal :
    (graph.newSignal value level const).heap.forwardingLink graph.heap.signals = none :=
  Function.update_self ..

theorem linksIn_newSignal_of_ne {signal : SignalId} (old : signal ≠ graph.heap.signals) :
    (graph.newSignal value level const).heap.linksIn signal = graph.heap.linksIn signal :=
  Function.update_of_ne old ..

theorem linksOut_newSignal_of_ne {signal : SignalId} (old : signal ≠ graph.heap.signals) :
    (graph.newSignal value level const).heap.linksOut signal = graph.heap.linksOut signal :=
  Function.update_of_ne old ..

theorem live_newSignal {link : LinkId} (valid : graph.Valid base) :
    (graph.newSignal value level const).heap.Live link ↔ graph.heap.Live link := by
  by_cases new : (graph.heap.link link).target = graph.heap.signals
  · constructor
    · intro live
      have member : some link ∈ (graph.newSignal value level const).heap.linksIn
        (graph.heap.link link).target := live
      rw [new, linksIn_newSignal] at member
      cases member
    · intro live
      exact absurd new (valid.target_lt live).ne
  · exact Iff.of_eq (congrArg (some link ∈ ·) (linksIn_newSignal_of_ne new))

theorem evolves_newSignal (valid : graph.Valid base) {may : SignalId → Prop} :
    Evolves may graph (graph.newSignal value level const) where
  signals := Nat.le_succ _
  links := le_rfl
  level known := Function.update_of_ne known.ne ..
  height _ := rfl
  const known := Function.update_of_ne known.ne ..
  link _ := rfl
  names := id
  frozen known holds := (Function.update_of_ne known.ne ..).trans holds
  kept _ live _ := Or.inl ((live_newSignal valid).mpr live)
  revived _ live := (live_newSignal valid).mp live
  same known _ := ⟨Function.update_of_ne known.ne .., Function.update_of_ne known.ne ..,
    linksIn_newSignal_of_ne known.ne⟩
  longer known := by rw [linksOut_newSignal_of_ne known.ne]
  outOld known found := by
    rw [linksOut_newSignal_of_ne known.ne] at found
    exact Or.inl found
  stays known found _ := by rwa [linksOut_newSignal_of_ne known.ne]

theorem Fits.newer {may : SignalId → Prop} {later : Graph V E}
    (evolves : Evolves may graph later) {level : Ordinal.{0}} {formula : Formula V}
    {scope : List SignalId} (fits : graph.Fits base level formula scope) :
    later.Fits base level formula scope := by
  refine ⟨fits.1, fun signal member => ?_⟩
  obtain ⟨known, above⟩ := fits.2 signal member
  exact ⟨known.trans_le evolves.signals, (evolves.level known).symm ▸ above⟩

theorem Admissible.newer {may : SignalId → Prop} {later : Graph V E}
    (evolves : Evolves may graph later) {height : Ordinal.{0}} {update : Update V}
    (known : update.target < graph.heap.signals)
    (admissible : graph.Admissible base height update) :
    later.Admissible base height update := by
  refine ⟨(evolves.level known).symm ▸ admissible.1, ?_⟩
  rintro f scope boundSignal rfl held
  obtain ⟨room, fits⟩ := admissible.2 f scope boundSignal rfl held
  have same : later.level boundSignal = graph.level boundSignal := evolves.level known
  rw [same]
  exact ⟨room, fits.newer evolves⟩

theorem Valid.newSignal (valid : graph.Valid base)
    (allowed : ∀ held, const = some held → held = value) :
    (graph.newSignal value level const).Valid base where
  out := by
    intro signal link member
    by_cases new : signal = graph.heap.signals
    · rw [new, linksOut_newSignal] at member
      cases member
    · rw [linksOut_newSignal_of_ne new] at member
      obtain ⟨live, source⟩ := valid.out member
      exact ⟨(live_newSignal valid).mpr live, source⟩
  live := by
    intro link live
    have before := (live_newSignal valid).mp live
    have old : (graph.heap.link link).source ≠ graph.heap.signals := (valid.source_lt before).ne
    exact (linksOut_newSignal_of_ne old).symm ▸ valid.live before
  into := by
    intro signal link member
    by_cases new : signal = graph.heap.signals
    · rw [new, linksIn_newSignal] at member
      cases member
    · rw [linksIn_newSignal_of_ne new] at member
      exact valid.into member
  ends := by
    intro link known
    obtain ⟨source, target⟩ := valid.ends known
    exact ⟨source.trans (Nat.lt_succ_self _), target.trans (Nat.lt_succ_self _)⟩
  sole := valid.sole
  forwarding := by
    intro signal link found
    by_cases new : signal = graph.heap.signals
    · rw [new, forwardingLink_newSignal] at found
      cases found
    · rw [show (graph.newSignal value level const).heap.forwardingLink signal =
        graph.heap.forwardingLink signal from Function.update_of_ne new ..] at found
      exact valid.forwarding found
  names := by
    intro name signal found
    obtain ⟨known, above⟩ := valid.names found
    have evolves : Evolves (fun _ => False) graph (graph.newSignal value level const) :=
      evolves_newSignal valid
    exact ⟨known.trans_le evolves.signals, (evolves.level known).symm ▸ above⟩
  heights := by
    intro link live
    have before := (live_newSignal valid).mp live
    obtain ⟨below, admissible⟩ := valid.heights before
    have evolves : Evolves (fun _ => False) graph (graph.newSignal value level const) :=
      evolves_newSignal valid
    exact ⟨(evolves.level (valid.source_lt before)).symm ▸ below,
      admissible.newer evolves (valid.target_lt before)⟩
  const := by
    intro signal held found
    by_cases new : signal = graph.heap.signals
    · rw [new, const_newSignal] at found
      refine ⟨new ▸ Nat.lt_succ_self _, fun link known into => ?_, Or.inl ?_⟩
      · exact absurd (into.trans new) (valid.ends known).2.ne
      · rw [new, allowed held found]
        exact held_newSignal
    · rw [show (graph.newSignal value level const).const signal = graph.const signal from
        Function.update_of_ne new ..] at found
      obtain ⟨known, noLink, holds⟩ := valid.const found
      refine ⟨known.trans (Nat.lt_succ_self _), noLink, ?_⟩
      rw [Heap.Rejected, show (graph.newSignal value level const).heap.held signal =
        graph.heap.held signal from Function.update_of_ne new ..]
      exact holds

end NewSignal

section AddLink

variable {source : SignalId} {update : Update V} {height : Ordinal.{0}}

theorem link_addLink :
    (graph.addLink source update height).heap.link graph.heap.links = ⟨source, update⟩ :=
  Function.update_self ..

theorem link_addLink_of_lt {link : LinkId} (old : link < graph.heap.links) :
    (graph.addLink source update height).heap.link link = graph.heap.link link :=
  Function.update_of_ne old.ne ..

theorem height_addLink :
    (graph.addLink source update height).height graph.heap.links = height :=
  Function.update_self ..

theorem linksIn_addLink : (graph.addLink source update height).heap.linksIn update.target =
    graph.heap.linksIn update.target ++ [some graph.heap.links] := Function.update_self ..

theorem linksIn_addLink_of_ne {signal : SignalId} (different : signal ≠ update.target) :
    (graph.addLink source update height).heap.linksIn signal = graph.heap.linksIn signal :=
  Function.update_of_ne different ..

theorem linksOut_addLink : (graph.addLink source update height).heap.linksOut source =
    graph.heap.linksOut source ++ [some graph.heap.links] := Function.update_self ..

theorem linksOut_addLink_of_ne {signal : SignalId} (different : signal ≠ source) :
    (graph.addLink source update height).heap.linksOut signal = graph.heap.linksOut signal :=
  Function.update_of_ne different ..

theorem live_addLink : (graph.addLink source update height).heap.Live graph.heap.links := by
  have target : ((graph.addLink source update height).heap.link graph.heap.links).target =
      update.target := congrArg Link.target link_addLink
  rw [Heap.Live, target, linksIn_addLink]
  exact List.mem_append_right _ (List.mem_singleton_self _)

theorem mem_linksIn_addLink {signal : SignalId} {link : LinkId}
    (member : some link ∈ (graph.addLink source update height).heap.linksIn signal) :
    some link ∈ graph.heap.linksIn signal ∨ link = graph.heap.links ∧ signal = update.target := by
  by_cases same : signal = update.target
  · subst same
    rw [linksIn_addLink] at member
    rcases List.mem_append.mp member with old | new
    · exact Or.inl old
    · exact Or.inr ⟨Option.some_inj.mp (List.mem_singleton.mp new), rfl⟩
  · rw [linksIn_addLink_of_ne same] at member
    exact Or.inl member

theorem mem_linksOut_addLink {signal : SignalId} {link : LinkId}
    (member : some link ∈ (graph.addLink source update height).heap.linksOut signal) :
    some link ∈ graph.heap.linksOut signal ∨ link = graph.heap.links ∧ signal = source := by
  by_cases same : signal = source
  · subst same
    rw [linksOut_addLink] at member
    rcases List.mem_append.mp member with old | new
    · exact Or.inl old
    · exact Or.inr ⟨Option.some_inj.mp (List.mem_singleton.mp new), rfl⟩
  · rw [linksOut_addLink_of_ne same] at member
    exact Or.inl member

theorem mem_linksIn_addLink_of_mem {signal : SignalId} {entry : Option LinkId}
    (member : entry ∈ graph.heap.linksIn signal) :
    entry ∈ (graph.addLink source update height).heap.linksIn signal := by
  by_cases same : signal = update.target
  · subst same
    rw [linksIn_addLink]
    exact List.mem_append_left _ member
  · rwa [linksIn_addLink_of_ne same]

theorem live_addLink_of_lt {link : LinkId} (old : link < graph.heap.links) :
    (graph.addLink source update height).heap.Live link ↔ graph.heap.Live link := by
  rw [Heap.Live, link_addLink_of_lt old]
  constructor
  · intro member
    rcases mem_linksIn_addLink member with before | ⟨new, -⟩
    · exact before
    · exact absurd new old.ne
  · exact mem_linksIn_addLink_of_mem

theorem evolves_addLink :
    Evolves (· = update.target) graph (graph.addLink source update height) where
  signals := le_rfl
  links := Nat.le_succ _
  level _ := rfl
  height known := Function.update_of_ne known.ne ..
  const _ := rfl
  link known := link_addLink_of_lt known
  names := id
  frozen _ := id
  kept known live _ := Or.inl ((live_addLink_of_lt known).mpr live)
  revived known live := (live_addLink_of_lt known).mp live
  same _ untouched := ⟨rfl, rfl, linksIn_addLink_of_ne untouched⟩
  longer := by
    intro signal _
    by_cases same : signal = source
    · subst same
      rw [linksOut_addLink, List.length_append]
      exact Nat.le_add_right _ _
    · rw [linksOut_addLink_of_ne same]
  outOld := by
    intro signal index link _ found
    by_cases same : signal = source
    · subst same
      rw [linksOut_addLink] at found
      rcases Nat.lt_or_ge index (graph.heap.linksOut signal).length with inside | beyond
      · rw [List.getElem?_append_left inside] at found
        exact Or.inl found
      · rw [List.getElem?_append_right beyond] at found
        have new := List.mem_singleton.mp (List.mem_of_getElem? found)
        exact Or.inr ⟨beyond, (Option.some_inj.mp new).ge⟩
    · rw [linksOut_addLink_of_ne same] at found
      exact Or.inl found
  stays := by
    intro signal index link _ found _
    by_cases same : signal = source
    · subst same
      rw [linksOut_addLink,
        List.getElem?_append_left (List.getElem?_eq_some_iff.mp found).1, found]
    · rwa [linksOut_addLink_of_ne same]

/-- A link may be added at a signal without other links, or by `bind` beside its own. -/
theorem Valid.addLink (valid : graph.Valid base) (sourceKnown : source < graph.heap.signals)
    (targetKnown : update.target < graph.heap.signals)
    (below : height ≤ graph.level source) (admissible : graph.Admissible base height update)
    (plain : graph.const update.target = none)
    (alone : ∀ link, link < graph.heap.links →
      (graph.heap.link link).target = update.target →
        (∃ signal, update = .forward signal) ∧
          ∀ f signal, (graph.heap.link link).update ≠ .map f signal) :
    (graph.addLink source update height).Valid base where
  out := by
    intro signal link member
    rcases mem_linksOut_addLink member with old | ⟨rfl, rfl⟩
    · obtain ⟨live, source⟩ := valid.out old
      have known := valid.live_lt live
      exact ⟨(live_addLink_of_lt known).mpr live, by rw [link_addLink_of_lt known, source]⟩
    · exact ⟨live_addLink, by rw [link_addLink]⟩
  live := by
    intro link live
    rcases mem_linksIn_addLink live with old | ⟨rfl, -⟩
    · have known := (valid.into old).1
      rw [link_addLink_of_lt known] at old ⊢
      have before := valid.live old
      by_cases same : (graph.heap.link link).source = source
      · rw [same] at before ⊢
        rw [linksOut_addLink]
        exact List.mem_append_left _ before
      · rwa [linksOut_addLink_of_ne same]
    · rw [link_addLink, linksOut_addLink]
      exact List.mem_append_right _ (List.mem_singleton_self _)
  into := by
    intro signal link member
    rcases mem_linksIn_addLink member with old | ⟨rfl, rfl⟩
    · obtain ⟨known, target⟩ := valid.into old
      exact ⟨known.trans (Nat.lt_succ_self _), by rw [link_addLink_of_lt known, target]⟩
    · exact ⟨Nat.lt_succ_self _, by rw [link_addLink]; rfl⟩
  ends := by
    intro link known
    rcases Nat.lt_succ_iff_lt_or_eq.mp known with old | rfl
    · rw [link_addLink_of_lt old]
      exact valid.ends old
    · rw [link_addLink]
      exact ⟨sourceKnown, targetKnown⟩
  sole := by
    intro link other known otherKnown together notForward
    rcases Nat.lt_succ_iff_lt_or_eq.mp known with old | rfl <;>
      rcases Nat.lt_succ_iff_lt_or_eq.mp otherKnown with otherOld | rfl
    · rw [link_addLink_of_lt old] at together notForward ⊢
      rw [link_addLink_of_lt otherOld] at together ⊢
      exact valid.sole old otherOld together notForward
    · rw [link_addLink_of_lt old] at together notForward ⊢
      rw [link_addLink] at together ⊢
      exact Or.inr (alone link old together)
    · rw [link_addLink] at together notForward
      rw [link_addLink_of_lt otherOld] at together
      obtain ⟨⟨signal, forward⟩, -⟩ := alone other otherOld together.symm
      exact absurd forward (notForward signal)
    · exact Or.inl rfl
  forwarding := by
    intro signal link found
    obtain ⟨known, forward⟩ := valid.forwarding found
    exact ⟨known.trans (Nat.lt_succ_self _), by rw [link_addLink_of_lt known, forward]⟩
  names := valid.names
  heights := by
    intro link live
    rcases mem_linksIn_addLink live with old | ⟨rfl, -⟩
    · have known := (valid.into old).1
      rw [link_addLink_of_lt known] at old ⊢
      obtain ⟨low, fits⟩ := valid.heights old
      rw [show (graph.addLink source update height).height link = graph.height link from
        Function.update_of_ne known.ne ..]
      exact ⟨low, fits.newer evolves_addLink (valid.ends known).2⟩
    · rw [link_addLink, height_addLink]
      exact ⟨below, admissible.newer evolves_addLink targetKnown⟩
  const := by
    intro signal value found
    obtain ⟨known, noLink, holds⟩ := valid.const found
    refine ⟨known, fun link linkKnown => ?_, holds⟩
    rcases Nat.lt_succ_iff_lt_or_eq.mp linkKnown with old | rfl
    · rw [link_addLink_of_lt old]
      exact noLink link old
    · rw [link_addLink]
      rintro rfl
      rw [show graph.const update.target = some value from found] at plain
      cases plain

end AddLink

/-! ## Killing the links of a set -/

def killAll (graph : Graph V E) (links : LinkSet) : Graph V E :=
  { graph with heap := graph.heap.killAll links }

theorem killAll_some (link : LinkId) (links : LinkSet) :
    graph.killAll (some link :: links) = (graph.kill link).killAll links := rfl

theorem killAll_dead {links : LinkSet} : (∀ link, some link ∉ links) →
    graph.killAll links = graph := by
  induction links with
  | nil => exact fun _ => rfl
  | cons entry links ih =>
      intro dead
      cases entry with
      | none => exact ih fun link member => dead link (List.mem_cons_of_mem _ member)
      | some link => exact absurd List.mem_cons_self (dead link)

/-- The links into a rejected signal may be killed. -/
theorem killAll_into {signal : SignalId} {links : LinkSet} :
    ∀ {graph : Graph V E}, graph.Valid base → signal < graph.heap.signals →
      graph.heap.Rejected signal →
      (∀ link, some link ∈ links → (graph.heap.link link).target = signal) →
        (graph.killAll links).Valid base ∧
        Evolves (· = signal) graph (graph.killAll links) ∧
        (graph.killAll links).heap.held = graph.heap.held ∧
        (graph.killAll links).heap.links = graph.heap.links ∧
        ∀ link, (graph.killAll links).heap.Live link ↔
          graph.heap.Live link ∧ some link ∉ links := by
  induction links with
  | nil =>
      intro graph valid _ _ _
      exact ⟨valid, Evolves.refl graph, rfl, rfl, fun link => by simp [killAll, Heap.killAll]⟩
  | cons entry links ih =>
      intro graph valid known rejected into
      cases entry with
      | none =>
          obtain ⟨validLater, evolves, held, same, live⟩ := ih valid known rejected
            fun link member => into link (List.mem_cons_of_mem _ member)
          refine ⟨validLater, evolves, held, same, fun link => (live link).trans ?_⟩
          simp
      | some killed =>
          have target := into killed List.mem_cons_self
          have killing := @evolves_kill _ _ graph killed (Or.inr (target ▸ rejected))
          rw [target] at killing
          obtain ⟨validLater, evolves, held, same, live⟩ :=
            @ih (graph.kill killed) (valid.kill killed) known rejected
              fun link member => into link (List.mem_cons_of_mem _ member)
          rw [killAll_some]
          refine ⟨validLater, killing.trans valid evolves fun _ _ => id, held, same,
            fun link => (live link).trans ?_⟩
          rw [show (graph.kill killed).heap.Live link ↔ _ from Heap.live_kill]
          simp [and_assoc]

end Graph

end Smmboss.Signals
