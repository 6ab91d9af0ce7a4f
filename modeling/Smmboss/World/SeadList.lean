import Mathlib.Data.List.Chain
import Smmboss.World.Reads

namespace Smmboss.World

open LittleEndian (encode)

/-! # Iterating over an intrusive list

The iteration trusts neither the links nor the count: it goes by both.
-/

/-- Why an iteration stopped: it ran out, an `assert` failed, a read raised, or
it was not given more rounds. -/
inductive Ending where
  | finished
  | assertion
  | raised
  | running
deriving Repr, DecidableEq

structure Iteration where
  yielded : List Nat
  ending : Ending
deriving Repr, DecidableEq

/-- `link.raw_offset(-link_offset, elem_ty)`. -/
def rawOffset (link linkOffset : Nat) : Nat := asAddr (link - linkOffset : Int)

/-- The loop of `SeadListImpl.__iter__`, for that many rounds.  The generator
reads the following node before it yields. -/
def iterLoop (next : Nat → Option Nat) (self linkOffset expectedCount : Nat) :
    Nat → Nat → Nat → List Nat → Iteration
  | 0, _, _, yielded => { yielded, ending := .running }
  | rounds + 1, link, actualCount, yielded =>
      if link ≠ self then
        (next link).elim { yielded, ending := .raised } fun following =>
          if actualCount + 1 ≤ expectedCount then
            iterLoop next self linkOffset expectedCount rounds following (actualCount + 1)
              (yielded ++ [rawOffset link linkOffset])
          else { yielded := yielded ++ [rawOffset link linkOffset], ending := .assertion }
      else { yielded, ending := if actualCount = expectedCount then .finished else .assertion }

/-- A `SeadListImpl`, which is its own list head. -/
structure SeadList where
  addr : Nat
  bounded : addr < 2 ^ 64
  ignoreLinkOffset : Bool

/-- `prev` or `next` of a `SeadListNode`. -/
def followLink (memory : Memory) (rev : Bool) (node : Nat) : Option Nat :=
  readUint memory (asAddr (node + if rev then 0 else 8)) 8

namespace SeadList

def count (list : SeadList) (memory : Memory) : Option Nat :=
  readUint memory (asAddr (list.addr + 0x10)) 4

def linkOffset (list : SeadList) (memory : Memory) : Option Nat :=
  if list.ignoreLinkOffset then some 0 else readUint memory (asAddr (list.addr + 0x14)) 4

/-- `__iter__`, with that many rounds of its loop. -/
def iter (list : SeadList) (memory : Memory) (rev : Bool) (rounds : Nat) : Iteration :=
  (list.count memory).elim { yielded := [], ending := .raised } fun expectedCount =>
    (list.linkOffset memory).elim { yielded := [], ending := .raised } fun linkOffset =>
      (followLink memory rev list.addr).elim { yielded := [], ending := .raised } fun first =>
        iterLoop (followLink memory rev) list.addr linkOffset expectedCount rounds first 0 []

end SeadList

/-! ## Chains -/

/-- Following `next` from `current` leads through the nodes to `stop`, which is
none of them. -/
def Walk (next : Nat → Option Nat) (stop : Nat) : Nat → List Nat → Prop
  | current, [] => current = stop
  | current, node :: rest =>
      node = current ∧ current ≠ stop ∧ ∃ following, next current = some following ∧
        Walk next stop following rest

/-- The nodes of the chain that starts and ends at the head. -/
def Ring (next : Nat → Option Nat) (head : Nat) (nodes : List Nat) : Prop :=
  ∃ first, next head = some first ∧ Walk next head first nodes

/-- Every neighbouring pair of the ring is linked in both directions. -/
structure DoublyLinked (next prev : Nat → Option Nat) (head : Nat) (nodes : List Nat) : Prop where
  links : (head :: nodes ++ [head]).IsChain fun left right =>
    next left = some right ∧ prev right = some left
  apart : head ∉ nodes

section

variable {next prev : Nat → Option Nat} {head : Nat} {nodes : List Nat}

theorem walk_of_isChain {first : Nat} (apart : head ∉ nodes)
    (starts : (nodes ++ [head]).head? = some first)
    (chain : (nodes ++ [head]).IsChain fun left right => next left = some right) :
    Walk next head first nodes := by
  induction nodes generalizing first with
  | nil => exact (Option.some_inj.mp starts).symm
  | cons node rest ih =>
      obtain ⟨here, later⟩ := not_or.mp (List.mem_cons.not.mp apart)
      cases starts
      obtain ⟨following, second⟩ : ∃ following, (rest ++ [head]).head? = some following :=
        Option.isSome_iff_exists.mp (by cases rest <;> rfl)
      rw [List.cons_append, List.isChain_cons] at chain
      exact ⟨rfl, Ne.symm here, following, chain.1 following second, ih later second chain.2⟩

theorem ring_of_isChain (apart : head ∉ nodes)
    (chain : (head :: nodes ++ [head]).IsChain fun left right => next left = some right) :
    Ring next head nodes := by
  obtain ⟨first, starts⟩ : ∃ first, (nodes ++ [head]).head? = some first :=
    Option.isSome_iff_exists.mp (by cases nodes <;> rfl)
  rw [List.cons_append, List.isChain_cons] at chain
  exact ⟨first, chain.1 first starts, walk_of_isChain apart starts chain.2⟩

theorem DoublyLinked.forward (linked : DoublyLinked next prev head nodes) : Ring next head nodes :=
  ring_of_isChain linked.apart (linked.links.imp fun _ _ => And.left)

theorem DoublyLinked.backward (linked : DoublyLinked next prev head nodes) :
    Ring prev head nodes.reverse := by
  apply ring_of_isChain (by rw [List.mem_reverse]; exact linked.apart)
  have back : (head :: nodes ++ [head]).reverse.IsChain fun left right => prev left = some right := by
    rw [List.isChain_reverse]
    exact linked.links.imp fun _ _ => And.right
  simpa using back

end

/-! ## The loop -/

section

variable {next : Nat → Option Nat} {self linkOffset expectedCount : Nat}

/-- What one round does. -/
theorem iterLoop_cases (rounds link actualCount : Nat) (yielded : List Nat) :
    (link = self ∧ actualCount = expectedCount ∧
      iterLoop next self linkOffset expectedCount (rounds + 1) link actualCount yielded =
        { yielded, ending := .finished }) ∨
    (∃ ending, ending ≠ .finished ∧ ending ≠ .running ∧
      iterLoop next self linkOffset expectedCount (rounds + 1) link actualCount yielded =
        { yielded, ending }) ∨
    (iterLoop next self linkOffset expectedCount (rounds + 1) link actualCount yielded =
        { yielded := yielded ++ [rawOffset link linkOffset], ending := .assertion }) ∨
    ∃ following, link ≠ self ∧ next link = some following ∧ actualCount + 1 ≤ expectedCount ∧
      iterLoop next self linkOffset expectedCount (rounds + 1) link actualCount yielded =
        iterLoop next self linkOffset expectedCount rounds following (actualCount + 1)
          (yielded ++ [rawOffset link linkOffset]) := by
  rw [iterLoop]
  by_cases away : link ≠ self
  · rw [if_pos away]
    cases found : next link with
    | none => exact Or.inr (Or.inl ⟨.raised, by decide, by decide, rfl⟩)
    | some following =>
        rw [Option.elim_some]
        by_cases more : actualCount + 1 ≤ expectedCount
        · rw [if_pos more]
          exact Or.inr (Or.inr (Or.inr ⟨following, away, rfl, more, rfl⟩))
        · rw [if_neg more]
          exact Or.inr (Or.inr (Or.inl rfl))
  · rw [if_neg away]
    by_cases counted : actualCount = expectedCount
    · rw [if_pos counted]
      exact Or.inl ⟨not_not.mp away, counted, rfl⟩
    · rw [if_neg counted]
      exact Or.inr (Or.inl ⟨.assertion, by decide, by decide, rfl⟩)

/-- The count check lets through no more than one element too many. -/
theorem iterLoop_bounded (rounds link : Nat) {actualCount : Nat} {yielded : List Nat}
    (counted : yielded.length = actualCount) (within : actualCount ≤ expectedCount) :
    (iterLoop next self linkOffset expectedCount rounds link actualCount yielded).yielded.length ≤
      expectedCount + 1 := by
  have longer : (yielded ++ [rawOffset link linkOffset]).length = actualCount + 1 := by
    rw [List.length_append, counted]
    rfl
  induction rounds generalizing link actualCount yielded with
  | zero =>
      change yielded.length ≤ _
      omega
  | succ rounds ih =>
      rcases @iterLoop_cases next self linkOffset expectedCount rounds link actualCount yielded with
        ⟨-, -, ran⟩ | ⟨ending, -, -, ran⟩ | ran | ⟨following, -, -, more, ran⟩
      · rw [ran]
        change yielded.length ≤ _
        omega
      · rw [ran]
        change yielded.length ≤ _
        omega
      · rw [ran]
        change (yielded ++ [_]).length ≤ _
        omega
      · rw [ran]
        refine ih following longer more ?_
        rw [List.length_append, longer]
        rfl

theorem iterLoop_ends {rounds link actualCount : Nat} {yielded : List Nat}
    (within : actualCount ≤ expectedCount) (enough : expectedCount + 1 < rounds + actualCount) :
    (iterLoop next self linkOffset expectedCount rounds link actualCount yielded).ending ≠
      .running := by
  induction rounds generalizing link actualCount yielded with
  | zero => omega
  | succ rounds ih =>
      rcases @iterLoop_cases next self linkOffset expectedCount rounds link actualCount yielded with
        ⟨-, -, ran⟩ | ⟨ending, -, ended, ran⟩ | ran | ⟨following, -, -, more, ran⟩
      · rw [ran]
        exact Ending.noConfusion
      · rw [ran]
        exact ended
      · rw [ran]
        exact Ending.noConfusion
      · rw [ran]
        exact ih more (by omega)

/-- A loop that finishes has walked to the head, and counted right. -/
theorem iterLoop_finished {rounds link actualCount : Nat} {yielded result : List Nat}
    (finished : iterLoop next self linkOffset expectedCount rounds link actualCount yielded =
      { yielded := result, ending := .finished }) :
    ∃ nodes, Walk next self link nodes ∧ actualCount + nodes.length = expectedCount ∧
      result = yielded ++ nodes.map fun node => rawOffset node linkOffset := by
  induction rounds generalizing link actualCount yielded with
  | zero => cases finished
  | succ rounds ih =>
      rcases @iterLoop_cases next self linkOffset expectedCount rounds link actualCount yielded with
        ⟨home, counted, ran⟩ | ⟨ending, other, -, ran⟩ | ran | ⟨following, away, found, -, ran⟩
      · rw [ran] at finished
        cases finished
        exact ⟨[], home, counted, by simp⟩
      · rw [ran] at finished
        cases finished
        exact absurd rfl other
      · rw [ran] at finished
        cases finished
      · rw [ran] at finished
        obtain ⟨nodes, walk, length, same⟩ := ih finished
        refine ⟨link :: nodes, ⟨rfl, away, following, found, walk⟩, ?_, ?_⟩
        · rw [List.length_cons]
          omega
        · rw [same, List.append_assoc, List.map_cons, List.singleton_append]

/-- And what it can walk to the head with the right count, it finishes. -/
theorem iterLoop_walk {nodes : List Nat} {rounds link actualCount : Nat} (yielded : List Nat)
    (walk : Walk next self link nodes) (counted : actualCount + nodes.length = expectedCount)
    (enough : nodes.length < rounds) :
    iterLoop next self linkOffset expectedCount rounds link actualCount yielded =
      { yielded := yielded ++ nodes.map fun node => rawOffset node linkOffset
        ending := .finished } := by
  induction nodes generalizing rounds link actualCount yielded with
  | nil =>
      obtain ⟨rounds, rfl⟩ : ∃ fewer, rounds = fewer + 1 := ⟨rounds - 1, by omega⟩
      have home : ¬ link ≠ self := not_not.mpr walk
      have exact : actualCount = expectedCount := counted
      rw [iterLoop, if_neg home, if_pos exact, List.map_nil, List.append_nil]
  | cons node rest ih =>
      obtain ⟨rfl, away, following, found, later⟩ := walk
      rw [List.length_cons] at counted enough
      obtain ⟨rounds, rfl⟩ : ∃ fewer, rounds = fewer + 1 := ⟨rounds - 1, by omega⟩
      have more : actualCount + 1 ≤ expectedCount := by omega
      rw [iterLoop, if_pos away, found, Option.elim_some, if_pos more,
        ih _ later (by omega) (by omega), List.append_assoc, List.map_cons, List.singleton_append]

end

/-! ## The iteration -/

namespace SeadList

variable {list : SeadList} {memory : Memory} {rev : Bool}

theorem iter_cases (list : SeadList) (memory : Memory) (rev : Bool) :
    (∀ rounds, list.iter memory rev rounds = { yielded := [], ending := .raised }) ∨
      ∃ count linkOffset first, list.count memory = some count ∧
        list.linkOffset memory = some linkOffset ∧
        followLink memory rev list.addr = some first ∧
        ∀ rounds, list.iter memory rev rounds =
          iterLoop (followLink memory rev) list.addr linkOffset count rounds first 0 [] := by
  unfold iter
  cases list.count memory with
  | none => exact Or.inl fun _ => rfl
  | some count =>
      cases list.linkOffset memory with
      | none => exact Or.inl fun _ => rfl
      | some linkOffset =>
          cases followLink memory rev list.addr with
          | none => exact Or.inl fun _ => rfl
          | some first => exact Or.inr ⟨count, linkOffset, first, rfl, rfl, rfl, fun _ => rfl⟩

/-- A well-formed list with its count. -/
structure WellFormed (list : SeadList) (memory : Memory) (nodes : List Nat) : Prop where
  linked : DoublyLinked (followLink memory false) (followLink memory true) list.addr nodes
  counted : list.count memory = some nodes.length
  offset : (list.linkOffset memory).isSome

theorem iter_ring {nodes : List Nat} {linkOffset rounds : Nat}
    (ring : Ring (followLink memory rev) list.addr nodes)
    (counted : list.count memory = some nodes.length)
    (offset : list.linkOffset memory = some linkOffset) (enough : nodes.length < rounds) :
    list.iter memory rev rounds =
      { yielded := nodes.map fun node => rawOffset node linkOffset, ending := .finished } := by
  obtain ⟨first, found, walk⟩ := ring
  rw [iter, counted, offset, found]
  exact iterLoop_walk [] walk (Nat.zero_add _) enough

/-- Whatever the links are, the iteration ends within the count; if it finishes,
it was over the ring with the right count; and a well-formed list is the same
in both directions. -/
theorem iter_spec (list : SeadList) (memory : Memory) :
    (∀ rev, ∃ count, (list.count memory).getD 0 = count ∧
        (∀ rounds, (list.iter memory rev rounds).yielded.length ≤ count + 1) ∧
        ∀ rounds, count + 1 < rounds → (list.iter memory rev rounds).ending ≠ .running) ∧
      (∀ rev rounds yielded,
        list.iter memory rev rounds = { yielded, ending := .finished } →
          ∃ nodes linkOffset, Ring (followLink memory rev) list.addr nodes ∧
            list.count memory = some nodes.length ∧ list.linkOffset memory = some linkOffset ∧
            yielded = nodes.map fun node => rawOffset node linkOffset) ∧
      ∀ nodes, list.WellFormed memory nodes → ∃ yielded, ∀ rounds, nodes.length < rounds →
        list.iter memory false rounds = { yielded, ending := .finished } ∧
          list.iter memory true rounds = { yielded := yielded.reverse, ending := .finished } := by
  refine ⟨?_, ?_, ?_⟩
  · intro rev
    refine ⟨_, rfl, ?_, ?_⟩
    · intro rounds
      rcases iter_cases list memory rev with failed | ⟨count, linkOffset, first, counted, -, -, runs⟩
      · rw [failed]
        exact Nat.zero_le _
      · rw [runs, counted]
        exact iterLoop_bounded rounds first rfl (Nat.zero_le _)
    · intro rounds enough
      rcases iter_cases list memory rev with failed | ⟨count, linkOffset, first, counted, -, -, runs⟩
      · rw [failed]
        simp
      · rw [counted, Option.getD_some] at enough
        rw [runs]
        exact iterLoop_ends (Nat.zero_le _) (by omega)
  · intro rev rounds yielded ran
    rcases iter_cases list memory rev with failed | ⟨count, linkOffset, first, counted, offset, found, runs⟩
    · rw [failed] at ran
      cases ran
    · rw [runs] at ran
      obtain ⟨nodes, walk, length, same⟩ := iterLoop_finished ran
      rw [Nat.zero_add] at length
      rw [← length] at counted
      exact ⟨nodes, linkOffset, ⟨first, found, walk⟩, counted, offset, same⟩
  · intro nodes wellFormed
    obtain ⟨linkOffset, offset⟩ := Option.isSome_iff_exists.mp wellFormed.offset
    refine ⟨nodes.map fun node => rawOffset node linkOffset, ?_⟩
    intro rounds enough
    have counted : list.count memory = some nodes.reverse.length := by
      rw [List.length_reverse]
      exact wellFormed.counted
    have back := iter_ring wellFormed.linked.backward counted offset
      (by rw [List.length_reverse]; exact enough)
    rw [List.map_reverse] at back
    exact ⟨iter_ring wellFormed.linked.forward wellFormed.counted offset enough, back⟩

/-! A list of two nodes, eight bytes into their elements. -/

def twoNodes : SeadList := { addr := 0x100, bounded := by decide, ignoreLinkOffset := false }

def twoNodesMemory : Memory := fun addr =>
  [(0x100, encode 8 0x308 ++ encode 8 0x208 ++ encode 4 2 ++ encode 4 8),
    (0x208, encode 8 0x100 ++ encode 8 0x308), (0x308, encode 8 0x208 ++ encode 8 0x100)].findSome?
      fun (start, bytes) => if start ≤ addr then bytes[addr - start]? else none

theorem twoNodes_wellFormed : twoNodes.WellFormed twoNodesMemory [0x208, 0x308] where
  linked := ⟨by decide, by decide⟩
  counted := by decide
  offset := by decide

theorem iter_spec_twoNodes : ∀ rounds, 2 < rounds →
    twoNodes.iter twoNodesMemory false rounds = { yielded := [0x200, 0x300], ending := .finished } ∧
      twoNodes.iter twoNodesMemory true rounds = { yielded := [0x300, 0x200], ending := .finished } := by
  obtain ⟨yielded, iterates⟩ := (iter_spec twoNodes twoNodesMemory).2.2 _ twoNodes_wellFormed
  have first : twoNodes.iter twoNodesMemory false 3 = { yielded := [0x200, 0x300], ending := .finished } := by
    decide
  obtain rfl : yielded = [0x200, 0x300] :=
    congrArg Iteration.yielded ((iterates 3 (by decide)).1.symm.trans first)
  exact iterates

end SeadList

end Smmboss.World
