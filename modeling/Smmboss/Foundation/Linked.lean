import Mathlib.Data.List.Basic
import Mathlib.Logic.Function.Basic

namespace Smmboss.Linked

/-! # Doubly linked chains in an index-linked memory

Nodes are numbered from one, and zero ends a chain.  Any number of chains share
the memory, each hanging from a head of its own.
-/

structure Links where
  head : Nat → Nat
  next : Nat → Nat
  prev : Nat → Nat

/-- A place that holds the number of a node. -/
inductive Place where
  | head (slot : Nat)
  | next (node : Nat)
deriving DecidableEq

namespace Links

def read (links : Links) : Place → Nat
  | .head slot => links.head slot
  | .next node => links.next node

def write (links : Links) : Place → Nat → Links
  | .head slot, node => { links with head := Function.update links.head slot node }
  | .next before, node => { links with next := Function.update links.next before node }

/-- There is no back link to set behind the end of a chain. -/
def setPrev (links : Links) (node before : Nat) : Links :=
  if node = 0 then links else { links with prev := Function.update links.prev node before }

/-- Takes out `node`, to which `place` points. -/
def unlink (links : Links) (place : Place) (node : Nat) : Links :=
  (links.write place (links.next node)).setPrev (links.next node) (links.prev node)

def copy (links : Links) (old new : Nat) : Links :=
  { links with
    next := Function.update links.next new (links.next old)
    prev := Function.update links.prev new (links.prev old) }

/-- Puts `new` in the place of `old`, to which `place` points. -/
def move (links : Links) (place : Place) (old new : Nat) : Links :=
  ((links.copy old new).write place new).setPrev (links.next old) new

/-- Adds `new` behind `before`, whose chain ends at `place`. -/
def append (links : Links) (place : Place) (before new : Nat) : Links :=
  { links.write place new with
    next := Function.update (links.write place new).next new 0
    prev := Function.update links.prev new before }

@[simp] theorem read_next (links : Links) (node : Nat) :
    links.read (.next node) = links.next node := rfl

@[simp] theorem read_write_self (links : Links) (place : Place) (node : Nat) :
    (links.write place node).read place = node := by
  cases place <;> simp [read, write]

theorem read_write_ne (links : Links) {place other : Place} (node : Nat) (apart : other ≠ place) :
    (links.write place node).read other = links.read other := by
  cases place with
  | head slot =>
      cases other with
      | head otherSlot =>
          have differ : otherSlot ≠ slot := fun same => apart (same ▸ rfl)
          simp [read, write, differ]
      | next otherNode => rfl
  | next before =>
      cases other with
      | head otherSlot => rfl
      | next otherNode =>
          have differ : otherNode ≠ before := fun same => apart (same ▸ rfl)
          simp [read, write, differ]

@[simp] theorem prev_write (links : Links) (place : Place) (node : Nat) :
    (links.write place node).prev = links.prev := by
  cases place <;> rfl

@[simp] theorem read_setPrev (links : Links) (node before : Nat) (place : Place) :
    (links.setPrev node before).read place = links.read place := by
  rw [setPrev]
  split
  · rfl
  · cases place <;> rfl

theorem prev_setPrev_self (links : Links) {node : Nat} (before : Nat) (nonzero : node ≠ 0) :
    (links.setPrev node before).prev node = before := by
  simp [setPrev, nonzero]

theorem prev_setPrev_ne (links : Links) {node other : Nat} (before : Nat) (apart : other ≠ node) :
    (links.setPrev node before).prev other = links.prev other := by
  rw [setPrev]
  split
  · rfl
  · simp [apart]

theorem read_copy_ne (links : Links) {old new : Nat} {place : Place}
    (apart : place ≠ .next new) : (links.copy old new).read place = links.read place := by
  cases place with
  | head slot => rfl
  | next node =>
      have differ : node ≠ new := fun same => apart (same ▸ rfl)
      simp [read, copy, differ]

end Links

/-- From `place`, whose chain stands behind `before`, exactly these nodes are
linked in this order, forwards and backwards. -/
def Chain (links : Links) : Place → Nat → List Nat → Prop
  | place, _, [] => links.read place = 0
  | place, before, node :: rest =>
      links.read place = node ∧ node ≠ 0 ∧ links.prev node = before ∧
        Chain links (.next node) node rest

/-- The place behind the nodes of a chain. -/
def endPlace : Place → List Nat → Place
  | place, [] => place
  | _, node :: rest => endPlace (.next node) rest

/-- The last node of a chain. -/
def endNode : Nat → List Nat → Nat
  | before, [] => before
  | _, node :: rest => endNode node rest

theorem endPlace_next (node : Nat) (nodes : List Nat) :
    endPlace (.next node) nodes = .next (endNode node nodes) := by
  induction nodes generalizing node with
  | nil => rfl
  | cons first rest ih => exact ih first

theorem endPlace_mem (place : Place) (nodes : List Nat) :
    endPlace place nodes = place ∨ ∃ node ∈ nodes, endPlace place nodes = .next node := by
  induction nodes generalizing place with
  | nil => exact .inl rfl
  | cons first rest ih =>
      right
      rcases ih (.next first) with same | ⟨node, member, same⟩
      · exact ⟨first, List.mem_cons_self, same⟩
      · exact ⟨node, List.mem_cons_of_mem _ member, same⟩

theorem endNode_mem (before : Nat) (nodes : List Nat) :
    endNode before nodes = before ∨ endNode before nodes ∈ nodes := by
  induction nodes generalizing before with
  | nil => exact .inl rfl
  | cons first rest ih =>
      right
      rw [endNode]
      rcases ih first with same | member
      · rw [same]
        exact List.mem_cons_self
      · exact List.mem_cons_of_mem _ member

variable {links after : Links} {place : Place} {before slot : Nat} {nodes left right : List Nat}

theorem Chain.nonzero (chain : Chain links place before nodes) : ∀ node ∈ nodes, node ≠ 0 := by
  induction nodes generalizing place before with
  | nil => simp
  | cons first rest ih =>
      intro node member
      rcases List.mem_cons.mp member with rfl | later
      · exact chain.2.1
      · exact ih chain.2.2.2 node later

/-- The end of a chain that hangs from a head, found from its last node. -/
theorem endPlace_head (nonzero : ∀ node ∈ nodes, node ≠ 0) :
    endPlace (.head slot) nodes =
      if endNode 0 nodes = 0 then .head slot else .next (endNode 0 nodes) := by
  cases nodes with
  | nil => rfl
  | cons first rest =>
      have last : endNode first rest ≠ 0 := by
        rcases endNode_mem first rest with same | member
        · rw [same]
          exact nonzero first List.mem_cons_self
        · exact nonzero _ (List.mem_cons_of_mem _ member)
      simp only [endPlace, endNode, endPlace_next, last, if_false]

/-- What hangs behind the first nodes of a chain. -/
theorem Chain.tail (chain : Chain links place before (left ++ right)) :
    Chain links (endPlace place left) (endNode before left) right := by
  induction left generalizing place before with
  | nil => exact chain
  | cons first rest ih => exact ih chain.2.2.2

/-- Where a node of the chain is pointed at from. -/
theorem Chain.read_endPlace (chain : Chain links place before (left ++ node :: right)) :
    links.read (endPlace place left) = node ∧ links.prev node = endNode before left :=
  ⟨chain.tail.1, chain.tail.2.2.1⟩

theorem Chain.read_mem (chain : Chain links place before nodes) :
    links.read place = 0 ∨ links.read place ∈ nodes := by
  cases nodes with
  | nil => exact .inl chain
  | cons first rest => exact .inr (chain.1 ▸ List.mem_cons_self)

/-- The two memories agree on a place and on the links of some nodes. -/
structure SameOn (links after : Links) (place : Place) (nodes : List Nat) : Prop where
  read : after.read place = links.read place
  next : ∀ node ∈ nodes, after.next node = links.next node
  prev : ∀ node ∈ nodes, after.prev node = links.prev node

namespace SameOn

variable {last : Links} {other : Place} {others : List Nat} {node : Nat}

theorem trans (first : SameOn links after other others) (second : SameOn after last other others) :
    SameOn links last other others :=
  ⟨second.read.trans first.read,
    fun node member => (second.next node member).trans (first.next node member),
    fun node member => (second.prev node member).trans (first.prev node member)⟩

theorem write (apart : other ≠ place) (later : ∀ node ∈ others, place ≠ .next node) :
    SameOn links (links.write place node) other others where
  read := Links.read_write_ne _ _ apart
  next other member := Links.read_write_ne links node (later other member).symm
  prev _ _ := by rw [Links.prev_write]

theorem setPrev (absent : node ∉ others) :
    SameOn links (links.setPrev node before) other others where
  read := Links.read_setPrev _ _ _ _
  next other _ := Links.read_setPrev links node before (.next other)
  prev _ member := Links.prev_setPrev_ne _ _ fun same => absent (same ▸ member)

theorem copy {old new : Nat} (apart : other ≠ .next new) (absent : new ∉ others) :
    SameOn links (links.copy old new) other others where
  read := Links.read_copy_ne _ apart
  next other member := by
    have differ : other ≠ new := fun same => absent (same ▸ member)
    simp [Links.copy, differ]
  prev other member := by
    have differ : other ≠ new := fun same => absent (same ▸ member)
    simp [Links.copy, differ]

theorem unlink (apart : other ≠ place) (later : ∀ node ∈ others, place ≠ .next node)
    (absent : links.next node ∉ others) :
    SameOn links (links.unlink place node) other others :=
  (write apart later).trans (setPrev absent)

theorem move {old new : Nat} (apart : other ≠ place) (later : ∀ node ∈ others, place ≠ .next node)
    (absent : links.next old ∉ others) (differ : other ≠ .next new) (unused : new ∉ others) :
    SameOn links (links.move place old new) other others :=
  ((copy differ unused).trans (write apart later)).trans (setPrev absent)

theorem append {new : Nat} (apart : other ≠ place) (later : ∀ node ∈ others, place ≠ .next node)
    (differ : other ≠ .next new) (unused : new ∉ others) :
    SameOn links (links.append place before new) other others := by
  have written : SameOn links (links.write place new) other others := write apart later
  refine written.trans ⟨?_, ?_, ?_⟩
  · cases other with
    | head slot => rfl
    | next node =>
        have node_ne : node ≠ new := fun same => differ (same ▸ rfl)
        simp [Links.append, node_ne]
  · intro node member
    have node_ne : node ≠ new := fun same => unused (same ▸ member)
    simp [Links.append, node_ne]
  · intro node member
    have node_ne : node ≠ new := fun same => unused (same ▸ member)
    simp [Links.append, node_ne]

end SameOn

theorem Chain.frame (chain : Chain links place before nodes)
    (same : SameOn links after place nodes) : Chain after place before nodes := by
  induction nodes generalizing place before with
  | nil => exact same.read.trans chain
  | cons first rest ih =>
      obtain ⟨pointed, nonzero, back, tail⟩ := chain
      refine ⟨same.read.trans pointed, nonzero, ?_, ih tail ⟨?_, ?_, ?_⟩⟩
      · exact (same.prev first List.mem_cons_self).trans back
      · exact same.next first List.mem_cons_self
      · exact fun node member => same.next node (List.mem_cons_of_mem _ member)
      · exact fun node member => same.prev node (List.mem_cons_of_mem _ member)

/-- A chain cut behind its first nodes may go on differently. -/
theorem Chain.splice {rest : List Nat} (chain : Chain links place before (left ++ right))
    (nodup : left.Nodup) (fresh : ∀ node ∈ left, place ≠ .next node)
    (read : ∀ other, (other = place ∨ ∃ node ∈ left, other = .next node) →
      other ≠ endPlace place left → after.read other = links.read other)
    (prev : ∀ node ∈ left, after.prev node = links.prev node)
    (tail : Chain after (endPlace place left) (endNode before left) rest) :
    Chain after place before (left ++ rest) := by
  induction left generalizing place before with
  | nil => exact tail
  | cons first others ih =>
      obtain ⟨pointed, nonzero, back, inner⟩ := chain
      obtain ⟨absent, nodup⟩ := List.nodup_cons.mp nodup
      have apart : place ≠ endPlace place (first :: others) := by
        intro same
        rcases endPlace_mem (.next first) others with atFirst | ⟨node, member, atNode⟩
        · exact fresh first List.mem_cons_self (same.trans atFirst)
        · exact fresh node (List.mem_cons_of_mem _ member) (same.trans atNode)
      refine ⟨(read place (.inl rfl) apart).trans pointed, nonzero, ?_, ih inner nodup ?_ ?_ ?_ tail⟩
      · exact (prev first List.mem_cons_self).trans back
      · intro node member same
        obtain rfl : first = node := by simpa using same
        exact absent member
      · rintro other (rfl | ⟨node, member, rfl⟩) differ
        · exact read _ (.inr ⟨first, List.mem_cons_self, rfl⟩) differ
        · exact read _ (.inr ⟨node, List.mem_cons_of_mem _ member, rfl⟩) differ
      · exact fun node member => prev node (List.mem_cons_of_mem _ member)

/-- The places a chain is read through are all different. -/
structure Distinct (place : Place) (nodes : List Nat) : Prop where
  nodup : nodes.Nodup
  fresh : ∀ node ∈ nodes, place ≠ .next node

theorem Distinct.head (nodup : nodes.Nodup) : Distinct (.head slot) nodes :=
  ⟨nodup, fun _ _ same => by cases same⟩

/-- Behind the first nodes of a chain the rest of it is untouched by stores at
the place between them. -/
theorem Distinct.endPlace_ne (distinct : Distinct place (left ++ right))
    (member : node ∈ right) : endPlace place left ≠ .next node := by
  intro same
  rcases endPlace_mem place left with atPlace | ⟨other, inside, atOther⟩
  · exact distinct.fresh node (List.mem_append_right _ member) (atPlace ▸ same)
  · obtain rfl : other = node := by simpa [atOther] using same
    exact (List.nodup_append.mp distinct.nodup).2.2 other inside other member rfl

theorem Chain.unlink (chain : Chain links place before (left ++ node :: right))
    (distinct : Distinct place (left ++ node :: right)) :
    Chain (links.unlink (endPlace place left) node) place before (left ++ right) := by
  obtain ⟨_, _, back, rest⟩ := chain.tail
  obtain ⟨nodupLeft, nodupRight, disjoint⟩ := List.nodup_append.mp distinct.nodup
  have next_cases : links.next node = 0 ∨ links.next node ∈ right := rest.read_mem
  refine chain.splice nodupLeft
    (fun other member => distinct.fresh other (List.mem_append_left _ member)) ?_ ?_ ?_
  · intro other _ differ
    rw [Links.unlink, Links.read_setPrev, Links.read_write_ne _ _ differ]
  · intro other member
    rw [Links.unlink]
    rcases next_cases with ended | inside
    · rw [ended, Links.setPrev, if_pos rfl, Links.prev_write]
    · have apart : other ≠ links.next node :=
        disjoint other member _ (List.mem_cons_of_mem _ inside)
      rw [Links.prev_setPrev_ne _ _ apart, Links.prev_write]
  · cases right with
    | nil =>
        change (links.unlink (endPlace place left) node).read (endPlace place left) = 0
        rw [Links.unlink, Links.read_setPrev, Links.read_write_self]
        exact rest
    | cons second others =>
        obtain ⟨pointed, nonzero, _, others_chain⟩ := rest
        simp only [Links.read_next] at pointed
        have later : ∀ other ∈ second :: others, endPlace place left ≠ .next other :=
          fun other member => distinct.endPlace_ne (List.mem_cons_of_mem _ member)
        rw [Links.unlink, pointed, back]
        refine ⟨by rw [Links.read_setPrev, Links.read_write_self], nonzero,
          Links.prev_setPrev_self _ _ nonzero, others_chain.frame ?_⟩
        have absent : second ∉ others :=
          (List.nodup_cons.mp (List.nodup_cons.mp nodupRight).2).1
        exact (SameOn.write (later second List.mem_cons_self).symm
          fun other member => later other (List.mem_cons_of_mem _ member)).trans
            (SameOn.setPrev absent)

theorem Chain.move {old new : Nat} (chain : Chain links place before (left ++ old :: right))
    (distinct : Distinct place (left ++ old :: right)) (nonzero : new ≠ 0)
    (unused : new ∉ left ++ old :: right) (apart : place ≠ .next new) :
    Chain (links.move (endPlace place left) old new) place before (left ++ new :: right) := by
  obtain ⟨_, _, back, rest⟩ := chain.tail
  obtain ⟨nodupLeft, nodupRight, disjoint⟩ := List.nodup_append.mp distinct.nodup
  have next_cases : links.next old = 0 ∨ links.next old ∈ right := rest.read_mem
  have unusedLeft : new ∉ left := fun member => unused (List.mem_append_left _ member)
  have unusedRight : new ∉ right := fun member =>
    unused (List.mem_append_right _ (List.mem_cons_of_mem _ member))
  have end_apart : endPlace place left ≠ .next new := by
    intro same
    rcases endPlace_mem place left with atPlace | ⟨other, inside, atOther⟩
    · exact apart (atPlace ▸ same)
    · obtain rfl : other = new := by simpa [atOther] using same
      exact unusedLeft inside
  have new_ne : new ≠ links.next old := by
    rcases next_cases with ended | inside
    · exact ended ▸ nonzero
    · rintro rfl
      exact unusedRight inside
  refine chain.splice nodupLeft
    (fun other member => distinct.fresh other (List.mem_append_left _ member)) ?_ ?_ ?_
  · intro other read_through differ
    have other_apart : other ≠ .next new := by
      rcases read_through with rfl | ⟨node, member, rfl⟩
      · exact apart
      · intro same
        obtain rfl : node = new := by simpa using same
        exact unusedLeft member
    rw [Links.move, Links.read_setPrev, Links.read_write_ne _ _ differ,
      Links.read_copy_ne _ other_apart]
  · intro other member
    have other_ne : other ≠ new := by
      rintro rfl
      exact unusedLeft member
    have kept : (links.copy old new).prev other = links.prev other := by
      simp [Links.copy, other_ne]
    rw [Links.move]
    rcases next_cases with ended | inside
    · rw [ended, Links.setPrev, if_pos rfl, Links.prev_write, kept]
    · have differ : other ≠ links.next old :=
        disjoint other member _ (List.mem_cons_of_mem _ inside)
      rw [Links.prev_setPrev_ne _ _ differ, Links.prev_write, kept]
  · refine ⟨?_, nonzero, ?_, ?_⟩
    · rw [Links.move, Links.read_setPrev, Links.read_write_self]
    · rw [Links.move, Links.prev_setPrev_ne _ _ new_ne, Links.prev_write, ← back]
      simp [Links.copy]
    · have next_new : (links.move (endPlace place left) old new).read (.next new) =
          links.next old := by
        rw [Links.move, Links.read_setPrev, Links.read_write_ne _ _ end_apart.symm]
        simp [Links.copy]
      cases right with
      | nil => exact next_new.trans rest
      | cons second others =>
          obtain ⟨pointed, second_nonzero, _, others_chain⟩ := rest
          simp only [Links.read_next] at pointed
          have later : ∀ other ∈ second :: others, endPlace place left ≠ .next other :=
            fun other member => distinct.endPlace_ne (List.mem_cons_of_mem _ member)
          refine ⟨next_new.trans pointed, second_nonzero, ?_, others_chain.frame ?_⟩
          · rw [Links.move, pointed, Links.prev_setPrev_self _ _ second_nonzero]
          · have differ : Place.next second ≠ .next new := by
              intro same
              obtain rfl : second = new := by simpa using same
              exact unusedRight List.mem_cons_self
            refine SameOn.move (later second List.mem_cons_self).symm
              (fun other member => later other (List.mem_cons_of_mem _ member)) ?_ differ
              (fun member => unusedRight (List.mem_cons_of_mem _ member))
            rw [pointed]
            exact (List.nodup_cons.mp (List.nodup_cons.mp nodupRight).2).1

theorem Chain.append {new : Nat} (chain : Chain links place before nodes)
    (distinct : Distinct place nodes) (nonzero : new ≠ 0) (unused : new ∉ nodes)
    (apart : place ≠ .next new) :
    Chain (links.append (endPlace place nodes) (endNode before nodes) new) place before
      (nodes ++ [new]) := by
  have end_apart : endPlace place nodes ≠ .next new := by
    intro same
    rcases endPlace_mem place nodes with atPlace | ⟨other, inside, atOther⟩
    · exact apart (atPlace ▸ same)
    · obtain rfl : other = new := by simpa [atOther] using same
      exact unused inside
  have read_append {other : Place} (differ : other ≠ .next new) :
      (links.append (endPlace place nodes) (endNode before nodes) new).read other =
        (links.write (endPlace place nodes) new).read other := by
    cases other with
    | head slot => rfl
    | next node =>
        have node_ne : node ≠ new := fun same => differ (same ▸ rfl)
        simp [Links.append, node_ne]
  have whole : Chain links place before (nodes ++ []) := by rwa [List.append_nil]
  apply whole.splice distinct.nodup distinct.fresh
  · intro other read_through differ
    have other_apart : other ≠ .next new := by
      rcases read_through with rfl | ⟨node, member, rfl⟩
      · exact apart
      · intro same
        obtain rfl : node = new := by simpa using same
        exact unused member
    rw [read_append other_apart, Links.read_write_ne _ _ differ]
  · intro other member
    have other_ne : other ≠ new := by
      rintro rfl
      exact unused member
    simp [Links.append, other_ne]
  · refine ⟨?_, nonzero, ?_, ?_⟩
    · rw [read_append end_apart, Links.read_write_self]
    · simp [Links.append]
    · change (links.append _ _ new).next new = 0
      simp [Links.append]

end Smmboss.Linked
