import Mathlib.Data.List.Basic

/-! # Walking a tree with a state

Trees of arrays and of objects with keyed members, over any leaves.  A walk visits
the leaves from left to right, replaces each, threads a state and may fail; the
containers stay.  When a leaf's replacement can be read off the state from its
visit on, the whole result is one map over the tree, read off the last state.
-/

namespace Smmboss

inductive Tree (Key Leaf : Type) where
  | leaf (value : Leaf)
  | array (items : List (Tree Key Leaf))
  | object (members : List (Key × Tree Key Leaf))

namespace Tree

variable {Key Leaf Out Next State : Type}

mutual

/-- The leaves in the order of a walk. -/
def leaves : Tree Key Leaf → List Leaf
  | .leaf value => [value]
  | .array items => itemsLeaves items
  | .object members => membersLeaves members

def itemsLeaves : List (Tree Key Leaf) → List Leaf
  | [] => []
  | item :: items => item.leaves ++ itemsLeaves items

def membersLeaves : List (Key × Tree Key Leaf) → List Leaf
  | [] => []
  | (_, value) :: members => value.leaves ++ membersLeaves members

end

mutual

def map (replace : Leaf → Out) : Tree Key Leaf → Tree Key Out
  | .leaf value => .leaf (replace value)
  | .array items => .array (mapItems replace items)
  | .object members => .object (mapMembers replace members)

def mapItems (replace : Leaf → Out) : List (Tree Key Leaf) → List (Tree Key Out)
  | [] => []
  | item :: items => item.map replace :: mapItems replace items

def mapMembers (replace : Leaf → Out) :
    List (Key × Tree Key Leaf) → List (Key × Tree Key Out)
  | [] => []
  | (key, value) :: members => (key, value.map replace) :: mapMembers replace members

end

mutual

def walk (visit : Leaf → State → Option (Out × State)) :
    Tree Key Leaf → State → Option (Tree Key Out × State)
  | .leaf value, state =>
      (visit value state).map fun (out, later) => (.leaf out, later)
  | .array items, state =>
      (walkItems visit items state).map fun (outs, later) => (.array outs, later)
  | .object members, state =>
      (walkMembers visit members state).map fun (outs, later) => (.object outs, later)

def walkItems (visit : Leaf → State → Option (Out × State)) :
    List (Tree Key Leaf) → State → Option (List (Tree Key Out) × State)
  | [], state => some ([], state)
  | item :: items, state => do
      let (out, state) ← item.walk visit state
      let (outs, state) ← walkItems visit items state
      return (out :: outs, state)

def walkMembers (visit : Leaf → State → Option (Out × State)) :
    List (Key × Tree Key Leaf) → State → Option (List (Key × Tree Key Out) × State)
  | [], state => some ([], state)
  | (key, value) :: members, state => do
      let (out, state) ← value.walk visit state
      let (outs, state) ← walkMembers visit members state
      return ((key, out) :: outs, state)

end

/-! ## Maps -/

mutual

theorem map_map (first : Leaf → Out) (second : Out → Next) : ∀ tree : Tree Key Leaf,
    (tree.map first).map second = tree.map (second ∘ first)
  | .leaf _ => rfl
  | .array items => congrArg Tree.array (mapItems_mapItems first second items)
  | .object members => congrArg Tree.object (mapMembers_mapMembers first second members)

theorem mapItems_mapItems (first : Leaf → Out) (second : Out → Next) :
    ∀ items : List (Tree Key Leaf),
      mapItems second (mapItems first items) = mapItems (second ∘ first) items
  | [] => rfl
  | item :: items => by
      rw [mapItems, mapItems, mapItems, map_map first second item,
        mapItems_mapItems first second items]

theorem mapMembers_mapMembers (first : Leaf → Out) (second : Out → Next) :
    ∀ members : List (Key × Tree Key Leaf),
      mapMembers second (mapMembers first members) = mapMembers (second ∘ first) members
  | [] => rfl
  | (key, value) :: members => by
      rw [mapMembers, mapMembers, mapMembers, map_map first second value,
        mapMembers_mapMembers first second members]

end

mutual

/-- Two maps of a tree agree exactly when they agree on its leaves. -/
theorem map_eq_map_iff (first second : Leaf → Out) : ∀ tree : Tree Key Leaf,
    tree.map first = tree.map second ↔ ∀ value ∈ tree.leaves, first value = second value
  | .leaf value => by simp [map, leaves]
  | .array items => by
      rw [map, map, leaves, Tree.array.injEq]
      exact mapItems_eq_mapItems_iff first second items
  | .object members => by
      rw [map, map, leaves, Tree.object.injEq]
      exact mapMembers_eq_mapMembers_iff first second members

theorem mapItems_eq_mapItems_iff (first second : Leaf → Out) : ∀ items : List (Tree Key Leaf),
    mapItems first items = mapItems second items ↔
      ∀ value ∈ itemsLeaves items, first value = second value
  | [] => by simp [mapItems, itemsLeaves]
  | item :: items => by
      rw [mapItems, mapItems, itemsLeaves, List.cons.injEq, map_eq_map_iff first second item,
        mapItems_eq_mapItems_iff first second items, List.forall_mem_append]

theorem mapMembers_eq_mapMembers_iff (first second : Leaf → Out) :
    ∀ members : List (Key × Tree Key Leaf),
      mapMembers first members = mapMembers second members ↔
        ∀ value ∈ membersLeaves members, first value = second value
  | [] => by simp [mapMembers, membersLeaves]
  | (key, value) :: members => by
      rw [mapMembers, mapMembers, membersLeaves, List.cons.injEq, Prod.mk.injEq,
        map_eq_map_iff first second value, mapMembers_eq_mapMembers_iff first second members,
        List.forall_mem_append]
      simp

end

mutual

theorem leaves_map (replace : Leaf → Out) : ∀ tree : Tree Key Leaf,
    (tree.map replace).leaves = tree.leaves.map replace
  | .leaf _ => rfl
  | .array items => itemsLeaves_mapItems replace items
  | .object members => membersLeaves_mapMembers replace members

theorem itemsLeaves_mapItems (replace : Leaf → Out) : ∀ items : List (Tree Key Leaf),
    itemsLeaves (mapItems replace items) = (itemsLeaves items).map replace
  | [] => rfl
  | item :: items => by
      rw [mapItems, itemsLeaves, itemsLeaves, leaves_map replace item,
        itemsLeaves_mapItems replace items, List.map_append]

theorem membersLeaves_mapMembers (replace : Leaf → Out) :
    ∀ members : List (Key × Tree Key Leaf),
      membersLeaves (mapMembers replace members) = (membersLeaves members).map replace
  | [] => rfl
  | (key, value) :: members => by
      rw [mapMembers, membersLeaves, membersLeaves, leaves_map replace value,
        membersLeaves_mapMembers replace members, List.map_append]

end

/-! ## Walks -/

/-- A visit's replacement is read off the state, then and at every later state, and
the invariant may speak of the leaves that have been visited. -/
structure Settles (visit : Leaf → State → Option (Out × State))
    (Inv : List Leaf → State → Prop) (out : State → Leaf → Out) : Prop where
  step : ∀ {visited value state replacement later}, Inv visited state →
    visit value state = some (replacement, later) →
      Inv (visited ++ [value]) later ∧ replacement = out later value
  keeps : ∀ {visited value state replacement later}, Inv visited state →
    visit value state = some (replacement, later) →
      ∀ earlier ∈ visited, out later earlier = out state earlier

section Walk

variable {visit : Leaf → State → Option (Out × State)} {Inv : List Leaf → State → Prop}
  {out : State → Leaf → Out}

mutual

theorem walk_settles (settles : Settles visit Inv out) : ∀ (tree : Tree Key Leaf)
    {visited : List Leaf} {state later : State} {result : Tree Key Out},
    Inv visited state → tree.walk visit state = some (result, later) →
      Inv (visited ++ tree.leaves) later ∧ result = tree.map (out later) ∧
        ∀ earlier ∈ visited, out later earlier = out state earlier
  | .leaf value, visited, state, later, result, holds, ran => by
      rw [walk, Option.map_eq_some_iff] at ran
      obtain ⟨⟨replacement, reached⟩, visits, same⟩ := ran
      obtain ⟨rfl, rfl⟩ := Prod.mk.inj same
      obtain ⟨next, read⟩ := settles.step holds visits
      exact ⟨next, by rw [map, read], settles.keeps holds visits⟩
  | .array items, visited, state, later, result, holds, ran => by
      rw [walk, Option.map_eq_some_iff] at ran
      obtain ⟨⟨results, reached⟩, walks, same⟩ := ran
      obtain ⟨rfl, rfl⟩ := Prod.mk.inj same
      obtain ⟨next, rfl, kept⟩ := walkItems_settles settles items holds walks
      exact ⟨next, rfl, kept⟩
  | .object members, visited, state, later, result, holds, ran => by
      rw [walk, Option.map_eq_some_iff] at ran
      obtain ⟨⟨results, reached⟩, walks, same⟩ := ran
      obtain ⟨rfl, rfl⟩ := Prod.mk.inj same
      obtain ⟨next, rfl, kept⟩ := walkMembers_settles settles members holds walks
      exact ⟨next, rfl, kept⟩

theorem walkItems_settles (settles : Settles visit Inv out) : ∀ (items : List (Tree Key Leaf))
    {visited : List Leaf} {state later : State} {results : List (Tree Key Out)},
    Inv visited state → walkItems visit items state = some (results, later) →
      Inv (visited ++ itemsLeaves items) later ∧ results = mapItems (out later) items ∧
        ∀ earlier ∈ visited, out later earlier = out state earlier
  | [], visited, state, later, results, holds, ran => by
      rw [walkItems, Option.some_inj] at ran
      obtain ⟨rfl, rfl⟩ := Prod.mk.inj ran
      exact ⟨by rwa [itemsLeaves, List.append_nil], rfl, fun _ _ => rfl⟩
  | item :: items, visited, state, later, results, holds, ran => by
      simp only [walkItems, bind, Option.bind_eq_some_iff] at ran
      obtain ⟨⟨first, between⟩, walks, ⟨rest, last⟩, more, same⟩ := ran
      obtain ⟨rfl, rfl⟩ := Prod.mk.inj (Option.some_inj.mp same)
      obtain ⟨inner, rfl, kept⟩ := walk_settles settles item holds walks
      obtain ⟨next, rfl, keptOn⟩ := walkItems_settles settles items inner more
      refine ⟨by rwa [itemsLeaves, ← List.append_assoc], ?_, ?_⟩
      · rw [mapItems, List.cons.injEq]
        refine ⟨(map_eq_map_iff _ _ item).mpr ?_, rfl⟩
        intro value member
        exact (keptOn value (List.mem_append_right visited member)).symm
      · intro earlier member
        rw [keptOn earlier (List.mem_append_left _ member), kept earlier member]

theorem walkMembers_settles (settles : Settles visit Inv out) :
    ∀ (members : List (Key × Tree Key Leaf))
    {visited : List Leaf} {state later : State} {results : List (Key × Tree Key Out)},
    Inv visited state → walkMembers visit members state = some (results, later) →
      Inv (visited ++ membersLeaves members) later ∧ results = mapMembers (out later) members ∧
        ∀ earlier ∈ visited, out later earlier = out state earlier
  | [], visited, state, later, results, holds, ran => by
      rw [walkMembers, Option.some_inj] at ran
      obtain ⟨rfl, rfl⟩ := Prod.mk.inj ran
      exact ⟨by rwa [membersLeaves, List.append_nil], rfl, fun _ _ => rfl⟩
  | (key, value) :: members, visited, state, later, results, holds, ran => by
      simp only [walkMembers, bind, Option.bind_eq_some_iff] at ran
      obtain ⟨⟨first, between⟩, walks, ⟨rest, last⟩, more, same⟩ := ran
      obtain ⟨rfl, rfl⟩ := Prod.mk.inj (Option.some_inj.mp same)
      obtain ⟨inner, rfl, kept⟩ := walk_settles settles value holds walks
      obtain ⟨next, rfl, keptOn⟩ := walkMembers_settles settles members inner more
      refine ⟨by rwa [membersLeaves, ← List.append_assoc], ?_, ?_⟩
      · rw [mapMembers, List.cons.injEq, Prod.mk.injEq]
        refine ⟨⟨rfl, (map_eq_map_iff _ _ value).mpr ?_⟩, rfl⟩
        intro leaf member
        exact (keptOn leaf (List.mem_append_right visited member)).symm
      · intro earlier member
        rw [keptOn earlier (List.mem_append_left _ member), kept earlier member]

end

mutual

/-- A walk over leaves whose visits do not fail does not fail. -/
theorem walk_defined (settles : Settles visit Inv out) : ∀ (tree : Tree Key Leaf)
    {visited : List Leaf} {state : State}, Inv visited state →
    (∀ value ∈ tree.leaves, ∀ visited state, Inv visited state →
      ∃ replacement later, visit value state = some (replacement, later)) →
    ∃ result later, tree.walk visit state = some (result, later)
  | .leaf value, visited, state, holds, visits => by
      obtain ⟨replacement, later, visited⟩ :=
        visits value (List.mem_singleton_self value) visited state holds
      exact ⟨.leaf replacement, later, by rw [walk, visited, Option.map_some]⟩
  | .array items, visited, state, holds, visits => by
      obtain ⟨results, later, walked⟩ := walkItems_defined settles items holds visits
      exact ⟨.array results, later, by rw [walk, walked, Option.map_some]⟩
  | .object members, visited, state, holds, visits => by
      obtain ⟨results, later, walked⟩ := walkMembers_defined settles members holds visits
      exact ⟨.object results, later, by rw [walk, walked, Option.map_some]⟩

theorem walkItems_defined (settles : Settles visit Inv out) : ∀ (items : List (Tree Key Leaf))
    {visited : List Leaf} {state : State}, Inv visited state →
    (∀ value ∈ itemsLeaves items, ∀ visited state, Inv visited state →
      ∃ replacement later, visit value state = some (replacement, later)) →
    ∃ results later, walkItems visit items state = some (results, later)
  | [], _, state, _, _ => ⟨[], state, rfl⟩
  | item :: items, visited, state, holds, visits => by
      rw [itemsLeaves] at visits
      obtain ⟨first, between, walked⟩ := walk_defined settles item holds fun value member =>
        visits value (List.mem_append_left _ member)
      obtain ⟨inner, -, -⟩ := walk_settles settles item holds walked
      obtain ⟨rest, later, more⟩ := walkItems_defined settles items inner fun value member =>
        visits value (List.mem_append_right _ member)
      exact ⟨first :: rest, later, by simp [walkItems, walked, more]⟩

theorem walkMembers_defined (settles : Settles visit Inv out) :
    ∀ (members : List (Key × Tree Key Leaf))
    {visited : List Leaf} {state : State}, Inv visited state →
    (∀ value ∈ membersLeaves members, ∀ visited state, Inv visited state →
      ∃ replacement later, visit value state = some (replacement, later)) →
    ∃ results later, walkMembers visit members state = some (results, later)
  | [], _, state, _, _ => ⟨[], state, rfl⟩
  | (key, value) :: members, visited, state, holds, visits => by
      rw [membersLeaves] at visits
      obtain ⟨first, between, walked⟩ := walk_defined settles value holds fun leaf member =>
        visits leaf (List.mem_append_left _ member)
      obtain ⟨inner, -, -⟩ := walk_settles settles value holds walked
      obtain ⟨rest, later, more⟩ := walkMembers_defined settles members inner fun leaf member =>
        visits leaf (List.mem_append_right _ member)
      exact ⟨(key, first) :: rest, later, by simp [walkMembers, walked, more]⟩

end

end Walk

end Tree

end Smmboss
