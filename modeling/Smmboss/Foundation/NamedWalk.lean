import Mathlib.Logic.Function.Basic
import Mathlib.Logic.Relation
import Mathlib.Data.List.Basic

namespace Smmboss.NamedWalk

/-! # Walking a graph by the names of its nodes

A depth-first walk that marks what it has seen by name.  Nodes that share a name
share an entry, so what is stored under a name describes the first of them.
-/

inductive Outcome (α : Type u) where
  | done (value : α)
  | raised
  | exhausted

namespace Outcome

def andThen {α : Type u} {β : Type v} : Outcome α → (α → Outcome β) → Outcome β
  | .done value, next => next value
  | .raised, _ => .raised
  | .exhausted, _ => .exhausted

theorem andThen_eq_done {α : Type u} {β : Type v} {first : Outcome α} {next : α → Outcome β}
    {result : β} : first.andThen next = .done result ↔
      ∃ value, first = .done value ∧ next value = .done result := by
  cases first with
  | done value => simp [andThen]
  | raised => simp [andThen]
  | exhausted => simp [andThen]

end Outcome

structure Graph (Node : Type u) (Name : Type v) (Info : Type w) where
  name : Node → Name
  children : Node → List Node
  /-- What is to be stored for a node, if anything can. -/
  describe : Node → Option Info

/-- A name is marked before its entry is there. -/
abbrev Entries (Name : Type v) (Info : Type w) := Name → Option (Option Info)

variable {Node : Type u} {Name : Type v} {Info : Type w}

def visitAll (visit : Node → Entries Name Info → Outcome (Entries Name Info)) :
    List Node → Entries Name Info → Outcome (Entries Name Info)
  | [], entries => .done entries
  | node :: rest, entries => (visit node entries).andThen (visitAll visit rest)

namespace Graph

def store [DecidableEq Name] (graph : Graph Node Name Info) (node : Node) (entries : Entries Name Info) :
    Outcome (Entries Name Info) :=
  match graph.describe node with
  | some info => .done (Function.update entries (graph.name node) (some (some info)))
  | none => .raised

/-- The walk from a node, to that depth. -/
def visit [DecidableEq Name] (graph : Graph Node Name Info) :
    Nat → Node → Entries Name Info → Outcome (Entries Name Info)
  | 0, _, _ => .exhausted
  | depth + 1, node, entries =>
      if (entries (graph.name node)).isSome then .done entries
      else
        (visitAll (graph.visit depth) (graph.children node)
          (Function.update entries (graph.name node) (some none))).andThen (graph.store node)

def Child (graph : Graph Node Name Info) (parent child : Node) : Prop :=
  child ∈ graph.children parent

def Reachable (graph : Graph Node Name Info) (roots : List Node) (node : Node) : Prop :=
  ∃ root ∈ roots, Relation.ReflTransGen graph.Child root node

/-- What a finished walk has done to the entries: it kept the old ones, and each
new one describes a node it came to, whose children have entries too. -/
structure Walked (graph : Graph Node Name Info) (source : Node → Prop)
    (before after : Entries Name Info) : Prop where
  kept : ∀ name entry, before name = some entry → after name = some entry
  fresh : ∀ name entry, before name = none → after name = some entry →
    ∃ node, source node ∧ graph.name node = name ∧
      ∃ info, graph.describe node = some info ∧ entry = some info ∧
        ∀ child ∈ graph.children node, (after (graph.name child)).isSome

section

variable {graph : Graph Node Name Info} {source : Node → Prop}
  {before middle after : Entries Name Info}

theorem Walked.refl (graph : Graph Node Name Info) (source : Node → Prop)
    (entries : Entries Name Info) : graph.Walked source entries entries where
  kept := fun _ _ same => same
  fresh := fun _ _ missing found => by
    rw [missing] at found
    cases found

theorem Walked.isSome (walked : graph.Walked source before after) {name : Name}
    (found : (before name).isSome) : (after name).isSome := by
  obtain ⟨entry, found⟩ := Option.isSome_iff_exists.mp found
  rw [walked.kept name entry found]
  rfl

theorem Walked.trans (first : graph.Walked source before middle)
    (second : graph.Walked source middle after) : graph.Walked source before after where
  kept := fun name entry found => second.kept name entry (first.kept name entry found)
  fresh := by
    intro name entry missing found
    cases between : middle name with
    | none => exact second.fresh name entry between found
    | some early =>
        have same := second.kept name early between
        rw [found, Option.some_inj] at same
        subst same
        obtain ⟨node, origin, named, info, described, stored, children⟩ :=
          first.fresh name entry missing between
        exact ⟨node, origin, named, info, described, stored,
          fun child member => second.isSome (children child member)⟩

theorem Walked.mono {wider : Node → Prop} (wide : ∀ node, source node → wider node)
    (walked : graph.Walked source before after) : graph.Walked wider before after where
  kept := walked.kept
  fresh := by
    intro name entry missing found
    obtain ⟨node, origin, rest⟩ := walked.fresh name entry missing found
    exact ⟨node, wide node origin, rest⟩

theorem visitAll_walked {visit : Node → Entries Name Info → Outcome (Entries Name Info)}
    {nodes : List Node}
    (each : ∀ node ∈ nodes, ∀ before after, visit node before = .done after →
      graph.Walked source before after ∧ (after (graph.name node)).isSome)
    (ran : visitAll visit nodes before = .done after) :
    graph.Walked source before after ∧ ∀ node ∈ nodes, (after (graph.name node)).isSome := by
  induction nodes generalizing before with
  | nil =>
      cases ran
      exact ⟨.refl graph source _, fun node member => nomatch member⟩
  | cons node rest ih =>
      rw [visitAll, Outcome.andThen_eq_done] at ran
      obtain ⟨middle, first, others⟩ := ran
      obtain ⟨start, here⟩ := each node List.mem_cons_self before middle first
      obtain ⟨later, there⟩ :=
        ih (fun other member => each other (List.mem_cons_of_mem _ member)) others
      refine ⟨start.trans later, ?_⟩
      intro other member
      rcases List.mem_cons.mp member with rfl | member
      · exact later.isSome here
      · exact there other member

theorem visit_walked [DecidableEq Name] {depth : Nat} {node : Node} (ran : graph.visit depth node before = .done after) :
    graph.Walked (Relation.ReflTransGen graph.Child node) before after ∧
      (after (graph.name node)).isSome := by
  induction depth generalizing node before after with
  | zero => cases ran
  | succ depth ih =>
      rw [visit] at ran
      by_cases seen : (before (graph.name node)).isSome
      · rw [if_pos seen] at ran
        cases ran
        exact ⟨.refl graph _ _, seen⟩
      · have unseen := Option.not_isSome_iff_eq_none.mp seen
        rw [if_neg seen, Outcome.andThen_eq_done] at ran
        obtain ⟨middle, children, stored⟩ := ran
        have below : ∀ child ∈ graph.children node, ∀ before after,
            graph.visit depth child before = .done after →
              graph.Walked (Relation.ReflTransGen graph.Child node) before after ∧
                (after (graph.name child)).isSome := by
          intro child member before after ran
          obtain ⟨walked, here⟩ := ih ran
          exact ⟨walked.mono fun other path => .head member path, here⟩
        obtain ⟨walked, there⟩ := visitAll_walked below children
        unfold store at stored
        cases described : graph.describe node with
        | none =>
            rw [described] at stored
            cases stored
        | some info =>
            rw [described] at stored
            cases stored
            have grown (name : Name) (found : (middle name).isSome) :
                (Function.update middle (graph.name node) (some (some info)) name).isSome := by
              by_cases same : name = graph.name node
              · rw [same, Function.update_self]
                rfl
              · rw [Function.update_of_ne same]
                exact found
            refine ⟨⟨?_, ?_⟩, by rw [Function.update_self]; rfl⟩
            · intro name entry found
              have other : name ≠ graph.name node := by
                intro same
                rw [same, unseen] at found
                cases found
              rw [Function.update_of_ne other]
              exact walked.kept name entry (by rw [Function.update_of_ne other]; exact found)
            · intro name entry missing found
              by_cases same : name = graph.name node
              · subst same
                rw [Function.update_self] at found
                cases found
                exact ⟨node, .refl, rfl, info, described, rfl,
                  fun child member => grown _ (there child member)⟩
              · rw [Function.update_of_ne same] at found
                obtain ⟨other, path, named, otherInfo, isInfo, stored, children⟩ :=
                  walked.fresh name entry (by rw [Function.update_of_ne same]; exact missing) found
                exact ⟨other, path, named, otherInfo, isInfo, stored,
                  fun child member => grown _ (children child member)⟩

end

/-! ## The walk ends -/

section

variable {graph : Graph Node Name Info} {nodes : List Node} {before after entries : Entries Name Info}

def unseen (graph : Graph Node Name Info) (nodes : List Node) (entries : Entries Name Info) : Nat :=
  nodes.countP fun node => (entries (graph.name node)).isNone

theorem unseen_le (graph : Graph Node Name Info) (nodes : List Node)
    (grown : ∀ name, (before name).isSome → (after name).isSome) :
    graph.unseen nodes after ≤ graph.unseen nodes before := by
  apply List.countP_mono_left
  intro node _ missing
  rw [Option.isNone_iff_eq_none] at missing ⊢
  by_contra found
  have there := grown _ (Option.isSome_iff_ne_none.mpr found)
  rw [missing] at there
  cases there

theorem unseen_lt [DecidableEq Name] {node : Node} (member : node ∈ nodes)
    (missing : before (graph.name node) = none) (entry : Option Info) :
    graph.unseen nodes (Function.update before (graph.name node) (some entry)) <
      graph.unseen nodes before := by
  have grown : ∀ name, (before name).isSome →
      (Function.update before (graph.name node) (some entry) name).isSome := by
    intro name found
    by_cases same : name = graph.name node
    · rw [same, Function.update_self]
      rfl
    · rw [Function.update_of_ne same]
      exact found
  obtain ⟨front, back, rfl⟩ := List.append_of_mem member
  have left := unseen_le graph front grown
  have right := unseen_le graph back grown
  unfold unseen at *
  simp only [List.countP_append, List.countP_cons, missing, Function.update_self,
    Option.isNone_some, Option.isNone_none, Bool.false_eq_true, if_false, if_true]
  omega

theorem visitAll_ends [DecidableEq Name] {depth bound : Nat} {starts : List Node}
    (each : ∀ node ∈ starts, ∀ entries, graph.unseen nodes entries ≤ bound →
      graph.visit depth node entries ≠ .exhausted)
    (few : graph.unseen nodes entries ≤ bound) :
    visitAll (graph.visit depth) starts entries ≠ .exhausted := by
  induction starts generalizing entries with
  | nil => exact nofun
  | cons node rest ih =>
      rw [visitAll]
      cases ran : graph.visit depth node entries with
      | exhausted => exact absurd ran (each node List.mem_cons_self entries few)
      | raised => exact nofun
      | done after =>
          apply ih (fun other member => each other (List.mem_cons_of_mem _ member))
          exact Nat.le_trans (unseen_le graph nodes fun name => (visit_walked ran).1.isSome) few

/-- The walk ends within a depth of as many nodes as the graph has. -/
theorem visit_ends [DecidableEq Name]
    (closed : ∀ node ∈ nodes, ∀ child ∈ graph.children node, child ∈ nodes) {depth : Nat}
    {node : Node} (member : node ∈ nodes) (few : graph.unseen nodes entries < depth) :
    graph.visit depth node entries ≠ .exhausted := by
  induction depth generalizing node entries with
  | zero => omega
  | succ depth ih =>
      rw [visit]
      by_cases seen : (entries (graph.name node)).isSome
      · rw [if_pos seen]
        exact nofun
      · have missing := Option.not_isSome_iff_eq_none.mp seen
        have less := unseen_lt member missing none
        have below : ∀ child ∈ graph.children node, ∀ later, graph.unseen nodes later ≤
            graph.unseen nodes (Function.update entries (graph.name node) (some none)) →
            graph.visit depth child later ≠ .exhausted := by
          intro child isChild later fewer
          exact ih (closed node member child isChild) (by omega)
        have children := visitAll_ends below (Nat.le_refl _)
        rw [if_neg seen]
        cases ran : visitAll (graph.visit depth) (graph.children node)
            (Function.update entries (graph.name node) (some none)) with
        | exhausted => exact absurd ran children
        | raised => exact nofun
        | done middle =>
            change graph.store node middle ≠ .exhausted
            unfold store
            cases graph.describe node <;> exact nofun

end

/-! ## What it raises on -/

section

variable {graph : Graph Node Name Info} {entries : Entries Name Info}

theorem visitAll_described {visit : Node → Entries Name Info → Outcome (Entries Name Info)}
    {starts : List Node} (each : ∀ node ∈ starts, ∀ entries, visit node entries ≠ .raised) :
    visitAll visit starts entries ≠ .raised := by
  induction starts generalizing entries with
  | nil => exact nofun
  | cons node rest ih =>
      rw [visitAll]
      cases ran : visit node entries with
      | exhausted => exact nofun
      | raised => exact absurd ran (each node List.mem_cons_self entries)
      | done after => exact ih (fun other member => each other (List.mem_cons_of_mem _ member))

theorem visit_described [DecidableEq Name] {depth : Nat} {node : Node}
    (described : ∀ other, Relation.ReflTransGen graph.Child node other →
      (graph.describe other).isSome) : graph.visit depth node entries ≠ .raised := by
  induction depth generalizing node entries with
  | zero => exact nofun
  | succ depth ih =>
      rw [visit]
      by_cases seen : (entries (graph.name node)).isSome
      · rw [if_pos seen]
        exact nofun
      · rw [if_neg seen]
        cases ran : visitAll (graph.visit depth) (graph.children node)
            (Function.update entries (graph.name node) (some none)) with
        | exhausted => exact nofun
        | raised =>
            refine absurd ran (visitAll_described ?_)
            intro child below entries
            exact ih fun other path => described other (.head below path)
        | done middle =>
            obtain ⟨info, here⟩ := Option.isSome_iff_exists.mp (described node .refl)
            change graph.store node middle ≠ .raised
            rw [store, here]
            exact nofun

end

/-! ## Faithful entries -/

def walk [DecidableEq Name] (graph : Graph Node Name Info) (depth : Nat) (roots : List Node) :
    Outcome (Entries Name Info) :=
  visitAll (graph.visit depth) roots fun _ => none

/-- The entry under the name of a reachable node describes that node. -/
def Faithful (graph : Graph Node Name Info) (roots : List Node) (entries : Entries Name Info) :
    Prop :=
  ∀ node, graph.Reachable roots node →
    ∃ info, graph.describe node = some info ∧ entries (graph.name node) = some (some info)

/-- Reachable nodes can be described, and alike where they have one name. -/
structure Unambiguous (graph : Graph Node Name Info) (roots : List Node) : Prop where
  described : ∀ node, graph.Reachable roots node → (graph.describe node).isSome
  named : ∀ first second, graph.Reachable roots first → graph.Reachable roots second →
    graph.name first = graph.name second → graph.describe first = graph.describe second

section

variable {graph : Graph Node Name Info} {roots : List Node} {entries : Entries Name Info}

theorem Faithful.unambiguous (faithful : graph.Faithful roots entries) :
    graph.Unambiguous roots where
  described := by
    intro node reachable
    obtain ⟨info, described, -⟩ := faithful node reachable
    rw [described]
    rfl
  named := by
    intro first second left right same
    obtain ⟨leftInfo, leftDescribed, leftEntry⟩ := faithful first left
    obtain ⟨rightInfo, rightDescribed, rightEntry⟩ := faithful second right
    rw [same, rightEntry] at leftEntry
    cases leftEntry
    rw [leftDescribed, rightDescribed]

/-- Where a description tells the names of a node's children, every reachable
node has a namesake that the walk came to. -/
theorem Unambiguous.faithful [DecidableEq Name] (unambiguous : graph.Unambiguous roots)
    {refs : Info → List Name}
    (references : ∀ node info, graph.describe node = some info →
      refs info = (graph.children node).map graph.name) {depth : Nat}
    (ran : graph.walk depth roots = .done entries) : graph.Faithful roots entries := by
  have each : ∀ root ∈ roots, ∀ before after, graph.visit depth root before = .done after →
      graph.Walked (graph.Reachable roots) before after ∧ (after (graph.name root)).isSome := by
    intro root member before after ran
    obtain ⟨walked, here⟩ := visit_walked ran
    exact ⟨walked.mono fun node path => ⟨root, member, path⟩, here⟩
  obtain ⟨walked, rooted⟩ := visitAll_walked each ran
  have namesake : ∀ node, graph.Reachable roots node → (entries (graph.name node)).isSome →
      ∃ info, graph.describe node = some info ∧ entries (graph.name node) = some (some info) ∧
        ∀ child ∈ graph.children node, (entries (graph.name child)).isSome := by
    intro node reachable found
    obtain ⟨entry, found⟩ := Option.isSome_iff_exists.mp found
    obtain ⟨other, otherReachable, named, info, described, rfl, children⟩ :=
      walked.fresh _ entry rfl found
    have alike := unambiguous.named other node otherReachable reachable named
    rw [described] at alike
    refine ⟨info, alike.symm, found, ?_⟩
    intro child member
    have name : graph.name child ∈ (graph.children other).map graph.name := by
      rw [← references other info described, references node info alike.symm]
      exact List.mem_map_of_mem member
    obtain ⟨twin, below, same⟩ := List.mem_map.mp name
    rw [← same]
    exact children twin below
  intro node ⟨root, member, path⟩
  suffices seen : (entries (graph.name node)).isSome by
    obtain ⟨info, described, entry, -⟩ := namesake node ⟨root, member, path⟩ seen
    exact ⟨info, described, entry⟩
  induction path with
  | refl => exact rooted root member
  | tail earlier last ih =>
      obtain ⟨info, -, -, children⟩ := namesake _ ⟨root, member, earlier⟩ ih
      exact children _ last

end

end Graph

end Smmboss.NamedWalk
