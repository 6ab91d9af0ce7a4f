import Smmboss.Foundation.NamedWalk

namespace Smmboss.World

open Smmboss.NamedWalk (Graph Outcome Entries)

/-! # Exporting the class layouts

`json_info_for_build` walks the classes from the exported ones and stores what
it finds under their `__name__`.
-/

structure Property (Cls : Type u) where
  key : String
  offset : Int
  ptrCls : Cls

/-- What `add_info_for` asks a class for.  `sizeof` is `sizeof_star` unless that
is missing or a `property`; `properties` is what `_properties` gives. -/
inductive ClsDef (Cls : Type u) where
  | struct (base : Option Cls) (sizeof : Option Int) (properties : List (Property Cls))
  | ptr (valTy : Cls)
  | fixedArray (count : Nat) (valPtrTy : Cls)
  | primitive
  | unknown

/-- `cls_info`.  A struct's `props` are its assignments in order. -/
inductive ClsInfo where
  | struct (sizeof : Option Int) (base : Option String) (props : List (String × Int × String))
  | ptr (valCls : String)
  | fixedArray (count : Nat) (valPtrCls : String)
  | primitive
deriving Repr, DecidableEq

structure Classes (Cls : Type u) where
  name : Cls → String
  classDef : Cls → ClsDef Cls

namespace Classes

variable {Cls : Type u}

/-- The classes that `add_info_for` calls itself on, in order. -/
def references (classes : Classes Cls) (cls : Cls) : List Cls :=
  match classes.classDef cls with
  | .struct base _ properties => base.toList ++ properties.map Property.ptrCls
  | .ptr valTy => [valTy]
  | .fixedArray _ valPtrTy => [valPtrTy]
  | .primitive | .unknown => []

/-- The `cls_info` of a class; `none` is the exception for an unknown kind. -/
def clsInfo (classes : Classes Cls) (cls : Cls) : Option ClsInfo :=
  match classes.classDef cls with
  | .struct base sizeof properties =>
      some (.struct sizeof (base.map classes.name) (properties.map fun property =>
        (property.key, property.offset, classes.name property.ptrCls)))
  | .ptr valTy => some (.ptr (classes.name valTy))
  | .fixedArray count valPtrTy => some (.fixedArray count (classes.name valPtrTy))
  | .primitive => some .primitive
  | .unknown => none

def graph (classes : Classes Cls) : Graph Cls String ClsInfo where
  name := classes.name
  children := classes.references
  describe := classes.clsInfo

/-- `add_info_for`, to a depth of recursion: the name is entered with `None`, the
referenced classes are added, and the entry is replaced by the class's own. -/
def addInfoFor (classes : Classes Cls) :
    Nat → Cls → Entries String ClsInfo → Outcome (Entries String ClsInfo) :=
  classes.graph.visit

/-- `cls_infos` at the end of `json_info_for_build`. -/
def jsonInfoForBuild (classes : Classes Cls) (depth : Nat) (classesToExport : List Cls) :
    Outcome (Entries String ClsInfo) :=
  NamedWalk.visitAll (classes.addInfoFor depth) classesToExport fun _ => none

end Classes

/-- The names by which an entry refers to other classes. -/
def ClsInfo.refs : ClsInfo → List String
  | .struct _ base props => base.toList ++ props.map fun prop => prop.2.2
  | .ptr valCls => [valCls]
  | .fixedArray _ valPtrCls => [valPtrCls]
  | .primitive => []

namespace Classes

variable {Cls : Type u} {classes : Classes Cls}

/-- An entry refers to the classes that were added for it. -/
theorem refs_clsInfo (cls : Cls) (info : ClsInfo) (described : classes.clsInfo cls = some info) :
    info.refs = (classes.references cls).map classes.name := by
  unfold clsInfo at described
  unfold references
  cases kind : classes.classDef cls with
  | struct base sizeof properties =>
      rw [kind] at described
      cases described
      cases base <;> simp [ClsInfo.refs]
  | ptr valTy =>
      rw [kind] at described
      cases described
      rfl
  | fixedArray count valPtrTy =>
      rw [kind] at described
      cases described
      rfl
  | primitive =>
      rw [kind] at described
      cases described
      rfl
  | unknown =>
      rw [kind] at described
      cases described

/-- Every class reachable from the exported ones has its own layout under its name. -/
def Exported (classes : Classes Cls) (roots : List Cls) (infos : Entries String ClsInfo) : Prop :=
  ∀ cls, classes.graph.Reachable roots cls →
    ∃ info, classes.clsInfo cls = some info ∧ infos (classes.name cls) = some (some info)

/-- Reachable classes of one name have one layout, and all have a known kind. -/
structure NamesTell (classes : Classes Cls) (roots : List Cls) : Prop where
  known : ∀ cls, classes.graph.Reachable roots cls → (classes.clsInfo cls).isSome
  same : ∀ first second, classes.graph.Reachable roots first →
    classes.graph.Reachable roots second → classes.name first = classes.name second →
      classes.clsInfo first = classes.clsInfo second

/-- The export ends on every finite class graph, and is faithful exactly if the
names of the reachable classes tell their layouts apart. -/
theorem jsonInfoForBuild_exported_iff {roots all : List Cls}
    (closed : ∀ cls ∈ all, ∀ other ∈ classes.references cls, other ∈ all)
    (rooted : ∀ root ∈ roots, root ∈ all) :
    (∀ depth, all.length < depth → classes.jsonInfoForBuild depth roots ≠ .exhausted) ∧
      ((∀ depth, all.length < depth → ∃ infos,
          classes.jsonInfoForBuild depth roots = .done infos ∧ classes.Exported roots infos) ↔
        classes.NamesTell roots) := by
  have ends : ∀ depth, all.length < depth →
      classes.jsonInfoForBuild depth roots ≠ .exhausted := by
    intro depth deep
    apply @Graph.visitAll_ends _ _ _ classes.graph all _ _ depth all.length roots
    · intro root member entries few
      exact Graph.visit_ends closed (rooted root member) (Nat.lt_of_le_of_lt few deep)
    · exact List.countP_le_length
  refine ⟨ends, ?_⟩
  constructor
  · intro exported
    obtain ⟨infos, -, faithful⟩ := exported (all.length + 1) (Nat.lt_succ_self _)
    have unambiguous := @Graph.Faithful.unambiguous _ _ _ classes.graph _ _ faithful
    exact ⟨unambiguous.described, unambiguous.named⟩
  · intro tell depth deep
    have unambiguous : classes.graph.Unambiguous roots := ⟨tell.known, tell.same⟩
    cases ran : classes.jsonInfoForBuild depth roots with
    | exhausted => exact absurd ran (ends depth deep)
    | raised =>
        refine absurd ran (Graph.visitAll_described ?_)
        intro root member entries
        exact Graph.visit_described fun cls path => tell.known cls ⟨root, member, path⟩
    | done infos => exact ⟨infos, rfl, unambiguous.faithful refs_clsInfo ran⟩

end Classes

/-! ## Declared classes -/

inductive NodeCls where
  | seadListNode
  | ptrSeadListNode
deriving DecidableEq

/-- `SeadListNode`, whose links point to its own class. -/
def seadListNodeClasses : Classes NodeCls where
  name
    | .seadListNode => "SeadListNode"
    | .ptrSeadListNode => "ptr_to(SeadListNode)"
  classDef
    | .seadListNode => .struct none none [⟨"prev", 0, .ptrSeadListNode⟩, ⟨"next", 8, .ptrSeadListNode⟩]
    | .ptrSeadListNode => .ptr .seadListNode

theorem seadListNode_exported : ∃ infos,
    seadListNodeClasses.jsonInfoForBuild 3 [.seadListNode] = .done infos ∧
      seadListNodeClasses.Exported [.seadListNode] infos :=
  (@Classes.jsonInfoForBuild_exported_iff _ seadListNodeClasses [.seadListNode]
    [.seadListNode, .ptrSeadListNode] (by decide) (by decide)).2.mpr
    { known := by
        intro cls _
        cases cls <;> rfl
      same := by
        intro first second _ _ same
        cases first <;> cases second <;> first | rfl | exact absurd same (by decide) }
    3 (by decide)

inductive StateMgrCls where
  | stateMgr
  | countPtrStateMgrState
  | countPtrFancyString
  | ptrStateMgrState
  | ptrFancyString
  | stateMgrState
  | fancyString
  | guestPtrToMemberFunction
  | ptrGuestPtr
  | guestPtr
  | ptrGuestCString
  | guestCString
  | u32
  | u64
deriving DecidableEq

/-- `StateMgr`, with two arrays that `count4_ptr` made. -/
def stateMgrClasses : Classes StateMgrCls where
  name
    | .stateMgr => "StateMgr"
    | .countPtrStateMgrState | .countPtrFancyString => "CountPtr"
    | .ptrStateMgrState => "ptr_to(StateMgrState)"
    | .ptrFancyString => "ptr_to(FancyString)"
    | .stateMgrState => "StateMgrState"
    | .fancyString => "FancyString"
    | .guestPtrToMemberFunction => "GuestPtrToMemberFunction"
    | .ptrGuestPtr => "ptr_to(GuestPtr)"
    | .guestPtr => "GuestPtr"
    | .ptrGuestCString => "ptr_to(GuestCString)"
    | .guestCString => "GuestCString"
    | .u32 => "u32"
    | .u64 => "u64"
  classDef
    | .stateMgr => .struct none none [⟨"counter", 0xc, .u32⟩, ⟨"state", 0x8, .u32⟩,
        ⟨"state_objs", 0x28, .countPtrStateMgrState⟩, ⟨"names", 0x38, .countPtrFancyString⟩]
    | .countPtrStateMgrState =>
        .struct none (some 16) [⟨"count", 0, .u32⟩, ⟨"base", 8, .ptrStateMgrState⟩]
    | .countPtrFancyString =>
        .struct none (some 16) [⟨"count", 0, .u32⟩, ⟨"base", 8, .ptrFancyString⟩]
    | .ptrStateMgrState => .ptr .stateMgrState
    | .ptrFancyString => .ptr .fancyString
    | .stateMgrState => .struct none (some 0x40) [⟨"vtable", 0, .u64⟩, ⟨"target", 8, .ptrGuestPtr⟩,
        ⟨"cb_in", 0x10, .guestPtrToMemberFunction⟩, ⟨"cb_tick", 0x20, .guestPtrToMemberFunction⟩,
        ⟨"cb_out", 0x30, .guestPtrToMemberFunction⟩]
    | .fancyString =>
        .struct none (some 0x10) [⟨"vtable", 0, .u64⟩, ⟨"cstr", 8, .ptrGuestCString⟩]
    | .guestPtrToMemberFunction => .struct none none [⟨"word1", 0, .u64⟩, ⟨"word2", 8, .u64⟩]
    | .ptrGuestPtr => .ptr .guestPtr
    | .ptrGuestCString => .ptr .guestCString
    | .guestPtr | .guestCString | .u32 | .u64 => .primitive

/-- The two arrays of a `StateMgr` share the entry `CountPtr`. -/
theorem stateMgr_not_exported :
    ¬ ∃ depth infos, stateMgrClasses.jsonInfoForBuild depth [.stateMgr] = .done infos ∧
      stateMgrClasses.Exported [.stateMgr] infos := by
  intro ⟨_, infos, _, exported⟩
  have root : StateMgrCls.stateMgr ∈ [StateMgrCls.stateMgr] := by decide
  have states : StateMgrCls.countPtrStateMgrState ∈ stateMgrClasses.references .stateMgr := by decide
  have names : StateMgrCls.countPtrFancyString ∈ stateMgrClasses.references .stateMgr := by decide
  obtain ⟨first, firstInfo, firstEntry⟩ :=
    exported .countPtrStateMgrState ⟨.stateMgr, root, .single states⟩
  obtain ⟨second, secondInfo, secondEntry⟩ :=
    exported .countPtrFancyString ⟨.stateMgr, root, .single names⟩
  have shared : stateMgrClasses.name .countPtrStateMgrState =
      stateMgrClasses.name .countPtrFancyString := rfl
  rw [shared, secondEntry] at firstEntry
  cases firstEntry
  rw [← firstInfo] at secondInfo
  exact absurd secondInfo (by decide)

end Smmboss.World
