import Smmboss.Space.MemoryMap

namespace Smmboss.Space

open Tiling

/-! # Finding the modules

`FindModules` asks for one range of the memory map after the other.  A module is
a code range, a read-only range and a data range in a row.
-/

namespace MemType

def CodeStatic : Nat := 3

def CodeMutable : Nat := 4

end MemType

namespace Perm

def R : Nat := 1

def Rw : Nat := 3

def Rx : Nat := 5

end Perm

namespace ModuleIndex

def Rtld : Nat := 0

def Main : Nat := 1

def Sdk : Nat := 12

def End : Nat := 13

end ModuleIndex

structure Range where
  m_Start : Nat := 0
  m_Size : Nat := 0
deriving DecidableEq

namespace Range

def GetEnd (range : Range) : Nat := (range.m_Start + range.m_Size) % 2 ^ 64

def InRange (range : Range) (value : Nat) : Prop := range.m_Start ≤ value ∧ value < range.GetEnd

instance (range : Range) (value : Nat) : Decidable (range.InRange value) := inferInstanceAs (Decidable (_ ∧ _))

end Range

structure ModuleInfo where
  m_Total : Range := {}
  m_Text : Range := {}
  m_Rodata : Range := {}
  m_Data : Range := {}
  m_Mod : Nat := 0
deriving DecidableEq

inductive State where
  | LookingForCodeStatic
  | ExpectingRodata
  | ExpectingData
deriving DecidableEq

inductive Abort where
  | TooManyStaticModules
  | noRtld
  | noMain
  | noSelf
deriving DecidableEq

/-- The tables with one entry a module, an entry being set in the bit set as well
or not at all. -/
abbrev Modules := List (Option ModuleInfo)

def noModules : Modules := List.replicate ModuleIndex.End none

/-- The variables of the loop. -/
structure Finder where
  meminfo : MemoryInfo := ⟨0, 0, 0, 0⟩
  offset : Nat := 0
  prevOffset : Nat := 0
  state : State := .LookingForCodeStatic
  nextModIdx : Nat := 0
  curModInfo : ModuleInfo := {}
  moduleInfos : Modules := noModules

def memtype (meminfo : MemoryInfo) : Nat := meminfo.type % 256

def isText (meminfo : MemoryInfo) : Bool := memtype meminfo = MemType.CodeStatic ∧ meminfo.perm = Perm.Rx

def isRodata (meminfo : MemoryInfo) : Bool := memtype meminfo = MemType.CodeStatic ∧ meminfo.perm = Perm.R

def isData (meminfo : MemoryInfo) : Bool := memtype meminfo = MemType.CodeMutable ∧ meminfo.perm = Perm.Rw

namespace Finder

def reset (finder : Finder) : Finder := { finder with curModInfo := {}, state := .LookingForCodeStatic }

section

variable (header_m_Mod0Offset : Nat → Nat)

/-- One turn of the loop, with the answer of the query. -/
def turn (finder : Finder) (meminfo : MemoryInfo) : Finder :=
  let finder := { finder with meminfo, prevOffset := finder.offset, offset := meminfo.addr }
  match finder.state with
  | .LookingForCodeStatic =>
      if ¬ isText meminfo then finder
      else
        { finder with
          curModInfo :=
            { finder.curModInfo with
              m_Total := { finder.curModInfo.m_Total with m_Start := meminfo.addr }
              m_Text := ⟨meminfo.addr, meminfo.size⟩ }
          state := .ExpectingRodata }
  | .ExpectingRodata =>
      if ¬ isRodata meminfo then finder.reset
      else
        { finder with
          curModInfo := { finder.curModInfo with m_Rodata := ⟨meminfo.addr, meminfo.size⟩ }
          state := .ExpectingData }
  | .ExpectingData =>
      if ¬ isData meminfo then finder.reset
      else
        let total := finder.curModInfo.m_Total
        let data : Range := ⟨meminfo.addr, meminfo.size⟩
        let text := finder.curModInfo.m_Text.m_Start
        let found : ModuleInfo :=
          { finder.curModInfo with
            m_Data := data
            m_Total := { total with m_Size := (data.GetEnd + 2 ^ 64 - total.m_Start) % 2 ^ 64 }
            m_Mod := (text + header_m_Mod0Offset text) % 2 ^ 64 }
        { finder with
          moduleInfos := finder.moduleInfos.set finder.nextModIdx (some found)
          nextModIdx := finder.nextModIdx + 1 }.reset

/-- The loop, which ends once the addresses have wrapped. -/
def loop (svcQueryMemory : Nat → MemoryInfo) : Nat → Finder → Option (Except Abort Finder)
  | 0, _ => none
  | fuel + 1, finder =>
      if ModuleIndex.End ≤ finder.nextModIdx then some (.error .TooManyStaticModules)
      else
        let finder := finder.turn header_m_Mod0Offset (svcQueryMemory finder.meminfo.next)
        if finder.offset ≥ finder.prevOffset then loop svcQueryMemory fuel finder else some (.ok finder)

end

end Finder

/-- The last module found is the SDK, unless it is in its place already. -/
def moveSdk (nextModIdx : Nat) (moduleInfos : Modules) : Modules :=
  if nextModIdx = ModuleIndex.End then moduleInfos
  else (moduleInfos.set ModuleIndex.Sdk (moduleInfos[nextModIdx - 1]?.getD none)).set (nextModIdx - 1) none

def selfIdx (module_start : Nat) (moduleInfos : Modules) : Option Nat :=
  moduleInfos.findIdx? fun entry => entry.any fun info => decide (info.m_Total.m_Start = module_start)

/-- The modules and the index of this one. -/
def finish (module_start nextModIdx : Nat) (moduleInfos : Modules) : Except Abort (Modules × Nat) :=
  if moduleInfos[ModuleIndex.Rtld]?.getD none = none then .error .noRtld
  else if moduleInfos[ModuleIndex.Main]?.getD none = none then .error .noMain
  else
    match selfIdx module_start (moveSdk nextModIdx moduleInfos) with
    | some s_SelfModuleIdx => .ok (moveSdk nextModIdx moduleInfos, s_SelfModuleIdx)
    | none => .error .noSelf

def FindModules (header_m_Mod0Offset : Nat → Nat) (svcQueryMemory : Nat → MemoryInfo) (module_start fuel : Nat) :
    Option (Except Abort (Modules × Nat)) :=
  (Finder.loop header_m_Mod0Offset svcQueryMemory fuel {}).map fun result =>
    match result with
    | .error abort => .error abort
    | .ok finder => finish module_start finder.nextModIdx finder.moduleInfos

/-- Entries that are there are asked in order. -/
def TryGetModule (moduleInfos : Modules) (pointer : Nat) : Option ModuleInfo :=
  moduleInfos.findSome? fun entry => entry.filter fun info => decide (info.m_Total.InRange pointer)

end Smmboss.Space
