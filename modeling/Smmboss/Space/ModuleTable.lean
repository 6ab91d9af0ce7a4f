import Smmboss.Space.FindModules

namespace Smmboss.Space

open Tiling

/-! # Which modules are found -/

variable {header : Nat → Nat}

variable (header) in
def moduleOf (text rodata data : MemoryInfo) : ModuleInfo where
  m_Total := ⟨text.addr, (data.next + 2 ^ 64 - text.addr) % 2 ^ 64⟩
  m_Text := ⟨text.addr, text.size⟩
  m_Rodata := ⟨rodata.addr, rodata.size⟩
  m_Data := ⟨data.addr, data.size⟩
  m_Mod := (text.addr + header text.addr) % 2 ^ 64

variable (header) in
/-- The modules of a map: its code, read-only and data ranges in a row. -/
def completeModules : List MemoryInfo → List ModuleInfo
  | text :: rodata :: data :: rest =>
      if isText text ∧ isRodata rodata ∧ isData data then
        moduleOf header text rodata data :: completeModules (rodata :: data :: rest)
      else completeModules (rodata :: data :: rest)
  | _ => []

variable (header) in
/-- What the loop takes for modules.  A range that disappoints it is not looked
at again, though it may be the code of a module. -/
def modulesOf : List MemoryInfo → List ModuleInfo
  | [] => []
  | [_] => []
  | [_, _] => []
  | text :: rodata :: data :: rest =>
      if ¬ isText text then modulesOf (rodata :: data :: rest)
      else if ¬ isRodata rodata then modulesOf (data :: rest)
      else if ¬ isData data then modulesOf rest
      else moduleOf header text rodata data :: modulesOf rest

/-- Every code range is that of a module, and no module is at the end of all addresses. -/
inductive Orderly : List MemoryInfo → Prop where
  | nil : Orderly []
  | other {first rest} : isText first = false → Orderly rest → Orderly (first :: rest)
  | module {text rodata data rest} : isText text = true → isRodata rodata = true → isData data = true → rest ≠ [] →
      Orderly rest → Orderly (text :: rodata :: data :: rest)

section Kinds

variable {meminfo : MemoryInfo}

theorem isText_of_isRodata (rodata : isRodata meminfo = true) : isText meminfo = false := by
  have perm : meminfo.perm = Perm.R := (of_decide_eq_true rodata).2
  refine decide_eq_false fun text => ?_
  exact absurd (perm.symm.trans text.2) (by decide)

theorem isText_of_isData (data : isData meminfo = true) : isText meminfo = false := by
  have perm : meminfo.perm = Perm.Rw := (of_decide_eq_true data).2
  refine decide_eq_false fun text => ?_
  exact absurd (perm.symm.trans text.2) (by decide)

end Kinds

theorem completeModules_skip {first : MemoryInfo} (other : isText first = false) (ranges : List MemoryInfo) :
    completeModules header (first :: ranges) = completeModules header ranges := by
  cases ranges with
  | nil => rfl
  | cons second ranges =>
      cases ranges with
      | nil => rfl
      | cons third ranges =>
          rw [completeModules, if_neg]
          simp [other]

theorem modulesOf_skip {first : MemoryInfo} (other : isText first = false) (ranges : List MemoryInfo) :
    modulesOf header (first :: ranges) = modulesOf header ranges := by
  cases ranges with
  | nil => rfl
  | cons second ranges =>
      cases ranges with
      | nil => rfl
      | cons third ranges => simp [modulesOf, other]

theorem completeModules_whole {text rodata data : MemoryInfo} (isText : isText text = true)
    (isRodata : isRodata rodata = true) (isData : isData data = true) (rest : List MemoryInfo) :
    completeModules header (text :: rodata :: data :: rest) =
      moduleOf header text rodata data :: completeModules header rest := by
  rw [completeModules, if_pos ⟨isText, isRodata, isData⟩, completeModules_skip (isText_of_isRodata isRodata),
    completeModules_skip (isText_of_isData isData)]

/-- Nothing is taken for a module that is none. -/
theorem modulesOf_sublist (ranges : List MemoryInfo) :
    (modulesOf header ranges).Sublist (completeModules header ranges) := by
  fun_induction modulesOf header ranges with
  | case1 => exact List.Sublist.refl _
  | case2 => exact List.Sublist.refl _
  | case3 => exact List.Sublist.refl _
  | case4 text rodata data rest other ih => rwa [completeModules_skip (by simpa using other)]
  | case5 text rodata data rest text_ other ih =>
      have skipped : completeModules header (text :: rodata :: data :: rest) =
          completeModules header (rodata :: data :: rest) := by
        rw [completeModules, if_neg]
        simp_all
      rw [skipped]
      cases rest with
      | nil => simp [modulesOf]
      | cons next rest =>
          rw [completeModules]
          split
          · exact ih.cons _
          · exact ih
  | case6 text rodata data rest text_ rodata_ other ih =>
      have skipped : completeModules header (text :: rodata :: data :: rest) =
          completeModules header (rodata :: data :: rest) := by
        rw [completeModules, if_neg]
        simp_all
      rw [skipped, completeModules_skip (isText_of_isRodata (by simpa using rodata_))]
      cases rest with
      | nil => simp [modulesOf]
      | cons next rest =>
          cases rest with
          | nil => simp [modulesOf]
          | cons last rest =>
              rw [completeModules]
              split
              · exact ih.cons _
              · exact ih
  | case7 text rodata data rest text_ rodata_ data_ ih =>
      rw [completeModules_whole (by simpa using text_) (by simpa using rodata_) (by simpa using data_)]
      exact ih.cons_cons _

variable (header) in
/-- In an orderly map every module is found, also with a range behind it. -/
theorem modulesOf_eq {ranges : List MemoryInfo} (orderly : Orderly ranges) (last : MemoryInfo) :
    modulesOf header (ranges ++ [last]) = completeModules header ranges ∧
      modulesOf header ranges = completeModules header ranges := by
  induction orderly with
  | nil => exact ⟨rfl, rfl⟩
  | other kind _ ih => rwa [List.cons_append, modulesOf_skip kind, modulesOf_skip kind, completeModules_skip kind]
  | module text rodata data _ _ ih =>
      simp only [List.cons_append, modulesOf, text, rodata, data, not_true, if_false,
        completeModules_whole text rodata data, ih.1, ih.2, and_self]

/-! ### The loop -/

namespace Finder

variable {finder : Finder} {meminfo : MemoryInfo} {next : Nat} {table : Modules}

@[simp] theorem turn_meminfo : (finder.turn header meminfo).meminfo = meminfo := by
  unfold turn
  cases finder.state <;> dsimp only <;> split <;> rfl

@[simp] theorem turn_offset : (finder.turn header meminfo).offset = meminfo.addr := by
  unfold turn
  cases finder.state <;> dsimp only <;> split <;> rfl

@[simp] theorem turn_prevOffset : (finder.turn header meminfo).prevOffset = finder.offset := by
  unfold turn
  cases finder.state <;> dsimp only <;> split <;> rfl

theorem le_turn : finder.nextModIdx ≤ (finder.turn header meminfo).nextModIdx := by
  unfold turn
  cases finder.state <;> dsimp only <;> split <;> simp [reset]

theorem le_turns (ranges : List MemoryInfo) :
    finder.nextModIdx ≤ (ranges.foldl (turn header) finder).nextModIdx := by
  induction ranges generalizing finder with
  | nil => exact Nat.le_refl _
  | cons meminfo ranges ih => exact Nat.le_trans le_turn ih

/-- Between two modules. -/
structure At (next : Nat) (table : Modules) (finder : Finder) : Prop where
  state : finder.state = .LookingForCodeStatic
  cur : finder.curModInfo = {}
  next : finder.nextModIdx = next
  table : finder.moduleInfos = table

theorem At.other (here : At next table finder) (other : isText meminfo = false) :
    At next table (finder.turn header meminfo) := by
  constructor <;> simp [turn, here.state, here.cur, here.next, here.table, other]

theorem At.first (here : At next table finder) (text : isText meminfo = true) :
    finder.turn header meminfo =
      { meminfo, offset := meminfo.addr, prevOffset := finder.offset, state := .ExpectingRodata, nextModIdx := next,
        moduleInfos := table,
        curModInfo := { m_Total := ⟨meminfo.addr, 0⟩, m_Text := ⟨meminfo.addr, meminfo.size⟩ } } := by
  simp [turn, here.state, here.cur, here.next, here.table, text]

variable {text rodata data : MemoryInfo}

theorem At.second (here : At next table finder) (text_ : isText text = true) (other : isRodata rodata = false) :
    At next table ((finder.turn header text).turn header rodata) := by
  rw [here.first text_]
  constructor <;> simp [turn, reset, other]

theorem At.code (here : At next table finder) (text_ : isText text = true) (rodata_ : isRodata rodata = true) :
    (finder.turn header text).turn header rodata =
      { meminfo := rodata, offset := rodata.addr, prevOffset := text.addr, state := .ExpectingData, nextModIdx := next,
        moduleInfos := table,
        curModInfo :=
          { m_Total := ⟨text.addr, 0⟩, m_Text := ⟨text.addr, text.size⟩, m_Rodata := ⟨rodata.addr, rodata.size⟩ } } := by
  rw [here.first text_]
  simp [turn, rodata_]

theorem At.third (here : At next table finder) (text_ : isText text = true) (rodata_ : isRodata rodata = true)
    (other : isData data = false) :
    At next table (((finder.turn header text).turn header rodata).turn header data) := by
  rw [here.code text_ rodata_]
  constructor <;> simp [turn, reset, other]

theorem At.module (here : At next table finder) (text_ : isText text = true) (rodata_ : isRodata rodata = true)
    (data_ : isData data = true) :
    At (next + 1) (table.set next (some (moduleOf header text rodata data)))
      (((finder.turn header text).turn header rodata).turn header data) := by
  rw [here.code text_ rodata_]
  constructor <;> simp [turn, reset, data_, moduleOf, Range.GetEnd, MemoryInfo.next]

end Finder

/-- The table with modules from an index on. -/
def fill (table : Modules) (next : Nat) : List ModuleInfo → Modules
  | [] => table
  | found :: later => fill (table.set next (some found)) (next + 1) later

variable (header) in
open Finder in
theorem turns_eq (ranges : List MemoryInfo) {finder : Finder} {next : Nat} {table : Modules}
    (here : At next table finder) :
    (ranges.foldl (turn header) finder).nextModIdx = next + (modulesOf header ranges).length ∧
      (ranges.foldl (turn header) finder).moduleInfos = fill table next (modulesOf header ranges) := by
  fun_induction modulesOf header ranges generalizing finder next table with
  | case1 => exact ⟨here.next, here.table⟩
  | case2 first =>
      cases kind : isText first with
      | false => exact ⟨(here.other kind).next, (here.other kind).table⟩
      | true =>
          rw [List.foldl_cons, List.foldl_nil, here.first kind]
          exact ⟨rfl, rfl⟩
  | case3 first second =>
      cases kind : isText first with
      | false =>
          have later : At next table (finder.turn header first) := here.other kind
          cases kind' : isText second with
          | false => exact ⟨(later.other kind').next, (later.other kind').table⟩
          | true =>
              rw [List.foldl_cons, List.foldl_cons, List.foldl_nil, later.first kind']
              exact ⟨rfl, rfl⟩
      | true =>
          cases kind' : isRodata second with
          | false => exact ⟨(here.second kind kind').next, (here.second kind kind').table⟩
          | true =>
              rw [List.foldl_cons, List.foldl_cons, List.foldl_nil, here.code kind kind']
              exact ⟨rfl, rfl⟩
  | case4 text rodata data rest other ih => exact ih (here.other (by simpa using other))
  | case5 text rodata data rest text_ other ih => exact ih (here.second (by simpa using text_) (by simpa using other))
  | case6 text rodata data rest text_ rodata_ other ih =>
      exact ih (here.third (by simpa using text_) (by simpa using rodata_) (by simpa using other))
  | case7 text rodata data rest text_ rodata_ data_ ih =>
      have whole : At (next + 1) (table.set next (some (moduleOf header text rodata data))) _ :=
        here.module (by simpa using text_) (by simpa using rodata_) (by simpa using data_)
      obtain ⟨next_, table_⟩ := ih whole
      refine ⟨?_, table_⟩
      simp only [List.foldl_cons, List.length_cons] at next_ ⊢
      omega

section Loop

variable {space : AddressSpace} {before rest : List MemoryInfo} {last : MemoryInfo} {finder : Finder} {fuel : Nat}

open Finder in
/-- The loop goes through the ranges and once more to the first.  It looks at the
number of modules before each. -/
theorem loop_from (split : space.ranges = before ++ last :: rest) (at_ : finder.meminfo = last)
    (offset : finder.offset = last.addr) (enough : rest.length < fuel) :
    loop header space.svcQueryMemory fuel finder =
      if ModuleIndex.End ≤ (rest.foldl (turn header) finder).nextModIdx then some (.error .TooManyStaticModules)
      else some (.ok ((rest ++ [space.first]).foldl (turn header) finder)) := by
  induction rest generalizing before last finder fuel with
  | nil =>
      obtain ⟨fuel, rfl⟩ := Nat.exists_eq_succ_of_ne_zero (Nat.ne_of_gt (Nat.zero_lt_of_lt enough))
      rw [loop]
      by_cases full : ModuleIndex.End ≤ finder.nextModIdx
      · rw [if_pos full, List.foldl_nil, if_pos full]
      · have earlier : before ≠ [] := by
          rintro rfl
          exact space.more (List.cons.inj split).2
        have above := AddressSpace.addr_pos split earlier
        rw [if_neg full, at_, AddressSpace.next_last split, AddressSpace.svcQueryMemory_zero, List.foldl_nil, if_neg full]
        simp only [turn_offset, turn_prevOffset, offset, space.first_addr]
        rw [if_neg (Nat.not_le.mpr above)]
        rfl
  | cons following rest ih =>
      obtain ⟨fuel, rfl⟩ := Nat.exists_eq_succ_of_ne_zero (Nat.ne_of_gt (Nat.zero_lt_of_lt enough))
      have query := AddressSpace.svcQueryMemory_next split
      have split' : space.ranges = (before ++ [last]) ++ following :: rest := by rw [split, List.append_assoc]; rfl
      rw [loop, List.foldl_cons]
      by_cases full : ModuleIndex.End ≤ finder.nextModIdx
      · have later : ModuleIndex.End ≤ (rest.foldl (turn header) (finder.turn header following)).nextModIdx :=
          Nat.le_trans full (Nat.le_trans le_turn (le_turns rest))
        rw [if_pos full, if_pos later]
      · rw [if_neg full, at_, query]
        have ordered : last.addr ≤ following.addr := by
          obtain ⟨_, start, _⟩ := AddressSpace.tiles_after split
          simp only [Block.start] at start
          omega
        simp only [turn_offset, turn_prevOffset, offset, ge_iff_le, ordered, if_true]
        exact ih split' turn_meminfo turn_offset (Nat.lt_of_succ_lt_succ enough)

theorem loop_eq (enough : space.ranges.length < fuel) :
    Finder.loop header space.svcQueryMemory fuel {} =
      if ModuleIndex.End ≤ (modulesOf header space.ranges).length then some (.error .TooManyStaticModules)
      else some (.ok ((space.ranges ++ [space.first]).foldl (Finder.turn header) {})) := by
  obtain ⟨fuel, rfl⟩ := Nat.exists_eq_succ_of_ne_zero (Nat.ne_of_gt (Nat.zero_lt_of_lt enough))
  have start : Finder.At 0 noModules {} := ⟨rfl, rfl, rfl, rfl⟩
  have count : (space.ranges.foldl (Finder.turn header) {}).nextModIdx = 0 + (modulesOf header space.ranges).length :=
    (turns_eq header space.ranges start).1
  have first : MemoryInfo.next ⟨0, 0, 0, 0⟩ = 0 := rfl
  rw [Finder.loop, if_neg (by decide), first, AddressSpace.svcQueryMemory_zero]
  simp only [Finder.turn_offset, Finder.turn_prevOffset, Nat.zero_le, ge_iff_le, if_true]
  rw [loop_from (show space.ranges = [] ++ space.first :: space.others from rfl) Finder.turn_meminfo Finder.turn_offset (Nat.lt_of_succ_lt_succ enough)]
  rw [Nat.zero_add] at count
  rw [← count]
  rfl

end Loop

end Smmboss.Space
