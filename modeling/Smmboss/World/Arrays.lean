import Mathlib.Data.List.Basic
import Smmboss.World.Reads

namespace Smmboss.World

/-! # Guest arrays

A `GuestArray` keeps its elements at its own address, or behind a pointer in a
header that also holds the count.
-/

/-- The class of an array's elements: `get` is that of the pointer at an
address, or the pointer itself where it has none. -/
structure Element (α : Type) where
  sizeofStar : Nat
  get : Memory → Nat → Option α

inductive Storage where
  | inline (count : Nat)
  | header (countOffset baseOffset : Nat)
deriving Repr, DecidableEq

structure GuestArray where
  addr : Nat
  storage : Storage
deriving Repr, DecidableEq

structure Slice where
  start : Option Int
  stop : Option Int
deriving Repr, DecidableEq

/-- An instance of `fixed_array(ptr_ty, count)`. -/
def fixedArray (count addr : Nat) : GuestArray := ⟨asAddr addr, .inline count⟩

/-- An instance of `count4_ptr(ptr_ty)`. -/
def count4Ptr (addr : Nat) : GuestArray := ⟨asAddr addr, .header 0 8⟩

/-- An instance of `ptr_array(ty)`. -/
def ptrArray (addr : Nat) : GuestArray := ⟨asAddr addr, .header 0 8⟩

/-- An instance of `upsidedown_ptr_array(ty)`. -/
def upsidedownPtrArray (addr : Nat) : GuestArray := ⟨asAddr addr, .header 4 0⟩

namespace GuestArray

variable {α : Type}

def count (arr : GuestArray) (memory : Memory) : Option Nat :=
  match arr.storage with
  | .inline count => some count
  | .header countOffset _ => readUint memory (asAddr (arr.addr + countOffset)) 4

/-- The address of `base`. -/
def base (arr : GuestArray) (memory : Memory) : Option Nat :=
  match arr.storage with
  | .inline _ => some (asAddr arr.addr)
  | .header _ baseOffset => readUint memory (asAddr (arr.addr + baseOffset)) 8

def ptrAt (arr : GuestArray) (memory : Memory) (element : Element α) (n : Int)
    (unchecked : Bool) : Option Nat :=
  (if unchecked then some () else
    (arr.count memory).bind fun count => if 0 ≤ n ∧ n < count then some () else none).bind fun _ =>
      (arr.base memory).map fun (base : Nat) => asAddr (base + element.sizeofStar * n)

/-- `__getitem__` of an index. -/
def getItem (arr : GuestArray) (memory : Memory) (element : Element α) (n : Int)
    (unchecked : Bool) : Option α :=
  (arr.ptrAt memory element n unchecked).bind (element.get memory)

/-- `__getitem__` of a slice without a step.  A negative `stop` moves `start`. -/
def getSlice (arr : GuestArray) (memory : Memory) (element : Element α) (slice : Slice) :
    Option GuestArray :=
  (slice.stop.elim ((arr.count memory).map fun (count : Nat) => (count : Int)) some).bind fun stop =>
    (if slice.start.getD 0 < 0 then
      (arr.count memory).map fun (count : Nat) => slice.start.getD 0 + (count : Int)
    else some (slice.start.getD 0)).bind fun start =>
      (if stop < 0 then (arr.count memory).map fun (count : Nat) => start + (count : Int)
      else some start).bind fun start =>
        if start ≤ stop then
          some ⟨asAddr (arr.addr + start * element.sizeofStar), .inline (stop - start).toNat⟩
        else none

/-- `list(arr)`. -/
def toList (arr : GuestArray) (memory : Memory) (element : Element α) : Option (List α) :=
  (arr.count memory).bind fun count =>
    (List.range count).mapM fun (i : Nat) => arr.getItem memory element i false

/-- `arr[first][second]...`. -/
def getSlices (arr : GuestArray) (memory : Memory) (element : Element α) :
    List Slice → Option GuestArray
  | [] => some arr
  | slice :: rest => (arr.getSlice memory element slice).bind fun inner =>
      inner.getSlices memory element rest

end GuestArray

/-! ## What a slice selects -/

namespace Slice

/-- A bound as Python normalises it. -/
def normalize (bound : Option Int) (absent count : Nat) : Int :=
  bound.elim absent fun bound => if bound < 0 then bound + count else bound

def first (slice : Slice) (count : Nat) : Int := normalize slice.start 0 count
def last (slice : Slice) (count : Nat) : Int := normalize slice.stop count count

/-- The bounds are of the array, and in order. -/
structure Within (slice : Slice) (count : Nat) : Prop where
  start : ∀ bound ∈ slice.start, -(count : Int) ≤ bound ∧ bound ≤ count
  stop : ∀ bound ∈ slice.stop, -(count : Int) ≤ bound ∧ bound ≤ count
  ordered : slice.first count ≤ slice.last count

instance (slice : Slice) (count : Nat) : Decidable (slice.Within count) :=
  decidable_of_iff ((∀ bound ∈ slice.start, -(count : Int) ≤ bound ∧ bound ≤ count) ∧
      (∀ bound ∈ slice.stop, -(count : Int) ≤ bound ∧ bound ≤ count) ∧
      slice.first count ≤ slice.last count)
    ⟨fun ⟨start, stop, ordered⟩ => ⟨start, stop, ordered⟩, fun within => ⟨within.1, within.2, within.3⟩⟩

/-- The first selected index and the number of them. -/
def select : List Slice → Nat → Nat × Nat
  | [], count => (0, count)
  | slice :: rest, count =>
      let inner := select rest (slice.last count - slice.first count).toNat
      ((slice.first count).toNat + inner.1, inner.2)

/-- Each slice is within what the ones before it select. -/
def AllWithin : List Slice → Nat → Prop
  | [], _ => True
  | slice :: rest, count =>
      slice.Within count ∧ AllWithin rest (slice.last count - slice.first count).toNat

instance decidableAllWithin : ∀ (slices : List Slice) (count : Nat),
    Decidable (AllWithin slices count)
  | [], _ => isTrue trivial
  | slice :: rest, count =>
      have := decidableAllWithin rest (slice.last count - slice.first count).toNat
      inferInstanceAs (Decidable (_ ∧ _))

def StopNonnegative (slice : Slice) : Prop := ∀ bound ∈ slice.stop, 0 ≤ bound

instance (slice : Slice) : Decidable slice.StopNonnegative := by
  unfold StopNonnegative
  infer_instance

theorem Within.first_nonneg {slice : Slice} {count : Nat} (within : slice.Within count) :
    0 ≤ slice.first count := by
  unfold first normalize
  cases same : slice.start with
  | none => exact Int.le_refl 0
  | some bound =>
      have inside := within.start bound same
      rw [Option.elim_some]
      split_ifs <;> omega

end Slice

/-! ## Slicing -/

section

variable {α : Type} {memory : Memory} {element : Element α} {arr : GuestArray} {slice : Slice}
  {count : Nat}

/-- The address of the element at an index. -/
def Element.place (element : Element α) (start index : Nat) : Nat :=
  asAddr (start + element.sizeofStar * index : Int)

theorem Element.place_place (start first index : Nat) :
    element.place (element.place start first) index = element.place start (first + index) := by
  unfold place asAddr
  rw [Int.natCast_add, Int.mul_add]
  omega

namespace GuestArray

/-- The index the slice branch starts from, before it looks at `stop`. -/
theorem start_moved (counted : arr.count memory = some count) :
    (if slice.start.getD 0 < 0 then
      (arr.count memory).map fun (count : Nat) => slice.start.getD 0 + (count : Int)
    else some (slice.start.getD 0)) = some (slice.first count) := by
  unfold Slice.first Slice.normalize
  rw [counted]
  cases slice.start with
  | none => rfl
  | some bound =>
      rw [Option.getD_some, Option.elim_some]
      split_ifs <;> rfl

theorem getSlice_nonnegative (counted : arr.count memory = some count)
    (within : slice.Within count) (nonnegative : slice.StopNonnegative) :
    arr.getSlice memory element slice =
      some ⟨element.place arr.addr (slice.first count).toNat,
        .inline (slice.last count - slice.first count).toNat⟩ := by
  have place : element.place arr.addr (slice.first count).toNat =
      asAddr (arr.addr + slice.first count * element.sizeofStar) := by
    rw [Element.place, Int.toNat_of_nonneg within.first_nonneg, Int.mul_comm]
  have stop : slice.stop.elim ((arr.count memory).map fun (count : Nat) => (count : Int)) some =
      some (slice.last count) ∧ ¬ slice.last count < 0 := by
    unfold Slice.last Slice.normalize
    rw [counted]
    cases same : slice.stop with
    | none => exact ⟨rfl, by simp⟩
    | some bound =>
        have positive := nonnegative bound same
        rw [Option.elim_some, Option.elim_some, if_neg (Int.not_lt.mpr positive)]
        exact ⟨rfl, Int.not_lt.mpr positive⟩
  rw [getSlice, stop.1, Option.bind_some, start_moved counted, Option.bind_some, if_neg stop.2,
    Option.bind_some, if_pos within.ordered, place]

/-- A negative `stop` fails the order check: `start` has been moved past the end. -/
theorem getSlice_negative (counted : arr.count memory = some count)
    (within : slice.Within count) {bound : Int} (stop : slice.stop = some bound)
    (negative : bound < 0) : arr.getSlice memory element slice = none := by
  have start := within.first_nonneg
  have beyond : ¬ slice.first count + (count : Int) ≤ bound := by omega
  rw [getSlice, stop, Option.elim_some, Option.bind_some, start_moved counted, Option.bind_some,
    if_pos negative, counted, Option.map_some, Option.bind_some, if_neg beyond]

theorem getSlices_nonnegative {slices : List Slice} (counted : arr.count memory = some count)
    (within : Slice.AllWithin (slice :: slices) count)
    (nonnegative : ∀ other ∈ slice :: slices, other.StopNonnegative) :
    arr.getSlices memory element (slice :: slices) =
      some ⟨element.place arr.addr (Slice.select (slice :: slices) count).1,
        .inline (Slice.select (slice :: slices) count).2⟩ := by
  have one := @getSlice_nonnegative _ memory element _ _ _ counted within.1
    (nonnegative slice List.mem_cons_self)
  induction slices generalizing arr slice count with
  | nil =>
      rw [getSlices, one]
      rfl
  | cons next rest ih =>
      have others := fun other member => nonnegative other (List.mem_cons_of_mem _ member)
      have second := @getSlice_nonnegative _ memory element
        ⟨element.place arr.addr (slice.first count).toNat,
          .inline (slice.last count - slice.first count).toNat⟩ next _ rfl within.2.1
        (others next List.mem_cons_self)
      have inner := ih rfl within.2 others second
      rw [Element.place_place] at inner
      rw [getSlices, one, Option.bind_some, inner]
      rfl

theorem getSlices_negative {slices : List Slice} (counted : arr.count memory = some count)
    (within : Slice.AllWithin slices count)
    (negative : ¬ ∀ slice ∈ slices, slice.StopNonnegative) :
    arr.getSlices memory element slices = none := by
  induction slices generalizing arr count with
  | nil => exact absurd (fun slice member => nomatch member) negative
  | cons slice rest ih =>
      rw [getSlices]
      by_cases here : slice.StopNonnegative
      · rw [getSlice_nonnegative counted within.1 here, Option.bind_some]
        apply ih rfl within.2
        intro others
        apply negative
        intro other member
        rcases List.mem_cons.mp member with rfl | later
        · exact here
        · exact others other later
      · simp only [Slice.StopNonnegative, not_forall, Option.mem_def] at here
        obtain ⟨bound, stop, below⟩ := here
        rw [getSlice_negative counted within.1 stop (Int.not_le.mp below), Option.bind_none]

end GuestArray

theorem mapM_eq_some_iff {β γ : Type} {f : β → Option γ} {inputs : List β} {results : List γ} :
    inputs.mapM f = some results ↔ inputs.map f = results.map some := by
  induction inputs generalizing results with
  | nil => cases results <;> simp
  | cons input rest ih =>
      rw [List.mapM_cons, List.map_cons]
      constructor
      · intro collected
        obtain ⟨result, first, collected⟩ := Option.bind_eq_some_iff.mp collected
        obtain ⟨others, later, same⟩ := Option.bind_eq_some_iff.mp collected
        cases same
        rw [List.map_cons, first, ih.mp later]
      · intro mapped
        cases results with
        | nil => cases mapped
        | cons result others =>
            rw [List.map_cons, List.cons.injEq] at mapped
            rw [mapped.1, ih.mpr mapped.2]
            rfl

namespace GuestArray

theorem getItem_eq {base n : Nat} (counted : arr.count memory = some count) (inside : n < count)
    (based : arr.base memory = some base) :
    arr.getItem memory element n false = element.get memory (element.place base n) := by
  have range : 0 ≤ (n : Int) ∧ (n : Int) < count := by omega
  rw [getItem, ptrAt, if_neg Bool.false_ne_true, counted, Option.bind_some, if_pos range,
    Option.bind_some, based]
  rfl

theorem getItem_unbased {n : Int} (unbased : arr.base memory = none) :
    arr.getItem memory element n false = none := by
  have nowhere (checked : Option Unit) : (checked.bind fun _ => (none : Option Nat)) = none := by
    cases checked <;> rfl
  rw [getItem, ptrAt, unbased, Option.map_none, nowhere, Option.bind_none]

/-- A slice is iterated as the elements behind its own address. -/
theorem toList_inline {start length : Nat} {values : List α} :
    (⟨start, .inline length⟩ : GuestArray).toList memory element = some values ↔
      ((List.range length).map fun n => element.get memory (element.place (asAddr start) n)) =
        values.map some := by
  rw [toList, count, Option.bind_some, mapM_eq_some_iff]
  have same : ((List.range length).map fun (n : Nat) =>
      (⟨start, .inline length⟩ : GuestArray).getItem memory element n false) =
      (List.range length).map fun n => element.get memory (element.place (asAddr start) n) := by
    apply List.map_congr_left
    intro n member
    exact getItem_eq rfl (List.mem_range.mp member) rfl
  rw [same]

end GuestArray

theorem Slice.select_le {slices : List Slice} (within : Slice.AllWithin slices count) :
    (Slice.select slices count).1 + (Slice.select slices count).2 ≤ count := by
  induction slices generalizing count with
  | nil => exact Nat.le_of_eq (Nat.zero_add count)
  | cons slice rest ih =>
      have inner := ih within.2
      have start := within.1.first_nonneg
      have ordered := within.1.ordered
      have stop : slice.last count ≤ count := by
        unfold Slice.last Slice.normalize
        cases same : slice.stop with
        | none => exact Int.le_refl _
        | some bound =>
            have inside := within.1.stop bound same
            rw [Option.elim_some]
            split_ifs <;> omega
      rw [Slice.select]
      simp only
      omega

end

namespace GuestArray

variable {α : Type} {memory : Memory} {element : Element α} {arr : GuestArray} {count : Nat}

/-- Where the elements can be read, the chain of slices is iterated as the
selected ones exactly if no `stop` is negative and the array's own address
holds the same elements as its base. -/
theorem getSlices_toList_iff {slices : List Slice} {values : List α}
    (counted : arr.count memory = some count) (within : Slice.AllWithin slices count)
    (sliced : slices ≠ [])
    (elements : ((List.range' (Slice.select slices count).1 (Slice.select slices count).2).mapM
      fun (n : Nat) => arr.getItem memory element n false) = some values) :
    ((arr.getSlices memory element slices).bind fun slice => slice.toList memory element) =
        some values ↔
      (∀ slice ∈ slices, slice.StopNonnegative) ∧
        ∀ base, arr.base memory = some base → ∀ n, (Slice.select slices count).1 ≤ n →
          n < (Slice.select slices count).1 + (Slice.select slices count).2 →
            element.get memory (element.place arr.addr n) =
              element.get memory (element.place base n) := by
  have inside := Slice.select_le within
  by_cases nonnegative : ∀ slice ∈ slices, slice.StopNonnegative
  · obtain ⟨slice, rest, rfl⟩ := List.exists_cons_of_ne_nil sliced
    have shape := @getSlices_nonnegative _ memory element _ _ _ _ counted within nonnegative
    have masked : asAddr (element.place arr.addr (Slice.select (slice :: rest) count).1) =
        element.place arr.addr (Slice.select (slice :: rest) count).1 :=
      asAddr_natCast (asAddr_lt _)
    rw [mapM_eq_some_iff, List.range'_eq_map_range, List.map_map] at elements
    rw [shape, Option.bind_some, toList_inline, ← elements, List.map_inj_left, masked]
    generalize Slice.select (slice :: rest) count = selected at *
    constructor
    · intro same
      refine ⟨nonnegative, ?_⟩
      intro base based n above below
      have here := same (n - selected.1) (List.mem_range.mpr (by omega))
      have index : selected.1 + (n - selected.1) = n := by omega
      rw [Element.place_place, Function.comp_apply, index,
        getItem_eq counted (by omega) based] at here
      exact here
    · intro ⟨_, same⟩ n member
      have below := List.mem_range.mp member
      rw [Element.place_place, Function.comp_apply]
      cases based : arr.base memory with
      | none =>
          have found := List.mem_map_of_mem
            (f := (fun (n : Nat) => arr.getItem memory element n false) ∘ (selected.1 + ·)) member
          rw [elements, Function.comp_apply, getItem_unbased based] at found
          obtain ⟨value, -, missing⟩ := List.mem_map.mp found
          cases missing
      | some base =>
          rw [getItem_eq counted (by omega) based]
          exact same base based _ (by omega) (by omega)
  · rw [getSlices_negative counted within nonnegative]
    constructor
    · intro none
      cases none
    · intro ⟨all, _⟩
      exact absurd all nonnegative

/-- The second condition is none for an array that holds its elements itself. -/
theorem place_inline {length base : Nat} (inline : arr.storage = .inline length)
    (based : arr.base memory = some base) (n : Nat) :
    element.place base n = element.place arr.addr n := by
  rw [GuestArray.base, inline] at based
  cases based
  unfold Element.place asAddr
  omega

end GuestArray

/-- `u8`. -/
def byteElement : Element UInt8 := ⟨1, fun memory addr => memory addr⟩

/-- Every byte is its own address. -/
def countingMemory : Memory := fun addr => some (UInt8.ofNat addr)

theorem getSlices_toList_fixedArray :
    ((fixedArray 5 16).getSlices countingMemory byteElement [⟨some (-4), none⟩, ⟨none, some 2⟩]).bind
      (fun slice => slice.toList countingMemory byteElement) = some [17, 18] :=
  (@GuestArray.getSlices_toList_iff _ countingMemory byteElement (fixedArray 5 16) 5
    [⟨some (-4), none⟩, ⟨none, some 2⟩] [17, 18] rfl (by decide) (by decide) (by decide)).mpr
    ⟨by decide, fun base based n _ _ => by
      rw [GuestArray.place_inline rfl based]⟩

/-- A header with two elements behind a pointer. -/
def headerMemory : Memory := fun addr =>
  some (if addr = 0 then 2 else if addr = 8 then 0x20 else if addr < 0x20 then 0 else UInt8.ofNat addr)

/-- What is expected of a chain of slices. -/
def SlicesFaithful {α : Type} (memory : Memory) (element : Element α) (arr : GuestArray)
    (slices : List Slice) : Prop :=
  ∀ count values, arr.count memory = some count → Slice.AllWithin slices count →
    ((List.range' (Slice.select slices count).1 (Slice.select slices count).2).mapM
      fun (n : Nat) => arr.getItem memory element n false) = some values →
    ((arr.getSlices memory element slices).bind fun slice => slice.toList memory element) =
      some values

/-- `fixed_array(u8, 5)(16)[:-1]` raises, and `count4_ptr(u8)(0)[:1]` has the
first byte of the header. -/
theorem slices_not_faithful :
    ¬ SlicesFaithful countingMemory byteElement (fixedArray 5 16) [⟨none, some (-1)⟩] ∧
      ¬ SlicesFaithful headerMemory byteElement (count4Ptr 0) [⟨none, some 1⟩] := by
  constructor
  · intro claimed
    exact absurd (claimed 5 [16, 17, 18, 19] rfl (by decide) (by decide)) (by decide)
  · intro claimed
    exact absurd (claimed 2 [0x20] (by decide) (by decide) (by decide)) (by decide)

end Smmboss.World
