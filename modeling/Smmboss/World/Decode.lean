import Smmboss.World.Reads

namespace Smmboss.World

/-! # Two readers of a struct

`decode_data` takes a byte string apart, and a property reads the guest's
memory at its offset from the object.
-/

/-- The classes that `make_GuestPrimPtr` makes. -/
inductive Prim where
  | u8 | u16 | u32 | u64 | s8 | s16 | s32 | s64 | f32 | f64
deriving Repr, DecidableEq

/-- A float is its bits. -/
inductive Value where
  | int (value : Int)
  | float (bits : Nat)
  | pointer (valTy : String) (addr : Nat)
  | struct (ret : List (String × Value))

namespace Prim

def size : Prim → Nat
  | u8 | s8 => 1
  | u16 | s16 => 2
  | u32 | s32 | f32 => 4
  | u64 | s64 | f64 => 8

theorem size_pos (prim : Prim) : 0 < prim.size := by
  cases prim <;> decide

def signed (size value : Nat) : Int :=
  if value < 2 ^ (8 * size - 1) then value else (value : Int) - 2 ^ (8 * size)

/-- `struct.unpack` of exactly the bytes it wants. -/
def unpack (prim : Prim) (bytes : List UInt8) : Value :=
  match prim with
  | u8 | u16 | u32 | u64 => .int (LittleEndian.decode bytes)
  | s8 | s16 | s32 | s64 => .int (signed prim.size (LittleEndian.decode bytes))
  | f32 | f64 => .float (LittleEndian.decode bytes)

end Prim

def ptrSize : Nat := 8

mutual

/-- The class of a property: a primitive, `ptr_to` a class, a struct by its
method resolution order, or one without `decode_data`. -/
inductive PtrCls where
  | prim (prim : Prim)
  | ptr (valTy : String)
  | struct (mro : Mro)
  | other

/-- The dictionaries of a class and its bases. -/
inductive Mro where
  | nil
  | cons (dict : Dict) (bases : Mro)

/-- The properties of one class. -/
inductive Dict where
  | nil
  | cons (key : String) (offset : Nat) (ptrCls : PtrCls) (rest : Dict)

end

/-- `decode_data` of a class that takes `size` bytes from the front. -/
def decodeFront (size : Nat) (value : List UInt8 → Value) (data : List UInt8) : Option Value :=
  if (data.take size).length = size then some (value (data.take size)) else none

def ptrValue (valTy : String) (bytes : List UInt8) : Value :=
  .pointer valTy (asAddr (LittleEndian.decode bytes))

/-- `hasattr(ptr_cls, 'decode_data')`. -/
def PtrCls.decodable : PtrCls → Bool
  | .other => false
  | _ => true

mutual

def PtrCls.decodeData : PtrCls → List UInt8 → Option Value
  | .prim prim, data => decodeFront prim.size prim.unpack data
  | .ptr valTy, data => decodeFront ptrSize (ptrValue valTy) data
  | .struct mro, data => (mro.decodeData data).map .struct
  | .other, _ => none

/-- The assignments to `ret`: `_properties` goes through the classes from the
last base to the class itself. -/
def Mro.decodeData : Mro → List UInt8 → Option (List (String × Value))
  | .nil, _ => some []
  | .cons dict bases, data =>
      (bases.decodeData data).bind fun inherited => (dict.decodeData data).map (inherited ++ ·)

def Dict.decodeData : Dict → List UInt8 → Option (List (String × Value))
  | .nil, _ => some []
  | .cons key offset ptrCls rest, data =>
      if ptrCls.decodable then
        if offset ≤ data.length then
          (ptrCls.decodeData (data.drop offset)).bind fun value =>
            (rest.decodeData data).map ((key, value) :: ·)
        else none
      else rest.decodeData data

end

/-- A later assignment to a key replaces an earlier one. -/
def lastOf (key : String) : List (String × Value) → Option Value
  | [] => none
  | (name, value) :: rest => (lastOf key rest).or (if name = key then some value else none)

/-- The value under a path of keys. -/
def Value.at : Value → List String → Option Value
  | value, [] => some value
  | .struct ret, key :: path => (lastOf key ret).bind fun value => value.at path
  | _, _ :: _ => none

/-! ## Properties -/

def Dict.find (key : String) : Dict → Option (Nat × PtrCls)
  | .nil => none
  | .cons name offset ptrCls rest =>
      (rest.find key).or (if name = key then some (offset, ptrCls) else none)

/-- Attribute lookup: the first class that has the key. -/
def Mro.find (key : String) : Mro → Option (Nat × PtrCls)
  | .nil => none
  | .cons dict bases => (dict.find key).or (bases.find key)

/-- `get` of a class that reads `size` bytes. -/
def getFront (memory : Memory) (size : Nat) (value : List UInt8 → Value) (addr : Nat) :
    Option Value :=
  (read memory addr size).bind (decodeFront size value)

/-- `obj.key1.key2...` down to a primitive or a pointer. -/
def readPath (memory : Memory) : PtrCls → Nat → List String → Option Value
  | .prim prim, addr, [] => getFront memory prim.size prim.unpack addr
  | .ptr valTy, addr, [] => getFront memory ptrSize (ptrValue valTy) addr
  | .struct mro, addr, key :: path =>
      (mro.find key).bind fun found => readPath memory found.2 (asAddr (addr + found.1)) path
  | _, _, _ => none

/-- The path ends at a primitive or pointer property. -/
def IsLeaf : PtrCls → List String → Prop
  | .prim _, [] | .ptr _, [] => True
  | .struct mro, key :: path => ∃ found, mro.find key = some found ∧ IsLeaf found.2 path
  | _, _ => False

/-! ## Layouts within a size -/

mutual

def PtrCls.fits : PtrCls → Nat → Bool
  | .prim prim, size => prim.size ≤ size
  | .ptr _, size => ptrSize ≤ size
  | .struct mro, size => mro.fits size
  | .other, _ => false

def Mro.fits : Mro → Nat → Bool
  | .nil, _ => true
  | .cons dict bases, size => bases.fits size && dict.fits size

/-- Every decodable property ends within the size, in all its parts. -/
def Dict.fits : Dict → Nat → Bool
  | .nil, _ => true
  | .cons _ offset ptrCls rest, size =>
      (!ptrCls.decodable || (decide (offset ≤ size) && ptrCls.fits (size - offset))) && rest.fits size

end

theorem decodeFront_isSome {size : Nat} {value : List UInt8 → Value} {data : List UInt8} :
    (decodeFront size value data).isSome ↔ size ≤ data.length := by
  unfold decodeFront
  rw [List.length_take]
  split_ifs with enough
  · constructor
    · intro _
      omega
    · intro _
      rfl
  · constructor
    · intro failed
      cases failed
    · intro fits
      exact absurd (Nat.min_eq_left fits) enough

mutual

theorem PtrCls.decodeData_isSome : ∀ (ptrCls : PtrCls) (data : List UInt8),
    (ptrCls.decodeData data).isSome = ptrCls.fits data.length
  | .prim prim, data => by
      rw [PtrCls.decodeData, PtrCls.fits, Bool.eq_iff_iff, decodeFront_isSome, decide_eq_true_iff]
  | .ptr valTy, data => by
      rw [PtrCls.decodeData, PtrCls.fits, Bool.eq_iff_iff, decodeFront_isSome, decide_eq_true_iff]
  | .struct mro, data => by
      rw [PtrCls.decodeData, PtrCls.fits, Option.isSome_map, mro.decodeData_isSome]
  | .other, data => rfl

theorem Mro.decodeData_isSome : ∀ (mro : Mro) (data : List UInt8),
    (mro.decodeData data).isSome = mro.fits data.length
  | .nil, data => rfl
  | .cons dict bases, data => by
      rw [Mro.decodeData, Mro.fits, ← bases.decodeData_isSome, ← dict.decodeData_isSome]
      cases bases.decodeData data with
      | none => rfl
      | some inherited => cases dict.decodeData data <;> rfl

theorem Dict.decodeData_isSome : ∀ (dict : Dict) (data : List UInt8),
    (dict.decodeData data).isSome = dict.fits data.length
  | .nil, data => rfl
  | .cons key offset ptrCls rest, data => by
      have here := ptrCls.decodeData_isSome (data.drop offset)
      have others := rest.decodeData_isSome data
      rw [List.length_drop] at here
      rw [Dict.decodeData, Dict.fits, ← here, ← others]
      by_cases decodable : ptrCls.decodable = true
      · rw [if_pos decodable, decodable]
        by_cases inside : offset ≤ data.length
        · rw [if_pos inside, decide_eq_true inside]
          cases ptrCls.decodeData (data.drop offset) with
          | none => rfl
          | some value => cases rest.decodeData data <;> rfl
        · rw [if_neg inside, decide_eq_false inside]
          rfl
      · rw [if_neg decodable, Bool.eq_false_iff.mpr decodable]
        rfl

end

/-! ## What the two readers agree on -/

section

variable {key : String} {data : List UInt8}

theorem lastOf_append (first second : List (String × Value)) :
    lastOf key (first ++ second) = (lastOf key second).or (lastOf key first) := by
  induction first with
  | nil => rw [List.nil_append, lastOf, Option.or_none]
  | cons entry rest ih => rw [List.cons_append, lastOf, ih, lastOf, Option.or_assoc]

/-- What a key is assigned, against the property that attribute lookup finds. -/
structure Assigned (data : List UInt8) (found : Option (Nat × PtrCls)) (assigned : Option Value) :
    Prop where
  absent : found = none → assigned = none
  present : ∀ offset ptrCls, found = some (offset, ptrCls) → ptrCls.decodable = true →
    offset ≤ data.length ∧ ∃ value, ptrCls.decodeData (data.drop offset) = some value ∧
      assigned = some value

theorem Assigned.or {first second : Option (Nat × PtrCls)} {left right : Option Value}
    (front : Assigned data first left) (back : Assigned data second right) :
    Assigned data (first.or second) (left.or right) := by
  cases first with
  | none =>
      rw [Option.none_or, front.absent rfl, Option.none_or]
      exact back
  | some found =>
      constructor
      · intro missing
        cases missing
      · intro offset ptrCls same decodable
        obtain ⟨inside, value, decoded, assigned⟩ := front.present offset ptrCls same decodable
        exact ⟨inside, value, decoded, by rw [assigned, Option.some_or]⟩

theorem Dict.assigned : ∀ (dict : Dict) {ret : List (String × Value)},
    dict.decodeData data = some ret → Assigned data (dict.find key) (lastOf key ret)
  | .nil, ret, decoded => by
      cases decoded
      exact ⟨fun _ => rfl, fun _ _ found => nomatch found⟩
  | .cons name offset ptrCls rest, ret, decoded => by
      rw [Dict.decodeData] at decoded
      rw [Dict.find]
      by_cases decodable : ptrCls.decodable = true
      · rw [if_pos decodable] at decoded
        split_ifs at decoded with inside
        obtain ⟨value, here, decoded⟩ := Option.bind_eq_some_iff.mp decoded
        obtain ⟨others, later, rfl⟩ := Option.map_eq_some_iff.mp decoded
        rw [lastOf]
        apply (rest.assigned later).or
        by_cases named : name = key
        · rw [if_pos named, if_pos named]
          constructor
          · intro missing
            cases missing
          · intro offset ptrCls same _
            cases same
            exact ⟨inside, value, here, rfl⟩
        · rw [if_neg named, if_neg named]
          exact ⟨fun _ => rfl, fun _ _ found => nomatch found⟩
      · rw [if_neg decodable] at decoded
        have others := rest.assigned decoded
        rw [← Option.or_none (o := lastOf key ret)]
        apply others.or
        constructor
        · intro _
          rfl
        · intro _ _ same decodes
          split_ifs at same
          cases same
          exact absurd decodes decodable

theorem Mro.assigned : ∀ (mro : Mro) {ret : List (String × Value)},
    mro.decodeData data = some ret → Assigned data (mro.find key) (lastOf key ret)
  | .nil, ret, decoded => by
      cases decoded
      exact ⟨fun _ => rfl, fun _ _ found => nomatch found⟩
  | .cons dict bases, ret, decoded => by
      rw [Mro.decodeData] at decoded
      obtain ⟨inherited, above, decoded⟩ := Option.bind_eq_some_iff.mp decoded
      obtain ⟨own, here, rfl⟩ := Option.map_eq_some_iff.mp decoded
      rw [Mro.find, lastOf_append]
      exact (dict.assigned here).or (bases.assigned above)

end

section

variable {memory : Memory} {addr size : Nat} {data : List UInt8}

theorem IsLeaf.decodable {ptrCls : PtrCls} {path : List String} (leaf : IsLeaf ptrCls path) :
    ptrCls.decodable = true := by
  cases ptrCls with
  | other => cases path <;> cases leaf
  | prim _ | ptr _ | struct _ => rfl

theorem asAddr_of_read (bounded : ∀ place, 2 ^ 64 ≤ place → memory place = none)
    (found : read memory addr size = some data) (nonempty : 0 < size) : asAddr addr = addr := by
  apply asAddr_natCast
  by_contra beyond
  have first := read_getElem? found nonempty
  rw [Nat.add_zero, bounded addr (Nat.le_of_not_lt beyond), List.getElem?_eq_none_iff,
    read_length found] at first
  omega

theorem getFront_of_decodeFront {front : Nat} {value : List UInt8 → Value} {decoded : Value}
    (bounded : ∀ place, 2 ^ 64 ≤ place → memory place = none) (positive : 0 < front)
    (found : read memory addr size = some data) (done : decodeFront front value data = some decoded) :
    getFront memory front value (asAddr addr) = some decoded := by
  have enough : front ≤ size := by
    rw [← read_length found]
    exact decodeFront_isSome.mp (by rw [done]; rfl)
  have here := asAddr_of_read bounded found (by omega)
  have width := List.length_take_of_le (Nat.le_trans enough (Nat.le_of_eq (read_length found).symm))
  rw [getFront, here, read_take found enough, Option.bind_some, ← done, decodeFront, decodeFront,
    List.take_of_length_le (Nat.le_of_eq width)]

/-- A path to a primitive or a pointer leads to the value that is read there. -/
theorem readPath_of_decodeData (bounded : ∀ place, 2 ^ 64 ≤ place → memory place = none)
    {ptrCls : PtrCls} {value : Value} (found : read memory addr size = some data)
    (decoded : ptrCls.decodeData data = some value) {path : List String} (leaf : IsLeaf ptrCls path) :
    ∃ result, readPath memory ptrCls (asAddr addr) path = some result ∧
      value.at path = some result := by
  induction path generalizing ptrCls addr size data value with
  | nil =>
      cases ptrCls with
      | prim prim =>
          exact ⟨value, getFront_of_decodeFront bounded prim.size_pos found decoded, rfl⟩
      | ptr valTy => exact ⟨value, getFront_of_decodeFront bounded (by decide) found decoded, rfl⟩
      | struct mro => cases leaf
      | other => cases leaf
  | cons key path ih =>
      cases ptrCls with
      | prim prim => cases leaf
      | ptr valTy => cases leaf
      | other => cases leaf
      | struct mro =>
          obtain ⟨⟨offset, inner⟩, here, leaf⟩ := leaf
          obtain ⟨ret, assignments, rfl⟩ := Option.map_eq_some_iff.mp decoded
          obtain ⟨inside, field, decodedField, assigned⟩ :=
            (mro.assigned assignments).present offset inner here leaf.decodable
          rw [read_length found] at inside
          obtain ⟨result, reads, under⟩ := ih (read_drop found inside) decodedField leaf
          have place : asAddr ((asAddr addr : Nat) + (offset : Nat) : Int) =
              asAddr ((addr + offset : Nat) : Int) := by
            unfold asAddr
            omega
          refine ⟨result, ?_, ?_⟩
          · rw [readPath, here, Option.bind_some, place]
            exact reads
          · rw [Value.at, assigned, Option.bind_some]
            exact under

end

/-- `decode_data` succeeds and has, under every path to a primitive or a
pointer, what reading that path gives. -/
def DecodesAs (memory : Memory) (ptrCls : PtrCls) (this : Nat) (data : List UInt8) : Prop :=
  ∃ value, ptrCls.decodeData data = some value ∧ ∀ path, IsLeaf ptrCls path →
    ∃ result, readPath memory ptrCls this path = some result ∧ value.at path = some result

/-- Bulk decoding agrees with field reads exactly for the classes whose
properties end within the declared size. -/
theorem decodesAs_iff_fits {memory : Memory}
    (bounded : ∀ place, 2 ^ 64 ≤ place → memory place = none) (mro : Mro) (sizeofStar : Nat)
    (address : Int) {data : List UInt8}
    (found : read memory (asAddr address) sizeofStar = some data) :
    DecodesAs memory (.struct mro) (asAddr address) data ↔
      (PtrCls.struct mro).fits sizeofStar = true := by
  have decodes := (PtrCls.struct mro).decodeData_isSome data
  rw [read_length found] at decodes
  constructor
  · intro ⟨value, decoded, _⟩
    rw [← decodes, decoded]
    rfl
  · intro fits
    rw [← decodes] at fits
    obtain ⟨value, decoded⟩ := Option.isSome_iff_exists.mp fits
    have this : asAddr (asAddr address : Nat) = asAddr address := asAddr_natCast (asAddr_lt address)
    refine ⟨value, decoded, ?_⟩
    intro path leaf
    obtain ⟨result, reads, under⟩ := readPath_of_decodeData bounded found decoded leaf
    rw [this] at reads
    exact ⟨result, reads, under⟩

/-! ## Declared classes -/

def props (entries : List (String × Nat × PtrCls)) : Dict :=
  entries.foldr (fun entry rest => .cons entry.1 entry.2.1 entry.2.2 rest) .nil

/-- A class whose bases declare no properties. -/
def structCls (entries : List (String × Nat × PtrCls)) : Mro := .cons (props entries) .nil

def point2D : Mro := structCls [("x", 0, .prim .f32), ("y", 4, .prim .f32)]

/-- `Point3D`, which inherits from `Point2D`. -/
def point3D : Mro := .cons (props [("z", 8, .prim .f32)]) point2D

def rect : Mro := structCls [("min", 0, .struct point2D), ("max", 8, .struct point2D)]

def seadListNode : Mro :=
  structCls [("prev", 0, .ptr "SeadListNode"), ("next", 8, .ptr "SeadListNode")]

/-- `count4_ptr(ptr_ty)`, by the name of `ptr_ty`. -/
def countPtr (ptrTy : String) : Mro :=
  structCls [("count", 0, .prim .u32), ("base", 8, .ptr ptrTy)]

def tile : Mro :=
  structCls [("what_to_draw", 0, .prim .u32), ("field_4", 4, .prim .u32), ("pos", 8, .struct point3D)]

def scolMidNode : Mro :=
  structCls [("node", 0, .struct seadListNode), ("owner", 0x10, .ptr "Collider"),
    ("scol_mid", 0x18, .ptr "GuestPtr")]

def collider : Mro :=
  structCls [("vtable", 0, .ptr "GuestPtr"), ("scol_mid_node", 0x20, .struct scolMidNode),
    ("bgcs_list_nodes", 0x58, .other), ("scol_sublist_nodes", 0x118, .other),
    ("bbox_cur", 0x238, .struct rect), ("bbox_old", 0x248, .struct rect),
    ("bbox_both", 0x258, .struct rect), ("field_26a", 0x26a, .prim .u8),
    ("flags_270", 0x270, .prim .u32), ("actor", 0x278, .ptr "Actor"),
    ("actor_idbits", 0x280, .prim .u32), ("block_owner", 0x288, .ptr "GuestPtr"),
    ("ext_pos_cur", 0x290, .ptr "Point2D"), ("ext_pos_old", 0x298, .ptr "Point2D"),
    ("ext_unk", 0x2a0, .ptr "u32"), ("area_system", 0x2a8, .ptr "AreaSystem"),
    ("int_off_cur", 0x2b0, .struct point2D), ("int_off_old", 0x2b8, .struct point2D),
    ("int_aoff_cur", 0x2c0, .struct point2D), ("int_aoff_old", 0x2c8, .struct point2D),
    ("int_boff_cur", 0x2d0, .struct point2D), ("int_boff_old", 0x2d8, .struct point2D),
    ("some_bitmask", 0x2e0, .prim .u32), ("ridden_by_scol_lists", 0x300, .other),
    ("base_block_info", 0x364, .prim .u32), ("push_strength", 0x368, .prim .f32),
    ("ext_size", 0x3b8, .ptr "fixed_array(f32, 4)"),
    ("segments_cur", 0x3c0, .struct (countPtr "ColliderSegment")),
    ("segments_old", 0x3d0, .struct (countPtr "ColliderSegment"))]

/-- `CollisionBIC`, whose declared size is 0x10. -/
def collisionBIC : Mro :=
  structCls [("block_info", 0, .prim .u32), ("pad", 4, .prim .u32), ("collider", 8, .struct collider)]

/-- An address space of zeros. -/
def zeroMemory : Memory := fun addr => if addr < 2 ^ 64 then some 0 else none

theorem zeroMemory_bounded : ∀ place, 2 ^ 64 ≤ place → zeroMemory place = none :=
  fun _ beyond => if_neg (Nat.not_lt.mpr beyond)

theorem decodesAs_tile :
    DecodesAs zeroMemory (.struct tile) 0x71000000 (List.replicate 0x14 0) :=
  (@decodesAs_iff_fits zeroMemory zeroMemory_bounded tile 0x14 0x71000000 _ (by decide)).mpr
    (by decide)

/-- A collider does not fit into the 16 bytes of a `CollisionBIC`. -/
theorem collisionBIC_not_decodesAs :
    ¬ ∀ (memory : Memory), (∀ place, 2 ^ 64 ≤ place → memory place = none) →
      ∀ (mro : Mro) (sizeofStar : Nat) (address : Int) (data : List UInt8),
        read memory (asAddr address) sizeofStar = some data →
          DecodesAs memory (.struct mro) (asAddr address) data := by
  intro claimed
  obtain ⟨value, decoded, -⟩ := claimed zeroMemory zeroMemory_bounded collisionBIC 0x10 0x71000000
    (List.replicate 0x10 0) (by decide)
  have failed := (PtrCls.struct collisionBIC).decodeData_isSome (List.replicate 0x10 0)
  rw [decoded, Option.isSome_some] at failed
  exact absurd failed (by decide)

end Smmboss.World
