import Smmboss.Foundation.LittleEndian

namespace Smmboss.Client

/-! # The reader of a message

`Reader` of the web client: a view and an offset in it.  A read hands out the
bytes of the field; `none` is the overread exception.
-/

/-- An `ArrayBuffer`. -/
abbrev Buffer := List UInt8

structure Reader where
  dv : Buffer
  off : Nat

namespace Reader

open LittleEndian (encode decode)

def remaining (r : Reader) : Int := r.dv.length - r.off

/-- `read` of a type of `size` bytes.  The size can be negative, which moves the
reader back. -/
def read (r : Reader) (size : Int) : Option (Buffer × Reader) :=
  if r.remaining < size then none
  else some ((r.dv.drop r.off).take size.toNat, { r with off := (r.off + size).toNat })

def u8 (r : Reader) : Option (UInt8 × Reader) :=
  (r.read 1).map fun (bytes, r) => (UInt8.ofNat (decode bytes), r)

def s8 (r : Reader) : Option (Int × Reader) :=
  r.u8.map fun (byte, r) => (byte.toInt8.toInt, r)

def u32 (r : Reader) : Option (UInt32 × Reader) :=
  (r.read 4).map fun (bytes, r) => (UInt32.ofNat (decode bytes), r)

def u64 (r : Reader) : Option (UInt64 × Reader) :=
  (r.read 8).map fun (bytes, r) => (UInt64.ofNat (decode bytes), r)

/-- `count` fields of one type, in a loop. -/
def array (r : Reader) (count : Nat) (size : Int) : Option (List Buffer × Reader) :=
  match count with
  | 0 => some ([], r)
  | count + 1 => do
      let (first, r) ← r.read size
      let (rest, r) ← r.array count size
      some (first :: rest, r)

/-- `expectEnd`; otherwise it throws. -/
def AtEnd (r : Reader) : Prop := r.dv.length = r.off

instance (r : Reader) : Decidable r.AtEnd := Nat.decEq _ _

/-! ## Reading what was written -/

/-- A reader between what it has read and what is left. -/
def between (done rest : Buffer) : Reader := ⟨done ++ rest, done.length⟩

variable {done field rest : Buffer}

theorem between_nil (buffer : Buffer) : (⟨buffer, 0⟩ : Reader) = between [] buffer := rfl

@[simp] theorem remaining_between : (between done rest).remaining = rest.length := by
  simp [remaining, between]

@[simp] theorem atEnd_between : (between done rest).AtEnd ↔ rest = [] := by
  simp [AtEnd, between]

theorem read_between {size : Int} (length : (field.length : Int) = size) :
    (between done (field ++ rest)).read size = some (field, between (done ++ field) rest) := by
  subst length
  have enough : ¬(between done (field ++ rest)).remaining < (field.length : Int) := by
    rw [remaining_between, List.length_append]
    omega
  rw [read, if_neg enough]
  simp [between]
  omega

theorem u8_between {byte : UInt8} :
    (between done (byte :: rest)).u8 = some (byte, between (done ++ [byte]) rest) := by
  have found : (between done ([byte] ++ rest)).read 1 = _ := read_between rfl
  rw [List.singleton_append] at found
  simp [u8, found]

theorem s8_between {byte : UInt8} :
    (between done (byte :: rest)).s8 =
      some (byte.toInt8.toInt, between (done ++ [byte]) rest) := by
  simp [s8, u8_between]

theorem u32_between {value : UInt32} :
    (between done (encode 4 value.toNat ++ rest)).u32 =
      some (value, between (done ++ encode 4 value.toNat) rest) := by
  have whole : decode (encode 4 value.toNat) = value.toNat :=
    LittleEndian.decode_encode_of_lt value.toNat_lt
  simp [u32, read_between, whole]

theorem u64_between {value : UInt64} :
    (between done (encode 8 value.toNat ++ rest)).u64 =
      some (value, between (done ++ encode 8 value.toNat) rest) := by
  have whole : decode (encode 8 value.toNat) = value.toNat :=
    LittleEndian.decode_encode_of_lt value.toNat_lt
  simp [u64, read_between, whole]

/-- The fields of one size that make up the front of a buffer. -/
def fields (count size : Nat) (bytes : Buffer) : List Buffer :=
  match count with
  | 0 => []
  | count + 1 => bytes.take size :: fields count size (bytes.drop size)

theorem array_between {count size : Nat} (length : field.length = count * size) :
    (between done (field ++ rest)).array count size =
      some (fields count size field, between (done ++ field) rest) := by
  induction count generalizing done field with
  | zero =>
      obtain rfl : field = [] := List.eq_nil_of_length_eq_zero (by simpa using length)
      simp [array, fields]
  | succ count ih =>
      have enough : size ≤ field.length := by
        rw [length, Nat.succ_mul]
        omega
      have first : ((field.take size).length : Int) = size := by
        rw [List.length_take, Nat.min_eq_left enough]
      have left : (field.drop size).length = count * size := by
        rw [List.length_drop, length, Nat.succ_mul]
        omega
      have split : field ++ rest = field.take size ++ (field.drop size ++ rest) := by
        rw [← List.append_assoc, List.take_append_drop]
      rw [array, split, read_between first]
      simp only [Option.bind_eq_bind, Option.bind_some, ih left]
      simp [fields, List.append_assoc]

theorem fields_flatten {count size : Nat} {bytes : Buffer} (length : bytes.length = count * size) :
    (fields count size bytes).flatten = bytes := by
  induction count generalizing bytes with
  | zero => simp [fields, List.eq_nil_of_length_eq_zero (by simpa using length : bytes.length = 0)]
  | succ count ih =>
      have left : (bytes.drop size).length = count * size := by
        rw [List.length_drop, length, Nat.succ_mul]
        omega
      rw [fields, List.flatten_cons, ih left, List.take_append_drop]

theorem fields_sized {count size : Nat} {bytes : Buffer} (length : bytes.length = count * size) :
    ∀ part ∈ fields count size bytes, part.length = size := by
  induction count generalizing bytes with
  | zero => simp [fields]
  | succ count ih =>
      have enough : size ≤ bytes.length := by
        rw [length, Nat.succ_mul]
        omega
      have left : (bytes.drop size).length = count * size := by
        rw [List.length_drop, length, Nat.succ_mul]
        omega
      intro part member
      rcases List.mem_cons.mp member with rfl | member
      · rw [List.length_take, Nat.min_eq_left enough]
      · exact ih left part member

theorem fields_length {count size : Nat} {bytes : Buffer} : (fields count size bytes).length = count := by
  induction count generalizing bytes with
  | zero => rfl
  | succ count ih => simp [fields, ih]

end Reader

end Smmboss.Client
