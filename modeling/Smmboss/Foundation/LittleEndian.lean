import Mathlib.Algebra.Order.Ring.Nat
import Mathlib.Data.List.Basic

namespace Smmboss.LittleEndian

/-! # Little-endian integers -/

def encode (size value : Nat) : List UInt8 :=
  (List.range size).map fun place => UInt8.ofNat (value / 256 ^ place)

def decode (bytes : List UInt8) : Nat :=
  bytes.foldr (fun byte rest => byte.toNat + 256 * rest) 0

@[simp] theorem encode_length (size value : Nat) : (encode size value).length = size := by
  simp [encode]

@[simp] theorem decode_nil : decode [] = 0 := rfl

@[simp] theorem decode_cons (byte : UInt8) (bytes : List UInt8) :
    decode (byte :: bytes) = byte.toNat + 256 * decode bytes := rfl

theorem encode_succ (size value : Nat) :
    encode (size + 1) value = UInt8.ofNat value :: encode size (value / 256) := by
  simp only [encode, List.range_succ_eq_map, List.map_cons, List.map_map, Nat.pow_zero, Nat.div_one]
  congr 1
  apply List.map_congr_left
  intro place _
  rw [Function.comp_apply, Nat.pow_succ', Nat.div_div_eq_div_mul]

theorem decode_encode (size value : Nat) : decode (encode size value) = value % 256 ^ size := by
  induction size generalizing value with
  | zero => rw [Nat.pow_zero, Nat.mod_one]; rfl
  | succ size ih =>
      have low : (UInt8.ofNat value).toNat = value % 256 := UInt8.toNat_ofNat'
      rw [encode_succ, decode_cons, ih, low, Nat.pow_succ', Nat.mod_mul]

theorem decode_encode_of_lt {size value : Nat} (fits : value < 256 ^ size) :
    decode (encode size value) = value := by
  rw [decode_encode, Nat.mod_eq_of_lt fits]

theorem decode_lt (bytes : List UInt8) : decode bytes < 256 ^ bytes.length := by
  induction bytes with
  | nil => simp
  | cons byte bytes ih =>
      have low : byte.toNat < 256 := byte.toNat_lt
      rw [decode_cons, List.length_cons, Nat.pow_succ']
      omega

end Smmboss.LittleEndian
