import Smmboss.Client.Reader

namespace Smmboss.Rpc

open LittleEndian (encode decode)
open Smmboss.Client (Reader)
open Smmboss.Client.Reader (between)

/-! # The hello message -/

structure Range where
  start : UInt64
  size : UInt64
deriving DecidableEq

structure BuildId where
  bytes : List UInt8
  sized : bytes.length = 16
deriving DecidableEq

theorem zeros_sized : (List.replicate 16 (0 : UInt8)).length = 16 := rfl

/-- The build id that stands for a missing one. -/
def BuildId.zero : BuildId := ⟨List.replicate 16 0, zeros_sized⟩

structure ModuleInfo where
  total : Range
  text : Range
  rodata : Range
  data : Range

/-- An index of `ModuleIndex`; `info` is missing where `HasModule` is false. -/
structure ModuleSlot where
  info : Option ModuleInfo
  buildId : Option BuildId

structure HelloModInfo where
  total : Range
  text : Range
  rodata : Range
  data : Range
  buildId : BuildId
deriving DecidableEq

/-- The entries of `hmis` that are filled in. -/
def helloModInfos (slots : List ModuleSlot) : List HelloModInfo :=
  slots.filterMap fun slot => slot.info.map fun info =>
    { total := info.total, text := info.text, rodata := info.rodata, data := info.data
      buildId := slot.buildId.getD .zero }

def Range.bytes (range : Range) : List UInt8 :=
  encode 8 range.start.toNat ++ encode 8 range.size.toNat

def HelloModInfo.bytes (hmi : HelloModInfo) : List UInt8 :=
  hmi.total.bytes ++ hmi.text.bytes ++ hmi.rodata.bytes ++ hmi.data.bytes ++ hmi.buildId.bytes

/-- The payload of the message. -/
def sendHello (slots : List ModuleSlot) : List UInt8 :=
  (helloModInfos slots).flatMap HelloModInfo.bytes

/-! ## The Python client -/

/-- `must_read` from what is left of a `BytesIO`; `none` is an exception. -/
def mustRead (fp : List UInt8) (n : Nat) : Option (List UInt8 × List UInt8) :=
  if (fp.take n).length = n then some (fp.take n, fp.drop n) else none

/-- `struct.unpack` raises on fewer than eight bytes. -/
def read64 (fp : List UInt8) : Option (Nat × List UInt8) :=
  (mustRead fp 8).map fun taken => (decode taken.1, taken.2)

section Reads

variable {fp field rest : List UInt8} {n : Nat}

theorem mustRead_append (length : field.length = n) :
    mustRead (field ++ rest) n = some (field, rest) := by
  rw [mustRead, List.take_left' length, List.drop_left' length, if_pos length]

theorem read64_append (value : UInt64) : read64 (encode 8 value.toNat ++ rest) =
    some (value.toNat, rest) := by
  rw [read64, mustRead_append (LittleEndian.encode_length 8 _), Option.map_some,
    LittleEndian.decode_encode_of_lt value.toNat_lt]

end Reads

/-- The three entries of the `info` dictionary that share a prefix. -/
structure ImageRange where
  start : Nat
  size : Nat
  stop : Nat
deriving DecidableEq

structure ImageInfo where
  image : ImageRange
  text : ImageRange
  rodata : ImageRange
  data : ImageRange
  buildId : List UInt8
deriving DecidableEq

def ImageRange.of (range : Range) : ImageRange :=
  ⟨range.start.toNat, range.size.toNat, range.start.toNat + range.size.toNat⟩

/-- The client's record of a module. -/
def ImageInfo.of (hmi : HelloModInfo) : ImageInfo :=
  ⟨.of hmi.total, .of hmi.text, .of hmi.rodata, .of hmi.data, hmi.buildId.bytes⟩

/-- What `readHelloModInfo` returns for one module. -/
structure HelloMod where
  total : Range
  text : Range
  rodata : Range
  data : Range
  buildId : List UInt8
deriving DecidableEq

/-- The reader goes on from `r` over the same view. -/
structure Advanced (r next : Reader) (count : Nat) : Prop where
  same : next.dv = r.dv
  off : next.off = r.off + count

section Advance

variable {r next : Reader}

theorem Advanced.trans {middle : Reader} {first second : Nat} (left : Advanced r middle first)
    (right : Advanced middle next second) : Advanced r next (first + second) where
  same := right.same.trans left.same
  off := by rw [right.off, left.off, Nat.add_assoc]

end Advance

def HelloMod.of (hmi : HelloModInfo) : HelloMod :=
  ⟨hmi.total, hmi.text, hmi.rodata, hmi.data, hmi.buildId.bytes⟩

section Between

variable {done rest : List UInt8}

end Between

end Smmboss.Rpc
