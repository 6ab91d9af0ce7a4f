import Smmboss.Client.JsMap
import Smmboss.Foundation.TreeWalk

/-! # Saving values with array buffers

`stringifyWithArrayBuffers` writes a value as JSON, a text `"\x01offset,length"` in the
place of each buffer, and the bytes of the buffers one after another beside it.
`parseWithArrayBuffers` puts the buffers back.
-/

namespace Smmboss.Client

abbrev Bytes := List UInt8

/-- The code units of a JavaScript string. -/
abbrev JsString := List UInt16

/-- A JavaScript number; the two zeros, which `===` identifies, are one. -/
inductive JsNumber where
  | finite (value : Rat)
  | infinity (negative : Bool)
  | nan

/-- The values that are neither an array nor an object of their own properties;
`Ref` says which `ArrayBuffer` an object is. -/
inductive JsScalar (Ref : Type) where
  | null
  | bool (value : Bool)
  | number (value : JsNumber)
  | string (text : JsString)
  | buffer (ref : Ref)

/-- A value; an object has its members in the order of its own properties. -/
abbrev JsValue (Ref : Type) := Tree JsString (JsScalar Ref)

/-- What JSON text denotes: a value without buffers. -/
abbrev JsonValue := JsValue Empty

/-- The members of a JavaScript string that the code writes. -/
def ofChars (text : List Char) : JsString := text.map fun unit => unit.val.toUInt16

/-- `Number.prototype.toString` of a natural number. -/
def decimal (value : Nat) : JsString := ofChars (Nat.toDigits 10 value)

def comma : UInt16 := 44

/-- `\x01${curOffset},${obj.byteLength}` -/
def marker (curOffset byteLength : Nat) : JsString :=
  1 :: decimal curOffset ++ comma :: decimal byteLength

/-! ## Writing -/

/-- `curOffset`, `bufs` and `bufToStr`; a sum of lengths is exact as a number up to
`2 ^ 53`, more than any memory holds. -/
structure Collected (Ref : Type) where
  curOffset : Nat
  bufs : List Ref
  bufToStr : JsMap Ref JsString

/-- What `JSON.stringify` writes for a value: a number that is not finite is null. -/
def jsonNumber : JsNumber → JsScalar Empty
  | .finite value => .number (.finite value)
  | _ => .null

section Stringify

variable {Ref : Type} [DecidableEq Ref]

def Collected.replacer (contents : Ref → Bytes) (obj : Ref) (state : Collected Ref) :
    JsString × Collected Ref :=
  match state.bufToStr.lookup obj with
  | some str => (str, state)
  | none =>
      let str := marker state.curOffset (contents obj).length
      (str, { curOffset := state.curOffset + (contents obj).length
              bufs := state.bufs ++ [obj]
              bufToStr := state.bufToStr.set obj str })

/-- `JSON.stringify` of one property, after the replacer. -/
def serialize (contents : Ref → Bytes) (obj : JsScalar Ref) (state : Collected Ref) :
    Option (JsScalar Empty × Collected Ref) :=
  match obj with
  | .null => some (.null, state)
  | .bool value => some (.bool value, state)
  | .number value => some (jsonNumber value, state)
  | .string text => some (.string text, state)
  | .buffer ref =>
      let (str, state) := state.replacer contents ref
      some (.string str, state)

/-- The JSON text as the value it denotes, and the buffers to compress. -/
def stringify (contents : Ref → Bytes) (data : JsValue Ref) :
    Option (JsonValue × List Ref) :=
  (data.walk (serialize contents) { curOffset := 0, bufs := [], bufToStr := ∅ }).map
    fun (json, state) => (json, state.bufs)

end Stringify

/-! ## Reading -/

/-- `ToNumber` of a text of decimal digits, which both parts of every marker are. -/
def toNumber (text : JsString) : Option Nat :=
  let digits := text.map fun unit => Char.ofNat unit.toNat
  if digits ≠ [] ∧ digits.all Char.isDigit then some (Nat.ofDigitChars 10 digits 0) else none

/-- `part | 0`: `ToInt32`, which takes a missing part and a text that is not a number to 0. -/
def toInt32 (part : Option JsString) : Int :=
  match part.bind toNumber with
  | some value => (BitVec.ofNat 32 value).toInt
  | none => 0

/-- `new Uint8Array(raw, offset, length)`; a range that is not in the buffer throws. -/
def uint8Array (raw : Bytes) (offset length : Int) : Option Bytes :=
  if 0 ≤ offset ∧ 0 ≤ length ∧ offset + length ≤ raw.length then
    some ((raw.drop offset.toNat).take length.toNat)
  else none

/-- The buffer that the reviver makes for a marker; `new ArrayBuffer(length)` throws for a
negative length as the view does. -/
def decodeMarker (raw : Bytes) (obj : JsString) : Option Bytes :=
  let parts := (obj.drop 1).splitOn comma
  uint8Array raw (toInt32 parts[0]?) (toInt32 parts[1]?)

/-- The buffers made so far, a buffer being known by its number, and `strToBuf`. -/
structure Revived where
  made : List Bytes
  strToBuf : JsMap JsString Nat

def Revived.reviver (raw : Bytes) (obj : JsString) (state : Revived) :
    Option (Nat × Revived) :=
  match state.strToBuf.lookup obj with
  | some ab => some (ab, state)
  | none => do
      let bytes ← decodeMarker raw obj
      return (state.made.length,
        { made := state.made ++ [bytes]
          strToBuf := state.strToBuf.set obj state.made.length })

def revive (raw : Bytes) (obj : JsScalar Empty) (state : Revived) :
    Option (JsScalar Nat × Revived) :=
  match obj with
  | .null => some (.null, state)
  | .bool value => some (.bool value, state)
  | .number value => some (.number value, state)
  | .string text =>
      if text[0]? = some 1 then
        (state.reviver raw text).map fun (ab, later) => (.buffer ab, later)
      else some (.string text, state)

/-- The parsed value and the contents of its buffers. -/
def parse (raw : Bytes) (json : JsonValue) : Option (JsValue Nat × List Bytes) :=
  (json.walk (revive raw) { made := [], strToBuf := ∅ }).map
    fun (value, state) => (value, state.made)

/-! ## Compression -/

/-- The browser's gzip streams: the chunks that are written, and those that come out of
the decompression, which have the same bytes. -/
structure Gzip where
  Url : Type
  compress : List Bytes → Url
  decompress : Url → List Bytes
  lossless : ∀ written, (decompress (compress written)).flatten = written.flatten

/-- `u8.set(..)` for a view of `total` at `offset`. -/
def setAt (total : Bytes) (offset : Nat) (chunk : Bytes) : Bytes :=
  total.take offset ++ chunk ++ total.drop (offset + chunk.length)

def fillLoop (total : Bytes) (offset : Nat) : List Bytes → Bytes
  | [] => total
  | dbuf :: db => fillLoop (setAt total offset dbuf) (offset + dbuf.length) db

def totalLength : List Bytes → Nat
  | [] => 0
  | dbuf :: db => dbuf.length + totalLength db

def Gzip.decompressBuf (gzip : Gzip) (url : gzip.Url) : Bytes :=
  let db := gzip.decompress url
  fillLoop (List.replicate (totalLength db) 0) 0 db

/-- The two lines: the JSON, which has no line feed, and the data URL. -/
def stringifyWithArrayBuffers {Ref : Type} [DecidableEq Ref] (gzip : Gzip)
    (contents : Ref → Bytes) (data : JsValue Ref) : Option (JsonValue × gzip.Url) :=
  (stringify contents data).map fun (json, bufs) => (json, gzip.compress (bufs.map contents))

def parseWithArrayBuffers (gzip : Gzip) (jsonPlus : JsonValue × gzip.Url) :
    Option (JsValue Nat × List Bytes) :=
  parse (gzip.decompressBuf jsonPlus.2) jsonPlus.1

/-! ## What is written -/

def JsScalar.buffer? {Ref : Type} : JsScalar Ref → Option Ref
  | .buffer ref => some ref
  | _ => none

/-- The buffers of a value, each where a walk first meets it. -/
def buffersOf {Ref : Type} [DecidableEq Ref] (visited : List (JsScalar Ref)) : List Ref :=
  (visited.filterMap JsScalar.buffer?).eraseDups

/-- The bytes of the buffers before this one. -/
def offsetOf {Ref : Type} [DecidableEq Ref] (contents : Ref → Bytes) (bufs : List Ref)
    (ref : Ref) : Nat :=
  ((bufs.take (bufs.idxOf ref)).flatMap contents).length

/-- What is written for a scalar when these are the buffers. -/
def written {Ref : Type} [DecidableEq Ref] (contents : Ref → Bytes) (bufs : List Ref) :
    JsScalar Ref → JsScalar Empty
  | .null => .null
  | .bool value => .bool value
  | .number value => jsonNumber value
  | .string text => .string text
  | .buffer ref => .string (marker (offsetOf contents bufs ref) (contents ref).length)

section Stringify

variable {Ref : Type} [DecidableEq Ref] {contents : Ref → Bytes}

theorem mem_buffersOf {visited : List (JsScalar Ref)} {ref : Ref} :
    ref ∈ buffersOf visited ↔ .buffer ref ∈ visited := by
  rw [buffersOf, List.mem_eraseDups, List.mem_filterMap]
  constructor
  · rintro ⟨scalar, member, found⟩
    cases scalar with
    | buffer other =>
        cases found
        exact member
    | null | bool | number | string => cases found
  · intro member
    exact ⟨.buffer ref, member, rfl⟩

theorem buffersOf_append_scalar {visited : List (JsScalar Ref)} {scalar : JsScalar Ref}
    (plain : scalar.buffer? = none) : buffersOf (visited ++ [scalar]) = buffersOf visited := by
  rw [buffersOf, List.filterMap_append, List.filterMap_cons_none plain, List.filterMap_nil,
    List.append_nil, buffersOf]

theorem buffersOf_append_buffer (visited : List (JsScalar Ref)) (ref : Ref) :
    buffersOf (visited ++ [.buffer ref]) =
      if ref ∈ buffersOf visited then buffersOf visited else buffersOf visited ++ [ref] := by
  simp only [buffersOf, List.filterMap_append, List.filterMap_cons, List.filterMap_nil,
    JsScalar.buffer?, List.eraseDups_append, List.mem_eraseDups]
  by_cases known : ref ∈ visited.filterMap JsScalar.buffer?
  · have gone : [ref].removeAll (visited.filterMap JsScalar.buffer?) = [] := by
      rw [List.removeAll, List.filter_cons_of_neg (by simpa using known), List.filter_nil]
    rw [if_pos known, gone, List.eraseDups_nil, List.append_nil]
  · have kept : [ref].removeAll (visited.filterMap JsScalar.buffer?) = [ref] := by
      rw [List.removeAll, List.filter_cons_of_pos (by simpa using known), List.filter_nil]
    rw [if_neg known, kept]
    rfl

theorem offsetOf_append {bufs : List Ref} {ref : Ref} (known : ref ∈ bufs) (more : List Ref) :
    offsetOf contents (bufs ++ more) ref = offsetOf contents bufs ref := by
  have inside : bufs.idxOf ref ≤ bufs.length := List.idxOf_le_length
  rw [offsetOf, List.idxOf_append_of_mem known, List.take_append_of_le_length inside, offsetOf]

theorem offsetOf_new {bufs : List Ref} {ref : Ref} (unknown : ref ∉ bufs) :
    offsetOf contents (bufs ++ [ref]) ref = (bufs.flatMap contents).length := by
  rw [offsetOf, List.idxOf_append_of_notMem unknown, List.idxOf_cons_self, Nat.add_zero,
    List.take_left]

/-- The state after a walk over these scalars. -/
structure Collected.After (contents : Ref → Bytes) (visited : List (JsScalar Ref))
    (state : Collected Ref) : Prop where
  bufs : state.bufs = buffersOf visited
  offset : state.curOffset = (state.bufs.flatMap contents).length
  strings : ∀ ref, state.bufToStr.lookup ref =
    if ref ∈ state.bufs then
      some (marker (offsetOf contents state.bufs ref) (contents ref).length)
    else none

namespace Collected

variable {visited : List (JsScalar Ref)} {state : Collected Ref}

theorem After.scalar (after : state.After contents visited) {scalar : JsScalar Ref}
    (plain : scalar.buffer? = none) : state.After contents (visited ++ [scalar]) where
  bufs := by rw [buffersOf_append_scalar plain, after.bufs]
  offset := after.offset
  strings := after.strings

theorem replacer_known (after : state.After contents visited) {ref : Ref}
    (known : ref ∈ state.bufs) :
    state.replacer contents ref =
      (marker (offsetOf contents state.bufs ref) (contents ref).length, state) := by
  unfold replacer
  rw [after.strings ref, if_pos known]

theorem replacer_new (after : state.After contents visited) {ref : Ref}
    (unknown : ref ∉ state.bufs) :
    state.replacer contents ref =
      (marker state.curOffset (contents ref).length,
        { curOffset := state.curOffset + (contents ref).length
          bufs := state.bufs ++ [ref]
          bufToStr := state.bufToStr.set ref
            (marker state.curOffset (contents ref).length) }) := by
  unfold replacer
  rw [after.strings ref, if_neg unknown]

/-- A buffer's string is the marker of its place among the buffers collected so far, and
no buffer collected before changes its place. -/
theorem replacer_after (after : state.After contents visited) {ref : Ref} {str : JsString}
    {later : Collected Ref} (ran : state.replacer contents ref = (str, later)) :
    later.After contents (visited ++ [.buffer ref]) ∧
      str = marker (offsetOf contents later.bufs ref) (contents ref).length ∧
      ∃ more, later.bufs = state.bufs ++ more := by
  have extended := buffersOf_append_buffer visited ref
  rw [← after.bufs] at extended
  by_cases known : ref ∈ state.bufs
  · rw [replacer_known after known] at ran
    obtain ⟨rfl, rfl⟩ := Prod.mk.inj ran
    rw [if_pos known] at extended
    exact ⟨⟨extended.symm, after.offset, after.strings⟩, rfl, [], (List.append_nil _).symm⟩
  · rw [replacer_new after known] at ran
    obtain ⟨rfl, rfl⟩ := Prod.mk.inj ran
    rw [if_neg known] at extended
    have place := @offsetOf_new _ _ contents _ _ known
    refine ⟨⟨extended.symm, ?_, ?_⟩, ?_, [ref], rfl⟩
    · rw [List.flatMap_append, List.length_append, ← after.offset, List.flatMap_singleton]
    · intro other
      rw [JsMap.lookup_set, after.strings]
      by_cases same : other = ref
      · subst same
        rw [if_pos rfl, if_pos (List.mem_append_right _ (List.mem_singleton_self _)), place,
          after.offset]
      · by_cases old : other ∈ state.bufs
        · rw [if_neg same, if_pos old, if_pos (List.mem_append_left _ old),
            offsetOf_append old]
        · rw [if_neg same, if_neg old, if_neg]
          simp [old, same]
    · rw [place, after.offset]

end Collected

theorem serialize_settles : Tree.Settles (serialize contents)
    (fun visited state => state.After contents visited)
    (fun state => written contents state.bufs) where
  step := by
    intro visited scalar state replacement later after ran
    cases scalar with
    | buffer ref =>
        rcases replaced : state.replacer contents ref with ⟨str, next⟩
        simp only [serialize, replaced, Option.some_inj, Prod.mk.injEq] at ran
        obtain ⟨rfl, rfl⟩ := ran
        obtain ⟨reached, same, -⟩ := Collected.replacer_after after replaced
        exact ⟨reached, congrArg JsScalar.string same⟩
    | null | bool | number | string =>
        cases ran
        exact ⟨after.scalar rfl, rfl⟩
  keeps := by
    intro visited scalar state replacement later after ran earlier member
    cases scalar with
    | buffer ref =>
        rcases replaced : state.replacer contents ref with ⟨str, next⟩
        simp only [serialize, replaced, Option.some_inj, Prod.mk.injEq] at ran
        obtain ⟨-, rfl⟩ := ran
        obtain ⟨-, -, more, longer⟩ := Collected.replacer_after after replaced
        cases earlier with
        | buffer old =>
            rw [longer, written, written, offsetOf_append]
            rw [after.bufs]
            exact mem_buffersOf.mpr member
        | null | bool | number | string => rfl
    | null | bool | number | string =>
        cases ran
        rfl

theorem stringify_eq (data : JsValue Ref) :
    stringify contents data =
      some (data.map (written contents (buffersOf data.leaves)), buffersOf data.leaves) := by
  have start : Collected.After contents []
      ({ curOffset := 0, bufs := [], bufToStr := ∅ } : Collected Ref) :=
    ⟨rfl, rfl, fun ref => rfl⟩
  obtain ⟨json, state, walked⟩ := Tree.walk_defined serialize_settles data start (by
    intro scalar _ visited state _
    cases scalar <;> exact ⟨_, _, rfl⟩)
  obtain ⟨after, rfl, -⟩ := Tree.walk_settles serialize_settles data start walked
  have bufs : state.bufs = buffersOf data.leaves := after.bufs
  simp only [stringify, walked, Option.map_some, bufs]

end Stringify

/-! ## What a marker says -/

theorem toNumber_decimal (value : Nat) : toNumber (decimal value) = some value := by
  have digits : (decimal value).map (fun unit => Char.ofNat unit.toNat) =
      Nat.toDigits 10 value := by
    rw [decimal, ofChars, List.map_map]
    conv => rhs; rw [← List.map_id (Nat.toDigits 10 value)]
    refine List.map_congr_left fun digit member => ?_
    have isDigit := Nat.isDigit_of_mem_toDigits (by decide) (by decide) member
    have small : digit.val.toNat < 2 ^ 16 := by
      have most : digit.val.toNat ≤ 57 := by
        simp only [Char.isDigit, Bool.and_eq_true, decide_eq_true_eq] at isDigit
        exact isDigit.2
      omega
    rw [Function.comp_apply, UInt32.toNat_toUInt16, Nat.mod_eq_of_lt small]
    exact Char.ofNat_toNat digit
  have each : (Nat.toDigits 10 value).all Char.isDigit = true :=
    List.all_eq_true.mpr fun digit member =>
      Nat.isDigit_of_mem_toDigits (by decide) (by decide) member
  simp only [toNumber, digits]
  rw [if_pos ⟨Nat.toDigits_ne_nil, each⟩, Nat.ofDigitChars_ten_toDigits]

theorem comma_notMem_decimal (value : Nat) : comma ∉ decimal value := by
  rw [decimal, ofChars, List.mem_map]
  rintro ⟨digit, member, same⟩
  have isDigit := Nat.isDigit_of_mem_toDigits (by decide) (by decide) member
  simp only [Char.isDigit, Bool.and_eq_true, decide_eq_true_eq] at isDigit
  have least : 48 ≤ digit.val.toNat := isDigit.1
  have most : digit.val.toNat ≤ 57 := isDigit.2
  have equal := congrArg UInt16.toNat same
  rw [UInt32.toNat_toUInt16, Nat.mod_eq_of_lt (by omega)] at equal
  have unit : comma.toNat = 44 := rfl
  omega

theorem splitOn_marker (offset length : Nat) :
    ((marker offset length).drop 1).splitOn comma = [decimal offset, decimal length] := by
  have first : ∀ unit ∈ decimal offset, (unit == comma) = false := by
    intro unit member
    exact beq_eq_false_iff_ne.mpr fun same => comma_notMem_decimal offset (same ▸ member)
  show (decimal offset ++ comma :: decimal length).splitOn comma = _
  rw [List.splitOn_eq_splitOnP, List.splitOnP_append_cons_of_forall_mem first comma (by simp),
    ← List.splitOn_eq_splitOnP, List.splitOn_eq_singleton (comma_notMem_decimal length)]

theorem decodeMarker_marker (raw : Bytes) (offset length : Nat) :
    decodeMarker raw (marker offset length) =
      uint8Array raw (BitVec.ofNat 32 offset).toInt (BitVec.ofNat 32 length).toInt := by
  simp only [decodeMarker, splitOn_marker, toInt32, List.getElem?_cons_zero,
    List.getElem?_cons_succ, Option.bind_some, toNumber_decimal]

theorem marker_head (offset length : Nat) : (marker offset length)[0]? = some 1 := rfl

/-- What `| 0` leaves of a number. -/
theorem toInt_ofNat_cases (value : Nat) :
    (value % 2 ^ 32 < 2 ^ 31 ∧ (BitVec.ofNat 32 value).toInt = (value % 2 ^ 32 : Nat)) ∨
      (2 ^ 31 ≤ value % 2 ^ 32 ∧ (BitVec.ofNat 32 value).toInt < 0) := by
  rw [BitVec.toInt_eq_toNat_cond, BitVec.toNat_ofNat]
  have bound : value % 2 ^ 32 < 2 ^ 32 := Nat.mod_lt _ (by decide)
  rcases Nat.lt_or_ge (value % 2 ^ 32) (2 ^ 31) with low | high
  · left
    rw [if_pos (by omega)]
    exact ⟨low, rfl⟩
  · right
    rw [if_neg (by omega)]
    exact ⟨high, by omega⟩

/-- The marker of these bytes at this offset reads them back: the conversion keeps the
length, does not make the offset negative, and where it moves the offset the same bytes
are there. -/
def ReadsBack (raw : Bytes) (offset : Nat) (bytes : Bytes) : Prop :=
  bytes.length < 2 ^ 31 ∧ offset % 2 ^ 32 < 2 ^ 31 ∧ bytes <+: raw.drop (offset % 2 ^ 32)

theorem decodeMarker_eq_iff (raw : Bytes) (offset : Nat) (bytes : Bytes)
    (inside : offset + bytes.length ≤ raw.length) :
    decodeMarker raw (marker offset bytes.length) = some bytes ↔ ReadsBack raw offset bytes := by
  have moved : offset % 2 ^ 32 ≤ offset := Nat.mod_le _ _
  rw [decodeMarker_marker, uint8Array]
  rcases toInt_ofNat_cases offset with ⟨offsetLow, offsetInt⟩ | ⟨offsetHigh, offsetInt⟩
  · rcases toInt_ofNat_cases bytes.length with ⟨lengthLow, lengthInt⟩ | ⟨lengthHigh, lengthInt⟩
    · have shorter : bytes.length % 2 ^ 32 ≤ bytes.length := Nat.mod_le _ _
      rw [offsetInt, lengthInt, if_pos (by omega), Int.toNat_natCast, Int.toNat_natCast,
        Option.some_inj]
      constructor
      · intro same
        have counted := congrArg List.length same
        rw [List.length_take, List.length_drop] at counted
        have whole : bytes.length % 2 ^ 32 = bytes.length := by omega
        rw [whole] at same lengthLow
        exact ⟨lengthLow, offsetLow, List.prefix_iff_eq_take.mpr same.symm⟩
      · rintro ⟨lengthSmall, -, isPrefix⟩
        rw [Nat.mod_eq_of_lt (by omega : bytes.length < 2 ^ 32)]
        exact (List.prefix_iff_eq_take.mp isPrefix).symm
    · rw [if_neg (by omega)]
      constructor
      · exact nofun
      · rintro ⟨lengthSmall, -, -⟩
        rw [Nat.mod_eq_of_lt (by omega : bytes.length < 2 ^ 32)] at lengthHigh
        omega
  · rw [if_neg (by omega)]
    constructor
    · exact nofun
    · rintro ⟨-, offsetLow, -⟩
      omega

/-! ## What is read -/

/-- What is read for a scalar when the buffers of the markers are these. -/
def restored (place : JsString → Nat) : JsScalar Empty → JsScalar Nat
  | .null => .null
  | .bool value => .bool value
  | .number value => .number value
  | .string text => if text[0]? = some 1 then .buffer (place text) else .string text

def Revived.place (state : Revived) (text : JsString) : Nat :=
  (state.strToBuf.lookup text).getD 0

/-- The state after a walk over these scalars: each marker among them has its buffer,
and two markers have two. -/
structure Revived.After (raw : Bytes) (visited : List (JsScalar Empty)) (state : Revived) :
    Prop where
  known : ∀ text, .string text ∈ visited → text[0]? = some 1 →
    ∃ ab, state.strToBuf.lookup text = some ab
  made : ∀ {text ab}, state.strToBuf.lookup text = some ab →
    ∃ bytes, decodeMarker raw text = some bytes ∧ state.made[ab]? = some bytes
  distinct : ∀ {text other ab}, state.strToBuf.lookup text = some ab →
    state.strToBuf.lookup other = some ab → text = other

namespace Revived

variable {raw : Bytes} {visited : List (JsScalar Empty)} {state : Revived}

theorem After.scalar (after : state.After raw visited) {scalar : JsScalar Empty}
    (plain : ∀ text, scalar = .string text → text[0]? ≠ some 1) :
    state.After raw (visited ++ [scalar]) where
  known := by
    intro text member marked
    rcases List.mem_append.mp member with old | new
    · exact after.known text old marked
    · exact absurd marked (plain text (List.mem_singleton.mp new).symm)
  made := after.made
  distinct := after.distinct

theorem After.lt_length (after : state.After raw visited) {text : JsString} {ab : Nat}
    (found : state.strToBuf.lookup text = some ab) : ab < state.made.length := by
  obtain ⟨bytes, -, there⟩ := after.made found
  exact (List.getElem?_eq_some_iff.mp there).1

/-- The reviver knows the marker's buffer afterwards, and the buffers it knew stay. -/
theorem reviver_after (after : state.After raw visited) {text : JsString} {ab : Nat}
    {later : Revived} (ran : state.reviver raw text = some (ab, later)) :
    later.After raw (visited ++ [.string text]) ∧ later.strToBuf.lookup text = some ab ∧
      ∀ {other old}, state.strToBuf.lookup other = some old →
        later.strToBuf.lookup other = some old := by
  unfold reviver at ran
  split at ran
  · rename_i old found
    obtain ⟨rfl, rfl⟩ := Prod.mk.inj (Option.some_inj.mp ran)
    refine ⟨⟨?_, after.made, after.distinct⟩, found, id⟩
    intro other member marked
    rcases List.mem_append.mp member with old | new
    · exact after.known other old marked
    · obtain rfl := JsScalar.string.inj (List.mem_singleton.mp new)
      exact ⟨_, found⟩
  · rename_i fresh
    simp only [bind, Option.bind_eq_some_iff] at ran
    obtain ⟨bytes, decoded, same⟩ := ran
    obtain ⟨rfl, rfl⟩ := Prod.mk.inj (Option.some_inj.mp same)
    have keeps : ∀ {other old}, state.strToBuf.lookup other = some old →
        (state.strToBuf.set text state.made.length).lookup other = some old := by
      intro other old found
      rw [JsMap.lookup_set, if_neg, found]
      rintro rfl
      rw [fresh] at found
      cases found
    have here : (state.strToBuf.set text state.made.length).lookup text =
        some state.made.length := by
      rw [JsMap.lookup_set, if_pos rfl]
    refine ⟨⟨?_, ?_, ?_⟩, here, keeps⟩
    · intro other member marked
      rcases List.mem_append.mp member with old | new
      · obtain ⟨ab, found⟩ := after.known other old marked
        exact ⟨ab, keeps found⟩
      · obtain rfl := JsScalar.string.inj (List.mem_singleton.mp new)
        exact ⟨_, here⟩
    · intro other ab found
      rw [JsMap.lookup_set] at found
      split at found
      · rename_i equal
        cases found
        exact ⟨bytes, equal ▸ decoded, List.getElem?_concat_length⟩
      · obtain ⟨old, decodes, there⟩ := after.made found
        refine ⟨old, decodes, ?_⟩
        rw [List.getElem?_append_left (after.lt_length found), there]
    · intro first second ab foundFirst foundSecond
      rw [JsMap.lookup_set] at foundFirst foundSecond
      split at foundFirst <;> split at foundSecond
      · rename_i firstSame secondSame
        exact firstSame.trans secondSame.symm
      · cases foundFirst
        exact absurd (after.lt_length foundSecond) (lt_irrefl _)
      · cases foundSecond
        exact absurd (after.lt_length foundFirst) (lt_irrefl _)
      · exact after.distinct foundFirst foundSecond

theorem reviver_defined (state : Revived) {text : JsString} {bytes : Bytes}
    (decoded : decodeMarker raw text = some bytes) :
    ∃ ab later, state.reviver raw text = some (ab, later) := by
  unfold reviver
  split
  · exact ⟨_, _, rfl⟩
  · exact ⟨_, _, by rw [decoded]; rfl⟩

end Revived

section Parse

variable {raw : Bytes}

theorem revive_settles : Tree.Settles (revive raw)
    (fun visited state => state.After raw visited) (fun state => restored state.place) where
  step := by
    intro visited scalar state replacement later after ran
    cases scalar with
    | string text =>
        rw [revive] at ran
        split at ran
        · rename_i marked
          rw [Option.map_eq_some_iff] at ran
          obtain ⟨⟨ab, reached⟩, revived, same⟩ := ran
          obtain ⟨rfl, rfl⟩ := Prod.mk.inj same
          obtain ⟨next, found, -⟩ := Revived.reviver_after after revived
          refine ⟨next, ?_⟩
          rw [restored, if_pos marked, Revived.place, found, Option.getD_some]
        · rename_i plain
          cases ran
          refine ⟨after.scalar ?_, by rw [restored, if_neg plain]⟩
          intro other same
          cases same
          exact plain
    | buffer ref => exact ref.elim
    | null | bool | number =>
        cases ran
        exact ⟨after.scalar nofun, rfl⟩
  keeps := by
    intro visited scalar state replacement later after ran earlier member
    cases earlier with
    | string old =>
        by_cases marked : old[0]? = some 1
        · obtain ⟨ab, found⟩ := after.known old member marked
          have kept : later.strToBuf.lookup old = some ab := by
            cases scalar with
            | string text =>
                rw [revive] at ran
                split at ran
                · rw [Option.map_eq_some_iff] at ran
                  obtain ⟨⟨_, reached⟩, revived, same⟩ := ran
                  obtain ⟨-, rfl⟩ := Prod.mk.inj same
                  exact (Revived.reviver_after after revived).2.2 found
                · cases ran
                  exact found
            | buffer ref => exact ref.elim
            | null | bool | number =>
                cases ran
                exact found
          rw [restored, restored, if_pos marked, if_pos marked, Revived.place, Revived.place,
            kept, found]
        · rw [restored, restored, if_neg marked, if_neg marked]
    | buffer ref => exact ref.elim
    | null | bool | number => rfl

theorem after_start : Revived.After raw [] { made := [], strToBuf := ∅ } where
  known := nofun
  made := nofun
  distinct := nofun

/-- A value that is read is the JSON with a buffer for every marker, each with the bytes
that its marker says, and two markers have two buffers. -/
theorem parse_eq_some {json : JsonValue} {value : JsValue Nat} {made : List Bytes}
    (parsed : parse raw json = some (value, made)) :
    ∃ place : JsString → Nat, value = json.map (restored place) ∧
      (∀ text, .string text ∈ json.leaves → text[0]? = some 1 →
        ∃ bytes, decodeMarker raw text = some bytes ∧ made[place text]? = some bytes) ∧
      ∀ text other, .string text ∈ json.leaves → text[0]? = some 1 →
        .string other ∈ json.leaves → other[0]? = some 1 →
          place text = place other → text = other := by
  rw [parse, Option.map_eq_some_iff] at parsed
  obtain ⟨⟨result, state⟩, walked, same⟩ := parsed
  obtain ⟨rfl, rfl⟩ := Prod.mk.inj same
  obtain ⟨after, rfl, -⟩ := Tree.walk_settles revive_settles json after_start walked
  refine ⟨state.place, rfl, ?_, ?_⟩
  · intro text member marked
    obtain ⟨ab, found⟩ := after.known text member marked
    obtain ⟨bytes, decoded, there⟩ := after.made found
    exact ⟨bytes, decoded, by rwa [Revived.place, found]⟩
  · intro text other member marked otherMember otherMarked together
    obtain ⟨ab, found⟩ := after.known text member marked
    obtain ⟨otherAb, otherFound⟩ := after.known other otherMember otherMarked
    rw [Revived.place, Revived.place, found, otherFound] at together
    cases together
    exact after.distinct found otherFound

theorem parse_defined {json : JsonValue}
    (decodes : ∀ text, .string text ∈ json.leaves → text[0]? = some 1 →
      ∃ bytes, decodeMarker raw text = some bytes) :
    ∃ value made, parse raw json = some (value, made) := by
  obtain ⟨value, state, walked⟩ := Tree.walk_defined revive_settles json after_start (by
    intro scalar member visited state after
    cases scalar with
    | string text =>
        by_cases marked : text[0]? = some 1
        · obtain ⟨bytes, decoded⟩ := decodes text member marked
          obtain ⟨ab, later, revived⟩ := Revived.reviver_defined state decoded
          exact ⟨.buffer ab, later, by rw [revive, if_pos marked, revived, Option.map_some]⟩
        · exact ⟨.string text, state, by rw [revive, if_neg marked]⟩
    | buffer ref => exact ref.elim
    | null | bool | number => exact ⟨_, _, rfl⟩)
  exact ⟨value, state.made, by rw [parse, walked, Option.map_some]⟩

end Parse

end Smmboss.Client
