import Smmboss.Client.ArrayBuffers

namespace Smmboss.Client

/-! # What comes back of a saved value

A value that is written and read is the value with its buffers renamed, exactly when
the markers of its buffers survive the conversion to 32-bit integers.
-/

theorem fillLoop_eq (total : Bytes) (db : List Bytes) : ∀ done : Bytes,
    total.length = done.length + totalLength db → done <+: total →
      fillLoop total done.length db = done ++ db.flatten := by
  induction db generalizing total with
  | nil =>
      intro done sized isPrefix
      rw [fillLoop, List.flatten_nil, List.append_nil]
      exact (isPrefix.eq_of_length (by simpa [totalLength] using sized.symm)).symm
  | cons dbuf db ih =>
      intro done sized isPrefix
      rw [totalLength] at sized
      have filled : setAt total done.length dbuf =
          (done ++ dbuf) ++ total.drop (done.length + dbuf.length) := by
        rw [setAt, (List.prefix_iff_eq_take.mp isPrefix).symm]
      have next := ih (setAt total done.length dbuf) (done ++ dbuf)
        (by rw [filled, List.length_append, List.length_append, List.length_drop]; omega)
        (filled ▸ List.prefix_append _ _)
      rw [List.length_append] at next
      rw [fillLoop, next, List.flatten_cons, List.append_assoc]

theorem Gzip.decompressBuf_compress (gzip : Gzip) (written : List Bytes) :
    gzip.decompressBuf (gzip.compress written) = written.flatten := by
  have filled := fillLoop_eq (List.replicate (totalLength (gzip.decompress (gzip.compress written))) 0)
    (gzip.decompress (gzip.compress written)) [] (by simp) List.nil_prefix
  rw [List.length_nil, List.nil_append, gzip.lossless] at filled
  exact filled

/-- Every buffer of the value under its new name. -/
def JsScalar.rename {Ref : Type} (place : Ref → Nat) : JsScalar Ref → JsScalar Nat
  | .null => .null
  | .bool value => .bool value
  | .number value => .number value
  | .string text => .string text
  | .buffer ref => .buffer (place ref)

section RoundTrip

variable {Ref : Type} [DecidableEq Ref]

/-- The value comes back, a buffer as one object at all its places and with its bytes. -/
def RoundTrips (gzip : Gzip) (contents : Ref → Bytes) (data : JsValue Ref) : Prop :=
  ∃ parsed made,
    (stringifyWithArrayBuffers gzip contents data).bind (parseWithArrayBuffers gzip) =
      some (parsed, made) ∧
    ∃ place : Ref → Nat, parsed = data.map (JsScalar.rename place) ∧
      ∀ ref, .buffer ref ∈ data.leaves → made[place ref]? = some (contents ref)

/-- No number of the value is NaN or infinite, and each buffer's marker reads back its
bytes from those of all the buffers. -/
def Savable (contents : Ref → Bytes) (data : JsValue Ref) : Prop :=
  (∀ value, .number value ∈ data.leaves → ∃ rational, value = .finite rational) ∧
    ∀ ref, .buffer ref ∈ data.leaves →
      ReadsBack ((buffersOf data.leaves).flatMap contents)
        (offsetOf contents (buffersOf data.leaves) ref) (contents ref)

variable {gzip : Gzip} {contents : Ref → Bytes} {data : JsValue Ref}

/-- The string that is written for a buffer of the value. -/
def markerOf (contents : Ref → Bytes) (data : JsValue Ref) (ref : Ref) : JsString :=
  marker (offsetOf contents (buffersOf data.leaves) ref) (contents ref).length

theorem roundTrip_eq (gzip : Gzip) (contents : Ref → Bytes) (data : JsValue Ref) :
    (stringifyWithArrayBuffers gzip contents data).bind (parseWithArrayBuffers gzip) =
      parse ((buffersOf data.leaves).flatMap contents)
        (data.map (written contents (buffersOf data.leaves))) := by
  rw [stringifyWithArrayBuffers, stringify_eq, Option.map_some, Option.bind_some,
    parseWithArrayBuffers, gzip.decompressBuf_compress, List.flatMap_def]

theorem raw_eq (contents : Ref → Bytes) {bufs : List Ref} {ref : Ref} (member : ref ∈ bufs) :
    ∃ front back, bufs.flatMap contents = front ++ contents ref ++ back ∧
      front.length = offsetOf contents bufs ref := by
  have index : bufs.idxOf ref < bufs.length := List.idxOf_lt_length_iff.mpr member
  refine ⟨(bufs.take (bufs.idxOf ref)).flatMap contents,
    (bufs.drop (bufs.idxOf ref + 1)).flatMap contents, ?_, rfl⟩
  conv => lhs; rw [← List.take_append_drop (bufs.idxOf ref) bufs, List.drop_eq_getElem_cons index,
    List.getElem_idxOf index, List.flatMap_append, List.flatMap_cons]
  rw [List.append_assoc]

theorem decodeMarker_markerOf_iff {ref : Ref} (member : .buffer ref ∈ data.leaves) :
    decodeMarker ((buffersOf data.leaves).flatMap contents) (markerOf contents data ref) =
        some (contents ref) ↔
      ReadsBack ((buffersOf data.leaves).flatMap contents)
        (offsetOf contents (buffersOf data.leaves) ref) (contents ref) := by
  obtain ⟨front, back, raw, before⟩ := raw_eq contents (mem_buffersOf.mpr member)
  apply decodeMarker_eq_iff
  rw [raw, ← before, List.length_append, List.length_append]
  omega

theorem string_mem_written {ref : Ref} (member : .buffer ref ∈ data.leaves) :
    .string (markerOf contents data ref) ∈
      (data.map (written contents (buffersOf data.leaves))).leaves := by
  rw [Tree.leaves_map]
  exact List.mem_map_of_mem (f := written contents (buffersOf data.leaves)) member

/-- The only markers that are written are those of the buffers. -/
theorem marker_of_written (unmarked : ∀ text, .string text ∈ data.leaves → text[0]? ≠ some 1)
    {text : JsString}
    (member : .string text ∈ (data.map (written contents (buffersOf data.leaves))).leaves)
    (marked : text[0]? = some 1) :
    ∃ ref, .buffer ref ∈ data.leaves ∧ text = markerOf contents data ref := by
  rw [Tree.leaves_map, List.mem_map] at member
  obtain ⟨scalar, inside, same⟩ := member
  cases scalar with
  | buffer ref =>
      cases same
      exact ⟨ref, inside, rfl⟩
  | string other =>
      cases same
      exact absurd marked (unmarked text inside)
  | number value => cases value <;> cases same
  | null | bool => cases same

/-- The value that is read, leaf by leaf. -/
theorem restored_written (unmarked : ∀ text, .string text ∈ data.leaves → text[0]? ≠ some 1)
    (place : JsString → Nat) {scalar : JsScalar Ref} (member : scalar ∈ data.leaves) :
    restored place (written contents (buffersOf data.leaves) scalar) =
      match scalar with
      | .number (.infinity _) | .number .nan => .null
      | scalar => scalar.rename fun ref => place (markerOf contents data ref) := by
  cases scalar with
  | string text => exact if_neg (unmarked text member)
  | number value => cases value <;> rfl
  | null | bool | buffer => rfl

theorem roundTrips_decodes (round : RoundTrips gzip contents data)
    {ref : Ref} (member : .buffer ref ∈ data.leaves) :
    decodeMarker ((buffersOf data.leaves).flatMap contents) (markerOf contents data ref) =
      some (contents ref) := by
  obtain ⟨parsed, made, ran, place, same, kept⟩ := round
  rw [roundTrip_eq] at ran
  obtain ⟨placed, rfl, decodes, -⟩ := parse_eq_some ran
  rw [Tree.map_map, Tree.map_eq_map_iff] at same
  have moved : placed (markerOf contents data ref) = place ref :=
    JsScalar.buffer.inj (same _ member)
  obtain ⟨bytes, decoded, there⟩ :=
    decodes _ (string_mem_written member) (marker_head _ _)
  rw [moved, kept ref member] at there
  exact decoded.trans there.symm

theorem roundTrips_iff_savable (unmarked : ∀ text, .string text ∈ data.leaves → text[0]? ≠ some 1) :
    RoundTrips gzip contents data ↔ Savable contents data := by
  constructor
  · intro round
    refine ⟨?_, fun ref member =>
      (decodeMarker_markerOf_iff member).mp (roundTrips_decodes round member)⟩
    intro value member
    obtain ⟨parsed, made, ran, place, same, -⟩ := round
    rw [roundTrip_eq] at ran
    obtain ⟨placed, rfl, -, -⟩ := parse_eq_some ran
    rw [Tree.map_map, Tree.map_eq_map_iff] at same
    have kept := same _ member
    rw [Function.comp_apply, restored_written unmarked placed member] at kept
    cases value with
    | finite rational => exact ⟨rational, rfl⟩
    | infinity | nan => cases kept
  · intro ⟨finite, readsBack⟩
    have decodes : ∀ text,
        .string text ∈ (data.map (written contents (buffersOf data.leaves))).leaves →
          text[0]? = some 1 → ∃ bytes,
            decodeMarker ((buffersOf data.leaves).flatMap contents) text = some bytes := by
      intro text member marked
      obtain ⟨ref, inside, rfl⟩ := marker_of_written unmarked member marked
      exact ⟨contents ref, (decodeMarker_markerOf_iff inside).mpr (readsBack ref inside)⟩
    obtain ⟨parsed, made, ran⟩ := parse_defined decodes
    obtain ⟨placed, rfl, there, -⟩ := parse_eq_some ran
    refine ⟨_, made, (roundTrip_eq gzip contents data).trans ran,
      fun ref => placed (markerOf contents data ref), ?_, ?_⟩
    · rw [Tree.map_map, Tree.map_eq_map_iff]
      intro scalar member
      rw [Function.comp_apply, restored_written unmarked placed member]
      cases scalar with
      | number value =>
          obtain ⟨rational, rfl⟩ := finite value member
          rfl
      | null | bool | string | buffer => rfl
    · intro ref member
      obtain ⟨bytes, decoded, found⟩ :=
        there _ (string_mem_written member) (marker_head _ _)
      rw [(decodeMarker_markerOf_iff member).mpr (readsBack ref member)] at decoded
      cases decoded
      exact found

/-- Buffers of less than two gigabytes in all come back. -/
theorem savable_of_total_lt
    (finite : ∀ value, .number value ∈ data.leaves → ∃ rational, value = .finite rational)
    (total : ((buffersOf data.leaves).flatMap contents).length < 2 ^ 31) :
    Savable contents data := by
  refine ⟨finite, fun ref member => ?_⟩
  obtain ⟨front, back, raw, before⟩ := raw_eq contents (mem_buffersOf.mpr member)
  rw [raw, List.length_append, List.length_append, before] at total
  have low : offsetOf contents (buffersOf data.leaves) ref % 2 ^ 32 =
      offsetOf contents (buffersOf data.leaves) ref := Nat.mod_eq_of_lt (by omega)
  refine ⟨by omega, by omega, ?_⟩
  rw [low, raw, List.append_assoc, ← before, List.drop_left]
  exact List.prefix_append _ _

theorem decimal_injective {first second : Nat} (same : decimal first = decimal second) :
    first = second := by
  have numbers := congrArg toNumber same
  rwa [toNumber_decimal, toNumber_decimal, Option.some_inj] at numbers

theorem marker_injective {offset length otherOffset otherLength : Nat}
    (same : marker offset length = marker otherOffset otherLength) :
    offset = otherOffset ∧ length = otherLength := by
  have parts := congrArg (fun text => (text.drop 1).splitOn comma) same
  simp only [splitOn_marker] at parts
  obtain ⟨offsets, rest⟩ := List.cons.inj parts
  exact ⟨decimal_injective offsets, decimal_injective (List.cons.inj rest).1⟩

theorem offsetOf_lt {bufs : List Ref} {ref other : Ref} (member : ref ∈ bufs)
    (before : bufs.idxOf ref < bufs.idxOf other) (filled : contents ref ≠ []) :
    offsetOf contents bufs ref < offsetOf contents bufs other := by
  have index : bufs.idxOf ref < bufs.length := List.idxOf_lt_length_iff.mpr member
  obtain ⟨gap, next⟩ := Nat.exists_eq_add_of_lt before
  have taken : bufs.take (bufs.idxOf other) =
      bufs.take (bufs.idxOf ref) ++ ref :: (bufs.drop (bufs.idxOf ref + 1)).take gap := by
    rw [next, Nat.add_assoc, List.take_add, List.drop_eq_getElem_cons index,
      List.getElem_idxOf index, List.take_succ_cons]
  have counted : 0 < (contents ref).length := List.length_pos_iff.mpr filled
  rw [offsetOf, offsetOf, taken, List.flatMap_append, List.length_append, List.flatMap_cons,
    List.length_append]
  omega

/-- A buffer with a byte in it does not come back as one object with another; two empty
buffers with nothing between them do. -/
theorem place_distinct {parsed : JsValue Nat} {made : List Bytes}
    (ran : (stringifyWithArrayBuffers gzip contents data).bind (parseWithArrayBuffers gzip) =
      some (parsed, made))
    {place : Ref → Nat} (same : parsed = data.map (JsScalar.rename place)) {ref other : Ref}
    (member : .buffer ref ∈ data.leaves) (otherMember : .buffer other ∈ data.leaves)
    (filled : contents ref ≠ []) (together : place ref = place other) : ref = other := by
  rw [roundTrip_eq] at ran
  obtain ⟨placed, rfl, -, distinct⟩ := parse_eq_some ran
  rw [Tree.map_map, Tree.map_eq_map_iff] at same
  have moved : placed (markerOf contents data ref) = place ref :=
    JsScalar.buffer.inj (same _ member)
  have otherMoved : placed (markerOf contents data other) = place other :=
    JsScalar.buffer.inj (same _ otherMember)
  have markers := distinct _ _ (string_mem_written member) (marker_head _ _)
    (string_mem_written otherMember) (marker_head _ _)
    (moved.trans (together.trans otherMoved.symm))
  obtain ⟨offsets, lengths⟩ := marker_injective markers
  have known := mem_buffersOf.mpr member
  have otherKnown := mem_buffersOf.mpr otherMember
  have otherFilled : contents other ≠ [] :=
    List.length_pos_iff.mp (lengths ▸ List.length_pos_iff.mpr filled)
  rcases Nat.lt_trichotomy ((buffersOf data.leaves).idxOf ref)
      ((buffersOf data.leaves).idxOf other) with before | equal | after
  · have less := offsetOf_lt known before filled
    omega
  · exact (List.idxOf_inj known).mp equal
  · have less := offsetOf_lt otherKnown after otherFilled
    omega

end RoundTrip

/-- Streams that hand each chunk through. -/
def passThrough : Gzip where
  Url := List Bytes
  compress := id
  decompress := id
  lossless _ := rfl

/-- A buffer twice and an empty one, in an array and an object. -/
theorem shared_roundTrips :
    RoundTrips passThrough (fun ref : Bool => if ref then [1, 2, 3] else [])
      (.array [.leaf (.buffer true), .leaf (.buffer false), .leaf (.number (.finite (1 / 2))),
        .object [([97], .leaf (.buffer true)), ([98], .leaf .null)]]) := by
  refine (roundTrips_iff_savable ?_).mpr (savable_of_total_lt ?_ (by decide))
  · intro text member
    simp [Tree.leaves, Tree.itemsLeaves, Tree.membersLeaves] at member
  · intro value member
    simp only [Tree.leaves, Tree.itemsLeaves, Tree.membersLeaves, List.cons_append,
      List.nil_append, List.append_nil, List.mem_cons, List.not_mem_nil, reduceCtorEq,
      JsScalar.number.injEq, or_false, false_or] at member
    exact ⟨_, member⟩

def gibibytes (ref : Fin 3) : Bytes :=
  if ref = 2 then [7] else List.replicate (2 ^ 30) 0

/-- The third buffer's offset is `2 ^ 31`, and `| 0` makes it negative. -/
theorem third_not_roundTrips :
    ¬ RoundTrips passThrough gibibytes
      (.array [.leaf (.buffer 0), .leaf (.buffer 1), .leaf (.buffer 2)]) := by
  intro round
  have member : JsScalar.buffer (2 : Fin 3) ∈
      (Tree.array [.leaf (.buffer 0), .leaf (.buffer 1), .leaf (.buffer 2)] :
        JsValue (Fin 3)).leaves := by
    simp [Tree.leaves, Tree.itemsLeaves]
  obtain ⟨-, offset, -⟩ :=
    (decodeMarker_markerOf_iff member).mp (roundTrips_decodes round member)
  have bufs : buffersOf (Tree.array [.leaf (.buffer 0), .leaf (.buffer 1), .leaf (.buffer 2)] :
      JsValue (Fin 3)).leaves = [0, 1, 2] := by decide
  have before : offsetOf gibibytes [0, 1, 2] 2 = 2 ^ 31 := by
    have index : ([0, 1, 2] : List (Fin 3)).idxOf 2 = 2 := by decide
    have first : (gibibytes 0).length = 2 ^ 30 := List.length_replicate
    have second : (gibibytes 1).length = 2 ^ 30 := List.length_replicate
    rw [offsetOf, index, List.take_succ_cons, List.take_succ_cons, List.take_zero,
      List.flatMap_cons, List.flatMap_cons, List.flatMap_nil, List.append_nil,
      List.length_append, first, second]
    rfl
  rw [bufs, before] at offset
  exact absurd offset (by decide)

end Smmboss.Client
