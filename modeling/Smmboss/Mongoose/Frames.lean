import Smmboss.Foundation.Draining
import Smmboss.Mongoose.WebSocket

namespace Smmboss.Mongoose

open Draining

/-! # The receive buffer as a queue of frames -/

variable {kept buf : List UInt8}

/-! ### What the header says -/

theorem getD_append_left {i : Nat} (more : List UInt8) (inside : i < buf.length) :
    (buf ++ more).getD i 0 = buf.getD i 0 := by
  rw [List.getD_eq_getElem?_getD, List.getD_eq_getElem?_getD, List.getElem?_append_left inside]

theorem be32_append {ofs : Nat} (more : List UInt8) (inside : ofs + 4 ≤ buf.length) :
    be32 (buf ++ more) ofs = be32 buf ofs := by
  have fits : 4 ≤ (buf.drop ofs).length := by
    rw [List.length_drop]
    omega
  rw [be32, be32, List.drop_append_of_le_length (by omega), List.take_append_of_le_length fits]

/-- Once the header is there, what follows does not change it. -/
theorem wsHeader_append (more : List UInt8) (whole : 0 < (wsHeader buf).1.headerLen) :
    wsHeader (buf ++ more) = wsHeader buf := by
  unfold wsHeader at whole ⊢
  by_cases two : 2 ≤ buf.length
  · have first := getD_append_left more (by omega : 0 < buf.length)
    have second := getD_append_left more (by omega : 1 < buf.length)
    rw [if_pos two] at whole
    rw [if_pos two, if_pos (by rw [List.length_append]; omega)]
    simp only [first, second, List.length_append] at whole ⊢
    generalize lengthByte : (buf.getD 1 0 &&& 0x7f).toNat = n at whole ⊢
    generalize maskBit : (if buf.getD 1 0 &&& 128 ≠ 0 then 4 else 0) = maskLen at whole ⊢
    have small : maskLen ≤ 4 := by
      rw [← maskBit]
      split <;> omega
    by_cases short : n < 126
    · by_cases masked : maskLen ≤ buf.length
      · have here : n < 126 ∧ maskLen ≤ buf.length := ⟨short, masked⟩
        have there : n < 126 ∧ maskLen ≤ buf.length + more.length := ⟨short, by omega⟩
        rw [if_pos here, if_pos there]
      · have notShort : ¬ (n < 126 ∧ maskLen ≤ buf.length) := fun both => masked both.2
        have notMedium : ¬ (n = 126 ∧ 4 + maskLen ≤ buf.length) := fun both => by omega
        have notLong : ¬ 10 + maskLen ≤ buf.length := by omega
        rw [if_neg notShort, if_neg notMedium, if_neg notLong] at whole
        exact absurd whole (Nat.lt_irrefl 0)
    · have here : ¬ (n < 126 ∧ maskLen ≤ buf.length) := fun both => short both.1
      have there : ¬ (n < 126 ∧ maskLen ≤ buf.length + more.length) := fun both => short both.1
      rw [if_neg here] at whole
      rw [if_neg here, if_neg there]
      by_cases medium : n = 126 ∧ 4 + maskLen ≤ buf.length
      · have longer : n = 126 ∧ 4 + maskLen ≤ buf.length + more.length := ⟨medium.1, by omega⟩
        have third := getD_append_left more (by omega : 2 < buf.length)
        have fourth := getD_append_left more (by omega : 3 < buf.length)
        rw [if_pos medium, if_pos longer, third, fourth]
      · rw [if_neg medium] at whole
        by_cases long : 10 + maskLen ≤ buf.length
        · have notMedium : ¬ (n = 126 ∧ 4 + maskLen ≤ buf.length + more.length) := fun both => medium ⟨both.1, by omega⟩
          have longer : 10 + maskLen ≤ buf.length + more.length := by omega
          have high := be32_append more (by omega : 2 + 4 ≤ buf.length)
          have low := be32_append more (by omega : 6 + 4 ≤ buf.length)
          rw [if_neg medium, if_neg notMedium, if_pos long, if_pos longer, high, low]
        · rw [if_neg long] at whole
          exact absurd whole (Nat.lt_irrefl 0)
  · rw [if_neg two] at whole
    exact absurd whole (Nat.lt_irrefl 0)

/-- The bytes of a header: two, a longer length, and the mask. -/
theorem wsHeader_bounds (buf : List UInt8) :
    ((wsHeader buf).1.headerLen = 0 ∧ (wsHeader buf).1.dataLen = 0) ∨
      (2 + (wsHeader buf).2 ≤ (wsHeader buf).1.headerLen ∧ (wsHeader buf).1.flags = buf.getD 0 0 ∧
        2 ≤ buf.length) := by
  unfold wsHeader
  by_cases two : 2 ≤ buf.length
  · simp only [if_pos two]
    generalize (if buf.getD 1 0 &&& 128 ≠ 0 then 4 else 0) = maskLen
    split
    · exact .inr ⟨Nat.le_refl _, rfl, two⟩
    · split
      · exact .inr ⟨by simp only; omega, rfl, two⟩
      · split
        · exact .inr ⟨by simp only; omega, rfl, two⟩
        · exact .inl ⟨rfl, rfl⟩
  · rw [if_neg two]
    exact .inl ⟨rfl, rfl⟩

@[simp] theorem unmask_length (key data : List UInt8) : (unmask key data).length = data.length := by
  simp [unmask]

/-! ### One frame -/

/-- A whole frame at the front of the buffer: its flags, its payload, and what follows. -/
def frameAt (buf : List UInt8) : Option (UInt8 × List UInt8 × List UInt8) :=
  let (msg, unmasked, n) := wsProcess buf
  if 0 < n then some (msg.flags, (unmasked.drop msg.headerLen).take msg.dataLen, buf.drop n) else none

/-- What `wsProcess` promises about a whole frame. -/
structure Processed (buf : List UInt8) (msg : WsMsg) (unmasked : List UInt8) : Prop where
  header : 2 ≤ msg.headerLen
  flags : msg.flags = buf.getD 0 0
  fits : msg.headerLen + msg.dataLen ≤ buf.length
  front : unmasked.take msg.headerLen = buf.take msg.headerLen
  back : unmasked.drop (msg.headerLen + msg.dataLen) = buf.drop (msg.headerLen + msg.dataLen)
  length : unmasked.length = buf.length

theorem wsProcess_cases (buf : List UInt8) :
    (wsProcess buf).2.2 = 0 ∨
      (Processed buf (wsProcess buf).1 (wsProcess buf).2.1 ∧
        (wsProcess buf).2.2 = (wsProcess buf).1.headerLen + (wsProcess buf).1.dataLen) := by
  have bounds := wsHeader_bounds buf
  unfold wsProcess
  generalize wsHeader buf = found at bounds ⊢
  obtain ⟨msg, maskLen⟩ := found
  simp only at bounds ⊢
  split
  · exact .inl rfl
  split
  · exact .inl rfl
  next fits =>
  rcases bounds with ⟨noHeader, noData⟩ | ⟨header, flags, two⟩
  · exact .inl (by simp only [noHeader, noData])
  · right
    refine ⟨?_, rfl⟩
    have whole : msg.headerLen + msg.dataLen ≤ buf.length := by omega
    by_cases masked : 0 < maskLen
    · simp only [masked, if_true]
      have front : (buf.take msg.headerLen).length = msg.headerLen := by
        rw [List.length_take]
        omega
      have middle : ∀ key, (unmask key ((buf.drop msg.headerLen).take msg.dataLen)).length = msg.dataLen := by
        intro key
        rw [unmask_length, List.length_take, List.length_drop]
        omega
      refine ⟨by omega, flags, whole, ?_, ?_, ?_⟩
      · rw [List.append_assoc, List.take_append_of_le_length (by omega), List.take_of_length_le (by omega)]
      · rw [List.drop_append, List.drop_of_length_le (by rw [List.length_append, front, middle]), List.nil_append,
          List.length_append, front, middle, Nat.sub_self, List.drop_zero]
      · rw [List.length_append, List.length_append, front, middle, List.length_drop]
        omega
    · simp only [masked, if_false]
      exact ⟨by omega, flags, whole, rfl, rfl, rfl⟩

/-- The message that was gathered, its flags first. -/
def wholeMessage : List UInt8 → WsEvent
  | [] => .wild
  | flags :: data => .msg flags data

/-- What a frame does to the message being gathered, and to the outside. -/
def deliver (kept : List UInt8) (flags : UInt8) (data : List UInt8) : List UInt8 × List WsEvent :=
  if isFinal flags ∧ opOf flags ≠ 0 then (kept, frameEvents flags data)
  else
    let gathered := kept ++ (if opOf flags ≠ 0 then [flags] else []) ++ data
    if isFinal flags then ([], frameEvents flags data ++ [wholeMessage gathered])
    else (gathered, frameEvents flags data)

theorem assembled_append (gathered rest : List UInt8) :
    assembled (gathered ++ rest) gathered.length = wholeMessage gathered := by
  cases gathered with
  | nil => rfl
  | cons flags data => simp [assembled, wholeMessage]

theorem iobufDel_append (front middle rest : List UInt8) :
    iobufDel (front ++ (middle ++ rest)) front.length middle.length = front ++ rest := by
  simp [iobufDel]

/-- The in-place edits of the loop's body come to `deliver`. -/
theorem wsBody_eq {msg : WsMsg} {header data rest : List UInt8} (length : header.length = msg.headerLen)
    (size : data.length = msg.dataLen) (flags : header.head? = some msg.flags) :
    wsBody (kept ++ (header ++ (data ++ rest))) kept.length msg =
      (⟨(deliver kept msg.flags data).1 ++ rest, (deliver kept msg.flags data).1.length⟩,
        (deliver kept msg.flags data).2) := by
  have payload : ((((kept ++ (header ++ (data ++ rest))).drop kept.length).drop msg.headerLen).take msg.dataLen) = data := by
    rw [List.drop_left, ← length, List.drop_left, ← size, List.take_left]
  obtain ⟨tail, rfl⟩ : ∃ tail, header = msg.flags :: tail := List.head?_eq_some_iff.mp flags
  rw [List.length_cons] at length
  simp only [wsBody, payload, deliver]
  cases final : isFinal msg.flags with
  | true =>
      by_cases op : opOf msg.flags = 0
      · have strip := iobufDel_append kept (msg.flags :: tail) (data ++ rest)
        rw [List.length_cons, length, List.cons_append] at strip
        have done := iobufDel_append [] (kept ++ data) rest
        simp only [List.nil_append, List.length_nil, List.append_assoc] at done
        have whole := assembled_append (kept ++ data) rest
        rw [List.append_assoc, List.length_append] at whole
        rw [List.length_append] at done
        simp [op, strip, ← size, done, whole]
      · have gone := iobufDel_append kept (msg.flags :: tail ++ data) rest
        rw [List.length_append, List.length_cons, length, size, List.append_assoc, List.cons_append] at gone
        simp [op, gone]
  | false =>
      by_cases op : opOf msg.flags = 0
      · have strip := iobufDel_append kept (msg.flags :: tail) (data ++ rest)
        rw [List.length_cons, length, List.cons_append] at strip
        simp [op, strip, ← size]
      · have strip := iobufDel_append (kept ++ [msg.flags]) tail (data ++ rest)
        have shorter : msg.headerLen - 1 = tail.length := by omega
        have left : msg.headerLen + msg.dataLen - 1 - tail.length = data.length := by omega
        rw [List.length_append, List.length_singleton] at strip
        simp only [List.append_assoc, List.cons_append, List.nil_append] at strip
        simp [op, strip, shorter, left, Nat.add_comm, Nat.add_left_comm]

/-! ### The loop -/

/-- One turn of the loop on what has been gathered and what is not yet read. -/
def takeFrame : Take (List UInt8) UInt8 WsEvent := fun kept buf =>
  (frameAt buf).map fun (flags, data, rest) => ((deliver kept flags data).1, rest, (deliver kept flags data).2)

theorem frameAt_eq_some {flags : UInt8} {data rest : List UInt8} (found : frameAt buf = some (flags, data, rest)) :
    ∃ header : List UInt8, 2 ≤ header.length ∧ header.head? = some flags ∧
      (wsProcess buf).1 = ⟨flags, header.length, data.length⟩ ∧
      (wsProcess buf).2.1 = header ++ (data ++ rest) ∧ 0 < (wsProcess buf).2.2 ∧
      (wsProcess buf).2.1.length = buf.length := by
  have cases := wsProcess_cases buf
  unfold frameAt at found
  generalize wsProcess buf = result at cases found ⊢
  obtain ⟨msg, unmasked, n⟩ := result
  simp only at cases found ⊢
  split at found
  · next positive =>
      rcases cases with zero | ⟨processed, size⟩
      · omega
      · simp only [Option.some.injEq, Prod.mk.injEq] at found
        obtain ⟨rfl, rfl, rfl⟩ := found
        have fits := processed.fits
        have two := processed.header
        have length := processed.length
        have front : (unmasked.take msg.headerLen).length = msg.headerLen := by
          rw [List.length_take]
          omega
        refine ⟨unmasked.take msg.headerLen, by omega, ?_, ?_, ?_, positive, length⟩
        · rw [processed.front, processed.flags]
          cases buf with
          | nil =>
              simp only [List.length_nil] at fits
              omega
          | cons first buf => rw [List.head?_take, if_neg (by omega)]; rfl
        · have middle : ((unmasked.drop msg.headerLen).take msg.dataLen).length = msg.dataLen := by
            rw [List.length_take, List.length_drop]
            omega
          rw [front, middle]
        · rw [size, ← processed.back, ← List.drop_drop, List.take_append_drop, List.take_append_drop]
  · contradiction

theorem frameAt_shorter {flags : UInt8} {data rest : List UInt8} (found : frameAt buf = some (flags, data, rest)) :
    2 + data.length + rest.length ≤ buf.length := by
  obtain ⟨header, two, _, _, split, _, length⟩ := frameAt_eq_some found
  rw [← length, split, List.length_append, List.length_append]
  omega

/-- A frame that is there stays there when more comes. -/
theorem frameAt_append {flags : UInt8} {data rest : List UInt8} (more : List UInt8)
    (found : frameAt buf = some (flags, data, rest)) : frameAt (buf ++ more) = some (flags, data, rest ++ more) := by
  have bounds := wsHeader_bounds buf
  have same : 0 < (wsHeader buf).1.headerLen → wsHeader (buf ++ more) = wsHeader buf := wsHeader_append more
  unfold frameAt wsProcess at found ⊢
  generalize wsHeader buf = found' at bounds same found ⊢
  obtain ⟨msg, maskLen⟩ := found'
  rcases bounds with ⟨noHeader, noData⟩ | ⟨header, _, two⟩
  · simp only at noHeader noData
    simp [noHeader, noData] at found
  · simp only at header same found
    rw [same (by omega)]
    by_cases large : 1024 * 1024 * 1024 < msg.dataLen
    · simp [large] at found
    · by_cases missing : buf.length < msg.headerLen + msg.dataLen
      · simp [large, missing] at found
      · have there : ¬ (buf ++ more).length < msg.headerLen + msg.dataLen := by
          rw [List.length_append]
          omega
        simp only [large, missing, there, if_false] at found ⊢
        have positive : 0 < msg.headerLen + msg.dataLen := by omega
        rw [if_pos positive] at found ⊢
        have front : (buf ++ more).take msg.headerLen = buf.take msg.headerLen :=
          List.take_append_of_le_length (by omega)
        have middle : ((buf ++ more).drop msg.headerLen).take msg.dataLen = (buf.drop msg.headerLen).take msg.dataLen := by
          rw [List.drop_append_of_le_length (by omega), List.take_append_of_le_length]
          rw [List.length_drop]
          omega
        have back : (buf ++ more).drop (msg.headerLen + msg.dataLen) =
            buf.drop (msg.headerLen + msg.dataLen) ++ more := List.drop_append_of_le_length (by omega)
        have frontLength : (buf.take msg.headerLen).length = msg.headerLen := by
          rw [List.length_take]
          omega
        simp only [front, middle, back] at found ⊢
        simp only [Option.some.injEq, Prod.mk.injEq] at found
        obtain ⟨rfl, rfl, rfl⟩ := found
        by_cases masked : 0 < maskLen
        · simp only [if_pos masked]
          have size (key : List UInt8) : (unmask key ((buf.drop msg.headerLen).take msg.dataLen)).length = msg.dataLen := by
            rw [unmask_length, List.length_take, List.length_drop]
            omega
          simp only [List.append_assoc]
          have dropped (tail : List UInt8) : (buf.take msg.headerLen ++ tail).drop msg.headerLen = tail :=
            List.drop_left' frontLength
          rw [dropped, dropped, List.take_left' (size _), List.take_left' (size _)]
        · simp only [if_neg masked, middle]

theorem takeFrame_sound : Sound takeFrame := by
  intro kept buf next rest events taken
  simp only [takeFrame, Option.map_eq_some_iff, Prod.exists, Prod.mk.injEq] at taken
  obtain ⟨flags, data, rest, found, _, rfl, _⟩ := taken
  have shorter := frameAt_shorter found
  omega

theorem wsLoop_eq (fuel : Nat) (kept buf : List UInt8) :
    wsLoop fuel ⟨kept ++ buf, kept.length⟩ =
      (let (last, rest, events) := drainLoop takeFrame fuel kept buf
       (⟨last ++ rest, last.length⟩, events)) := by
  induction fuel generalizing kept buf with
  | zero => rfl
  | succ fuel ih =>
      rw [wsLoop, drainLoop, takeFrame]
      simp only [List.drop_left, List.take_left]
      cases found : frameAt buf with
      | none =>
          have none : ¬ 0 < (wsProcess buf).2.2 := by
            unfold frameAt at found
            simp only at found
            split at found
            · contradiction
            · assumption
          simp [none]
      | some result =>
          obtain ⟨flags, data, rest⟩ := result
          obtain ⟨header, _, first, msg, unmasked, positive, _⟩ := frameAt_eq_some found
          rw [msg, unmasked, if_pos positive, wsBody_eq rfl rfl first]
          simp only [Option.map_some, ih]

/-- A read is a drain of the buffer. -/
theorem mgWsCb_eq (kept buf : List UInt8) :
    mgWsCb ⟨kept ++ buf, kept.length⟩ =
      (⟨(drain takeFrame kept buf).1 ++ (drain takeFrame kept buf).2.1, (drain takeFrame kept buf).1.length⟩,
        (drain takeFrame kept buf).2.2) := by
  have enough : buf.length ≤ (kept ++ buf).length := by
    rw [List.length_append]
    omega
  rw [mgWsCb, wsLoop_eq, drainLoop_fuel takeFrame_sound enough]

end Smmboss.Mongoose
