import Smmboss.Mongoose.Wire

namespace Smmboss.Mongoose

/-! # The messages of a client

What the server gets from an orderly client, and what a disorderly one can make
of it.
-/

variable {frame : Frame} {frames : List Frame}

/-! ### Messages -/

/-- A ping or a pong. -/
def Frame.Control (frame : Frame) : Prop :=
  isFinal frame.flags = true ∧ (opOf frame.flags = 9 ∨ opOf frame.flags = 10)

def Frame.Close (frame : Frame) : Prop := isFinal frame.flags = true ∧ opOf frame.flags = 8

/-- A frame that begins a message. -/
def Frame.Begins (frame : Frame) : Prop := opOf frame.flags = 1 ∨ opOf frame.flags = 2

/-- The rest of a fragmented message, with control frames between its parts. -/
inductive Continues : List Frame → List UInt8 → List Frame → Prop where
  | control {frame : Frame} {frames : List Frame} {data : List UInt8} {after : List Frame} (between : frame.Control)
      (rest : Continues frames data after) : Continues (frame :: frames) data after
  | more {frame : Frame} {frames : List Frame} {data : List UInt8} {after : List Frame}
      (open_ : isFinal frame.flags = false) (op : opOf frame.flags = 0) (rest : Continues frames data after) :
      Continues (frame :: frames) (frame.payload ++ data) after
  | last {frame : Frame} {frames : List Frame} (final : isFinal frame.flags = true) (op : opOf frame.flags = 0) :
      Continues (frame :: frames) frame.payload frames

/-- What an orderly client sends: whole and fragmented messages, and control
frames.  A close frame is the last. -/
inductive Carries : List Frame → List (UInt8 × List UInt8) → Prop where
  | nil : Carries [] []
  | close {frame : Frame} (close : frame.Close) : Carries [frame] []
  | control {frame : Frame} {frames : List Frame} {messages : List (UInt8 × List UInt8)} (between : frame.Control)
      (rest : Carries frames messages) : Carries (frame :: frames) messages
  | whole {frame : Frame} {frames : List Frame} {messages : List (UInt8 × List UInt8)}
      (final : isFinal frame.flags = true) (begins : frame.Begins) (rest : Carries frames messages) :
      Carries (frame :: frames) ((frame.flags, frame.payload) :: messages)
  | parts {frame : Frame} {frames : List Frame} {data : List UInt8} {after : List Frame}
      {messages : List (UInt8 × List UInt8)} (open_ : isFinal frame.flags = false) (begins : frame.Begins)
      (continues : Continues frames data after) (rest : Carries after messages) :
      Carries (frame :: frames) ((frame.flags, frame.payload ++ data) :: messages)

def WsEvent.message : WsEvent → Option (UInt8 × List UInt8)
  | .msg flags data => some (flags, data)
  | _ => none

def WsEvent.reply : WsEvent → Option (UInt8 × List UInt8)
  | .send op data => some (op, data)
  | _ => none

def WsEvent.fault : WsEvent → Bool
  | .wild => true
  | event => event.closes

@[simp] theorem WsEvent.fault_of_ne_wild {event : WsEvent} (other : event ≠ .wild) : event.fault = event.closes := by
  cases event with
  | wild => exact absurd rfl other
  | _ => rfl

theorem WsEvent.closes_of_fault {event : WsEvent} (fine : event.fault = false) : event.closes = false := by
  cases event with
  | wild => rfl
  | _ => exact fine

/-- A ping is answered with its payload, and so is a close. -/
def Frame.answer (frame : Frame) : Option (UInt8 × List UInt8) :=
  if opOf frame.flags = 9 then some (10, frame.payload)
  else if opOf frame.flags = 8 then some (8, frame.payload)
  else none

/-- Some frames gave these messages and these answers, and nothing went wrong. -/
structure Gave (events : List WsEvent) (messages : List (UInt8 × List UInt8)) (frames : List Frame) : Prop where
  messages : events.filterMap WsEvent.message = messages
  replies : events.filterMap WsEvent.reply = frames.filterMap Frame.answer
  clean : ∀ event ∈ events, event.fault = false
  closes : .draining ∈ events ↔ ∃ frame ∈ frames, opOf frame.flags = 8

theorem Gave.append {first second : List WsEvent} {some_ more : List (UInt8 × List UInt8)} {before after : List Frame}
    (one : Gave first some_ before) (other : Gave second more after) :
    Gave (first ++ second) (some_ ++ more) (before ++ after) where
  messages := by rw [List.filterMap_append, one.messages, other.messages]
  replies := by rw [List.filterMap_append, List.filterMap_append, one.replies, other.replies]
  clean event member := (List.mem_append.mp member).elim (one.clean event) (other.clean event)
  closes := by simp only [List.mem_append, one.closes, other.closes, or_and_right, exists_or]

theorem deliver_control (between : frame.Control) (kept : List UInt8) :
    (deliver kept frame.flags frame.payload).1 = kept ∧
      Gave (deliver kept frame.flags frame.payload).2 [] [frame] := by
  obtain ⟨final, op⟩ := between
  have some_ : opOf frame.flags ≠ 0 := by
    rcases op with op | op <;> rw [op] <;> decide
  rw [deliver, if_pos ⟨final, some_⟩]
  refine ⟨rfl, ?_⟩
  rcases op with op | op
  all_goals
    refine ⟨?_, ?_, ?_, ?_⟩
    all_goals
      simp [frameEvents, op, WsEvent.message, WsEvent.reply, Frame.answer, List.filterMap_cons]

theorem deliver_close (close : frame.Close) (kept : List UInt8) :
    (deliver kept frame.flags frame.payload).1 = kept ∧
      Gave (deliver kept frame.flags frame.payload).2 [] [frame] := by
  obtain ⟨final, op⟩ := close
  rw [deliver, if_pos ⟨final, by rw [op]; decide⟩]
  refine ⟨rfl, ?_, ?_, ?_, ?_⟩
  all_goals
    simp [frameEvents, op, WsEvent.message, WsEvent.reply, Frame.answer, List.filterMap_cons]

theorem deliver_whole (final : isFinal frame.flags = true) (begins : frame.Begins) (kept : List UInt8) :
    (deliver kept frame.flags frame.payload).1 = kept ∧
      Gave (deliver kept frame.flags frame.payload).2 [(frame.flags, frame.payload)] [frame] := by
  have some_ : opOf frame.flags ≠ 0 := by
    rcases begins with op | op <;> rw [op] <;> decide
  rw [deliver, if_pos ⟨final, some_⟩]
  refine ⟨rfl, ?_⟩
  rcases begins with op | op
  all_goals
    refine ⟨?_, ?_, ?_, ?_⟩
    all_goals
      simp [frameEvents, op, final, WsEvent.message, WsEvent.reply, Frame.answer, List.filterMap_cons]

theorem deliver_begins (open_ : isFinal frame.flags = false) (begins : frame.Begins) :
    (deliver [] frame.flags frame.payload).1 = frame.flags :: frame.payload ∧
      Gave (deliver [] frame.flags frame.payload).2 [] [frame] := by
  have some_ : opOf frame.flags ≠ 0 := by
    rcases begins with op | op <;> rw [op] <;> decide
  rw [deliver, if_neg (by simp [open_])]
  refine ⟨by simp [open_, some_], ?_⟩
  rcases begins with op | op
  all_goals
    refine ⟨?_, ?_, ?_, ?_⟩
    all_goals simp [frameEvents, op, open_, Frame.answer]

theorem deliver_more (open_ : isFinal frame.flags = false) (op : opOf frame.flags = 0) (kept : List UInt8) :
    (deliver kept frame.flags frame.payload).1 = kept ++ frame.payload ∧
      Gave (deliver kept frame.flags frame.payload).2 [] [frame] := by
  rw [deliver, if_neg (by simp [open_])]
  refine ⟨by simp [open_, op], ?_, ?_, ?_, ?_⟩
  all_goals
    simp [frameEvents, op, open_, WsEvent.message, WsEvent.reply, Frame.answer]

theorem deliver_last (final : isFinal frame.flags = true) (op : opOf frame.flags = 0) (flags : UInt8) (got : List UInt8) :
    (deliver (flags :: got) frame.flags frame.payload).1 = [] ∧
      Gave (deliver (flags :: got) frame.flags frame.payload).2 [(flags, got ++ frame.payload)] [frame] := by
  rw [deliver, if_neg (by simp [op])]
  refine ⟨by simp [final], ?_, ?_, ?_, ?_⟩
  all_goals
    simp [frameEvents, op, final, wholeMessage, WsEvent.message, WsEvent.reply, Frame.answer,
      List.filterMap_cons]

/-- The parts of a message come together, whatever control frames are between them. -/
theorem continues_gathers {data : List UInt8} {after : List Frame} (continues : Continues frames data after)
    (flags : UInt8) (got : List UInt8) :
    ∃ done, frames = done ++ after ∧ (deliverAll (flags :: got) done).1 = [] ∧
      Gave (deliverAll (flags :: got) done).2 [(flags, got ++ data)] done := by
  induction continues generalizing got with
  | @control frame frames data after between rest ih =>
      obtain ⟨done, rfl, empty, gave⟩ := ih got
      obtain ⟨kept, here⟩ := deliver_control between (flags :: got)
      refine ⟨frame :: done, rfl, ?_, ?_⟩
      · rw [deliverAll, kept, empty]
      · rw [deliverAll, kept]
        exact here.append gave
  | @more frame frames data after open_ op rest ih =>
      obtain ⟨done, rfl, empty, gave⟩ := ih (got ++ frame.payload)
      obtain ⟨kept, here⟩ := deliver_more open_ op (flags :: got)
      refine ⟨frame :: done, rfl, ?_, ?_⟩
      · rw [deliverAll, kept]
        exact empty
      · rw [deliverAll, kept, ← List.append_assoc]
        exact here.append gave
  | @last frame frames final op =>
      obtain ⟨kept, here⟩ := deliver_last final op flags got
      refine ⟨[frame], rfl, ?_, ?_⟩
      · rw [deliverAll, kept, deliverAll]
      · rw [deliverAll, deliverAll]
        simpa using here

theorem carries_delivers {messages : List (UInt8 × List UInt8)} (carries : Carries frames messages) :
    (deliverAll [] frames).1 = [] ∧ Gave (deliverAll [] frames).2 messages frames := by
  induction carries with
  | nil => exact ⟨rfl, rfl, rfl, by simp [deliverAll], by simp [deliverAll]⟩
  | @close frame close =>
      obtain ⟨kept, here⟩ := deliver_close close []
      rw [deliverAll, deliverAll, kept]
      exact ⟨rfl, by simpa using here⟩
  | @control frame frames messages between rest ih =>
      obtain ⟨kept, here⟩ := deliver_control between []
      rw [deliverAll, kept]
      exact ⟨ih.1, here.append ih.2⟩
  | @whole frame frames messages final begins rest ih =>
      obtain ⟨kept, here⟩ := deliver_whole final begins []
      rw [deliverAll, kept]
      exact ⟨ih.1, here.append ih.2⟩
  | @parts frame frames data after messages open_ begins continues rest ih =>
      obtain ⟨kept, here⟩ := deliver_begins open_ begins
      obtain ⟨done, rfl, empty, gave⟩ := continues_gathers continues frame.flags frame.payload
      rw [deliverAll, kept, deliverAll_append, empty]
      refine ⟨ih.1, ?_⟩
      have whole := here.append (gave.append ih.2)
      simpa using whole

theorem continues_final {data : List UInt8} {after : List Frame} (continues : Continues frames data after) :
    ∃ done last, frames = done ++ last :: after ∧ isFinal last.flags = true := by
  induction continues with
  | @control frame frames data after between rest ih =>
      obtain ⟨done, last, rfl, final⟩ := ih
      exact ⟨frame :: done, last, rfl, final⟩
  | @more frame frames data after open_ op rest ih =>
      obtain ⟨done, last, rfl, final⟩ := ih
      exact ⟨frame :: done, last, rfl, final⟩
  | @last frame frames final op => exact ⟨[], frame, rfl, final⟩

theorem getLast_final {last : Frame} (here : isFinal last.flags = true)
    (rest : ∀ last, frames.getLast? = some last → isFinal last.flags = true) :
    ∀ end_, (last :: frames).getLast? = some end_ → isFinal end_.flags = true := by
  intro end_ ends
  rw [List.getLast?_cons] at ends
  cases rest' : frames.getLast? with
  | none =>
      rw [rest'] at ends
      obtain rfl := Option.some.inj ends
      exact here
  | some other =>
      rw [rest'] at ends
      exact rest end_ (rest'.trans ends)

/-- Nothing is left open at the end. -/
theorem carries_final {messages : List (UInt8 × List UInt8)} (carries : Carries frames messages) :
    ∀ last, frames.getLast? = some last → isFinal last.flags = true := by
  induction carries with
  | nil => simp
  | close close => exact getLast_final close.1 (by simp)
  | @control frame frames messages between rest ih => exact getLast_final between.1 ih
  | @whole frame frames messages final begins rest ih => exact getLast_final final ih
  | @parts frame frames data after messages open_ begins continues rest ih =>
      obtain ⟨done, last, rfl, final⟩ := continues_final continues
      intro end_ ends
      rw [← List.cons_append, List.getLast?_append_of_ne_nil _ (List.cons_ne_nil _ _)] at ends
      exact getLast_final final ih end_ ends

/-! ### What does not end the connection -/

/-- The server goes on after the frame. -/
def Frame.Open (frame : Frame) : Prop :=
  opOf frame.flags = 0 ∨ opOf frame.flags = 1 ∨ opOf frame.flags = 2 ∨ opOf frame.flags = 9 ∨ opOf frame.flags = 10

theorem frameEvents_open (open_ : frame.Open) :
    (frameEvents frame.flags frame.payload).any WsEvent.closes = false ∧
      .draining ∉ frameEvents frame.flags frame.payload := by
  rcases open_ with op | op | op | op | op
  all_goals
    simp only [frameEvents, op]
    cases isFinal frame.flags <;> simp

theorem wholeMessage_open (gathered : List UInt8) :
    (wholeMessage gathered).closes = false ∧ wholeMessage gathered ≠ .draining := by
  cases gathered with
  | nil => exact ⟨rfl, by simp [wholeMessage]⟩
  | cons flags data => exact ⟨rfl, by simp [wholeMessage]⟩

theorem deliver_open (open_ : frame.Open) (kept : List UInt8) :
    (deliver kept frame.flags frame.payload).2.any WsEvent.closes = false ∧
      .draining ∉ (deliver kept frame.flags frame.payload).2 := by
  obtain ⟨closes, draining⟩ := frameEvents_open open_
  rw [deliver]
  split
  · exact ⟨closes, draining⟩
  · dsimp only
    split
    · have whole := wholeMessage_open (kept ++ (if opOf frame.flags ≠ 0 then [frame.flags] else []) ++ frame.payload)
      rw [List.any_append, closes, List.mem_append, List.mem_singleton]
      refine ⟨by rw [List.any_cons, List.any_nil, whole.1]; rfl, ?_⟩
      rintro (early | last)
      · exact draining early
      · exact whole.2 last.symm
    · exact ⟨closes, draining⟩

theorem deliverAll_open (open_ : ∀ frame ∈ frames, frame.Open) (kept : List UInt8) :
    (deliverAll kept frames).2.any WsEvent.closes = false ∧ .draining ∉ (deliverAll kept frames).2 := by
  induction frames generalizing kept with
  | nil => exact ⟨rfl, by simp [deliverAll]⟩
  | cons frame frames ih =>
      obtain ⟨here, rest⟩ := List.forall_mem_cons.mp open_
      obtain ⟨closes, draining⟩ := deliver_open here kept
      obtain ⟨later, stays⟩ := ih rest (deliver kept frame.flags frame.payload).1
      rw [deliverAll, List.any_append, closes, later, List.mem_append]
      exact ⟨rfl, fun either => either.elim draining stays⟩

theorem Frame.Control.isOpen (control : frame.Control) : frame.Open :=
  .inr (.inr (.inr control.2))

theorem Frame.Begins.isOpen (begins : frame.Begins) : frame.Open :=
  .inr (begins.imp id .inl)

theorem continues_open {data : List UInt8} {after : List Frame} (continues : Continues frames data after) :
    ∃ done, frames = done ++ after ∧ ∀ frame ∈ done, frame.Open := by
  induction continues with
  | @control frame frames data after between rest ih =>
      obtain ⟨done, rfl, parts⟩ := ih
      exact ⟨frame :: done, rfl, List.forall_mem_cons.mpr ⟨between.isOpen, parts⟩⟩
  | @more frame frames data after open_ op rest ih =>
      obtain ⟨done, rfl, parts⟩ := ih
      exact ⟨frame :: done, rfl, List.forall_mem_cons.mpr ⟨.inl op, parts⟩⟩
  | @last frame frames final op => exact ⟨[frame], rfl, List.forall_mem_singleton.mpr (.inl op)⟩

theorem dropLast_open {done : List Frame} (here : ∀ frame ∈ done, frame.Open)
    (rest : ∀ frame ∈ frames.dropLast, frame.Open) : ∀ frame ∈ (done ++ frames).dropLast, frame.Open := by
  cases frames with
  | nil =>
      rw [List.append_nil]
      exact fun frame member => here frame ((List.dropLast_sublist _).subset member)
  | cons first frames =>
      rw [List.dropLast_append_of_ne_nil (List.cons_ne_nil _ _)]
      intro frame member
      exact (List.mem_append.mp member).elim (here frame) (rest frame)

/-- Nothing but the last frame of an orderly client ends the connection. -/
theorem carries_open {messages : List (UInt8 × List UInt8)} (carries : Carries frames messages) :
    ∀ frame ∈ frames.dropLast, frame.Open := by
  induction carries with
  | nil => simp
  | close close => simp
  | @control frame frames messages between rest ih =>
      exact dropLast_open (List.forall_mem_singleton.mpr between.isOpen) ih
  | @whole frame frames messages final begins rest ih =>
      exact dropLast_open (List.forall_mem_singleton.mpr begins.isOpen) ih
  | @parts frame frames data after messages open_ begins continues rest ih =>
      obtain ⟨done, rfl, parts⟩ := continues_open continues
      exact dropLast_open (List.forall_mem_cons.mpr ⟨begins.isOpen, parts⟩) ih

theorem handles_logger {events : List WsEvent} {log last : Log} (handles : Handles logger log events last) :
    last.events = log.events ++ events := by
  induction handles with
  | done => exact (List.append_nil _).symm
  | event handled rest ih =>
      cases handled
      rw [ih, List.append_assoc]
      rfl
  | write count rest ih => exact ih

theorem not_aborts_logger {events : List WsEvent} {log : Log} : ¬ Aborts logger log events := by
  rintro ⟨_, _, _, _, _, _, aborts⟩
  contradiction

theorem lasts_logger (open_ : ∀ frame ∈ frames.dropLast, frame.Open) : Lasts logger [] {} frames := by
  rintro done left rfl missing
  rw [List.dropLast_append_of_ne_nil missing] at open_
  obtain ⟨closes, draining⟩ := deliverAll_open (fun frame member => open_ frame (List.mem_append_left _ member)) []
  refine ⟨closes, fun middle handles => ?_⟩
  have events : middle.events = (deliverAll [] done).2 := handles_logger handles
  exact Bool.eq_false_iff.mpr fun told => draining (events ▸ List.contains_iff_mem.mp told)

/-- The log of a connection whose last frame at most ends it. -/
theorem readAll_logger {reads : List Read} (open_ : ∀ frame ∈ frames.dropLast, frame.Open)
    (cut : reads.flatMap Read.bytes = wire frames) (some_ : ∀ read ∈ reads, read.bytes ≠ []) (room : Room [] frames) :
    ∃ conn log, readAll logger (some {}) {} reads = some (conn, log) ∧ log.events = (deliverAll [] frames).2 ∧
      (conn = some ⟨(deliverAll [] frames).1, (deliverAll [] frames).1.length⟩ ∨
        conn = none ∧ ((deliverAll [] frames).2.any WsEvent.closes = true ∨ .draining ∈ (deliverAll [] frames).2)) := by
  have ends := readAll_from (show frameAt [] = none from rfl) cut some_ room (lasts_logger open_)
  rw [List.append_nil] at ends
  cases ran : readAll logger (some {}) {} reads with
  | none =>
      rw [show readAll logger (some ⟨[], List.length []⟩) {} reads = none from ran] at ends
      exact absurd ends not_aborts_logger
  | some outcome =>
      obtain ⟨conn, log⟩ := outcome
      rw [show readAll logger (some ⟨[], List.length []⟩) {} reads = some (conn, log) from ran] at ends
      obtain ⟨handles, how⟩ := ends
      have events : log.events = (deliverAll [] frames).2 := handles_logger handles
      refine ⟨conn, log, rfl, events, how.imp id fun ⟨gone, why⟩ => ⟨gone, why.imp id fun drains => ?_⟩⟩
      exact events ▸ List.contains_iff_mem.mp drains

/-! ### What the server gets -/

/-- However the bytes of an orderly client are cut into reads, the server gets its
messages, whole and in order, answers its pings and its close, and is left with
an empty buffer, or with no connection once the client has closed it. -/
theorem messages_received {messages : List (UInt8 × List UInt8)} {reads : List Read}
    (carries : Carries frames messages) (cut : reads.flatMap Read.bytes = wire frames)
    (some_ : ∀ read ∈ reads, read.bytes ≠ []) (room : Room [] frames) :
    ∃ conn log, readAll logger (some {}) {} reads = some (conn, log) ∧ Gave log.events messages frames ∧
      (conn = some {} ∨ conn = none ∧ ∃ frame ∈ frames, opOf frame.flags = 8) := by
  obtain ⟨empty, gave⟩ := carries_delivers carries
  obtain ⟨conn, log, ran, events, ends⟩ := readAll_logger (carries_open carries) cut some_ room
  refine ⟨conn, log, ran, events ▸ gave, ?_⟩
  rw [empty] at ends
  refine ends.imp id fun ⟨gone, why⟩ => ⟨gone, ?_⟩
  rcases why with closes | draining
  · obtain ⟨event, member, closes⟩ := List.any_eq_true.mp closes
    rw [WsEvent.closes_of_fault (gave.clean event member)] at closes
    contradiction
  · exact gave.closes.mp draining

/-- A binary message in two masked parts, with a ping between them, and a close. -/
def fragmentedFrames : List Frame :=
  [⟨2, [1, 2, 3, 4], [10, 20], .short, .inr rfl, by decide⟩, ⟨137, [9, 9, 9, 9], [7], .medium, .inr rfl, by decide⟩,
    ⟨128, [5, 6, 7, 8], [30], .long, .inr rfl, by decide⟩, ⟨136, [1, 1, 1, 1], [3, 232], .short, .inr rfl, by decide⟩]

/-- The socket takes the pong in two writes, and the answer to the close at once. -/
def fragmentedReads : List Read :=
  [⟨(wire fragmentedFrames).take 3, 0⟩, ⟨((wire fragmentedFrames).drop 3).take 20, 2⟩,
    ⟨(wire fragmentedFrames).drop 23, 5⟩]

theorem messages_received_fragmented :
    ∃ conn log, readAll logger (some {}) {} fragmentedReads = some (conn, log) ∧
      log.events.filterMap WsEvent.message = [(2, [10, 20, 30])] ∧
      log.events.filterMap WsEvent.reply = [(10, [7]), (8, [3, 232])] ∧ .draining ∈ log.events := by
  have carries : Carries fragmentedFrames [(2, [10, 20] ++ [30])] :=
    .parts (by decide) (.inr (by decide))
      (.control ⟨by decide, .inl (by decide)⟩ (.last (by decide) (by decide))) (.close ⟨by decide, by decide⟩)
  have cut : fragmentedReads.flatMap Read.bytes = wire fragmentedFrames := by decide
  obtain ⟨conn, log, ran, gave, _⟩ :=
    messages_received carries cut (by decide) ⟨by decide, by decide, by decide, by decide, trivial⟩
  have closed : (.draining : WsEvent) ∈ log.events :=
    gave.closes.mpr ⟨_, .tail _ (.tail _ (.tail _ (.head _))), by decide⟩
  exact ⟨conn, log, ran, gave.messages, gave.replies, closed⟩

/-! ### A message of length -1 -/

end Smmboss.Mongoose
