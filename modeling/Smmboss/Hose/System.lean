import Smmboss.Foundation.Machine
import Smmboss.Hose.Reservation

namespace Smmboss.Hose

/-! # The writer and the reader of the hose

The game thread runs `write_packet`, the hose thread runs `do_iter`, and the
mongoose thread may call `push_fd` and `set_enable_backpressure` at any time.
Every access to shared memory is a step of its own; a packet is stored byte by
byte, and a blocking `send` accepts byte by byte.
-/

/-- Where the game thread is in `write_packet`.  With `forOverrun` the call is
the nested one of `write_overrun`. -/
inductive Writer where
  | idle
  | retry (packet : Packet) (forOverrun : Bool)
  | loaded (packet : Packet) (forOverrun : Bool) (readOffset : Nat)
  | refused (packet : Packet)
  | backpressured (packet : Packet)
  | storing (packet : Packet) (forOverrun : Bool) (next : WriteInfo)
      (stores : List (UInt8 × Nat))
  | aborted
deriving DecidableEq

/-- Where the hose thread is in `do_iter`. -/
inductive Reader where
  | idle
  | loaded (info : WriteInfo) (readOffset : Nat)
  | pickedUp (info : WriteInfo)
  | sending (readOffset toSend accepted : Nat)
  | sent (readOffset : Nat)
  | aborted
deriving DecidableEq

inductive Event where
  | published (forOverrun : Bool) (packet : Packet)
  | dropped
deriving DecidableEq

def Event.packet? : Event → Option Packet
  | .published _ packet => some packet
  | .dropped => none

/-- `log` and `connections` are history: what the writer published and dropped
in order, and what each connection was sent, the newest connection first. -/
structure State where
  buf : Nat → UInt8
  readOffset : Nat
  writeInfo : WriteInfo
  newFd : Option Nat
  curFd : Option Nat
  enableBackpressure : Bool
  writer : Writer
  reader : Reader
  log : List Event
  connections : List (List UInt8)

def State.published (state : State) : List Packet := state.log.filterMap Event.packet?

def initial : State where
  buf := fun _ => 0
  readOffset := 0
  writeInfo := ⟨0, bufSize, false⟩
  newFd := none
  curFd := none
  enableBackpressure := false
  writer := .idle
  reader := .idle
  log := []
  connections := []

inductive Label where
  | writePacket (packet : Packet)
  | loadReadOffset
  | reserve
  | backpressure
  | wake
  | storeByte
  | finish (accepted : Bool)
  | loadWriteInfo
  | exchangeFd
  | dropBuffer
  | acceptByte
  | sendReturns
  | sendFails
  | storeReadOffset
  | pushFd (fd : Nat)
  | setEnableBackpressure (enable : Bool)
deriving DecidableEq

/-- A byte goes out on the newest connection. -/
def transmit (byte : UInt8) : List (List UInt8) → List (List UInt8)
  | [] => []
  | sent :: earlier => (sent ++ [byte]) :: earlier

/-- `to_send`, limited to 128 KiB where there is somebody to send to. -/
def sendLimit : Nat := 128 * 1024

/-- `do_iter` from the assertion on, where no new connection was picked up. -/
def doIter (state : State) (info : WriteInfo) (readOffset : Nat) : Reader :=
  if ¬ (readOffset ≤ info.wrapOffset ∧ info.writeOffset ≤ info.wrapOffset ∧
      info.wrapOffset ≤ bufSize) then .aborted
  else if readOffset = info.writeOffset then .idle
  else
    let readOffset := if readOffset = info.wrapOffset then 0 else readOffset
    let toSend := if readOffset < info.writeOffset then info.writeOffset - readOffset
      else info.wrapOffset - readOffset
    match state.curFd with
    | none => .sent ((readOffset + toSend) % 2 ^ 32)
    | some _ => .sending readOffset (min toSend sendLimit) 0

def step (state : State) : Label → Option State
  | .writePacket packet =>
      match state.writer with
      | .idle => some { state with writer := .retry packet false }
      | _ => none
  | .loadReadOffset =>
      match state.writer with
      | .retry packet forOverrun =>
          some { state with writer := .loaded packet forOverrun state.readOffset }
      | _ => none
  | .reserve =>
      match state.writer with
      | .loaded packet forOverrun readOffset =>
          match reserveSpaceAndWriteHeader readOffset state.writeInfo (sizeCalculator packet)
              forOverrun with
          | some reservation =>
              some { state with
                writer := .storing packet forOverrun reservation.next (reservation.stores packet) }
          | none =>
              some { state with writer := if forOverrun then .aborted else .refused packet }
      | _ => none
  | .backpressure =>
      match state.writer with
      | .refused packet =>
          if state.enableBackpressure then some { state with writer := .backpressured packet }
          else if state.writeInfo.justWroteOverrun then
            some { state with writer := .idle, log := state.log ++ [.dropped] }
          else
            some { state with writer := .retry overrunPacket true, log := state.log ++ [.dropped] }
      | _ => none
  | .wake =>
      match state.writer with
      | .backpressured packet => some { state with writer := .retry packet false }
      | _ => none
  | .storeByte =>
      match state.writer with
      | .storing packet forOverrun next ((byte, address) :: stores) =>
          some { state with
            buf := Function.update state.buf address byte
            writer := .storing packet forOverrun next stores }
      | _ => none
  | .finish accepted =>
      match state.writer with
      | .storing packet forOverrun next [] =>
          if accepted then
            some { state with
              writer := .idle
              writeInfo := next
              log := state.log ++ [.published forOverrun packet] }
          -- the review callback of `write_overrun` accepts everything
          else if forOverrun then none
          else some { state with writer := .idle }
      | _ => none
  | .loadWriteInfo =>
      match state.reader with
      | .idle => some { state with reader := .loaded state.writeInfo state.readOffset }
      | _ => none
  | .exchangeFd =>
      match state.reader with
      | .loaded info readOffset =>
          match state.newFd with
          | some fd =>
              some { state with
                newFd := none
                curFd := some fd
                connections := [] :: state.connections
                reader := .pickedUp info }
          | none => some { state with reader := doIter state info readOffset }
      | _ => none
  | .dropBuffer =>
      match state.reader with
      | .pickedUp info => some { state with readOffset := info.writeOffset, reader := .idle }
      | _ => none
  | .acceptByte =>
      match state.reader with
      | .sending readOffset toSend accepted =>
          if accepted < toSend then
            some { state with
              connections := transmit (state.buf (readOffset + accepted)) state.connections
              reader := .sending readOffset toSend (accepted + 1) }
          else none
      | _ => none
  | .sendReturns =>
      match state.reader with
      | .sending readOffset _ accepted =>
          some { state with reader := .sent ((readOffset + accepted) % 2 ^ 32) }
      | _ => none
  | .sendFails =>
      match state.reader with
      | .sending _ _ _ => some { state with curFd := none, reader := .idle }
      | _ => none
  | .storeReadOffset =>
      match state.reader with
      | .sent readOffset =>
          if readOffset ≤ bufSize then some { state with readOffset, reader := .idle }
          else some { state with reader := .aborted }
      | _ => none
  | .pushFd fd => some { state with newFd := some fd }
  | .setEnableBackpressure enable => some { state with enableBackpressure := enable }

/-- The cases of `step`, one for each way through the code. -/
inductive Transition (state : State) : Label → State → Prop where
  | writePacket (at_idle : state.writer = .idle) :
      Transition state (.writePacket packet) { state with writer := .retry packet false }
  | loadReadOffset (at_retry : state.writer = .retry packet forOverrun) :
      Transition state .loadReadOffset
        { state with writer := .loaded packet forOverrun state.readOffset }
  | reserved (at_loaded : state.writer = .loaded packet forOverrun readOffset)
      (reserved : reserveSpaceAndWriteHeader readOffset state.writeInfo (sizeCalculator packet)
        forOverrun = some reservation) :
      Transition state .reserve
        { state with
          writer := .storing packet forOverrun reservation.next (reservation.stores packet) }
  | refused (at_loaded : state.writer = .loaded packet forOverrun readOffset)
      (refused : reserveSpaceAndWriteHeader readOffset state.writeInfo (sizeCalculator packet)
        forOverrun = none) :
      Transition state .reserve
        { state with writer := if forOverrun then .aborted else .refused packet }
  | backpressured (at_refused : state.writer = .refused packet)
      (enabled : state.enableBackpressure = true) :
      Transition state .backpressure { state with writer := .backpressured packet }
  | dropped (at_refused : state.writer = .refused packet)
      (disabled : state.enableBackpressure = false)
      (after_overrun : state.writeInfo.justWroteOverrun = true) :
      Transition state .backpressure
        { state with writer := .idle, log := state.log ++ [.dropped] }
  | overrun (at_refused : state.writer = .refused packet)
      (disabled : state.enableBackpressure = false)
      (after_normal : state.writeInfo.justWroteOverrun = false) :
      Transition state .backpressure
        { state with writer := .retry overrunPacket true, log := state.log ++ [.dropped] }
  | wake (at_backpressured : state.writer = .backpressured packet) :
      Transition state .wake { state with writer := .retry packet false }
  | storeByte (at_storing : state.writer = .storing packet forOverrun next
        ((byte, address) :: stores)) :
      Transition state .storeByte
        { state with
          buf := Function.update state.buf address byte
          writer := .storing packet forOverrun next stores }
  | publish (at_storing : state.writer = .storing packet forOverrun next []) :
      Transition state (.finish true)
        { state with
          writer := .idle
          writeInfo := next
          log := state.log ++ [.published forOverrun packet] }
  | reject (at_storing : state.writer = .storing packet false next []) :
      Transition state (.finish false) { state with writer := .idle }
  | loadWriteInfo (at_idle : state.reader = .idle) :
      Transition state .loadWriteInfo
        { state with reader := .loaded state.writeInfo state.readOffset }
  | pickUp (at_loaded : state.reader = .loaded info readOffset) (pushed : state.newFd = some fd) :
      Transition state .exchangeFd
        { state with
          newFd := none
          curFd := some fd
          connections := [] :: state.connections
          reader := .pickedUp info }
  | iterate (at_loaded : state.reader = .loaded info readOffset) (none_pushed : state.newFd = none) :
      Transition state .exchangeFd { state with reader := doIter state info readOffset }
  | dropBuffer (at_pickedUp : state.reader = .pickedUp info) :
      Transition state .dropBuffer
        { state with readOffset := info.writeOffset, reader := .idle }
  | acceptByte (at_sending : state.reader = .sending readOffset toSend accepted)
      (more : accepted < toSend) :
      Transition state .acceptByte
        { state with
          connections := transmit (state.buf (readOffset + accepted)) state.connections
          reader := .sending readOffset toSend (accepted + 1) }
  | sendReturns (at_sending : state.reader = .sending readOffset toSend accepted) :
      Transition state .sendReturns
        { state with reader := .sent ((readOffset + accepted) % 2 ^ 32) }
  | sendFails (at_sending : state.reader = .sending readOffset toSend accepted) :
      Transition state .sendFails { state with curFd := none, reader := .idle }
  | storeReadOffset (at_sent : state.reader = .sent readOffset) (inside : readOffset ≤ bufSize) :
      Transition state .storeReadOffset { state with readOffset, reader := .idle }
  | overran (at_sent : state.reader = .sent readOffset) (outside : ¬ readOffset ≤ bufSize) :
      Transition state .storeReadOffset { state with reader := .aborted }
  | pushFd : Transition state (.pushFd fd) { state with newFd := some fd }
  | setEnableBackpressure :
      Transition state (.setEnableBackpressure enable)
        { state with enableBackpressure := enable }

theorem transition_of_step {state next : State} {label : Label}
    (stepped : step state label = some next) : Transition state label next := by
  cases label with
  | writePacket packet =>
      simp only [step] at stepped
      split at stepped <;> cases stepped
      exact .writePacket ‹_›
  | loadReadOffset =>
      simp only [step] at stepped
      split at stepped <;> cases stepped
      exact .loadReadOffset ‹_›
  | reserve =>
      simp only [step] at stepped
      split at stepped
      · split at stepped <;> cases stepped
        · exact .reserved ‹_› ‹_›
        · exact .refused ‹_› ‹_›
      · contradiction
  | backpressure =>
      simp only [step] at stepped
      split at stepped
      · rename_i packet at_refused
        cases enabled : state.enableBackpressure with
        | true =>
            simp only [enabled, if_pos] at stepped
            cases stepped
            simpa only [enabled] using Transition.backpressured at_refused enabled
        | false =>
            cases flag : state.writeInfo.justWroteOverrun with
            | true =>
                simp only [enabled, flag, Bool.false_eq_true, if_false, if_true] at stepped
                cases stepped
                simpa only [enabled] using Transition.dropped at_refused enabled flag
            | false =>
                simp only [enabled, flag, Bool.false_eq_true, if_false] at stepped
                cases stepped
                simpa only [enabled] using Transition.overrun at_refused enabled flag
      · contradiction
  | wake =>
      simp only [step] at stepped
      split at stepped <;> cases stepped
      exact .wake ‹_›
  | storeByte =>
      simp only [step] at stepped
      split at stepped <;> cases stepped
      exact .storeByte ‹_›
  | finish accepted =>
      simp only [step] at stepped
      split at stepped
      · rename_i packet forOverrun next at_storing
        cases accepted with
        | true => cases stepped; exact .publish at_storing
        | false =>
            cases forOverrun with
            | true => contradiction
            | false => cases stepped; exact .reject at_storing
      · contradiction
  | loadWriteInfo =>
      simp only [step] at stepped
      split at stepped <;> cases stepped
      exact .loadWriteInfo ‹_›
  | exchangeFd =>
      simp only [step] at stepped
      split at stepped
      · split at stepped <;> cases stepped
        · exact .pickUp ‹_› ‹_›
        · exact .iterate ‹_› ‹_›
      · contradiction
  | dropBuffer =>
      simp only [step] at stepped
      split at stepped <;> cases stepped
      exact .dropBuffer ‹_›
  | acceptByte =>
      simp only [step] at stepped
      split at stepped
      · split at stepped <;> cases stepped
        exact .acceptByte ‹_› ‹_›
      · contradiction
  | sendReturns =>
      simp only [step] at stepped
      split at stepped <;> cases stepped
      exact .sendReturns ‹_›
  | sendFails =>
      simp only [step] at stepped
      split at stepped <;> cases stepped
      exact .sendFails ‹_›
  | storeReadOffset =>
      simp only [step] at stepped
      split at stepped
      · split at stepped <;> cases stepped
        · exact .storeReadOffset ‹_› ‹_›
        · exact .overran ‹_› ‹_›
      · contradiction
  | pushFd fd => cases stepped; exact .pushFd
  | setEnableBackpressure enable => cases stepped; exact .setEnableBackpressure

end Smmboss.Hose
