import Smmboss.Foundation.Machine
import Smmboss.StupidHash.Keys
import Smmboss.Collision.Packet

namespace Smmboss.Collision

open StupidHash (Params Table)

/-! # The collision hooks

The game thread runs the hooks one after the other and, once a frame,
`frame_start_collision_actions`; the RPC thread changes the flag word at any
time.  A hook reads the flags once, before anything else, so each of its calls is
one step; the frame start reads them three times and is three steps.
-/

structure Nothing where
deriving Inhabited

def collidersParams : Params UInt48 := ⟨12289, 12289, BitVec.toNat, by decide, by decide⟩

def hashedScolsParams : Params UInt48 := ⟨3079, 3079, BitVec.toNat, by decide, by decide⟩

def hitboxesParams : Params UInt48 := ⟨3079, 3079, BitVec.toNat, by decide, by decide⟩

def sendAllColls : UInt64 := 2

def sendBgEvents : UInt64 := 4

def sendCollStuff : UInt64 := 0x10

/-- What the hooks do not decide themselves: whether the ring has room for the
n-th packet, what an unassigned variable holds at that time, the hash function
and the address of the game's vtable. -/
structure Env where
  room : Nat → Bool
  unassigned : Nat → Bool
  xxh3 : List UInt8 → UInt64
  hitboxVtable : Ptr

/-- Nothing is ever dropped. -/
def Env.Roomy (env : Env) : Prop := ∀ write, env.room write = true

def roomyEnv : Env where
  room := fun _ => true
  unassigned := fun _ => false
  xxh3 := fun _ => 0
  hitboxVtable := 0

inductive Event where
  | published (packet : HosePacket)
  | scolsCleared
deriving DecidableEq

def Event.packet? : Event → Option HosePacket
  | .published packet => some packet
  | .scolsCleared => none

/-- Where the game thread is in `frame_start_collision_actions`, if it is in it. -/
inductive Game where
  | playing
  | testAllColls
  | clearAllColls
deriving DecidableEq

/-- `writes` counts the calls of `write_packet`.  `log` and `alive` are history:
what was published and cleared, and which colliders have been added and not
removed since. -/
structure State where
  flags : UInt64
  installed : Bool
  colliders : Table UInt48 Nothing
  hashedScols : Table UInt48 UInt64
  hitboxesThisFrame : Table UInt48 Nothing
  justWroteOverrun : Bool
  writes : Nat
  game : Game
  log : List Event
  alive : Ptr → Bool

def initial : State where
  flags := 0
  installed := false
  colliders := Table.zero
  hashedScols := Table.zero
  hitboxesThisFrame := Table.zero
  justWroteOverrun := false
  writes := 0
  game := .playing
  log := []
  alive := fun _ => false

namespace State

variable (env : Env)

def testRpcFlag (state : State) (flag : UInt64) : Bool := state.flags &&& flag == flag

/-- A hook does what it is there for. -/
def hooked (state : State) (flag : UInt64) : Bool := state.installed && state.testRpcFlag flag

/-- `write_packet` where the reservation succeeds and the packet is accepted. -/
def publish (state : State) (packet : HosePacket) : State :=
  { state with
    writes := state.writes + 1
    justWroteOverrun := false
    log := state.log ++ [.published packet] }

/-- `write_packet` where the reservation fails. -/
def refuse (state : State) : State :=
  if state.justWroteOverrun then { state with writes := state.writes + 1 }
  else
    { state with
      writes := state.writes + 1
      justWroteOverrun := true
      log := state.log ++ [.published .overrun] }

/-- `write_packet` where the review callback turns the packet down. -/
def decline (state : State) : State := { state with writes := state.writes + 1 }

def writePacket (state : State) (packet : HosePacket) : State :=
  if env.room state.writes then state.publish packet else state.refuse

def reportHitbox (memory : Memory) (state : State) (hb : Ptr) : Option State := do
  if memory.hitboxVtable hb ≠ env.hitboxVtable then none
  let key ← UInt48.ofPtr hb
  let (table, _, seen) ← state.hitboxesThisFrame.lookup hitboxesParams key true
  let state := { state with hitboxesThisFrame := table }
  return if seen then state else state.writePacket env (memory.hitbox hb)

def hitboxCollide (state : State) (memory : Memory) (hb1 hb2 : Ptr) (ret : UInt64) :
    Option State :=
  if state.hooked sendCollStuff then do
    let state ← state.reportHitbox env memory hb1
    let state ← state.reportHitbox env memory hb2
    return state.writePacket env (.collisi hb1 hb2 ret)
  else some state

/-- `hitboxes` are those on the lists of the hitbox manager, in order. -/
def areaSystemDoManyCollisions (state : State) (memory : Memory) (self : Ptr)
    (hitboxes : List Ptr) : Option State :=
  if state.hooked sendCollStuff then
    hitboxes.foldlM (reportHitbox env memory) (state.writePacket env (memory.doMany self))
  else some state

def storeHash (state : State) (entry : Option Nat) (hash : UInt64) : State :=
  { state with hashedScols := state.hashedScols.storeEntry entry hash }

def oldHash (state : State) (entry : Option Nat) (found : Bool) : Option UInt64 :=
  if found then entry.map fun idx => (state.hashedScols.entries idx).value else none

/-- The state afterwards and what is returned. -/
def writeCachedDump (state : State) (entry : Option Nat) (found : Bool) (packet : HosePacket) :
    State × Bool :=
  if env.room state.writes then
    let newHash := env.xxh3 packet.body
    let reviewed := state.storeHash entry newHash
    if state.oldHash entry found ≠ some newHash then (reviewed.publish packet, true)
    else (reviewed.decline, false)
  else (state.refuse, env.unassigned state.writes)

def scolTrueOutmost (state : State) (memory : Memory) (self : Ptr) : Option State :=
  if state.hooked sendCollStuff then do
    let key ← UInt48.ofPtr self
    let (table, entry, found) ← state.hashedScols.lookup hashedScolsParams key true
    let (state, sent) := { state with hashedScols := table }.writeCachedDump env entry found
      (.scolCollider (memory.scolCollider self))
    return if sent then state else state.writePacket env (.hashedScolCollider self)
  else some state

def reportNormalCollider (memory : Memory) (tag : ColliderTag) (state : State) (nc : Ptr) :
    State :=
  state.writePacket env (.normalCollider tag (memory.normalCollider nc))

/-- The hook's part of the call. -/
def trackCollider (state : State) (memory : Memory) (self : Ptr) : Option State :=
  if state.hooked sendCollStuff then do
    let key ← UInt48.ofPtr self
    let (table, _, _) ← state.colliders.lookup collidersParams key true
    return { state with colliders := table }.reportNormalCollider env memory .added self
  else some state

def colliderAddToCollisionGrid (state : State) (memory : Memory) (self : Ptr) : Option State :=
  { state with alive := Function.update state.alive self true }.trackCollider env memory self

def untrackCollider (state : State) (self : Ptr) : Option State :=
  if state.hooked sendCollStuff then do
    let key ← UInt48.ofPtr self
    let (table, entry, _) ← state.colliders.lookup collidersParams key false
    match entry with
    | some entry =>
        let table ← table.remove collidersParams entry
        return { state with colliders := table }.writePacket env (.normalColliderGone self)
    | none => return { state with colliders := table }
  else some state

def colliderRemoveFromCollisionGridAndLists (state : State) (self : Ptr) : Option State :=
  { state with alive := Function.update state.alive self false }.untrackCollider env self

def bgCollide (state : State) (packet : HosePacket) : State :=
  if state.hooked sendBgEvents then state.writePacket env packet else state

/-- The pointers that the loop over `s_colliders` reports, in order. -/
def trackedColliders (state : State) : List Ptr :=
  state.colliders.toList.map fun entry => entry.1.toPtr

/-- `frame_start_collision_actions` up to its second test. -/
def frameStart (state : State) : State :=
  if state.testRpcFlag sendCollStuff then
    { state with
      installed := true
      hitboxesThisFrame := state.hitboxesThisFrame.clear
      game := .testAllColls }
  else state

def clearScols (state : State) : State :=
  { state with hashedScols := state.hashedScols.clear, log := state.log ++ [.scolsCleared] }

/-- The 'allcols' packet and the loop behind it. -/
def sendAllColliders (state : State) (memory : Memory) : State :=
  state.trackedColliders.foldl (reportNormalCollider env memory .all)
    (state.writePacket env .allcols)

/-- The exchange of `test_and_clear_rpc_flag` and what follows it. -/
def fetchAndAllColls (state : State) (memory : Memory) : State :=
  let cleared := { state with flags := state.flags &&& ~~~sendAllColls, game := .playing }
  if state.testRpcFlag sendAllColls then cleared.clearScols.sendAllColliders env memory
  else cleared

end State

inductive Label where
  | setFlags (clear set : UInt64)
  | frameStart
  | testAllColls
  | fetchAndAllColls (memory : Memory)
  | addToCollisionGrid (memory : Memory) (self : Ptr)
  | removeFromCollisionGridAndLists (self : Ptr)
  | scolTrueOutmost (memory : Memory) (self : Ptr)
  | doManyCollisions (memory : Memory) (self : Ptr) (hitboxes : List Ptr)
  | hitboxCollide (memory : Memory) (hb1 hb2 : Ptr) (ret : UInt64)
  | bgCollideAgainstTwopoint (memory : Memory) (call : Memory.TwopointCall)
  | bgCollideAgainstPoint (memory : Memory) (call : Memory.PointCall)

/-- The game thread's steps outside the frame start. -/
def play (env : Env) (state : State) : Label → Option State
  | .frameStart => some state.frameStart
  | .addToCollisionGrid memory self => state.colliderAddToCollisionGrid env memory self
  | .removeFromCollisionGridAndLists self =>
      state.colliderRemoveFromCollisionGridAndLists env self
  | .scolTrueOutmost memory self => state.scolTrueOutmost env memory self
  | .doManyCollisions memory self hitboxes =>
      state.areaSystemDoManyCollisions env memory self hitboxes
  | .hitboxCollide memory hb1 hb2 ret => state.hitboxCollide env memory hb1 hb2 ret
  | .bgCollideAgainstTwopoint memory call =>
      some (state.bgCollide env (.bgCollisionTwopoint (memory.twopoint call)))
  | .bgCollideAgainstPoint memory call =>
      some (state.bgCollide env (.bgCollisionPoint (memory.point call)))
  | .setFlags _ _ | .testAllColls | .fetchAndAllColls _ => none

def step (env : Env) (state : State) (label : Label) : Option State :=
  match label, state.game with
  | .setFlags clear set, _ => some { state with flags := state.flags &&& ~~~clear ||| set }
  | .testAllColls, .testAllColls =>
      some { state with
        game := if state.testRpcFlag sendAllColls then .clearAllColls else .playing }
  | .fetchAndAllColls memory, .clearAllColls => some (state.fetchAndAllColls env memory)
  | label, .playing => play env state label
  | _, _ => none

end Smmboss.Collision
