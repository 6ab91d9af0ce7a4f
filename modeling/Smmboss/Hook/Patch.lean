import Smmboss.Hook.Trampoline
import Smmboss.Space.Virtmem

namespace Smmboss.Hook

open Aarch64 Backpatch

/-! # Hooking functions

A hook writes a jump over the start of a function and moves what was there into
the next trampoline of the pool.
-/

def HookPoolSize : Nat := 0x1000

def HookMax : Nat := HookPoolSize / (TrampolineSize * 4)

/-- How many instructions the jump to a replacement takes. -/
def patchCount (symbol replace : Int) : Nat :=
  if ((replace - symbol) / 4).natAbs ≥ (0x03ffffff#32 >>> 1).toNat then
    if (symbol + 8) % 8 ≠ 0 then 5 else 4
  else 1

def patchWords (symbol replace : Int) : List Word :=
  let pcOffset := (replace - symbol) / 4
  if pcOffset.natAbs ≥ (0x03ffffff#32 >>> 1).toNat then
    (if (symbol + 8) % 8 ≠ 0 then [Aarch64Nop] else []) ++
      ([0x58000051#32, 0xd61f0220#32] ++ addressWords replace)
  else [0x14000000#32 ||| (BitVec.ofInt 32 pcOffset &&& 0x03ffffff#32)]

def hookSite (image : Image) (symbol replace rxtrampoline rwtrampoline : Int) : Site :=
  { basep := symbol, count := patchCount symbol replace, outrx := rxtrampoline, outrw := rwtrampoline, memory := image }

/-- The two mappings of the pool, of `HookPoolSize` bytes each. -/
structure Pool where
  rx : Int
  rw : Int
  aligned : rx % 0x1000 = 0

/-- The `RwPages` onto the function has all the bytes it is made for: their number
is rounded up to pages without where in the first page they begin. -/
def windowFits (symbol replace : Int) : Bool :=
  let size := if ((replace - symbol) / 4).natAbs ≥ (0x03ffffff#32 >>> 1).toNat then 20 else 4
  symbol % 0x1000 + size ≤ Space.pageAlign size

/-- The trampoline, if there is one, is written before the jump.  To compare or to
write outside the windows is `none`, as an abort is. -/
def hookFuncImpl (pool : Pool) (image : Image) (symbol replace : Int) : Option (Int × Int) → Option Image
  | none => if windowFits symbol replace then some (image.overlay symbol (patchWords symbol replace)) else none
  | some (rxtrampoline, rwtrampoline) =>
      if !windowFits symbol replace then none
      else if TrampolineSize < patchCount symbol replace * 10 then none
      else
        (fixInstructions (hookSite image symbol replace rxtrampoline rwtrampoline)).bind fun fixer =>
          if pool.rw + HookPoolSize < rwtrampoline + 4 * fixer.out.length then none
          else some ((image.overlay rxtrampoline fixer.out).overlay symbol (patchWords symbol replace))

/-- The index is 32 bits wide and starts at -1. -/
def allocForTrampoline (pool : Pool) (index : BitVec 32) : Option (Int × Int) × BitVec 32 :=
  let i := index + 1
  if i.toNat > HookMax then (none, i)
  else (some (pool.rx + 4 * TrampolineSize * i.toNat, pool.rw + 4 * TrampolineSize * i.toNat), i)

structure Hooks where
  index : BitVec 32 := 0xffffffff#32
  image : Image

structure Request where
  hook : Int
  callback : Int
  do_trampoline : Bool

/-- `Hook`, which returns the trampoline; `none` is an abort. -/
def hook (pool : Pool) (hooks : Hooks) (request : Request) : Option (Int × Hooks) :=
  if request.hook = 0 ∨ request.callback = 0 then none
  else if request.do_trampoline then
    match allocForTrampoline pool hooks.index with
    | (none, _) => none
    | (some (rxtrampoline, rwtrampoline), index) =>
        (hookFuncImpl pool hooks.image request.hook request.callback (some (rxtrampoline, rwtrampoline))).map fun image =>
          (rxtrampoline, { index := index, image := image })
  else
    (hookFuncImpl pool hooks.image request.hook request.callback none).map fun image =>
      (0, { hooks with image := image })

/-- What one hook was asked for, what it read and what it returned. -/
structure Installed where
  request : Request
  before : Image
  trampoline : Int

/-- Hooks one after the other. -/
def hookAll (pool : Pool) : Hooks → List Request → Option (List Installed × Hooks)
  | hooks, [] => some ([], hooks)
  | hooks, request :: requests =>
      match hook pool hooks request with
      | none => none
      | some (trampoline, next) =>
          (hookAll pool next requests).map fun (installed, after) =>
            (⟨request, hooks.image, trampoline⟩ :: installed, after)

variable {σ : Type} {isa : Isa σ} {image : Image} {symbol replace : Int} {pool : Pool}

theorem patchCount_le (symbol replace : Int) : patchCount symbol replace ≤ MaxInstructions := by
  unfold patchCount
  split
  · split <;> decide
  · decide

theorem patchWords_length (symbol replace : Int) : (patchWords symbol replace).length = patchCount symbol replace := by
  unfold patchWords patchCount
  simp only
  split
  · split <;> rfl
  · rfl

/-- The patched function goes to its replacement; only X17 is touched. -/
theorem run_patched (aligned : symbol % 4 = 0) (whole : replace % 4 = 0) (nonneg : 0 ≤ replace)
    (bounded : replace < 2 ^ 64) (held : Holds image symbol (patchWords symbol replace)) {cpu : Cpu σ}
    (called : cpu.pc = symbol) :
    ∃ here, Run isa image cpu here ∧ here.pc = replace ∧ here.rest = cpu.rest ∧
      ∀ r, r ≠ 17#5 → here.x r = cpu.x r := by
  have mask : (0x03ffffff#32 >>> 1).toNat = 33554431 := by decide
  unfold patchWords at held
  simp only [mask] at held
  split at held
  · rw [← called] at held
    split at held
    · obtain ⟨nops, words⟩ := (holds_append _ _).mp held
      have far : Run isa image { cpu with pc := cpu.pc + 4 * (1 : Nat) } _ := run_farAddress nonneg bounded words
      exact ⟨_, (run_nops nops).trans far, rfl, rfl, fun r other => Registers.set_of_ne _ _ other⟩
    · exact ⟨_, run_farAddress nonneg bounded held, rfl, rfl, fun r other => Registers.set_of_ne _ _ other⟩
  · next near =>
      have written : decode (0x14000000#32 ||| (BitVec.ofInt 32 ((replace - symbol) / 4) &&& 0x03ffffff#32)) =
          .b ((replace - symbol) / 4 * 4) :=
        decode_branchWord (by omega) (by omega) (show 0x14000000#32 &&& 0xfc000000#32 = 0x14000000#32 from rfl)
      have atWord := held.1
      rw [← called] at atWord
      have run : Run isa image cpu (exec isa image cpu (.b ((replace - cpu.pc) / 4 * 4))) := by
        rw [← called] at written
        exact run_exec atWord written
      have arrives : cpu.pc + (replace - cpu.pc) / 4 * 4 = replace := by omega
      rw [exec, arrives] at run
      exact ⟨_, run, rfl, rfl, fun _ _ => rfl⟩

theorem slot_bytes : 4 * (TrampolineSize : Int) = 200 := by decide

theorem slot_size : 4 * TrampolineSize = 200 := by decide

/-! ### One hook -/

/-- The number of the next slot. -/
def Hooks.next (hooks : Hooks) : Nat := (hooks.index + 1).toNat

variable {hooks after : Hooks} {request : Request} {requests : List Request} {installed : List Installed}
  {trampoline : Int}

def Request.patched (request : Request) (image : Image) : Image :=
  image.overlay request.hook (patchWords request.hook request.callback)

/-- The words of the trampoline a hook makes. -/
def Request.moved (request : Request) (pool : Pool) (image : Image) (slot : Nat) : List Word :=
  (fixBlock (hookSite image request.hook request.callback (pool.rx + 4 * TrampolineSize * slot)
    (pool.rw + 4 * TrampolineSize * slot))).out

/-- What a hook takes for granted of its arguments. -/
def Request.Proper (request : Request) : Prop :=
  (request.hook ≠ 0 ∧ request.callback ≠ 0) ∧ windowFits request.hook request.callback = true

/-- There is a slot, and the pool goes on for as long as the trampoline does. -/
def Request.Room (request : Request) (pool : Pool) (hooks : Hooks) : Prop :=
  hooks.next ≤ HookMax ∧
    4 * TrampolineSize * hooks.next + 4 * (request.moved pool hooks.image hooks.next).length ≤ HookPoolSize

theorem next_succ (free : hooks.next ≤ HookMax) (image : Image) :
    Hooks.next { index := hooks.index + 1, image := image } = hooks.next + 1 := by
  have small : (hooks.index + 1).toNat ≤ 20 := free
  have one : (1 : BitVec 32).toNat = 1 := rfl
  show (hooks.index + 1 + 1).toNat = (hooks.index + 1).toNat + 1
  rw [BitVec.toNat_add, one]
  omega

theorem hook_asked (asked : request.do_trampoline = true) (proper : request.Proper) (room : request.Room pool hooks) :
    hook pool hooks request = some (pool.rx + 4 * TrampolineSize * hooks.next,
      { index := hooks.index + 1
        image := request.patched (hooks.image.overlay (pool.rx + 4 * TrampolineSize * hooks.next)
          (request.moved pool hooks.image hooks.next)) }) := by
  obtain ⟨⟨hook_, callback⟩, fits⟩ := proper
  obtain ⟨free, short⟩ := room
  have few := patchCount_le request.hook request.callback
  have slots : ¬ TrampolineSize < patchCount request.hook request.callback * 10 := by
    simp only [TrampolineSize]
    omega
  have granted : allocForTrampoline pool hooks.index = (some (pool.rx + 4 * TrampolineSize * hooks.next,
      pool.rw + 4 * TrampolineSize * hooks.next), hooks.index + 1) := if_neg (Nat.not_lt.mpr free)
  have moved : fixInstructions (hookSite hooks.image request.hook request.callback
      (pool.rx + 4 * TrampolineSize * hooks.next) (pool.rw + 4 * TrampolineSize * hooks.next)) =
      some (fixBlock (hookSite hooks.image request.hook request.callback
        (pool.rx + 4 * TrampolineSize * hooks.next) (pool.rw + 4 * TrampolineSize * hooks.next))) :=
    if_neg (Nat.not_lt.mpr few)
  have inside : ¬ pool.rw + HookPoolSize < pool.rw + 4 * TrampolineSize * hooks.next +
      4 * (request.moved pool hooks.image hooks.next).length := by
    rw [slot_bytes]
    rw [slot_size] at short
    omega
  rw [Request.moved] at inside
  simp only [hook, hook_, callback, or_self, if_false, asked, if_true, granted, hookFuncImpl, fits, Bool.not_true,
    Bool.false_eq_true, slots, moved, Option.bind_some, inside, Option.map_some]
  rfl

theorem hook_unasked (unasked : request.do_trampoline = false) (proper : request.Proper) :
    hook pool hooks request = some (0, { hooks with image := request.patched hooks.image }) := by
  obtain ⟨⟨hook_, callback⟩, fits⟩ := proper
  simp only [hook, hook_, callback, or_self, if_false, unasked, Bool.false_eq_true, hookFuncImpl, fits, if_true,
    Option.map_some]
  rfl

/-- A hook goes through, or it ends the process. -/
theorem hook_isSome_iff : (hook pool hooks request).isSome ↔
    request.Proper ∧ (request.do_trampoline = true → request.Room pool hooks) := by
  constructor
  · intro done
    have proper : request.Proper := by
      unfold hook at done
      by_cases null : request.hook = 0 ∨ request.callback = 0
      · rw [if_pos null] at done
        contradiction
      refine ⟨not_or.mp null, ?_⟩
      cases fits : windowFits request.hook request.callback with
      | true => rfl
      | false =>
          rw [if_neg null] at done
          split at done
          · split at done
            · contradiction
            · simp [hookFuncImpl, fits] at done
          · simp [hookFuncImpl, fits] at done
    refine ⟨proper, fun asked => ?_⟩
    obtain ⟨⟨hook_, callback⟩, fits⟩ := proper
    simp only [hook, hook_, callback, or_self, if_false, asked, if_true] at done
    by_cases full : hooks.next > HookMax
    · have refused : allocForTrampoline pool hooks.index = (none, hooks.index + 1) := if_pos full
      rw [refused] at done
      contradiction
    · have granted : allocForTrampoline pool hooks.index = (some (pool.rx + 4 * TrampolineSize * hooks.next,
          pool.rw + 4 * TrampolineSize * hooks.next), hooks.index + 1) := if_neg full
      refine ⟨Nat.not_lt.mp full, ?_⟩
      by_contra long
      have outside : pool.rw + HookPoolSize < pool.rw + 4 * TrampolineSize * hooks.next +
          4 * (request.moved pool hooks.image hooks.next).length := by
        rw [slot_bytes]
        rw [slot_size] at long
        omega
      rw [Request.moved] at outside
      have few := patchCount_le request.hook request.callback
      have moved : fixInstructions (hookSite hooks.image request.hook request.callback
          (pool.rx + 4 * TrampolineSize * hooks.next) (pool.rw + 4 * TrampolineSize * hooks.next)) =
          some (fixBlock (hookSite hooks.image request.hook request.callback
            (pool.rx + 4 * TrampolineSize * hooks.next) (pool.rw + 4 * TrampolineSize * hooks.next))) :=
        if_neg (Nat.not_lt.mpr few)
      simp [granted, hookFuncImpl, fits, moved, outside] at done
  · rintro ⟨proper, room⟩
    cases asked : request.do_trampoline with
    | true => rw [hook_asked asked proper (room asked), Option.isSome_some]
    | false => rw [hook_unasked asked proper, Option.isSome_some]

/-- What a hook that goes through has done. -/
theorem hook_cases (done : hook pool hooks request = some (trampoline, after)) :
    (request.do_trampoline = true ∧ hooks.next ≤ HookMax ∧ trampoline = pool.rx + 4 * TrampolineSize * hooks.next ∧
      after.next = hooks.next + 1 ∧
      after.image = request.patched (hooks.image.overlay trampoline (request.moved pool hooks.image hooks.next))) ∨
    (request.do_trampoline = false ∧ trampoline = 0 ∧ after.next = hooks.next ∧
      after.image = request.patched hooks.image) := by
  obtain ⟨proper, room⟩ := hook_isSome_iff.mp (Option.isSome_of_eq_some done)
  cases asked : request.do_trampoline with
  | true =>
      rw [hook_asked asked proper (room asked), Option.some.injEq, Prod.mk.injEq] at done
      obtain ⟨rfl, rfl⟩ := done
      exact .inl ⟨rfl, (room asked).1, rfl, next_succ (room asked).1 _, rfl⟩
  | false =>
      rw [hook_unasked asked proper, Option.some.injEq, Prod.mk.injEq] at done
      obtain ⟨rfl, rfl⟩ := done
      exact .inr ⟨rfl, rfl, rfl, rfl⟩

/-- The words a hook replaces. -/
def Request.Covers (request : Request) (place : Int) : Prop :=
  request.hook ≤ place ∧ place < request.hook + 4 * patchCount request.hook request.callback

theorem patched_outside {place : Int} (outside : ¬ request.Covers place) : request.patched image place = image place := by
  refine overlay_outside ?_
  rw [patchWords_length]
  simp only [Request.Covers] at outside
  omega

/-- The trampolines that may be handed out. -/
def Pool.Covers (pool : Pool) (place : Int) : Prop :=
  pool.rx ≤ place ∧ place < pool.rx + 4 * TrampolineSize * (HookMax + 1)

theorem moved_length (request : Request) (pool : Pool) (image : Image) (slot : Nat) :
    (request.moved pool image slot).length ≤ TrampolineSize := by
  have whole := pool.aligned
  refine fixBlock_fits ?_ (patchCount_le _ _)
  simp only [hookSite, slot_bytes]
  omega

/-- Only the last slot can be too short, as it is cut off by the end of the pool. -/
theorem room_iff : request.Room pool hooks ↔ hooks.next ≤ HookMax ∧
    (hooks.next = HookMax → (request.moved pool hooks.image hooks.next).length ≤ 24) := by
  have length := moved_length request pool hooks.image hooks.next
  have max : HookMax = 20 := by decide
  have size : HookPoolSize = 4096 := rfl
  simp only [TrampolineSize, MaxInstructions] at length
  rw [Request.Room, slot_size, max, size]
  omega

theorem Pool.outside {place : Int} (free : ¬ pool.Covers place) (slot : Nat) :
    place < pool.rx + 4 * TrampolineSize * slot ∨ pool.rx + 4 * TrampolineSize * (HookMax + 1) ≤ place := by
  simp only [Pool.Covers, slot_bytes] at free ⊢
  omega

/-- A hook leaves everything but its block and its slot alone. -/
theorem hook_outside (done : hook pool hooks request = some (trampoline, after)) {place : Int}
    (outside : ¬ request.Covers place)
    (slot : place < pool.rx + 4 * TrampolineSize * hooks.next ∨
      pool.rx + 4 * TrampolineSize * (HookMax + 1) ≤ place) : after.image place = hooks.image place := by
  rcases hook_cases done with ⟨_, free, atSlot, _, image⟩ | ⟨_, _, _, image⟩
  · have length := moved_length request pool hooks.image hooks.next
    rw [image, patched_outside outside, overlay_outside]
    rcases slot with below | above
    · exact .inl (by omega)
    · right
      rw [slot_bytes] at atSlot above
      simp only [TrampolineSize, MaxInstructions] at length
      omega
  · rw [image, patched_outside outside]

theorem hook_next (done : hook pool hooks request = some (trampoline, after)) : hooks.next ≤ after.next := by
  rcases hook_cases done with ⟨_, _, _, next, _⟩ | ⟨_, _, next, _⟩ <;> omega

/-! ### Runs of hooks -/

theorem hookAll_cons (run : hookAll pool hooks (request :: requests) = some (installed, after)) :
    ∃ trampoline middle later, hook pool hooks request = some (trampoline, middle) ∧
      hookAll pool middle requests = some (later, after) ∧
      installed = ⟨request, hooks.image, trampoline⟩ :: later := by
  rw [hookAll] at run
  split at run
  · contradiction
  · next trampoline middle done =>
      simp only [Option.map_eq_some_iff, Prod.exists, Prod.mk.injEq] at run
      obtain ⟨later, last, rest, rfl, rfl⟩ := run
      exact ⟨trampoline, middle, later, done, rest, rfl⟩

theorem hookAll_outside
    (run : hookAll pool hooks requests = some (installed, after)) {place : Int}
    (outside : ∀ request ∈ requests, ¬ request.Covers place)
    (slot : place < pool.rx + 4 * TrampolineSize * hooks.next ∨
      pool.rx + 4 * TrampolineSize * (HookMax + 1) ≤ place) : after.image place = hooks.image place := by
  induction requests generalizing hooks installed with
  | nil =>
      simp only [hookAll, Option.some.injEq, Prod.mk.injEq] at run
      rw [run.2]
  | cons request requests ih =>
      obtain ⟨trampoline, middle, later, done, rest, _⟩ := hookAll_cons run
      have grown := hook_next done
      rw [ih rest (fun other member => outside other (List.mem_cons_of_mem _ member)) (by
        rw [slot_bytes] at slot ⊢
        omega)]
      exact hook_outside done (outside _ (List.mem_cons_self ..)) slot

/-- Hooks that do not touch each other's functions, nor the pool. -/
structure Compatible (pool : Pool) (requests : List Request) : Prop where
  aligned : ∀ request ∈ requests, request.hook % 4 = 0
  apart : requests.Pairwise fun first second => ∀ place, first.Covers place → ¬ second.Covers place
  clear : ∀ request ∈ requests, ∀ place, request.Covers place → ¬ pool.Covers place

theorem Compatible.tail (compatible : Compatible pool (request :: requests)) : Compatible pool requests where
  aligned other member := compatible.aligned other (List.mem_cons_of_mem _ member)
  apart := compatible.apart.of_cons
  clear other member := compatible.clear other (List.mem_cons_of_mem _ member)

/-- The block and the trampoline of a hook that is in place. -/
def Installed.site (entry : Installed) (pool : Pool) : Site :=
  hookSite entry.before entry.request.hook entry.request.callback entry.trampoline
    (pool.rw + (entry.trampoline - pool.rx))

/-- What a hook has just written. -/
theorem hook_writes (clear : ∀ place, request.Covers place → ¬ pool.Covers place)
    (done : hook pool hooks request = some (trampoline, after)) :
    Holds after.image request.hook (patchWords request.hook request.callback) ∧
      (request.do_trampoline = true →
        trampoline = pool.rx + 4 * TrampolineSize * hooks.next ∧ hooks.next ≤ HookMax ∧ after.next = hooks.next + 1 ∧
          Holds after.image trampoline
            (fixBlock ((⟨request, hooks.image, trampoline⟩ : Installed).site pool)).out) := by
  rcases hook_cases done with ⟨_, granted, atSlot, next, image⟩ | ⟨unwanted, _, _, image⟩
  · rw [image]
    refine ⟨holds_overlay _ _ _, fun _ => ⟨atSlot, granted, next, ?_⟩⟩
    have length := moved_length request pool hooks.image hooks.next
    have same : (fixBlock ((⟨request, hooks.image, trampoline⟩ : Installed).site pool)).out =
        request.moved pool hooks.image hooks.next := by
      have mapped : pool.rw + (trampoline - pool.rx) = pool.rw + 4 * TrampolineSize * hooks.next := by omega
      simp only [Installed.site, Request.moved, mapped, ← atSlot]
    rw [same]
    refine (holds_overlay hooks.image trampoline _).congr fun place above below => patched_outside fun covered => ?_
    have free := clear place covered
    simp only [Pool.Covers, slot_bytes] at free atSlot
    simp only [TrampolineSize, MaxInstructions] at length
    omega
  · rw [image]
    refine ⟨holds_overlay _ _ _, fun wanted => ?_⟩
    rw [unwanted] at wanted
    contradiction

/-- Later hooks leave what a hook has written alone. -/
theorem hookAll_holds (compatible : Compatible pool requests)
    (run : hookAll pool hooks requests = some (installed, after)) :
    ∀ entry ∈ installed,
      entry.request ∈ requests ∧
      Holds after.image entry.request.hook (patchWords entry.request.hook entry.request.callback) ∧
      (entry.request.do_trampoline = true →
        entry.trampoline % 4 = 0 ∧ Holds after.image entry.trampoline (fixBlock (entry.site pool)).out) ∧
      ∀ place, (∀ request ∈ requests, ¬ request.Covers place) → ¬ pool.Covers place →
        after.image place = entry.before place := by
  induction requests generalizing hooks installed with
  | nil =>
      simp only [hookAll, Option.some.injEq, Prod.mk.injEq] at run
      simp [← run.1]
  | cons request requests ih =>
      obtain ⟨trampoline, middle, later, done, rest, rfl⟩ := hookAll_cons run
      have clear := compatible.clear request (List.mem_cons_self ..)
      have apart := (List.pairwise_cons.mp compatible.apart).1
      have kept := @hookAll_outside _ _ _ _ _ rest
      obtain ⟨patchHeld, moved⟩ := hook_writes clear done
      intro entry member
      rcases List.mem_cons.mp member with rfl | member
      · refine ⟨List.mem_cons_self .., ?_, fun wanted => ?_, fun place outside free => ?_⟩
        · refine patchHeld.congr fun place above below => ?_
          rw [patchWords_length] at below
          exact kept (fun other member => apart other member place ⟨above, below⟩)
            (Pool.outside (clear place ⟨above, below⟩) _)
        · obtain ⟨atSlot, granted, next, held⟩ := moved wanted
          have multiple : trampoline % 4 = 0 := by
            have whole := pool.aligned
            rw [slot_bytes] at atSlot
            omega
          have length : (fixBlock ((⟨request, hooks.image, trampoline⟩ : Installed).site pool)).out.length ≤
              TrampolineSize := fixBlock_fits multiple (patchCount_le _ _)
          refine ⟨multiple, held.congr fun place above below => ?_⟩
          simp only [TrampolineSize, MaxInstructions] at length
          rw [slot_bytes] at atSlot
          have inside : pool.Covers place := by
            simp only [Pool.Covers, slot_bytes]
            omega
          refine kept (fun other member covered => ?_) (.inl ?_)
          · exact compatible.clear other (List.mem_cons_of_mem _ member) place covered inside
          · rw [next, slot_bytes]
            push_cast
            omega
        · rw [kept (fun other member => outside other (List.mem_cons_of_mem _ member)) (Pool.outside free _)]
          exact hook_outside done (outside _ (List.mem_cons_self ..)) (Pool.outside free _)
      · obtain ⟨known, patchHeld, moved, kept⟩ := ih compatible.tail rest entry member
        exact ⟨List.mem_cons_of_mem _ known, patchHeld, moved, fun place outside free =>
          kept place (fun other member => outside other (List.mem_cons_of_mem _ member)) free⟩

/-! ### What the hooks amount to -/

/-- What is asked of the instructions under a hook with a trampoline: they can be
moved, and no hook writes over a literal they load. -/
structure Installed.Suitable (entry : Installed) (pool : Pool) (requests : List Request) : Prop where
  low : 2 ^ 28 ≤ entry.request.hook
  high : entry.request.hook < 2 ^ 62
  movable : ∀ k < (entry.site pool).count,
    (entry.site pool).Movable (entry.request.hook + 4 * k) (decode (entry.before (entry.request.hook + 4 * k)))
  literals : ∀ k < (entry.site pool).count, ∀ kind rt offset,
    decode (entry.before (entry.request.hook + 4 * k)) = .ldr kind rt offset →
    (entry.site pool).isInFixingRange (entry.request.hook + 4 * k + offset) = false →
    ∀ place, entry.request.hook + 4 * k + offset ≤ place →
      place < entry.request.hook + 4 * k + offset + 4 * kind.words →
      (∀ request ∈ requests, ¬ request.Covers place) ∧ ¬ pool.Covers place

theorem Installed.relocated {entry : Installed} (compatible : Compatible pool requests)
    (run : hookAll pool hooks requests = some (installed, after)) (member : entry ∈ installed)
    (wanted : entry.request.do_trampoline = true) (suitable : entry.Suitable pool requests) :
    Relocated (entry.site pool) after.image := by
  obtain ⟨known, _, moved, kept⟩ := hookAll_holds compatible run entry member
  obtain ⟨multiple, held⟩ := moved wanted
  exact {
    aligned := ⟨compatible.aligned _ known, multiple⟩
    few := patchCount_le _ _
    low := suitable.low
    high := suitable.high
    held := held
    literals := fun k bound kind rt offset decoded outside => words_congr fun place above below => by
      obtain ⟨uncovered, free⟩ := suitable.literals k bound kind rt offset decoded outside place above below
      exact kept place uncovered free
    movable := suitable.movable }

/-- After any sequence of hooks, each hooked function goes to its callback, and
each trampoline still does what its instructions did when they were hooked. -/
theorem hooks_compose (isa : Isa σ) (compatible : Compatible pool requests)
    (run : hookAll pool hooks requests = some (installed, after)) {entry : Installed} (member : entry ∈ installed)
    (callback : 0 ≤ entry.request.callback ∧ entry.request.callback < 2 ^ 64 ∧ entry.request.callback % 4 = 0) :
    (∀ cpu : Cpu σ, cpu.pc = entry.request.hook →
      ∃ here, Run isa after.image cpu here ∧ here.pc = entry.request.callback ∧ here.rest = cpu.rest ∧
        ∀ r, r ≠ 17#5 → here.x r = cpu.x r) ∧
    (entry.request.do_trampoline = true → entry.Suitable pool requests →
      ∀ (cpu : Cpu σ) (n : Nat), cpu.pc = entry.request.hook →
        (∀ i < n, (entry.site pool).isInFixingRange ((step isa entry.before)^[i] cpu).pc = true) →
        (∀ i < n, (entry.site pool).Direct isa ((step isa entry.before)^[i] cpu)) →
        (entry.site pool).isInFixingRange ((step isa entry.before)^[n] cpu).pc = false →
        ∃ here, Run isa after.image { cpu with pc := entry.trampoline } here ∧
          Left (entry.site pool) ((step isa entry.before)^[n] cpu) here) := by
  obtain ⟨nonneg, bounded, whole⟩ := callback
  obtain ⟨known, patchHeld, _⟩ := hookAll_holds compatible run entry member
  refine ⟨fun cpu called => run_patched (compatible.aligned _ known) whole nonneg bounded patchHeld called, ?_⟩
  intro wanted suitable cpu n called stays direct outside
  have relocated := entry.relocated compatible run member wanted suitable
  have start : (entry.site pool).entry 0 = entry.trampoline := by
    simp [Site.entry, Site.position, fixLoop, Installed.site, hookSite]
  rw [← start]
  refine trampoline_leaves relocated (Nat.zero_le _) ?_ stays direct outside
  rw [called]
  simp [Installed.site, hookSite]

/-- A machine with only a zero flag. -/
def flagIsa : Isa Unit where
  taken _ x _ := x 0#5 = 0
  setVector _ _ _ rest := rest
  other _ x rest := (x, rest, .next)

/-- `CBZ X0, #8` at the start of two functions. -/
def branchImage : Image := fun place => if place = 2 ^ 28 ∨ place = 2 ^ 28 + 0x100 then 0xb4000040#32 else Aarch64Nop

/-- Far from the callback: four instructions are moved. -/
def farRequest : Request := { hook := 2 ^ 28, callback := 2 ^ 30, do_trampoline := true }

def nearRequest : Request := { hook := 2 ^ 28 + 0x100, callback := 2 ^ 28 + 0x1000, do_trampoline := true }

def branchPool : Pool := ⟨2 ^ 29, 2 ^ 31, by decide⟩

/-- After the first hook. -/
def farHooks : Hooks where
  index := 0
  image := farRequest.patched (branchImage.overlay (2 ^ 29) (farRequest.moved branchPool branchImage 0))

/-- After both. -/
def bothHooks : Hooks where
  index := 1
  image := nearRequest.patched (farHooks.image.overlay (2 ^ 29 + 200) (nearRequest.moved branchPool farHooks.image 1))

def branchEntries : List Installed := [⟨farRequest, branchImage, 2 ^ 29⟩, ⟨nearRequest, farHooks.image, 2 ^ 29 + 200⟩]

theorem branch_farHooks : hook branchPool { image := branchImage } farRequest = some (2 ^ 29, farHooks) :=
  hook_asked rfl ⟨by decide, by decide⟩ (room_iff.mpr ⟨by decide, by decide⟩)

theorem branch_bothHooks : hook branchPool farHooks nearRequest = some (2 ^ 29 + 200, bothHooks) :=
  hook_asked rfl ⟨by decide, by decide⟩ (room_iff.mpr ⟨by decide, by decide⟩)

theorem branch_run :
    hookAll branchPool { image := branchImage } [farRequest, nearRequest] = some (branchEntries, bothHooks) := by
  simp only [hookAll, branch_farHooks, branch_bothHooks, Option.map_some]
  rfl

theorem branch_compatible : Compatible branchPool [farRequest, nearRequest] := by
  have four : patchCount (2 ^ 28) (2 ^ 30) = 4 := by decide
  have one : patchCount (2 ^ 28 + 0x100) (2 ^ 28 + 0x1000) = 1 := by decide
  refine ⟨by decide, List.pairwise_pair.mpr fun place first second => ?_, ?_⟩
  · simp only [Request.Covers, farRequest, nearRequest, four, one] at first second
    omega
  · refine List.forall_mem_cons.mpr ⟨fun place covered => ?_, List.forall_mem_singleton.mpr fun place covered => ?_⟩
    all_goals
      simp only [Request.Covers, farRequest, nearRequest, four, one] at covered
      simp only [Pool.Covers, branchPool]
      omega

theorem branch_decoded (place : Int) :
    decode (branchImage place) = .test 0xb4000000#32 8 ∨ decode (branchImage place) = .nop := by
  unfold branchImage
  split
  · exact .inl (by decide)
  · exact .inr (by decide)

theorem branch_far_suitable :
    (⟨farRequest, branchImage, 2 ^ 29⟩ : Installed).Suitable branchPool [farRequest, nearRequest] := by
  refine ⟨by decide, by decide, fun k _ => ?_, fun k _ kind rt offset loaded => ?_⟩
  · rcases branch_decoded (2 ^ 28 + 4 * k) with branch | nop
    · show Site.Movable _ _ (decode (branchImage (2 ^ 28 + 4 * k)))
      rw [branch]
      refine ⟨by decide, fun _ => .inl fun rd offset => ?_⟩
      rcases branch_decoded (2 ^ 28 + 4 * (Site.getRefInsIndex _ _ : Nat)) with branch | nop
      · exact fun adrp => by cases branch.symm.trans adrp
      · exact fun adrp => by cases nop.symm.trans adrp
    · show Site.Movable _ _ (decode (branchImage (2 ^ 28 + 4 * k)))
      rw [nop]
      trivial
  · rcases branch_decoded (2 ^ 28 + 4 * k) with branch | nop
    · cases branch.symm.trans loaded
    · cases nop.symm.trans loaded

/-- The block of the far hook: the branch goes over the second of its words. -/
theorem hooks_compose_branches :
    hookAll branchPool { image := branchImage } [farRequest, nearRequest] = some (branchEntries, bothHooks) ∧
      (∃ here, Run flagIsa bothHooks.image { pc := 2 ^ 28, x := fun _ => 0, rest := () } here ∧ here.pc = 2 ^ 30) ∧
      ∃ here, Run flagIsa bothHooks.image { pc := 2 ^ 29, x := fun _ => 0, rest := () } here ∧ here.pc = 2 ^ 28 + 16 := by
  let cpu : Cpu Unit := { pc := 2 ^ 28, x := fun _ => 0, rest := () }
  let entry : Installed := ⟨farRequest, branchImage, 2 ^ 29⟩
  obtain ⟨redirects, moves⟩ := hooks_compose flagIsa branch_compatible branch_run
    (show entry ∈ branchEntries from List.mem_cons_self ..) (by decide)
  obtain ⟨here, redirected, arrived, _⟩ := redirects cpu rfl
  have stays : ∀ i < 3, (entry.site branchPool).isInFixingRange ((step flagIsa branchImage)^[i] cpu).pc = true := by
    decide
  have direct : ∀ i < 3, (entry.site branchPool).Direct flagIsa ((step flagIsa branchImage)^[i] cpu) := by
    intro i _ indirect
    have known := branch_decoded ((step flagIsa branchImage)^[i] cpu).pc
    rcases known with branch | nop
    · rw [show (entry.site branchPool).memory = branchImage from rfl, branch] at indirect
      exact indirect.elim
    · rw [show (entry.site branchPool).memory = branchImage from rfl, nop] at indirect
      exact indirect.elim
  obtain ⟨there, moved, left⟩ := moves rfl branch_far_suitable cpu 3 rfl stays direct (by decide)
  refine ⟨branch_run, ⟨here, redirected, arrived⟩, there, moved, ?_⟩
  rw [left.pc]
  decide

/-! ### How many trampolines there are -/

/-- The slots a run still takes. -/
def wanted (requests : List Request) : Nat := requests.countP (·.do_trampoline)

end Smmboss.Hook
