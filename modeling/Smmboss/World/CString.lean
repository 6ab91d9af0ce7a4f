import Mathlib.Order.Nat
import Smmboss.World.Reads

namespace Smmboss.World

/-! # Strings that end in a NUL -/

inductive CStrOutcome where
  | returned (text : List UInt8)
  | raised
  | running
deriving Repr, DecidableEq

/-- `0x20 - (addr & 0x1f)`. -/
def blockSize (addr : Nat) : Nat := 0x20 - addr % 0x20

/-- The loop of `Guest.read_cstr`, for that many rounds. -/
def readCStrLoop (memory : Memory) : Nat → Nat → List UInt8 → CStrOutcome
  | 0, _, data => if 0 ∈ data then .returned (data.take (data.idxOf 0)) else .running
  | rounds + 1, addr, data =>
      if 0 ∈ data then .returned (data.take (data.idxOf 0))
      else (read memory addr (blockSize addr)).elim .raised fun block =>
        readCStrLoop memory rounds (addr + blockSize addr) (data ++ block)

def readCStr (memory : Memory) (rounds addr : Nat) : CStrOutcome :=
  readCStrLoop memory rounds addr []

/-! ## What is in the memory -/

/-- Readability is constant on every page. -/
def PageUniform (memory : Memory) : Prop :=
  ∀ first second, first / 0x1000 = second / 0x1000 →
    ((memory first).isSome ↔ (memory second).isSome)

/-- The bytes of a string in front of its terminator. -/
def IsText (memory : Memory) (addr length : Nat) : Prop :=
  ∀ place < length, ∃ byte, memory (addr + place) = some byte ∧ byte ≠ 0

section

variable {memory : Memory} {addr length : Nat}

theorem IsText.front (text : IsText memory addr length) {shorter : Nat} (within : shorter ≤ length) :
    IsText memory addr shorter :=
  fun place inside => text place (by omega)

theorem IsText.rest {first : Nat} (text : IsText memory addr (first + length)) :
    IsText memory (addr + first) length := by
  intro place inside
  have later := text (first + place) (by omega)
  rwa [← Nat.add_assoc] at later

theorem IsText.readable (text : IsText memory addr length) :
    ∃ bytes, read memory addr length = some bytes ∧ 0 ∉ bytes := by
  have found : (read memory addr length).isSome := by
    apply read_isSome_iff.mpr
    intro place inside
    obtain ⟨byte, here, -⟩ := text place inside
    rw [here]
    rfl
  obtain ⟨bytes, found⟩ := Option.isSome_iff_exists.mp found
  refine ⟨bytes, found, ?_⟩
  intro member
  obtain ⟨place, valid, same⟩ := List.mem_iff_getElem.mp member
  have inside : place < length := Nat.lt_of_lt_of_eq valid (read_length found)
  obtain ⟨byte, here, nonzero⟩ := text place inside
  rw [← read_getElem? found inside, List.getElem?_eq_getElem valid, same] at here
  exact nonzero (Option.some_inj.mp here).symm

/-- A block stays on the page of its first byte. -/
theorem block_page {place : Nat} (inside : place < blockSize addr) :
    (addr + place) / 0x1000 = addr / 0x1000 := by
  unfold blockSize at inside
  omega

theorem blockSize_pos (addr : Nat) : 0 < blockSize addr := by
  unfold blockSize
  omega

/-- A block is read where any of its bytes can be. -/
theorem block_readable (uniform : PageUniform memory) {place : Nat} (inside : place < blockSize addr) :
    (read memory addr (blockSize addr)).isSome ↔ (memory (addr + place)).isSome := by
  constructor
  · intro found
    exact read_isSome_iff.mp found place inside
  · intro here
    apply read_isSome_iff.mpr
    intro other within
    exact (uniform _ _ ((block_page within).trans (block_page inside).symm)).mpr here

end

/-! ## The loop -/

variable {memory : Memory} {addr length : Nat} {data : List UInt8}

theorem readCStrLoop_done (rounds : Nat) (addr : Nat) (done : 0 ∈ data) :
    readCStrLoop memory rounds addr data = .returned (data.take (data.idxOf 0)) := by
  cases rounds with
  | zero => exact if_pos done
  | succ rounds => exact if_pos done

theorem readCStrLoop_block (rounds : Nat) (clean : 0 ∉ data) {block : List UInt8}
    (found : read memory addr (blockSize addr) = some block) :
    readCStrLoop memory (rounds + 1) addr data =
      readCStrLoop memory rounds (addr + blockSize addr) (data ++ block) := by
  rw [readCStrLoop, if_neg clean, found]
  rfl

theorem readCStrLoop_raised (rounds : Nat) (clean : 0 ∉ data)
    (missing : read memory addr (blockSize addr) = none) :
    readCStrLoop memory (rounds + 1) addr data = .raised := by
  rw [readCStrLoop, if_neg clean, missing]
  rfl

/-- Once the loop has ended, more rounds change nothing. -/
theorem readCStrLoop_mono {rounds : Nat} {outcome : CStrOutcome} (ended : outcome ≠ .running)
    (left : readCStrLoop memory rounds addr data = outcome) (more : Nat) :
    readCStrLoop memory (rounds + more) addr data = outcome := by
  induction rounds generalizing addr data with
  | zero =>
      by_cases done : 0 ∈ data
      · rw [readCStrLoop_done _ _ done] at left ⊢
        exact left
      · rw [readCStrLoop, if_neg done] at left
        exact absurd left.symm ended
  | succ rounds ih =>
      rw [Nat.add_right_comm]
      by_cases done : 0 ∈ data
      · rw [readCStrLoop_done _ _ done] at left ⊢
        exact left
      · cases found : read memory addr (blockSize addr) with
        | none =>
            rw [readCStrLoop_raised _ done found] at left ⊢
            exact left
        | some block =>
            rw [readCStrLoop_block _ done found] at left ⊢
            exact ih left

/-- Where the first NUL is: the loop has read on to it and cuts it off. -/
theorem readCStrLoop_text (uniform : PageUniform memory) (clean : 0 ∉ data)
    (text : IsText memory addr length) (nul : memory (addr + length) = some 0) :
    ∃ bytes, read memory addr length = some bytes ∧
      ∀ rounds, length < rounds → readCStrLoop memory rounds addr data = .returned (data ++ bytes) := by
  induction length using Nat.strongRecOn generalizing addr data with
  | ind length ih =>
      obtain ⟨bytes, found, nonzero⟩ := text.readable
      refine ⟨bytes, found, ?_⟩
      intro rounds enough
      obtain ⟨rounds, rfl⟩ : ∃ fewer, rounds = fewer + 1 := ⟨rounds - 1, by omega⟩
      rcases Nat.lt_or_ge length (blockSize addr) with within | beyond
      · have complete := (block_readable uniform within).mpr (by rw [nul]; rfl)
        obtain ⟨block, whole⟩ := Option.isSome_iff_exists.mp complete
        obtain ⟨rest, split⟩ : ∃ rest, block = bytes ++ 0 :: rest := by
          obtain ⟨more, size⟩ := Nat.exists_eq_add_of_lt within
          rw [size, Nat.add_assoc, read_add, found, Option.bind_some, read_succ, nul,
            Option.bind_some] at whole
          obtain ⟨tail, others, rfl⟩ := Option.map_eq_some_iff.mp whole
          obtain ⟨rest, -, rfl⟩ := Option.map_eq_some_iff.mp others
          exact ⟨rest, rfl⟩
        have front : 0 ∉ data ++ bytes := by
          rw [List.mem_append]
          exact not_or.mpr ⟨clean, nonzero⟩
        rw [readCStrLoop_block _ clean whole, split, ← List.append_assoc,
          readCStrLoop_done _ _ (by simp), List.idxOf_append_of_notMem front, List.idxOf_cons_self,
          Nat.add_zero, List.take_left]
      · obtain ⟨later, rfl⟩ := Nat.exists_eq_add_of_le beyond
        have positive := blockSize_pos addr
        obtain ⟨block, whole, blockClean⟩ := (text.front beyond).readable
        have front : 0 ∉ data ++ block := by
          rw [List.mem_append]
          exact not_or.mpr ⟨clean, blockClean⟩
        obtain ⟨tail, others, ran⟩ := ih later (by omega) front text.rest
          (by rwa [← Nat.add_assoc] at nul)
        rw [read_add, whole, Option.bind_some, others] at found
        cases found
        rw [readCStrLoop_block _ clean whole, ran rounds (by omega), List.append_assoc]

/-- Where a byte in front of the first NUL cannot be read, the loop raises. -/
theorem readCStrLoop_unreadable (uniform : PageUniform memory) (clean : 0 ∉ data)
    (text : IsText memory addr length) (missing : memory (addr + length) = none) {rounds : Nat}
    (enough : length < rounds) : readCStrLoop memory rounds addr data = .raised := by
  induction length using Nat.strongRecOn generalizing addr data rounds with
  | ind length ih =>
      obtain ⟨rounds, rfl⟩ : ∃ fewer, rounds = fewer + 1 := ⟨rounds - 1, by omega⟩
      rcases Nat.lt_or_ge length (blockSize addr) with within | beyond
      · have denied := (block_readable uniform within).not.mpr (by rw [missing]; decide)
        exact readCStrLoop_raised _ clean (Option.not_isSome_iff_eq_none.mp denied)
      · obtain ⟨later, rfl⟩ := Nat.exists_eq_add_of_le beyond
        have positive := blockSize_pos addr
        obtain ⟨block, whole, blockClean⟩ := (text.front beyond).readable
        have front : 0 ∉ data ++ block := by
          rw [List.mem_append]
          exact not_or.mpr ⟨clean, blockClean⟩
        rw [readCStrLoop_block _ clean whole]
        exact ih later (by omega) front text.rest (by rwa [← Nat.add_assoc] at missing) (by omega)

theorem readCStrLoop_endless (clean : 0 ∉ data) (text : ∀ length, IsText memory addr length)
    (rounds : Nat) : readCStrLoop memory rounds addr data = .running := by
  induction rounds generalizing addr data with
  | zero => exact if_neg clean
  | succ rounds ih =>
      obtain ⟨block, whole, blockClean⟩ := (text (blockSize addr)).readable
      rw [readCStrLoop_block _ clean whole]
      apply ih
      · rw [List.mem_append]
        exact not_or.mpr ⟨clean, blockClean⟩
      · intro length
        exact (text (blockSize addr + length)).rest

/-! ## `read_cstr` -/

/-- Either the text goes on for ever or there is a first byte that ends it. -/
theorem text_or_stop (memory : Memory) (addr : Nat) :
    (∀ length, IsText memory addr length) ∨
      ∃ length, IsText memory addr length ∧
        (memory (addr + length) = some 0 ∨ memory (addr + length) = none) := by
  by_cases stops : ∃ length, memory (addr + length) = some 0 ∨ memory (addr + length) = none
  · right
    refine ⟨Nat.find stops, ?_, Nat.find_spec stops⟩
    intro place before
    obtain ⟨nonzero, readable⟩ := not_or.mp (Nat.find_min stops before)
    obtain ⟨byte, here⟩ := Option.ne_none_iff_exists'.mp readable
    exact ⟨byte, here, fun zero => nonzero (zero ▸ here)⟩
  · left
    intro length place _
    obtain ⟨nonzero, readable⟩ := not_or.mp (not_exists.mp stops place)
    obtain ⟨byte, here⟩ := Option.ne_none_iff_exists'.mp readable
    exact ⟨byte, here, fun zero => nonzero (zero ▸ here)⟩

/-- A run that has ended did so at the first byte that is a NUL or cannot be read. -/
theorem readCStr_ended (uniform : PageUniform memory) {rounds : Nat} {outcome : CStrOutcome}
    (ended : outcome ≠ .running) (ran : readCStr memory rounds addr = outcome) :
    ∃ length, IsText memory addr length ∧
      ((memory (addr + length) = some 0 ∧
          ∃ text, read memory addr length = some text ∧ outcome = .returned text) ∨
        memory (addr + length) = none ∧ outcome = .raised) := by
  rcases text_or_stop memory addr with endless | ⟨length, text, nul | missing⟩
  · have running := readCStrLoop_endless (List.not_mem_nil (a := 0)) endless rounds
    exact absurd (ran.symm.trans running) ended
  · obtain ⟨bytes, found, returns⟩ := readCStrLoop_text uniform List.not_mem_nil text nul
    have same := readCStrLoop_mono ended ran (length + 1)
    rw [returns _ (by omega)] at same
    exact ⟨length, text, Or.inl ⟨nul, bytes, found, same.symm⟩⟩
  · have raises := readCStrLoop_unreadable uniform List.not_mem_nil text missing
      (show length < rounds + (length + 1) by omega)
    have same := readCStrLoop_mono ended ran (length + 1)
    rw [raises] at same
    exact ⟨length, text, Or.inr ⟨missing, same.symm⟩⟩

/-- `read_cstr` returns the bytes in front of the first NUL exactly where all of
them and the NUL can be read, raises exactly where one in front of it cannot,
and ends where there is either. -/
theorem readCStr_spec (uniform : PageUniform memory) (addr : Nat) :
    (∀ text, (∃ rounds, readCStr memory rounds addr = .returned text) ↔
        ∃ length, IsText memory addr length ∧ memory (addr + length) = some 0 ∧
          read memory addr length = some text) ∧
      ((∃ rounds, readCStr memory rounds addr = .raised) ↔
        ∃ length, IsText memory addr length ∧ memory (addr + length) = none) ∧
      ((∃ place, memory (addr + place) = some 0 ∨ memory (addr + place) = none) →
        ∃ enough, ∀ rounds, enough ≤ rounds → readCStr memory rounds addr ≠ .running) := by
  refine ⟨?_, ?_, ?_⟩
  · intro text
    constructor
    · intro ⟨rounds, ran⟩
      obtain ⟨length, isText, ⟨nul, bytes, found, same⟩ | ⟨-, same⟩⟩ :=
        readCStr_ended uniform (by simp) ran
      · cases same
        exact ⟨length, isText, nul, found⟩
      · cases same
    · intro ⟨length, isText, nul, found⟩
      obtain ⟨bytes, same, returns⟩ := readCStrLoop_text uniform List.not_mem_nil isText nul
      rw [found] at same
      cases same
      exact ⟨length + 1, returns _ (by omega)⟩
  · constructor
    · intro ⟨rounds, ran⟩
      obtain ⟨length, isText, ⟨-, bytes, -, same⟩ | ⟨missing, -⟩⟩ :=
        readCStr_ended uniform (by simp) ran
      · cases same
      · exact ⟨length, isText, missing⟩
    · intro ⟨length, isText, missing⟩
      exact ⟨length + 1, readCStrLoop_unreadable uniform List.not_mem_nil isText missing (by omega)⟩
  · intro ⟨place, stop⟩
    rcases text_or_stop memory addr with endless | ⟨length, text, nul | missing⟩
    · obtain ⟨byte, here, nonzero⟩ := endless (place + 1) place (by omega)
      rw [here] at stop
      rcases stop with zero | none
      · exact absurd (Option.some_inj.mp zero) nonzero
      · cases none
    · obtain ⟨bytes, -, returns⟩ := readCStrLoop_text uniform List.not_mem_nil text nul
      refine ⟨length + 1, ?_⟩
      intro rounds enough running
      rw [readCStr, returns rounds enough, List.nil_append] at running
      cases running
    · refine ⟨length + 1, ?_⟩
      intro rounds enough running
      rw [readCStr, readCStrLoop_unreadable uniform List.not_mem_nil text missing enough] at running
      cases running

/-- One page, whose last byte ends a string. -/
def lastPage : Memory := fun addr =>
  if addr < 0x1000 then some (if addr = 0xfff then 0 else 65) else none

theorem lastPage_uniform : PageUniform lastPage := by
  intro first second same
  have together : first < 0x1000 ↔ second < 0x1000 := by omega
  unfold lastPage
  by_cases inside : first < 0x1000
  · rw [if_pos inside, if_pos (together.mp inside)]
    rfl
  · rw [if_neg inside, if_neg (mt together.mpr inside)]

theorem readCStr_lastPage : ∃ rounds, readCStr lastPage rounds 0xffd = .returned [65, 65] :=
  ((readCStr_spec lastPage_uniform 0xffd).1 [65, 65]).mpr
    ⟨2, by
      intro place inside
      obtain rfl | rfl : place = 0 ∨ place = 1 := by omega
      · exact ⟨65, rfl, by decide⟩
      · exact ⟨65, rfl, by decide⟩, rfl, rfl⟩

end Smmboss.World
