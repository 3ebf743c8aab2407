import Mathlib.Logic.Function.Basic
import Novo7.Machine

/-!
# The firmware heap

`malloc.c` keeps its heap inside the arena: the first word of every chunk holds the chunk's
length in words, plus one while the chunk is allocated. Nothing else is recorded, so every
operation trusts the words it finds — a search that skips by chunk length, a split that
writes a header into the middle of a chunk, a merge that finds its buddy by exclusive or.

The arena is a function from word offsets (from `mem_area`) to words; a pointer is such an
offset, and `NULL` is `none`. Here are the functions themselves, one bounded loop for each
loop of the source, and what the rounding of a request comes to. `MallocLayout` proves the
operations against buddy tilings, and `MallocRuns` follows whole runs.
-/

namespace Novo7

open Machine

/-! ## The program -/

/-- The globals of `malloc.c`: the words from `mem_area` on, and their number. -/
structure Arena where
  memArea : Nat → Nat
  memAreaSize : Nat

/-- `while( size & (size - 1) ) size &= size - 1`. -/
def clearLowBits (size : Nat) : Option Nat :=
  iter (fun size =>
    if size &&& (size - 1) ≠ 0 then some (.inl (size &&& (size - 1)))
    else some (.inr size)) (size + 1) size

/-- `while( ptr - mem_area + size > mem_area_size ) size >>= 1`. -/
def shrinkToFit (memAreaSize ptr size : Nat) : Option Nat :=
  iter (fun size =>
    if u32 (ptr + size) > memAreaSize then some (.inl (size >>> 1))
    else some (.inr size)) (size + 1) size

/-- The arena starts out as free chunks, the largest power of two that still fits each
time. -/
def mallocInit (start : Nat → Nat) (size : Nat) : Option Arena := do
  let memAreaSize := size >>> 2 &&& 0xfffffffe
  let size ← clearLowBits memAreaSize
  let memArea ← iter (fun (mem, ptr, size) => do
    let mem := Function.update mem ptr size
    if u32 (ptr + size) ≥ memAreaSize then return .inr mem
    let ptr := ptr + size
    let size ← shrinkToFit memAreaSize ptr size
    return .inl (mem, ptr, size)) (memAreaSize + 1) (start, 0, size)
  return ⟨memArea, memAreaSize⟩

/-- The first free chunk of at least `size` words, looked for from the arena's start. -/
def searchChunk (h : Arena) (size : Nat) : Option (Option Nat) :=
  iter (fun ptr =>
    if h.memArea ptr &&& 1 ≠ 0 ∨ h.memArea ptr < size then
      let chsize := h.memArea ptr &&& 0xfffffffe
      let chsize := if chsize < size then size else chsize
      if u32 (ptr + chsize) ≥ h.memAreaSize then some (.inr none)
      else some (.inl (ptr + chsize))
    else some (.inr (some ptr))) (h.memAreaSize + 1) 0

/-- Halve the chunk at `ptr` until it is `size` words long. -/
def splitChunk (mem : Nat → Nat) (ptr size : Nat) : Option (Nat → Nat) :=
  iter (fun mem =>
    if mem ptr > size then
      let mem := Function.update mem ptr (mem ptr >>> 1)
      some (.inl (Function.update mem (ptr + mem ptr) (mem ptr)))
    else some (.inr mem)) (mem ptr + 1) mem

/-- The chunk length for a request of `size` bytes: one word is added for the header and
the sum is rounded to a power of two. -/
def chunkSize (size : Nat) : Option Nat := do
  let size ← clearLowBits (u32 (size + 7) >>> 2)
  return u32 (size <<< 1)

def malloc (h : Arena) (size : Nat) : Option (Arena × Option Nat) := do
  if size = 0 then return (h, none)
  let size ← chunkSize size
  match ← searchChunk h size with
  | none => return (h, none)
  | some ptr =>
    let mem ← splitChunk h.memArea ptr size
    return ({ h with memArea := Function.update mem ptr (u32 (mem ptr + 1)) }, some (ptr + 1))

/-- Join the chunk at `ptr` with its buddy for as long as that one is free and of the same
length. -/
def mergeChunk (memAreaSize : Nat) (mem : Nat → Nat) (ptr : Nat) : Option (Nat → Nat) :=
  iter (fun (mem, ptr) =>
    let twin := ptr ^^^ mem ptr
    if twin ≥ memAreaSize then some (.inr mem)
    else if mem twin ≠ mem ptr then some (.inr mem)
    else
      let ptr := if twin < ptr then twin else ptr
      some (.inl (Function.update mem ptr (u32 (mem ptr <<< 1)), ptr)))
    (memAreaSize + 1) (mem, ptr)

def free (h : Arena) : Option Nat → Option Arena
  | none => some h
  | some memptr => do
    let ptr := memptr - 1
    let mem := Function.update h.memArea ptr (h.memArea ptr &&& 0xfffffffe)
    let mem ← mergeChunk h.memAreaSize mem ptr
    return { h with memArea := mem }

/-- The headers met when walking the arena from its base, each with its offset. -/
def walkFrom (h : Arena) : Nat → Nat → List (Nat × Nat)
  | 0, _ => []
  | fuel + 1, ptr =>
    if ptr < h.memAreaSize then
      (ptr, h.memArea ptr) :: walkFrom h fuel (ptr + (h.memArea ptr &&& 0xfffffffe))
    else []

def walk (h : Arena) : List (Nat × Nat) := walkFrom h h.memAreaSize 0

/-! ## Rounding -/

/-- The bits of a number that is no power of two, less the lowest. -/
theorem clearLow_step {n k : Nat} (h1 : 2 ^ k ≤ n) (h2 : n < 2 ^ (k + 1)) :
    (n &&& (n - 1) = 0 → n = 2 ^ k) ∧
      (n &&& (n - 1) ≠ 0 → 2 ^ k ≤ n &&& (n - 1) ∧ n &&& (n - 1) < n) := by
  have hpos : 0 < 2 ^ k := Nat.two_pow_pos k
  rcases Nat.lt_or_ge (2 ^ k) n with hlt | hge
  · have hbit : (n &&& (n - 1)).testBit k = true := by
      rw [Nat.testBit_and, Nat.testBit_of_two_pow_le_and_two_pow_add_one_gt h1 h2,
        Nat.testBit_of_two_pow_le_and_two_pow_add_one_gt (by omega) (by omega), Bool.and_self]
    have hle := Nat.ge_two_pow_of_testBit hbit
    have hlt' : n &&& (n - 1) ≤ n - 1 := Nat.and_le_right
    exact ⟨fun h0 => by omega, fun _ => ⟨hle, by omega⟩⟩
  · obtain rfl : n = 2 ^ k := by omega
    have h0 : 2 ^ k &&& (2 ^ k - 1) = 0 := by
      rw [Nat.and_two_pow_sub_one_eq_mod, Nat.mod_self]
    exact ⟨fun _ => rfl, fun hne => absurd h0 hne⟩

/-- Clearing low bits ends at the highest power of two. -/
theorem clearLowBits_spec {n k : Nat} (h1 : 2 ^ k ≤ n) (h2 : n < 2 ^ (k + 1)) :
    Returns (clearLowBits n) (· = 2 ^ k) := by
  refine iter_total (I := fun m => 2 ^ k ≤ m ∧ m < 2 ^ (k + 1)) (m := id) ?_ ⟨h1, h2⟩
    (Nat.lt_succ_self n)
  intro m ⟨hm1, hm2⟩
  obtain ⟨hdone, hnext⟩ := clearLow_step hm1 hm2
  split
  · next hne =>
      obtain ⟨hle, hlt⟩ := hnext hne
      exact .pure ⟨⟨hle, by omega⟩, hlt⟩
  · next heq => exact .pure (hdone (not_not.mp heq))

/-- The chunk for a request is a power of two that holds a header word and the request. -/
theorem chunkSize_spec {n : Nat} (h1 : 1 ≤ n) (h2 : n ≤ 0xfffffff8) :
    Returns (chunkSize n) fun size =>
      ∃ k, size = 2 ^ k ∧ 2 ≤ k ∧ k ≤ 30 ∧ n + 4 ≤ 4 * 2 ^ k := by
  have hr : u32 (n + 7) >>> 2 = (n + 7) / 4 := by
    rw [u32_of_lt (by omega), Nat.shiftRight_eq_div_pow]
  have hne : (n + 7) / 4 ≠ 0 := by omega
  have hle := Nat.log2_self_le hne
  have hlt := @Nat.lt_log2_self ((n + 7) / 4)
  unfold chunkSize
  rw [hr]
  have hn : n + 7 < 4 * ((n + 7) / 4 + 1) := by omega
  have hm1 : 2 ≤ (n + 7) / 4 := by omega
  have hm2 : (n + 7) / 4 < 2 ^ 30 := by omega
  generalize (n + 7) / 4 = m at *
  have hk1 : 1 ≤ m.log2 := (Nat.le_log2 hne).mpr (by omega)
  have hk2 : m.log2 < 30 := (Nat.log2_lt hne).mpr (by omega)
  refine (clearLowBits_spec hle hlt).bind fun size hsize => .pure ⟨m.log2 + 1, ?_⟩
  have hlim : 2 ^ m.log2 < 2 ^ 30 := Nat.pow_lt_pow_right (by decide) hk2
  subst hsize
  rw [Nat.shiftLeft_eq, u32_of_lt (by omega), Nat.pow_succ] at *
  exact ⟨rfl, by omega, by omega, by omega⟩

end Novo7
