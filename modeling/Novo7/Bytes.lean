import Mathlib.Data.Nat.Bitwise

/-!
# Little-endian words in byte strings

`leBytes k n` are the `k` bytes of `n`, lowest first, and `leValue` reads such bytes back.
`field bs off k` is the word of `k` bytes at offset `off` of a byte string, which is how a
packed C structure copied out of a buffer is read.
-/

namespace Bytes

/-- The `k` lowest bytes of `n`, the lowest first. -/
def leBytes : Nat → Nat → List UInt8
  | 0, _ => []
  | k + 1, n => UInt8.ofNat n :: leBytes k (n / 256)

/-- The number that bytes stand for, the first byte being the lowest. -/
def leValue : List UInt8 → Nat
  | [] => 0
  | b :: bs => b.toNat + 256 * leValue bs

@[simp] theorem length_leBytes (k : Nat) : ∀ n, (leBytes k n).length = k := by
  induction k with
  | zero => intro n; rfl
  | succ k ih => intro n; simp [leBytes, ih]

theorem leValue_leBytes (k : Nat) : ∀ n, leValue (leBytes k n) = n % 256 ^ k := by
  induction k with
  | zero => intro n; simp [leBytes, leValue, Nat.mod_one]
  | succ k ih =>
      intro n
      have hpow : 256 ^ (k + 1) = 256 * 256 ^ k := Nat.pow_succ'
      rw [leBytes, leValue, ih, UInt8.toNat_ofNat', hpow, Nat.mod_mul]

/-- The word of `k` bytes at offset `off`. -/
def field (bs : List UInt8) (off k : Nat) : Nat := leValue ((bs.drop off).take k)

theorem leValue_lt : ∀ bs : List UInt8, leValue bs < 256 ^ bs.length
  | [] => by simp [leValue]
  | b :: bs => by
      have h1 := b.toNat_lt
      have h2 := leValue_lt bs
      simp only [leValue, List.length_cons, Nat.pow_succ]
      omega

theorem field_lt (bs : List UInt8) (off k : Nat) : field bs off k < 256 ^ k := by
  refine Nat.lt_of_lt_of_le (leValue_lt _) (Nat.pow_le_pow_right (by decide) ?_)
  rw [List.length_take]
  exact Nat.min_le_left _ _

/-- A piece of a memory that is cut out of a longer one. -/
theorem take_drop_map_range (f : Nat → UInt8) {n off k : Nat} (h : off + k ≤ n) :
    (((List.range n).map f).drop off).take k = (List.range k).map fun j => f (off + j) := by
  refine List.ext_getElem ?_ fun i hi _ => ?_
  · simp only [List.length_take, List.length_drop, List.length_map, List.length_range]
    omega
  · rw [List.getElem_take, List.getElem_drop, List.getElem_map, List.getElem_map,
      List.getElem_range, List.getElem_range]

/-- The word at the front of a byte string. -/
theorem field_here (bs : List UInt8) {k n : Nat} (hn : n < 256 ^ k) :
    field (leBytes k n ++ bs) 0 k = n := by
  rw [field, List.drop_zero, List.take_left' (length_leBytes k n), leValue_leBytes,
    Nat.mod_eq_of_lt hn]

/-- Later words do not see the ones before them. -/
theorem field_skip (bs : List UInt8) {k n off w : Nat} (h : k ≤ off) :
    field (leBytes k n ++ bs) off w = field bs (off - k) w := by
  rw [field, field, List.drop_append, List.drop_of_length_le (by rw [length_leBytes]; exact h),
    List.nil_append, length_leBytes]

end Bytes
