import Mathlib.Algebra.Order.Ring.Int
import Mathlib.Logic.Function.Basic

/-!
# Copies row by row

A loop of copies between two memories, addressed by integers so that an offset in front of a buffer
is one too. What a cell holds afterwards is decided by the last copy that covers it.
-/

namespace RowCopy

variable {α : Type}

/-- `len` cells, from offset `src` of one memory to offset `dst` of another. -/
structure Copy where
  dst : Int
  src : Int
  len : Int
  deriving Repr, DecidableEq

/-- A cell is written. -/
def Copy.Covers (c : Copy) (k : Int) : Prop := c.dst ≤ k ∧ k < c.dst + c.len

instance (c : Copy) (k : Int) : Decidable (c.Covers k) := inferInstanceAs (Decidable (_ ∧ _))

/-- `memcpy` -/
def Copy.apply (c : Copy) (source mem : Int → α) (k : Int) : α :=
  if c.Covers k then source (c.src + (k - c.dst)) else mem k

/-- A copy reads inside `n` cells and writes inside `m`. One of no cells does neither. -/
def Copy.Inside (c : Copy) (n m : Int) : Prop :=
  c.len = 0 ∨ (0 ≤ c.src ∧ c.src + c.len ≤ n) ∧ 0 ≤ c.dst ∧ c.dst + c.len ≤ m

instance (c : Copy) (n m : Int) : Decidable (c.Inside n m) := inferInstanceAs (Decidable (_ ∨ _))

/-- The memory after the first rounds of a loop, each of which makes a copy. -/
def copyRows (row : Nat → Copy) (source mem : Int → α) : Nat → Int → α
  | 0 => mem
  | n + 1 => (row n).apply source (copyRows row source mem n)

variable {row : Nat → Copy} {source mem : Int → α} {k : Int}

/-- A cell that no copy covers is as it was. -/
theorem copyRows_miss : ∀ {n : Nat}, (∀ r < n, ¬ (row r).Covers k) →
    copyRows row source mem n k = mem k
  | 0, _ => rfl
  | n + 1, h =>
      (if_neg (h n (Nat.lt_succ_self n))).trans
        (copyRows_miss fun r hr => h r (Nat.lt_succ_of_lt hr))

/-- A cell has what the last copy that covers it brings. -/
theorem copyRows_hit {r : Nat} (hk : (row r).Covers k) : ∀ {n : Nat}, r < n →
    (∀ r', r < r' → r' < n → ¬ (row r').Covers k) →
    copyRows row source mem n k = source ((row r).src + (k - (row r).dst))
  | 0, hr, _ => absurd hr (Nat.not_lt_zero r)
  | n + 1, hr, hlast => by
      rcases Nat.lt_succ_iff_lt_or_eq.mp hr with hlt | rfl
      · exact (if_neg (hlast n hlt (Nat.lt_succ_self n))).trans
          (copyRows_hit hk hlt fun r' h h' => hlast r' h (Nat.lt_succ_of_lt h'))
      · exact if_pos hk

/-- A place of a grid of rows of `w` cells has one row and one column. -/
theorem row_unique {w a b x y : Int} (hx : 0 ≤ x ∧ x < w) (hy : 0 ≤ y ∧ y < w)
    (h : a * w + x = b * w + y) : a = b ∧ x = y := by
  have hw : 0 < w := by omega
  have hab : a = b := by
    rcases lt_trichotomy a b with hlt | heq | hgt
    · have := Int.mul_le_mul_of_nonneg_right (show a + 1 ≤ b by omega) hw.le
      rw [Int.add_mul, Int.one_mul] at this
      omega
    · exact heq
    · have := Int.mul_le_mul_of_nonneg_right (show b + 1 ≤ a by omega) hw.le
      rw [Int.add_mul, Int.one_mul] at this
      omega
  rw [hab] at h
  exact ⟨hab, by omega⟩

end RowCopy
