import Mathlib.Data.List.Basic

/-!
# Strings in memory

A C string is bytes up to a zero, in a memory that goes on behind it.
-/

namespace Novo7.CString

/-- The bytes of a string literal, without the zero. -/
def text (s : String) : List UInt8 := s.toList.map fun c => UInt8.ofNat c.toNat

/-- `strcmp(data + i, text) == 0` -/
def strcmpEq (data : Nat → UInt8) : Nat → List UInt8 → Bool
  | i, [] => data i == 0
  | i, c :: cs => data i == c && strcmpEq data (i + 1) cs

theorem strcmpEq_iff (data : Nat → UInt8) : ∀ (i : Nat) (text : List UInt8),
    strcmpEq data i text = true ↔
      (∀ k (h : k < text.length), data (i + k) = text[k]) ∧ data (i + text.length) = 0
  | i, [] => by simp [strcmpEq]
  | i, c :: cs => by
      rw [strcmpEq, Bool.and_eq_true, strcmpEq_iff data (i + 1) cs, beq_iff_eq]
      constructor
      · rintro ⟨h0, hcs, hend⟩
        refine ⟨fun k hk => ?_, by rw [← hend, List.length_cons]; congr 1; omega⟩
        cases k with
        | zero => exact h0
        | succ k =>
            rw [List.getElem_cons_succ, ← hcs k (by simpa using hk)]
            congr 1
            omega
      · rintro ⟨hcs, hend⟩
        refine ⟨hcs 0 (by simp), fun k hk => ?_, by rw [← hend, List.length_cons]; congr 1; omega⟩
        rw [← List.getElem_cons_succ c cs k (by simpa using hk), ← hcs (k + 1) (by simpa using hk)]
        congr 1
        omega

/-- A string in a field of fixed size with room for it is what is in front of the first zero. -/
theorem strcmpEq_takeWhile (data : Nat → UInt8) : ∀ {i : Nat} {text field : List UInt8},
    0 ∉ text → text.length < field.length → (∀ k (h : k < field.length), data (i + k) = field[k]) →
    (strcmpEq data i text = true ↔ field.takeWhile (· != 0) = text)
  | i, [], [], _, hlen, _ => absurd hlen (Nat.not_lt_zero 0)
  | i, c :: cs, [], _, hlen, _ => absurd hlen (Nat.not_lt_zero _)
  | i, [], b :: bs, _, _, hdata => by
      have hb : data i = b := hdata 0 (Nat.zero_lt_succ _)
      rw [strcmpEq, hb]
      by_cases hzero : b = 0
      · simp [hzero]
      · simp [hzero]
  | i, c :: cs, b :: bs, hnz, hlen, hdata => by
      have hb : data i = b := hdata 0 (Nat.zero_lt_succ _)
      obtain ⟨hc, hcs⟩ := List.ne_and_not_mem_of_not_mem_cons hnz
      have hrest : strcmpEq data (i + 1) cs = true ↔ bs.takeWhile (· != 0) = cs :=
        strcmpEq_takeWhile data hcs (Nat.lt_of_succ_lt_succ hlen) fun k hk => by
          rw [Nat.add_assoc, Nat.add_comm 1 k]
          exact hdata (k + 1) (Nat.succ_lt_succ hk)
      rw [strcmpEq, hb, Bool.and_eq_true, beq_iff_eq, hrest]
      constructor
      · rintro ⟨rfl, htake⟩
        rw [List.takeWhile_cons, if_pos (bne_iff_ne.mpr (Ne.symm hc)), htake]
      · intro htake
        rw [List.takeWhile_cons] at htake
        split at htake
        · exact ⟨(List.cons.inj htake).1, (List.cons.inj htake).2⟩
        · cases htake

/-- The `n` bytes at `pos` become those of a list, and zero behind its end. -/
def store (data : Nat → UInt8) (pos n : Nat) (bytes : List UInt8) (i : Nat) : UInt8 :=
  if pos ≤ i ∧ i < pos + n then bytes.getD (i - pos) 0 else data i

/-- How many bytes `strncpy(dest, src, count)` stores: the one of `string.c` does not pad. -/
def strncpySize (src : List UInt8) (count : Nat) : Nat := min count (src.length + 1)

theorem store_frame (data : Nat → UInt8) {pos n i : Nat} (bytes : List UInt8)
    (h : i < pos ∨ pos + n ≤ i) : store data pos n bytes i = data i :=
  if_neg fun hi => by omega

end Novo7.CString
