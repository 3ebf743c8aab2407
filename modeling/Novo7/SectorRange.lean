import Mathlib.Tactic.Ring
import Novo7.LogicCtl

/-!
# Ranges of sectors as pages

`_CalculateSectPar` cuts a range of sectors into a head page, whole pages and a tail page, each with
a bitmap of the sectors that count, and `LML_Read` and `LML_Write` go through them with a buffer
address that starts in front of the caller's buffer when the range starts inside a page.
`calculateSectPar_splits`: the rounds have every sector of a range once, with its own 512 bytes of
the buffer, and nothing else.
-/

namespace Novo7

open Machine

variable {ar : LogicArchi} {first count : Nat}

/-! ## The parts -/

theorem fullBitmap_testBit {n i : Nat} (hi : i < n) : (2 ^ n - 1).testBit i = true := by
  rw [Nat.testBit_two_pow_sub_one]
  exact decide_eq_true hi

theorem SectPar.pageCnt_le (x : SectPar) : x.pageCnt ≤ x.midPageCnt + 2 := by
  unfold SectPar.pageCnt
  split <;> omega

section Parts

variable (h0 : 0 < ar.sectorCntOfLogicPage) (h32 : ar.sectorCntOfLogicPage ≤ 32)
  (hfits : first % ar.sectorCntOfLogicPage + count < 2 ^ 32)
include h0 hfits

/-- The pages of a range after the first: `m` whole ones, then `t` sectors of another. -/
theorem restPages_testBit :
    ∃ m t, (calculateSectPar ar first count).midPageCnt = m ∧ t < ar.sectorCntOfLogicPage ∧
      (m = 0 ∧ t = 0 ∧ first % ar.sectorCntOfLogicPage + count ≤ ar.sectorCntOfLogicPage ∨
        ar.sectorCntOfLogicPage + ar.sectorCntOfLogicPage * m + t =
        first % ar.sectorCntOfLogicPage + count) ∧
      ∀ j, ((calculateSectPar ar first count).tailPage.sectorBitmap).testBit j = true ↔ j < t := by
  have hr : first % ar.sectorCntOfLogicPage < ar.sectorCntOfLogicPage := Nat.mod_lt _ h0
  have hfull : ar.fullBitmapOfLogicPage = 2 ^ ar.sectorCntOfLogicPage - 1 := rfl
  unfold calculateSectPar
  rw [hfull]
  dsimp only
  generalize first % ar.sectorCntOfLogicPage = r at hr hfits ⊢
  generalize ar.sectorCntOfLogicPage = cnt at h0 hr ⊢
  rw [u32_of_lt (show count + r < 2 ^ 32 by omega)]
  by_cases hmore : count + r > cnt
  · rw [if_pos hmore]
    have hdiv := Nat.div_add_mod (count + r - cnt) cnt
    have ht := Nat.mod_lt (count + r - cnt) (show cnt > 0 by omega)
    refine ⟨(count + r - cnt) / cnt, (count + r - cnt) % cnt, rfl, ht, .inr (by omega), fun j => ?_⟩
    dsimp only
    generalize (count + r - cnt) % cnt = t at ht ⊢
    by_cases hrest : t ≠ 0
    · rw [if_pos hrest]
      simp only [Nat.testBit_shiftRight, Nat.testBit_two_pow_sub_one, decide_eq_true_eq]
      omega
    · rw [if_neg hrest]
      simp only [Nat.zero_testBit, Bool.false_eq_true, false_iff]
      omega
  · rw [if_neg hmore]
    refine ⟨0, 0, rfl, by omega, .inl ⟨rfl, rfl, by omega⟩, fun j => ?_⟩
    simp only [Nat.zero_testBit, Bool.false_eq_true, false_iff]
    omega

/-- The rounds are the first, and those that begin in front of the end of the range. -/
theorem lt_pageCnt_iff (i : Nat) : i < (calculateSectPar ar first count).pageCnt ↔
    i = 0 ∨ i * ar.sectorCntOfLogicPage < first % ar.sectorCntOfLogicPage + count := by
  obtain ⟨m, t, hm, ht, hsum, htail⟩ := restPages_testBit h0 hfits
  have htail0 : (calculateSectPar ar first count).tailPage.sectorBitmap ≠ 0 ↔ t ≠ 0 := by
    constructor
    · rintro hne rfl
      exact hne (Nat.eq_of_testBit_eq fun j => by
        rw [Nat.zero_testBit, ← Bool.not_eq_true, htail]
        omega)
    · intro hne hzero
      have hbit := (htail 0).mpr (Nat.pos_of_ne_zero hne)
      rw [hzero, Nat.zero_testBit] at hbit
      cases hbit
  rw [SectPar.pageCnt, hm]
  simp only [htail0]
  generalize ar.sectorCntOfLogicPage = n at h0 ht hsum ⊢
  rcases hsum with ⟨rfl, rfl, hone⟩ | hsum
  · have hlong : i ≠ 0 → n ≤ i * n := fun hi => Nat.le_mul_of_pos_left n (Nat.pos_of_ne_zero hi)
    simp only [ne_eq, not_true_eq_false, if_false]
    omega
  · rw [← hsum, show n + n * m + t = (m + 1) * n + t by ring]
    by_cases hi : i ≤ m + 1
    · have hle : i * n ≤ (m + 1) * n := Nat.mul_le_mul_right n hi
      by_cases hi' : i = m + 1
      · subst hi'
        split <;> omega
      · have hlt : i * n < (m + 1) * n := (Nat.mul_lt_mul_right h0).mpr (by omega)
        split <;> omega
    · have hle : (m + 2) * n ≤ i * n := Nat.mul_le_mul_right n (by omega)
      rw [show (m + 2) * n = (m + 1) * n + n by ring] at hle
      split <;> omega

include h32

/-- The head page of a range has its sectors and no others. -/
theorem headBitmap_testBit (j : Nat) :
    ((calculateSectPar ar first count).headPage.sectorBitmap).testBit j = true ↔
      first % ar.sectorCntOfLogicPage ≤ j ∧ j < ar.sectorCntOfLogicPage ∧
        j < first % ar.sectorCntOfLogicPage + count := by
  have hr : first % ar.sectorCntOfLogicPage < ar.sectorCntOfLogicPage := Nat.mod_lt _ h0
  have hfull : ar.fullBitmapOfLogicPage = 2 ^ ar.sectorCntOfLogicPage - 1 := rfl
  unfold calculateSectPar
  rw [hfull]
  dsimp only
  generalize first % ar.sectorCntOfLogicPage = r at hr hfits ⊢
  generalize ar.sectorCntOfLogicPage = cnt at h0 h32 hr ⊢
  rw [u32_of_lt (show count + r < 2 ^ 32 by omega)]
  by_cases hmore : count + r > cnt
  · rw [if_pos hmore]
    simp only [u32, Nat.testBit_and, Nat.testBit_mod_two_pow, Nat.testBit_shiftLeft,
      Nat.testBit_two_pow_sub_one, Bool.and_eq_true, decide_eq_true_eq]
    omega
  · rw [if_neg hmore]
    simp only [u32, Nat.testBit_and, Nat.testBit_mod_two_pow, Nat.testBit_shiftLeft,
      Nat.testBit_shiftRight, Nat.testBit_two_pow_sub_one, Bool.and_eq_true, decide_eq_true_eq]
    omega

/-- The bitmap of a round has the sectors of its page that are in the range. -/
theorem bitmap_testBit {i : Nat} (hi : i < (calculateSectPar ar first count).pageCnt) (j : Nat) :
    ((calculateSectPar ar first count).bitmap ar i).testBit j = true ↔
      j < ar.sectorCntOfLogicPage ∧
        first % ar.sectorCntOfLogicPage ≤ i * ar.sectorCntOfLogicPage + j ∧
        i * ar.sectorCntOfLogicPage + j < first % ar.sectorCntOfLogicPage + count := by
  by_cases hzero : i = 0
  · rw [SectPar.bitmap, if_pos hzero, headBitmap_testBit h0 h32 hfits, hzero, Nat.zero_mul,
      Nat.zero_add]
    omega
  rw [SectPar.bitmap, if_neg hzero]
  have hr : first % ar.sectorCntOfLogicPage < ar.sectorCntOfLogicPage := Nat.mod_lt _ h0
  have hone : ar.sectorCntOfLogicPage ≤ i * ar.sectorCntOfLogicPage :=
    Nat.le_mul_of_pos_left _ (Nat.pos_of_ne_zero hzero)
  have hfull : ar.fullBitmapOfLogicPage = 2 ^ ar.sectorCntOfLogicPage - 1 := rfl
  obtain ⟨m, t, hm, ht, hsum, htail⟩ := restPages_testBit h0 hfits
  generalize calculateSectPar ar first count = x at hi hm htail ⊢
  generalize ar.sectorCntOfLogicPage = n at h0 hfull hr hone ht hsum ⊢
  by_cases hlast : x.tailPage.sectorBitmap ≠ 0 ∧ i = x.pageCnt - 1
  · rw [if_pos hlast, htail]
    have hidx : i = m + 1 := by
      rw [hlast.2, SectPar.pageCnt, if_pos hlast.1, hm]
      omega
    have hmul : i * n = n * m + n := by
      rw [hidx, Nat.mul_comm, Nat.mul_add, Nat.mul_one]
    omega
  · rw [if_neg hlast, hfull, Nat.testBit_two_pow_sub_one, decide_eq_true_eq]
    have him : i ≤ m := by
      unfold SectPar.pageCnt at hi hlast
      by_cases hsome : x.tailPage.sectorBitmap ≠ 0
      · rw [if_pos hsome] at hi hlast
        have hne := (not_and.mp hlast) hsome
        omega
      · rw [if_neg hsome] at hi
        omega
    have hmul : i * n ≤ n * m := by
      rw [Nat.mul_comm]
      exact Nat.mul_le_mul_left _ him
    omega

/-- The sectors of its head page that come before a range. -/
theorem skip_eq (hcount : 0 < count) :
    (calculateSectPar ar first count).skip ar = first % ar.sectorCntOfLogicPage := by
  have hr : first % ar.sectorCntOfLogicPage < ar.sectorCntOfLogicPage := Nat.mod_lt _ h0
  have hbit := headBitmap_testBit h0 h32 hfits
  have hfind : (List.range ar.sectorCntOfLogicPage).find?
      (calculateSectPar ar first count).headPage.sectorBitmap.testBit =
        some (first % ar.sectorCntOfLogicPage) := by
    rw [List.find?_range_eq_some]
    refine ⟨(hbit _).mpr ⟨Nat.le_refl _, hr, by omega⟩, List.mem_range.mpr hr, fun j hj => ?_⟩
    rw [Bool.not_eq_true', ← Bool.not_eq_true, hbit]
    omega
  unfold SectPar.skip
  rw [hfind]
  rfl

end Parts

/-! ## The rounds -/

/-- The rounds of `LML_Read` and `LML_Write` for a range: page, bitmap and buffer address. A sector
has 256 halfwords. -/
structure SplitsRange (ar : LogicArchi) (first count : Nat) (x : SectPar) : Prop where
  /-- A sector is in one round, at one place of its page. -/
  once : ∀ s, first ≤ s → s < first + count → ∃! p : Nat × Nat, p.1 < x.pageCnt ∧
    (x.bitmap ar p.1).testBit p.2 = true ∧ x.page p.1 * ar.sectorCntOfLogicPage + p.2 = s
  /-- What a round has is a sector of the range, at its own place of the buffer. -/
  own : ∀ i < x.pageCnt, ∀ j, (x.bitmap ar i).testBit j = true → j < ar.sectorCntOfLogicPage ∧
    ∃ k < count, x.page i * ar.sectorCntOfLogicPage + j = first + k ∧
      x.off ar i + 256 * (j : Int) = 256 * (k : Int)
  /-- No halfword that a round touches is outside of the buffer. -/
  inside : ∀ i < x.pageCnt, ∀ a : Int, x.off ar i ≤ a →
    (x.bitmap ar i).testBit ((a - x.off ar i).toNat / 256) = true → 0 ≤ a ∧ a < 256 * (count : Int)
  nonempty : ∀ i < x.pageCnt, ∃ j, (x.bitmap ar i).testBit j = true

theorem calculateSectPar_headPage (ar : LogicArchi) (first count : Nat) :
    (calculateSectPar ar first count).headPage.logicPageNum = first / ar.sectorCntOfLogicPage := by
  unfold calculateSectPar
  dsimp only
  split <;> rfl

theorem range_fits (ar : LogicArchi) (hrange : first + count < 2 ^ 32) :
    first % ar.sectorCntOfLogicPage + count < 2 ^ 32 :=
  Nat.lt_of_le_of_lt (Nat.add_le_add_right (Nat.mod_le _ _) count) hrange

section Rounds

variable (h0 : 1 ≤ ar.sectorCntOfLogicPage) (hrange : first + count < 2 ^ 32)
include h0 hrange

/-- Page numbers do not wrap. -/
theorem page_eq {i : Nat} (hi : i < (calculateSectPar ar first count).pageCnt) :
    (calculateSectPar ar first count).page i = first / ar.sectorCntOfLogicPage + i := by
  rw [SectPar.page, calculateSectPar_headPage]
  refine u32_of_lt (Nat.lt_of_le_of_lt ?_ hrange)
  have hdiv := Nat.div_add_mod first ar.sectorCntOfLogicPage
  have hpages : first / ar.sectorCntOfLogicPage + i ≤
      ar.sectorCntOfLogicPage * (first / ar.sectorCntOfLogicPage + i) :=
    Nat.le_mul_of_pos_left _ h0
  rcases (lt_pageCnt_iff h0 (range_fits ar hrange) i).mp hi with rfl | hi
  · rw [Nat.add_zero] at hpages ⊢
    omega
  · rw [Nat.mul_add, Nat.mul_comm _ i] at hpages
    omega

/-- The sector at a place of a round, from the start of the first page. -/
theorem sector_eq {i : Nat} (hi : i < (calculateSectPar ar first count).pageCnt) (j : Nat) :
    (calculateSectPar ar first count).page i * ar.sectorCntOfLogicPage + j +
        first % ar.sectorCntOfLogicPage =
      first + (i * ar.sectorCntOfLogicPage + j) := by
  have hdiv := Nat.div_add_mod first ar.sectorCntOfLogicPage
  rw [page_eq h0 hrange hi, Nat.add_mul, Nat.mul_comm (first / _)]
  omega

variable (h32 : ar.sectorCntOfLogicPage ≤ 32)
include h32

theorem off_eq (hcount : 1 ≤ count) (i : Nat) : (calculateSectPar ar first count).off ar i =
    ((i * ar.sectorCntOfLogicPage : Nat) - (first % ar.sectorCntOfLogicPage : Nat) : Int) * 256 := by
  rw [SectPar.off, skip_eq h0 h32 (range_fits ar hrange) hcount]

theorem round_once {s : Nat} (hlow : first ≤ s) (hhigh : s < first + count) :
    ∃! p : Nat × Nat, p.1 < (calculateSectPar ar first count).pageCnt ∧
      ((calculateSectPar ar first count).bitmap ar p.1).testBit p.2 = true ∧
      (calculateSectPar ar first count).page p.1 * ar.sectorCntOfLogicPage + p.2 = s := by
  have hfits := range_fits ar hrange
  obtain ⟨k, rfl⟩ := Nat.exists_eq_add_of_le hlow
  have hdiv := Nat.div_add_mod (first % ar.sectorCntOfLogicPage + k) ar.sectorCntOfLogicPage
  have hplace := Nat.mod_lt (first % ar.sectorCntOfLogicPage + k) h0
  rw [Nat.mul_comm] at hdiv
  refine ⟨((first % ar.sectorCntOfLogicPage + k) / ar.sectorCntOfLogicPage,
    (first % ar.sectorCntOfLogicPage + k) % ar.sectorCntOfLogicPage), ?_, ?_⟩
  · have hi := (lt_pageCnt_iff h0 hfits
      ((first % ar.sectorCntOfLogicPage + k) / ar.sectorCntOfLogicPage)).mpr (by omega)
    refine ⟨hi, (bitmap_testBit h0 h32 hfits hi _).mpr ⟨hplace, by omega, by omega⟩, ?_⟩
    have hsector := sector_eq h0 hrange hi
      ((first % ar.sectorCntOfLogicPage + k) % ar.sectorCntOfLogicPage)
    dsimp only
    omega
  · rintro ⟨i, j⟩ ⟨hi, hbit, hs⟩
    dsimp only at hi hbit hs
    have hj := ((bitmap_testBit h0 h32 hfits hi j).mp hbit).1
    have hsector := sector_eq h0 hrange hi j
    have hsum : first % ar.sectorCntOfLogicPage + k = ar.sectorCntOfLogicPage * i + j := by
      rw [Nat.mul_comm]
      omega
    rw [hsum, Nat.mul_add_div h0, Nat.mul_add_mod, Nat.div_eq_of_lt hj, Nat.mod_eq_of_lt hj,
      Nat.add_zero]

theorem round_own (hcount : 1 ≤ count) {i : Nat}
    (hi : i < (calculateSectPar ar first count).pageCnt) {j : Nat}
    (hj : ((calculateSectPar ar first count).bitmap ar i).testBit j = true) :
    j < ar.sectorCntOfLogicPage ∧ ∃ k < count,
      (calculateSectPar ar first count).page i * ar.sectorCntOfLogicPage + j = first + k ∧
        (calculateSectPar ar first count).off ar i + 256 * (j : Int) = 256 * (k : Int) := by
  obtain ⟨hplace, hlow, hhigh⟩ := (bitmap_testBit h0 h32 (range_fits ar hrange) hi j).mp hj
  have hsector := sector_eq h0 hrange hi j
  refine ⟨hplace, i * ar.sectorCntOfLogicPage + j - first % ar.sectorCntOfLogicPage, by omega,
    by omega, ?_⟩
  rw [off_eq h0 hrange h32 hcount]
  omega

end Rounds

/-- Every range of sectors, of a page of any size up to 32 sectors, is split exactly. -/
theorem calculateSectPar_splits (ar : LogicArchi) (first count : Nat)
    (h0 : 1 ≤ ar.sectorCntOfLogicPage) (h32 : ar.sectorCntOfLogicPage ≤ 32) (hcount : 1 ≤ count)
    (hrange : first + count < 2 ^ 32) :
    SplitsRange ar first count (calculateSectPar ar first count) where
  once _ hlow hhigh := round_once h0 hrange h32 hlow hhigh
  own _ hi _ hj := round_own h0 hrange h32 hcount hi hj
  inside i hi a ha hbit := by
    obtain ⟨-, k, hk, -, hoff⟩ := round_own h0 hrange h32 hcount hi hbit
    omega
  nonempty i hi := by
    have hfits := range_fits ar hrange
    have hr : first % ar.sectorCntOfLogicPage < ar.sectorCntOfLogicPage := Nat.mod_lt _ h0
    by_cases hzero : i = 0
    · exact ⟨first % ar.sectorCntOfLogicPage, (bitmap_testBit h0 h32 hfits hi _).mpr
        ⟨hr, Nat.le_add_left _ _, by rw [hzero]; omega⟩⟩
    · have hin := ((lt_pageCnt_iff h0 hfits i).mp hi).resolve_left hzero
      have hone : ar.sectorCntOfLogicPage ≤ i * ar.sectorCntOfLogicPage :=
        Nat.le_mul_of_pos_left _ (Nat.pos_of_ne_zero hzero)
      exact ⟨0, (bitmap_testBit h0 h32 hfits hi _).mpr ⟨h0, by omega, by omega⟩⟩

/-- Five sectors from the last of a page of four. -/
theorem calculateSectPar_splits_five :
    SplitsRange ⟨64, 64, 4, 900, 5, 1, 5120, 1, false, false, false, false, false⟩ 3 5
      (calculateSectPar ⟨64, 64, 4, 900, 5, 1, 5120, 1, false, false, false, false, false⟩ 3 5) :=
  calculateSectPar_splits ⟨64, 64, 4, 900, 5, 1, 5120, 1, false, false, false, false, false⟩ 3 5
    (by decide) (by decide) (by decide) (by decide)

end Novo7
