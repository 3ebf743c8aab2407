import Mathlib.Algebra.Order.Ring.Int
import Mathlib.Tactic.Ring

/-!
# Bisection

A loop that halves a window `[low, high]` of places. It probes the place in the middle and goes on
above it or below it, and the probe may keep something of what it saw. Nothing is said here about
what the places are.

* `bisect_boundary`: if a probe tells whether its place is below `k`, the loop ends with the window
  `[k, k - 1]`, and whatever hits and misses keep of what they saw holds at its end.
* `bisect_latest`: if the probe keeps its own place, the one that is kept at the end is `k - 1` or
  `k`, depending on where `k` is among the places. It is `k - 1` exactly if `k` is not among them or
  is an `Inner` place.
-/

namespace Bisection

variable {α : Type}

/-- The middle of a window, rounded towards zero. -/
def mid (low high : Int) : Int := (low + high).tdiv 2

theorem mid_mem {low high : Int} (h : low ≤ high) : low ≤ mid low high ∧ mid low high ≤ high := by
  have hsign : (2 : Int).sign = 1 := rfl
  rw [mid, Int.tdiv_eq_ediv, hsign]
  split_ifs <;> omega

/-- The loop: its window at the end, and what the probes kept. -/
def bisect (probe : Int → α → Bool × α) (low high : Int) (a : α) : Int × Int × α :=
  if _h : low ≤ high then
    if (probe (mid low high) a).1 then
      bisect probe (mid low high + 1) high (probe (mid low high) a).2
    else
      bisect probe low (mid low high - 1) (probe (mid low high) a).2
  else (low, high, a)
termination_by (high + 1 - low).toNat
decreasing_by
  all_goals
    have := mid_mem _h
    omega

/-! ## Rules -/

section Rules

variable {probe : Int → α → Bool × α}

theorem bisect_done {low high : Int} (h : high < low) (a : α) :
    bisect probe low high a = (low, high, a) := by
  rw [bisect, dif_neg (not_le.mpr h)]

theorem bisect_hit {low high : Int} {a : α} (h : low ≤ high)
    (hp : (probe (mid low high) a).1 = true) :
    bisect probe low high a =
      bisect probe (mid low high + 1) high (probe (mid low high) a).2 := by
  rw [bisect, dif_pos h, if_pos hp]

theorem bisect_miss {low high : Int} {a : α} (h : low ≤ high)
    (hp : (probe (mid low high) a).1 = false) :
    bisect probe low high a =
      bisect probe low (mid low high - 1) (probe (mid low high) a).2 := by
  rw [bisect, dif_pos h, if_neg (by simp [hp])]

/-- The boundary `k` stays in the window. `I` is what is known of the kept value while everything
before a place is known to be below `k`. -/
theorem bisect_boundary {I : Int → α → Prop} {k : Int} :
    ∀ {low high : Int} {a : α},
      (∀ i, low ≤ i → i ≤ high → ∀ a, (probe i a).1 = true ↔ i < k) →
      (∀ l i a, l ≤ i → low ≤ i → i < k → I l a → I (i + 1) (probe i a).2) →
      (∀ l i a, l ≤ i → i ≤ high → k ≤ i → I l a → I l (probe i a).2) →
      low ≤ k → k ≤ high + 1 → I low a →
      ∃ b, bisect probe low high a = (k, k - 1, b) ∧ I k b := by
  intro low high a
  fun_induction bisect probe low high a with
  | case1 low high a h hit ih =>
      intro hprobe hhit hmiss hlow hhigh ha
      obtain ⟨hl, hh⟩ := mid_mem h
      have hk : mid low high < k := (hprobe _ hl hh a).mp hit
      exact ih (fun i hi => hprobe i (by omega)) (fun l i a' h1 h2 => hhit l i a' h1 (by omega))
        hmiss (by omega) hhigh (hhit low _ a hl hl hk ha)
  | case2 low high a h miss ih =>
      intro hprobe hhit hmiss hlow hhigh ha
      obtain ⟨hl, hh⟩ := mid_mem h
      have hk : k ≤ mid low high := not_lt.mp fun hk => miss ((hprobe _ hl hh a).mpr hk)
      exact ih (fun i hi hi' => hprobe i hi (by omega)) hhit
        (fun l i a' h1 h2 => hmiss l i a' h1 (by omega)) hlow (by omega)
        (hmiss low _ a hl hh hk ha)
  | case3 low high a h =>
      intro _ _ _ hlow hhigh ha
      have hk : low = k := by omega
      subst hk
      exact ⟨a, by rw [show high = low - 1 by omega], ha⟩

end Rules

/-! ## The latest probe -/

/-- When the loop gets to place `k` of `n`, its window has a place below `k`. -/
def Inner (n k : Nat) : Prop :=
  if _h : n = 0 then False
  else if k < (n - 1) / 2 then Inner ((n - 1) / 2) k
  else if k = (n - 1) / 2 then 0 < k
  else Inner (n - 1 - (n - 1) / 2) (k - (n - 1) / 2 - 1)
termination_by n
decreasing_by all_goals omega

theorem inner_below {n k : Nat} (h : k < (n - 1) / 2) : Inner n k ↔ Inner ((n - 1) / 2) k := by
  rw [Inner, dif_neg (by omega), if_pos h]

theorem inner_mid {n : Nat} (h : n ≠ 0) : Inner n ((n - 1) / 2) ↔ 0 < (n - 1) / 2 := by
  rw [Inner, dif_neg h, if_neg (lt_irrefl _), if_pos rfl]

theorem inner_above {n k : Nat} (hn : n ≠ 0) (h : (n - 1) / 2 < k) :
    Inner n k ↔ Inner (n - 1 - (n - 1) / 2) (k - (n - 1) / 2 - 1) := by
  rw [Inner, dif_neg hn, if_neg (by omega), if_neg (by omega)]

/-- The middle of the window that starts at `l` and has `n` places. -/
theorem mid_window {l n : Nat} (hn : n ≠ 0) :
    mid (l : Int) ((l : Int) + n - 1) = ((l + (n - 1) / 2 : Nat) : Int) := by
  rw [mid, Int.tdiv_eq_ediv_of_nonneg (by omega)]
  omega

section Latest

variable {n l k : Nat}

/-- A hit leaves the places above the middle. -/
theorem inner_hit (hn : n ≠ 0) (h : l + (n - 1) / 2 < k) :
    (k = l + n ∨ Inner n (k - l)) ↔
      (k = l + (n - 1) / 2 + 1 + (n - 1 - (n - 1) / 2) ∨
        Inner (n - 1 - (n - 1) / 2) (k - (l + (n - 1) / 2 + 1))) := by
  have hplace : k - l - (n - 1) / 2 - 1 = k - (l + (n - 1) / 2 + 1) := by omega
  have hend : l + (n - 1) / 2 + 1 + (n - 1 - (n - 1) / 2) = l + n := by omega
  rw [inner_above hn (by omega), hplace, hend]

/-- A miss leaves the places below it. -/
theorem inner_miss (hn : n ≠ 0) (hl : l ≤ k) (h : k ≤ l + (n - 1) / 2) (hz : (n - 1) / 2 ≠ 0) :
    (k = l + n ∨ Inner n (k - l)) ↔
      (k = l + (n - 1) / 2 ∨ Inner ((n - 1) / 2) (k - l)) := by
  rcases Nat.lt_or_eq_of_le h with hlt | heq
  · rw [inner_below (by omega)]
    constructor
    · rintro (hk | hk)
      · omega
      · exact .inr hk
    · rintro (hk | hk)
      · omega
      · exact .inr hk
  · have hkm : k - l = (n - 1) / 2 := by omega
    refine iff_of_true (.inr ?_) (.inl heq)
    rw [hkm, inner_mid hn]
    exact Nat.pos_of_ne_zero hz

/-- The first place of a window without places below its middle. -/
theorem not_inner_first (hn : n ≠ 0) (hz : (n - 1) / 2 = 0) : ¬ (l = l + n ∨ Inner n (l - l)) := by
  rintro (hl | hin)
  · omega
  · have hmid := inner_mid hn
    rw [hz] at hmid
    rw [Nat.sub_self, hmid] at hin
    exact lt_irrefl 0 hin

/-- By induction on the window. A miss at `k` leaves the places below `k`: if there are any, they
are all hits, and the last of them is `k - 1`. -/
theorem bisect_latest {probe : Int → Int → Bool × Int} {k : Nat} :
    ∀ (n : Nat) {l : Nat} {a : Int}, n ≠ 0 →
      (∀ i : Nat, l ≤ i → i < l + n → ∀ a, probe i a = (decide (i < k), (i : Int))) →
      l ≤ k → k ≤ l + n →
      ((k = l + n ∨ Inner n (k - l)) → (bisect probe l (l + n - 1) a).2.2 = k - 1) ∧
      (¬ (k = l + n ∨ Inner n (k - l)) → (bisect probe l (l + n - 1) a).2.2 = k) := by
  intro n
  induction n using Nat.strong_induction_on with
  | _ n ih =>
      intro l a hn hprobe hlow hhigh
      have hwindow : (l : Int) ≤ l + n - 1 := by omega
      have hmid := mid_window (l := l) hn
      have hp := hprobe (l + (n - 1) / 2) (by omega) (by omega) a
      by_cases hk : l + (n - 1) / 2 < k
      · rw [bisect_hit hwindow (by rw [hmid, hp]; simpa using hk), hmid, hp, inner_hit hn hk]
        by_cases hz : n - 1 - (n - 1) / 2 = 0
        · rw [bisect_done (by omega)]
          refine ⟨fun _ => ?_, fun h => absurd (Or.inl (by omega)) h⟩
          show ((l + (n - 1) / 2 : Nat) : Int) = k - 1
          omega
        · have hrec := ih (n - 1 - (n - 1) / 2) (by omega) (l := l + (n - 1) / 2 + 1)
            (a := ((l + (n - 1) / 2 : Nat) : Int)) hz
            (fun i hi hi' => hprobe i (by omega) (by omega)) (by omega) (by omega)
          have hstart : ((l + (n - 1) / 2 : Nat) : Int) + 1 =
              ((l + (n - 1) / 2 + 1 : Nat) : Int) := (Nat.cast_succ _).symm
          have hend : ((l + (n - 1) / 2 + 1 : Nat) : Int) + ((n - 1 - (n - 1) / 2 : Nat) : Int) - 1
              = (l : Int) + n - 1 := by omega
          rwa [hend, ← hstart] at hrec
      · have hle : k ≤ l + (n - 1) / 2 := not_lt.mp hk
        rw [bisect_miss hwindow (by rw [hmid, hp]; simpa using hk), hmid, hp]
        by_cases hz : (n - 1) / 2 = 0
        · obtain rfl : k = l := by omega
          rw [bisect_done (by omega)]
          refine ⟨fun h => absurd h (not_inner_first hn hz), fun _ => ?_⟩
          show ((k + (n - 1) / 2 : Nat) : Int) = k
          omega
        · have hrec := ih ((n - 1) / 2) (by omega) (l := l)
            (a := ((l + (n - 1) / 2 : Nat) : Int)) hz
            (fun i hi hi' => hprobe i hi (by omega)) hlow hle
          have hend : (l : Int) + (((n - 1) / 2 : Nat) : Int) = ((l + (n - 1) / 2 : Nat) : Int) :=
            (Nat.cast_add _ _).symm
          rw [inner_miss hn hlow hle hz]
          rwa [hend] at hrec

end Latest

/-! ## As many places as a power of two -/

theorem two_pow_sub_one_pos (r : Nat) : 0 < 2 ^ r - 1 ↔ (2 ^ r - 1) % 2 = 1 := by
  cases r with
  | zero => simp
  | succ r =>
      have hpos : 0 < 2 ^ r := Nat.two_pow_pos r
      rw [Nat.pow_succ]
      omega

theorem inner_two_pow_sub_one : ∀ (r : Nat) {k : Nat}, k < 2 ^ r - 1 →
    (Inner (2 ^ r - 1) k ↔ k % 2 = 1) := by
  intro r
  induction r with
  | zero => intro k hk; simp at hk
  | succ r ih =>
      intro k hk
      have hpos : 0 < 2 ^ r := Nat.two_pow_pos r
      rw [Nat.pow_succ] at hk ⊢
      have hmid : (2 ^ r * 2 - 1 - 1) / 2 = 2 ^ r - 1 := by omega
      rcases Nat.lt_trichotomy k (2 ^ r - 1) with hlt | heq | hgt
      · rw [inner_below (by omega), hmid, ih hlt]
      · have hin := inner_mid (n := 2 ^ r * 2 - 1) (by omega)
        rw [hmid] at hin
        rw [heq, hin]
        exact two_pow_sub_one_pos r
      · rw [inner_above (by omega) (by omega), hmid,
          show 2 ^ r * 2 - 1 - 1 - (2 ^ r - 1) = 2 ^ r - 1 by omega, ih (by omega)]
        cases r with
        | zero => omega
        | succ r => rw [Nat.pow_succ] at hgt ⊢; omega

/-- The odd places but the last. -/
theorem inner_two_pow : ∀ (r : Nat) {k : Nat}, k < 2 ^ r →
    (Inner (2 ^ r) k ↔ k % 2 = 1 ∧ k + 1 ≠ 2 ^ r) := by
  intro r
  induction r with
  | zero =>
      intro k hk
      have hk0 : k = 0 := by omega
      subst hk0
      have hin := inner_mid (n := 1) (by omega)
      simpa using hin
  | succ r ih =>
      intro k hk
      have hpos : 0 < 2 ^ r := Nat.two_pow_pos r
      rw [Nat.pow_succ] at hk ⊢
      have hmid : (2 ^ r * 2 - 1) / 2 = 2 ^ r - 1 := by omega
      rcases Nat.lt_trichotomy k (2 ^ r - 1) with hlt | heq | hgt
      · rw [inner_below (by omega), hmid, inner_two_pow_sub_one r hlt]
        omega
      · have hin := inner_mid (n := 2 ^ r * 2) (by omega)
        rw [hmid] at hin
        rw [heq, hin, two_pow_sub_one_pos]
        omega
      · rw [inner_above (by omega) (by omega), hmid,
          show 2 ^ r * 2 - 1 - (2 ^ r - 1) = 2 ^ r by omega, ih (by omega)]
        cases r with
        | zero => omega
        | succ r => rw [Nat.pow_succ] at hgt ⊢; omega

end Bisection
