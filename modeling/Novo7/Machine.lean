import Mathlib.Data.Nat.Bitwise
import Mathlib.Logic.Function.Basic

/-!
# Machine words and bounded loops

Two things every C function of the firmware needs before it can be written down as a
Lean function.

*Words.* A `uint32_t` is a `Nat` kept below `2 ^ 32`; the operations that can leave that
range are written with an explicit `u32`. The C masks used on such words (`~1U`) get one
lemma each, so that no later proof looks at bits.

*Loops.* `iter step fuel s` runs one round after another until a round returns. A round
either hands over the next state (`Sum.inl`) or leaves the loop with a result
(`Sum.inr`). The fuel only makes the definition structural: `iter_total` is the
total-correctness rule — an invariant, a variant that every round decreases, and enough
fuel give a result that satisfies the postcondition.
-/

namespace Machine

/-! ## 32-bit words -/

/-- Reduction to an unsigned 32-bit word. -/
def u32 (n : Nat) : Nat := n % 2 ^ 32

theorem u32_of_lt {n : Nat} (h : n < 2 ^ 32) : u32 n = n := Nat.mod_eq_of_lt h

theorem u32_lt (n : Nat) : u32 n < 2 ^ 32 := Nat.mod_lt _ (by decide)

/-- Unsigned 32-bit subtraction. -/
def sub32 (a b : Nat) : Nat := u32 (a + 2 ^ 32 - u32 b)

theorem sub32_lt (a b : Nat) : sub32 a b < 2 ^ 32 := u32_lt _

theorem sub32_of_le {a b : Nat} (hba : b ≤ a) (ha : a < 2 ^ 32) : sub32 a b = a - b := by
  unfold sub32 u32
  omega

/-- `w & ~1U` drops the lowest bit. -/
theorem and_not_one {w : Nat} (h : w < 2 ^ 32) : w &&& 0xfffffffe = w - w % 2 := by
  have hev : w - w % 2 = 2 * (w / 2) := by omega
  rw [hev]
  apply Nat.eq_of_testBit_eq
  intro i
  rw [Nat.testBit_and]
  cases i with
  | zero => simp
  | succ i =>
      rw [Nat.testBit_succ, Nat.testBit_succ, Nat.testBit_succ,
        show 2 * (w / 2) / 2 = w / 2 by omega,
        show 0xfffffffe / 2 = 2 ^ 31 - 1 by decide, Nat.testBit_two_pow_sub_one]
      rcases Nat.lt_or_ge i 31 with hi | hi
      · simp [hi]
      · have hw : w / 2 < 2 ^ i :=
          Nat.lt_of_lt_of_le (by omega) (Nat.pow_le_pow_right (by decide) hi)
        rw [Nat.testBit_lt_two_pow hw, Bool.false_and]

/-! ## Programs that return -/

/-- `x` returns, and what it returns satisfies `Q`. -/
def Returns {α : Type} (x : Option α) (Q : α → Prop) : Prop := ∃ a, x = some a ∧ Q a

theorem Returns.pure {α : Type} {a : α} {Q : α → Prop} (h : Q a) : Returns (some a) Q :=
  ⟨a, rfl, h⟩

theorem Returns.bind {α β : Type} {x : Option α} {f : α → Option β} {P : α → Prop}
    {Q : β → Prop} (hx : Returns x P) (hf : ∀ a, P a → Returns (f a) Q) :
    Returns (x >>= f) Q := by
  obtain ⟨a, rfl, ha⟩ := hx
  exact hf a ha

theorem Returns.mono {α : Type} {x : Option α} {P Q : α → Prop} (hx : Returns x P)
    (h : ∀ a, P a → Q a) : Returns x Q := by
  obtain ⟨a, rfl, ha⟩ := hx
  exact ⟨a, rfl, h a ha⟩

/-- A program has one result, so what is proved of some result holds of every one. -/
theorem Returns.elim {α : Type} {x : Option α} {Q : α → Prop} {a : α} (hx : Returns x Q)
    (h : x = some a) : Q a := by
  obtain ⟨b, rfl, hb⟩ := hx
  cases h
  exact hb

/-! ## Loops -/

/-- Run `step` until it returns a result, for at most `fuel` rounds. -/
def iter {σ α : Type} (step : σ → Option (σ ⊕ α)) : Nat → σ → Option α
  | 0, _ => none
  | fuel + 1, s => do
    match ← step s with
    | .inl s' => iter step fuel s'
    | .inr a => some a

/-- What one round must do for the loop to be correct: keep the invariant and decrease the
variant, or return a result that satisfies the postcondition. -/
def RoundOK {σ α : Type} (I : σ → Prop) (m : σ → Nat) (Q : α → Prop) (s : σ) :
    σ ⊕ α → Prop
  | .inl s' => I s' ∧ m s' < m s
  | .inr a => Q a

/-- Total correctness of a loop: with an invariant, a variant and enough fuel it returns,
and what it returns satisfies the postcondition. -/
theorem iter_total {σ α : Type} {step : σ → Option (σ ⊕ α)} {I : σ → Prop} {m : σ → Nat}
    {Q : α → Prop} (hround : ∀ s, I s → Returns (step s) (RoundOK I m Q s)) :
    ∀ {fuel : Nat} {s : σ}, I s → m s < fuel → Returns (iter step fuel s) Q
  | 0, _, _, hfuel => by omega
  | fuel + 1, s, hI, hfuel => by
      refine (hround s hI).bind fun r hr => ?_
      cases r with
      | inr a => exact .pure hr
      | inl s' => exact iter_total hround hr.1 (by have := hr.2; omega)

/-- The states in which a loop begins its rounds. -/
def rounds {σ α : Type} (step : σ → Option (σ ⊕ α)) : Nat → σ → List σ
  | 0, _ => []
  | fuel + 1, s =>
    s :: match step s with
      | some (.inl s') => rounds step fuel s'
      | _ => []

/-- The invariant of a loop holds whenever a round begins. -/
theorem rounds_inv {σ α : Type} {step : σ → Option (σ ⊕ α)} {I : σ → Prop} {m : σ → Nat}
    {Q : α → Prop} (hround : ∀ s, I s → Returns (step s) (RoundOK I m Q s)) {fuel : Nat} :
    ∀ {s : σ}, I s → ∀ t ∈ rounds step fuel s, I t := by
  induction fuel with
  | zero => intro s _ t ht; cases ht
  | succ fuel ih =>
      intro s hs t ht
      obtain ⟨r, hstep, hr⟩ := hround s hs
      rw [rounds, hstep] at ht
      rcases List.mem_cons.mp ht with rfl | ht
      · exact hs
      · cases r with
        | inl s' => exact ih hr.1 t ht
        | inr a => cases ht

end Machine
