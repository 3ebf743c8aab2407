import Mathlib.Data.Multiset.AddSub
import Mathlib.Data.Multiset.UnionInter
import Mathlib.Logic.Function.Basic

/-!
# Numbered slots

A table of slots `g : Nat → Option α`, of which the first `n` count. `held g n` is the multiset of
what they hold. Overwriting a slot exchanges its old value for the new one (`held_update`), and
where no value is held twice a value is in one slot only (`held_inj`).

`latest f n p` is the last of the first `n` places of a sequence at which `p` stands.
-/

namespace HeldSlots

variable {α : Type}

/-! ## What the slots hold -/

/-- The value of a slot, as a multiset. -/
def one (o : Option α) : Multiset α := o.elim 0 ({·})

@[simp] theorem one_none : one (none : Option α) = 0 := rfl

@[simp] theorem one_some (a : α) : one (some a) = {a} := rfl

/-- What the first `n` slots hold. -/
def held (g : Nat → Option α) : Nat → Multiset α
  | 0 => 0
  | n + 1 => one (g n) + held g n

variable {g g' : Nat → Option α} {n : Nat}

theorem held_congr (h : ∀ i < n, g i = g' i) : held g n = held g' n := by
  induction n with
  | zero => rfl
  | succ n ih =>
      rw [held, held, h n (Nat.lt_succ_self n), ih fun i hi => h i (Nat.lt_succ_of_lt hi)]

theorem mem_one {a : α} {o : Option α} : a ∈ one o ↔ o = some a := by
  cases o with
  | none => simp
  | some b => simp [eq_comm]

theorem mem_held {a : α} : a ∈ held g n ↔ ∃ i < n, g i = some a := by
  induction n with
  | zero => simp [held]
  | succ n ih =>
      rw [held, Multiset.mem_add, mem_one, ih]
      constructor
      · rintro (h | ⟨i, hi, h⟩)
        · exact ⟨n, Nat.lt_succ_self n, h⟩
        · exact ⟨i, Nat.lt_succ_of_lt hi, h⟩
      · rintro ⟨i, hi, h⟩
        rcases Nat.lt_succ_iff_lt_or_eq.mp hi with hlt | rfl
        · exact Or.inr ⟨i, hlt, h⟩
        · exact Or.inl h

/-- A slot is overwritten: its value is exchanged. -/
theorem held_update {i : Nat} (hi : i < n) (y : Option α) :
    held (Function.update g i y) n + one (g i) = held g n + one y := by
  induction n with
  | zero => exact absurd hi (Nat.not_lt_zero i)
  | succ n ih =>
      rw [held, held]
      rcases Nat.lt_succ_iff_lt_or_eq.mp hi with hlt | rfl
      · rw [Function.update_of_ne (Nat.ne_of_gt hlt), Multiset.add_assoc, ih hlt,
          Multiset.add_assoc]
      · have hrest : held (Function.update g i y) i = held g i :=
          held_congr fun j hj => Function.update_of_ne (Nat.ne_of_lt hj) ..
        rw [Function.update_self, hrest, Multiset.add_comm (one y), Multiset.add_comm (one (g i)),
          Multiset.add_assoc, Multiset.add_comm (one y), Multiset.add_assoc]

/-- Where no value is held twice, a value is in one slot. -/
theorem held_inj (h : (held g n).Nodup) {i j : Nat} (hi : i < n) (hj : j < n) {a : α}
    (hgi : g i = some a) (hgj : g j = some a) : i = j := by
  induction n with
  | zero => exact absurd hi (Nat.not_lt_zero i)
  | succ n ih =>
      rw [held, Multiset.nodup_add] at h
      obtain ⟨-, hrest, hapart⟩ := h
      have hnot (k : Nat) (hk : k < n) (hgk : g k = some a) (hgn : g n = some a) : False :=
        Multiset.disjoint_left.mp hapart (mem_one.mpr hgn) (mem_held.mpr ⟨k, hk, hgk⟩)
      rcases Nat.lt_succ_iff_lt_or_eq.mp hi with hlt | rfl <;>
        rcases Nat.lt_succ_iff_lt_or_eq.mp hj with hlt' | rfl
      · exact ih hrest hlt hlt'
      · exact (hnot i hlt hgi hgj).elim
      · exact (hnot j hlt' hgj hgi).elim
      · rfl

/-- The slots are the places of a list. -/
theorem held_getElem? (l : List α) (n : Nat) : held (fun i => l[i]?) n = (l.take n : Multiset α) := by
  induction n with
  | zero => rfl
  | succ n ih =>
      rw [held, ih, List.take_add_one, ← Multiset.coe_add, Multiset.add_comm]
      cases l[n]? <;> rfl

theorem card_one_le (o : Option α) : (one o).card ≤ 1 := by
  cases o <;> simp

theorem card_held_le (g : Nat → Option α) (n : Nat) : (held g n).card ≤ n := by
  induction n with
  | zero => simp [held]
  | succ n ih =>
      rw [held, Multiset.card_add]
      have := card_one_le (g n)
      omega

/-- With fewer values than slots, one is empty. -/
theorem exists_empty (h : (held g n).card < n) : ∃ i < n, g i = none := by
  by_contra hall
  push Not at hall
  refine absurd h (Nat.not_lt.mpr ?_)
  clear h
  induction n with
  | zero => exact Nat.zero_le _
  | succ n ih =>
      obtain ⟨a, ha⟩ := Option.ne_none_iff_exists'.mp (hall n (Nat.lt_succ_self n))
      have := ih fun i hi => hall i (Nat.lt_succ_of_lt hi)
      rw [held, ha, one_some, Multiset.card_add, Multiset.card_singleton]
      omega

theorem held_full (h : ∀ i < n, (g i).isSome) : (held g n).card = n := by
  refine Nat.le_antisymm (card_held_le g n) (Nat.not_lt.mp fun hlt => ?_)
  obtain ⟨i, hi, hnone⟩ := exists_empty hlt
  simpa [hnone] using h i hi

/-! ## The latest place -/

section Latest

variable [DecidableEq α]

/-- The last of the first `n` places at which `p` stands. -/
def latest (f : Nat → α) : Nat → α → Option Nat
  | 0, _ => none
  | n + 1, p => if f n = p then some n else latest f n p

variable {f f' : Nat → α} {p : α} {q : Nat}

theorem latest_congr (h : ∀ q < n, f q = p ↔ f' q = p) : latest f n p = latest f' n p := by
  induction n with
  | zero => rfl
  | succ n ih =>
      rw [latest, latest, ih fun q hq => h q (Nat.lt_succ_of_lt hq)]
      exact if_congr (h n (Nat.lt_succ_self n)) rfl rfl

theorem latest_eq_none : latest f n p = none ↔ ∀ q < n, f q ≠ p := by
  induction n with
  | zero => simp [latest]
  | succ n ih =>
      rw [latest]
      split
      · rename_i h
        exact ⟨nofun, fun hall => absurd h (hall n (Nat.lt_succ_self n))⟩
      · rename_i h
        rw [ih]
        constructor
        · intro hall q hq
          rcases Nat.lt_succ_iff_lt_or_eq.mp hq with hlt | rfl
          · exact hall q hlt
          · exact h
        · exact fun hall q hq => hall q (Nat.lt_succ_of_lt hq)

theorem latest_eq_some : latest f n p = some q ↔
    q < n ∧ f q = p ∧ ∀ r, q < r → r < n → f r ≠ p := by
  induction n with
  | zero => simp [latest]
  | succ n ih =>
      rw [latest]
      split
      · rename_i h
        constructor
        · intro hq
          obtain rfl := Option.some.inj hq
          exact ⟨Nat.lt_succ_self n, h, fun r hr hrn => absurd hrn (by omega)⟩
        · rintro ⟨hq, -, hlast⟩
          rcases Nat.lt_succ_iff_lt_or_eq.mp hq with hlt | rfl
          · exact absurd h (hlast n hlt (Nat.lt_succ_self n))
          · rfl
      · rename_i h
        rw [ih]
        constructor
        · rintro ⟨hq, hp, hlast⟩
          refine ⟨Nat.lt_succ_of_lt hq, hp, fun r hr hrn => ?_⟩
          rcases Nat.lt_succ_iff_lt_or_eq.mp hrn with hlt | rfl
          · exact hlast r hr hlt
          · exact h
        · rintro ⟨hq, hp, hlast⟩
          rcases Nat.lt_succ_iff_lt_or_eq.mp hq with hlt | rfl
          · exact ⟨hlt, hp, fun r hr hrn => hlast r hr (Nat.lt_succ_of_lt hrn)⟩
          · exact absurd hp h

/-- A place behind which `p` does not stand gets it. -/
theorem latest_update (hq : q < n) (hlast : ∀ r, q < r → r < n → f r ≠ p) :
    latest (Function.update f q p) n p = some q := by
  refine latest_eq_some.mpr ⟨hq, Function.update_self .., fun r hr hrn => ?_⟩
  rw [Function.update_of_ne (Nat.ne_of_gt hr)]
  exact hlast r hr hrn

/-- The other values stay where they are, unless one is overwritten. -/
theorem latest_update_ne {v : α} (hold : f q ≠ p) (hv : v ≠ p) :
    latest (Function.update f q v) n p = latest f n p := by
  refine latest_congr fun r _ => ?_
  by_cases hr : r = q
  · rw [hr, Function.update_self]
    exact iff_of_false hv hold
  · rw [Function.update_of_ne hr]

end Latest

end HeldSlots
