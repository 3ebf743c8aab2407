import Mathlib.Logic.Function.Basic

/-!
# What a program touches

A state has cells, and something besides. `Touches f i` says that a program can change cell `i`,
or that what it does can depend on the cell. `Within B f` is the other way round: the program
leaves cells outside `B` alone, and does the same from two states that agree on the cells of `B`.
It composes, so it is proved along the program; what a program touches is then in `B`.
-/

namespace Footprint

variable {σ ι γ ρ β δ : Type} {cell : σ → ι → γ} {rest : σ → ρ} {B : ι → Prop}

/-- Two states agree on the cells of `B` and on all that is no cell. -/
structure Agree (cell : σ → ι → γ) (rest : σ → ρ) (B : ι → Prop) (s s' : σ) : Prop where
  rest : rest s = rest s'
  cell : ∀ i, B i → cell s i = cell s' i

/-- The program can change the cell, or find out something about it. -/
def Touches (cell : σ → ι → γ) (rest : σ → ρ) (f : σ → σ × β) (i : ι) : Prop :=
  (∃ s, cell (f s).1 i ≠ cell s i) ∨
    ∃ s s', Agree cell rest (· ≠ i) s s' ∧
      ¬ ((f s).2 = (f s').2 ∧ Agree cell rest (· ≠ i) (f s).1 (f s').1)

/-- The program changes only cells of `B`, and what it does depends on no others. -/
structure Within (cell : σ → ι → γ) (rest : σ → ρ) (B : ι → Prop) (f : σ → σ × β) : Prop where
  frame : ∀ s i, ¬ B i → cell (f s).1 i = cell s i
  agree : ∀ s s', Agree cell rest B s s' →
    (f s).2 = (f s').2 ∧ Agree cell rest B (f s).1 (f s').1

theorem Within.of_touches {f : σ → σ × β} (hf : Within cell rest B f) {i : ι}
    (hi : Touches cell rest f i) : B i := by
  refine Classical.byContradiction fun hB => ?_
  rcases hi with ⟨s, hs⟩ | ⟨s, s', hagree, hdiff⟩
  · exact hs (hf.frame s i hB)
  · have hne : ∀ j, B j → j ≠ i := by
      rintro j hj rfl
      exact hB hj
    obtain ⟨hval, hrest, hcell⟩ := hf.agree s s' ⟨hagree.rest, fun j hj => hagree.cell j (hne j hj)⟩
    refine hdiff ⟨hval, hrest, fun j hj => ?_⟩
    by_cases hBj : B j
    · exact hcell j hBj
    · rw [hf.frame s j hBj, hf.frame s' j hBj]
      exact hagree.cell j hj

/-- States that agree still do when both get the same value in a cell. -/
theorem update_agree [DecidableEq ι] {f g : ι → γ} (h : ∀ i, B i → f i = g i) (j : ι) (x : γ) :
    ∀ i, B i → Function.update f j x i = Function.update g j x i := by
  intro i hi
  by_cases he : i = j
  · rw [he, Function.update_self, Function.update_self]
  · rw [Function.update_of_ne he, Function.update_of_ne he]
    exact h i hi

/-! ## Rules -/

theorem Within.congr {f k : σ → σ × β} (hf : Within cell rest B f) (h : ∀ s, k s = f s) :
    Within cell rest B k := by
  rw [funext h]
  exact hf

theorem Within.pure (x : β) : Within cell rest B fun s => (s, x) :=
  ⟨fun _ _ _ => rfl, fun _ _ h => ⟨rfl, h⟩⟩

/-- One program after another, when all that is known of the first one's result is `Q`. -/
theorem Within.bind {f : σ → σ × β} {k : β → σ → σ × δ} {Q : β → Prop}
    (hf : Within cell rest B f) (hQ : ∀ s, Q (f s).2) (hk : ∀ x, Q x → Within cell rest B (k x)) :
    Within cell rest B fun s => k (f s).2 (f s).1 := by
  refine ⟨fun s i hi => ?_, fun s s' h => ?_⟩
  · rw [(hk _ (hQ s)).frame _ i hi, hf.frame s i hi]
  · obtain ⟨hval, hagree⟩ := hf.agree s s' h
    rw [← hval]
    exact (hk _ (hQ s)).agree _ _ hagree

theorem Within.bind' {f : σ → σ × β} {k : β → σ → σ × δ} (hf : Within cell rest B f)
    (hk : ∀ x, Within cell rest B (k x)) : Within cell rest B fun s => k (f s).2 (f s).1 :=
  hf.bind (Q := fun _ => True) (fun _ => trivial) fun x _ => hk x

/-- A program that runs `f` and then `k` on what `f` gives. -/
theorem Within.seq {f : σ → σ × β} {k : β → σ → σ × δ} {m : σ → σ × δ} {Q : β → Prop}
    (hf : Within cell rest B f) (hQ : ∀ s r, f s = r → Q r.2)
    (hk : ∀ x, Q x → Within cell rest B (k x)) (hm : ∀ s r, f s = r → m s = k r.2 r.1) :
    Within cell rest B m :=
  (hf.bind (fun s => hQ s _ rfl) hk).congr fun s => hm s _ rfl

theorem Within.seq' {f : σ → σ × β} {k : β → σ → σ × δ} {m : σ → σ × δ}
    (hf : Within cell rest B f) (hk : ∀ x, Within cell rest B (k x))
    (hm : ∀ s r, f s = r → m s = k r.2 r.1) : Within cell rest B m :=
  hf.seq (Q := fun _ => True) (fun _ _ _ => trivial) (fun x _ => hk x) hm

theorem Within.map {f : σ → σ × β} (hf : Within cell rest B f) (v : β → δ) :
    Within cell rest B fun s => ((f s).1, v (f s).2) :=
  Within.bind' (k := fun x s => (s, v x)) hf fun _ => Within.pure _

theorem Within.ite {p : Prop} [Decidable p] {f k : σ → σ × β}
    (hf : p → Within cell rest B f) (hk : ¬ p → Within cell rest B k) :
    Within cell rest B fun s => if p then f s else k s := by
  split
  · next h => exact hf h
  · next h => exact hk h

end Footprint
