import Mathlib.Logic.Relation

/-!
# Runs of a handler

A packet handler is a function from a state and an input to the next state and an output.
`final` and `outputs` are what a list of inputs does to it; both split at any point of the
list, which is all that a proof about a protocol needs: each command is followed on its own,
and the commands are then laid end to end.
-/

namespace Transducer

variable {σ ι ο : Type} (step : σ → ι → σ × ο)

/-- The state after a list of inputs. -/
def final : σ → List ι → σ
  | s, [] => s
  | s, i :: is => final (step s i).1 is

/-- The output for each input. -/
def outputs : σ → List ι → List ο
  | _, [] => []
  | s, i :: is => (step s i).2 :: outputs (step s i).1 is

@[simp] theorem final_nil (s : σ) : final step s [] = s := rfl

@[simp] theorem final_cons (s : σ) (i : ι) (is : List ι) :
    final step s (i :: is) = final step (step s i).1 is := rfl

@[simp] theorem outputs_nil (s : σ) : outputs step s [] = [] := rfl

@[simp] theorem outputs_cons (s : σ) (i : ι) (is : List ι) :
    outputs step s (i :: is) = (step s i).2 :: outputs step (step s i).1 is := rfl

theorem final_append (is js : List ι) :
    ∀ s, final step s (is ++ js) = final step (final step s is) js := by
  induction is with
  | nil => intro s; rfl
  | cons i is ih => intro s; exact ih _

theorem outputs_append (is js : List ι) :
    ∀ s, outputs step s (is ++ js) = outputs step s is ++ outputs step (final step s is) js := by
  induction is with
  | nil => intro s; rfl
  | cons i is ih => intro s; simp only [List.cons_append, outputs_cons, final_cons, ih]

/-- A condition on state and input that every step of a run meets. -/
def Along (P : σ → ι → Prop) : σ → List ι → Prop
  | _, [] => True
  | s, i :: is => P s i ∧ Along P (step s i).1 is

/-- What one step does with an invariant and its output, a run does with all of them. -/
theorem Along.outputs_forall {P : σ → ι → Prop} {I : σ → Prop} {Q : ο → Prop}
    (hstep : ∀ s i, I s → P s i → I (step s i).1 ∧ Q (step s i).2) :
    ∀ (is : List ι) (s : σ), I s → Along step P s is →
      I (final step s is) ∧ ∀ o ∈ outputs step s is, Q o
  | [], _, hs, _ => ⟨hs, fun _ ho => nomatch ho⟩
  | i :: is, s, hs, ⟨hi, his⟩ => by
      obtain ⟨hs', ho⟩ := hstep s i hs hi
      obtain ⟨hfin, hos⟩ := Along.outputs_forall hstep is _ hs' his
      exact ⟨hfin, List.forall_mem_cons.mpr ⟨ho, hos⟩⟩

/-- The same without a condition on the steps. -/
theorem outputs_forall {I : σ → Prop} {Q : ο → Prop}
    (hstep : ∀ s i, I s → I (step s i).1 ∧ Q (step s i).2) :
    ∀ (is : List ι) (s : σ), I s → I (final step s is) ∧ ∀ o ∈ outputs step s is, Q o
  | [], _, hs => ⟨hs, fun _ ho => nomatch ho⟩
  | i :: is, s, hs => by
      obtain ⟨hs', ho⟩ := hstep s i hs
      obtain ⟨hfin, hos⟩ := outputs_forall hstep is _ hs'
      exact ⟨hfin, List.forall_mem_cons.mpr ⟨ho, hos⟩⟩

/-- The first output of some kind, under an invariant that lasts until there is one. -/
theorem outputs_first {β : Type} {f : ο → Option β} {I : σ → Prop} {Q : β → Prop}
    (hstep : ∀ s i, I s →
      (f (step s i).2 = none → I (step s i).1) ∧ ∀ b, f (step s i).2 = some b → Q b) :
    ∀ (is : List ι) (s : σ), I s → ∀ b ∈ ((outputs step s is).filterMap f).head?, Q b
  | [], _, _, _, hb => nomatch hb
  | i :: is, s, hs, b, hb => by
      obtain ⟨hnone, hsome⟩ := hstep s i hs
      rw [outputs_cons, List.filterMap_cons] at hb
      split at hb
      · rename_i hf
        exact outputs_first hstep is _ (hnone hf) b hb
      · rename_i c hf
        cases hb
        exact hsome _ hf

end Transducer
