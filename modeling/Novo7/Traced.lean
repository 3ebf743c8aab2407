import Mathlib.Logic.Function.Basic
import Mathlib.Order.Defs.Unbundled

/-!
# Programs with error exits and a trace

A program of a driver works on a state, may give up with an error code, and on its way
passes points that matter to somebody else: an operation on the hardware, a branch that
is only taken when something has gone wrong. `Prog ε σ α` is such a program. It leaves a
*trace* of events `ε`; the events are no part of the state and no program can read them.

`WP C m Q F s` is the weakest precondition: started in `s`, the program `m` ends in `Q` when
it returns and in `F` when it gives up, and every event it leaves is `noted` - provided every
event it leaves is `allowed`. The two predicates on events make a `Contract`: what a run is
assumed not to pass, and what is promised about the points it does pass. Both are about
single events, so the rule for sequencing needs no side condition.

There is one rule for each construct; loops come in two forms, `forRange` with an invariant
indexed by the round, and `iterate` with an invariant and a variant. `Preserves` is the special case
of a relation between start and end that needs no precondition: a *frame*. Its rules have no side
condition at all.
-/

namespace Traced

/-! ## Programs -/

/-- How a program ends: it returns, or it gives up with an error code. -/
inductive Outcome (σ α : Type) where
  | ret (a : α) (s : σ)
  | err (e : Int) (s : σ)

def Outcome.state {σ α : Type} : Outcome σ α → σ
  | .ret _ s => s
  | .err _ s => s

/-- A program: from a state to an outcome and the events on the way. -/
def Prog (ε σ α : Type) : Type := σ → Outcome σ α × List ε

section Programs

variable {ε σ α β : Type}

/-- Continue after an outcome, with one program for each way to end. -/
def Outcome.andThen (o : Outcome σ α × List ε) (f : α → Prog ε σ β) (h : Int → Prog ε σ β) :
    Outcome σ β × List ε :=
  match o with
  | (.ret a s, es) => ((f a s).1, es ++ (f a s).2)
  | (.err e s, es) => ((h e s).1, es ++ (h e s).2)

/-- Give up. -/
def fail (e : Int) : Prog ε σ α := fun s => (.err e s, [])

instance : Monad (Prog ε σ) where
  pure a := fun s => (.ret a s, [])
  bind m f := fun s => Outcome.andThen (m s) f fail

/-- Run `m`; when it gives up, go on with `h`. -/
def orElse (m : Prog ε σ α) (h : Int → Prog ε σ α) : Prog ε σ α :=
  fun s => Outcome.andThen (m s) pure h

def get : Prog ε σ σ := fun s => (.ret s s, [])

def modify (f : σ → σ) : Prog ε σ Unit := fun s => (.ret () (f s), [])

/-- Leave an event in the trace. -/
def emit (e : ε) : Prog ε σ Unit := fun s => (.ret () s, [e])

/-- Run `m` only if `c`. -/
def when (c : Prop) [Decidable c] (m : Prog ε σ Unit) : Prog ε σ Unit :=
  if c then m else pure ()

/-- Give up with `e` if `c`. -/
def failIf (c : Prop) [Decidable c] (e : Int) : Prog ε σ Unit :=
  if c then fail e else pure ()

/-- `f i`, `f (i + 1)`, … for `n` rounds. -/
def forFrom (f : Nat → Prog ε σ Unit) : Nat → Nat → Prog ε σ Unit
  | _, 0 => pure ()
  | i, n + 1 => do
    f i
    forFrom f (i + 1) n

/-- `for (i = 0; i < n; i++) f(i)`. -/
def forRange (n : Nat) (f : Nat → Prog ε σ Unit) : Prog ε σ Unit := forFrom f 0 n

/-- Rounds of `step`, each handing over to the next (`Sum.inl`) or leaving the loop
(`Sum.inr`). When the fuel is used up the program gives up. -/
def iterate {τ : Type} (step : τ → Prog ε σ (τ ⊕ α)) : Nat → τ → Prog ε σ α
  | 0, _ => fail (-1)
  | fuel + 1, x => do
    match ← step x with
    | .inl x' => iterate step fuel x'
    | .inr a => pure a

end Programs

/-! ## Weakest preconditions -/

/-- What a run is assumed not to pass, and what is promised about what it passes. -/
structure Contract (ε : Type) where
  allowed : ε → Prop
  noted : ε → Prop

/-- What an outcome has to satisfy. -/
def Outcome.Ends {σ α : Type} (o : Outcome σ α) (Q : α → σ → Prop) (F : Int → σ → Prop) :
    Prop :=
  match o with
  | .ret a s => Q a s
  | .err e s => F e s

/-- The weakest precondition of `m` for the ends `Q` and `F` under the contract `C`. -/
def WP {ε σ α : Type} (C : Contract ε) (m : Prog ε σ α) (Q : α → σ → Prop)
    (F : Int → σ → Prop) (s : σ) : Prop :=
  (∀ e ∈ (m s).2, C.allowed e) → (∀ e ∈ (m s).2, C.noted e) ∧ (m s).1.Ends Q F

section Rules

variable {ε σ α β : Type} {C : Contract ε} {Q Q' : α → σ → Prop} {F F' : Int → σ → Prop}
  {s : σ}

theorem Outcome.Ends.mono {o : Outcome σ α} (h : o.Ends Q F) (hQ : ∀ a s, Q a s → Q' a s)
    (hF : ∀ e s, F e s → F' e s) : o.Ends Q' F' := by
  cases o with
  | ret a s => exact hQ a s h
  | err e s => exact hF e s h

theorem WP.mono {m : Prog ε σ α} (h : WP C m Q F s) (hQ : ∀ a s, Q a s → Q' a s)
    (hF : ∀ e s, F e s → F' e s) : WP C m Q' F' s := by
  intro hes
  obtain ⟨hnoted, hends⟩ := h hes
  exact ⟨hnoted, hends.mono hQ hF⟩

theorem WP.imp {m : Prog ε σ α} (h : WP C m Q F s) (hQ : ∀ a s, Q a s → Q' a s) :
    WP C m Q' F s :=
  h.mono hQ fun _ _ he => he

theorem WP.pure {a : α} (h : Q a s) : WP C (pure a : Prog ε σ α) Q F s :=
  fun _ => ⟨fun _ he => absurd he List.not_mem_nil, h⟩

theorem WP.fail {e : Int} (h : F e s) : WP C (fail e : Prog ε σ α) Q F s :=
  fun _ => ⟨fun _ he => absurd he List.not_mem_nil, h⟩

theorem WP.get {Q : σ → σ → Prop} (h : Q s s) : WP C (get : Prog ε σ σ) Q F s :=
  fun _ => ⟨fun _ he => absurd he List.not_mem_nil, h⟩

theorem WP.modify {f : σ → σ} {Q : Unit → σ → Prop} (h : Q () (f s)) :
    WP C (modify f : Prog ε σ Unit) Q F s :=
  fun _ => ⟨fun _ he => absurd he List.not_mem_nil, h⟩

theorem WP.emit {e : ε} {Q : Unit → σ → Prop} (h : C.allowed e → C.noted e ∧ Q () s) :
    WP C (emit e : Prog ε σ Unit) Q F s := by
  intro hes
  obtain ⟨hn, hq⟩ := h (hes e (List.mem_singleton.mpr rfl))
  refine ⟨fun e' he' => ?_, hq⟩
  rw [List.mem_singleton.mp he']
  exact hn

/-- Sequencing after either way to end. -/
theorem WP.andThen {m : Prog ε σ α} {f : α → Prog ε σ β} {h : Int → Prog ε σ β}
    {R : β → σ → Prop}
    (hm : WP C m (fun a s' => WP C (f a) R F s') (fun e s' => WP C (h e) R F s') s) :
    WP C (fun s => Outcome.andThen (m s) f h) R F s := by
  unfold WP at hm ⊢
  dsimp only
  rcases hms : m s with ⟨o, es⟩
  rw [hms] at hm
  dsimp only at hm
  intro hes
  cases o with
  | ret a s' =>
      simp only [Outcome.andThen, List.mem_append] at hes ⊢
      obtain ⟨hn, hends⟩ := hm fun e he => hes e (Or.inl he)
      obtain ⟨hn', hends'⟩ := hends fun e he => hes e (Or.inr he)
      exact ⟨fun e he => he.elim (hn e) (hn' e), hends'⟩
  | err e s' =>
      simp only [Outcome.andThen, List.mem_append] at hes ⊢
      obtain ⟨hn, hends⟩ := hm fun e he => hes e (Or.inl he)
      obtain ⟨hn', hends'⟩ := hends fun e he => hes e (Or.inr he)
      exact ⟨fun e he => he.elim (hn e) (hn' e), hends'⟩

theorem WP.bind {m : Prog ε σ α} {f : α → Prog ε σ β} {R : β → σ → Prop}
    (hm : WP C m (fun a s' => WP C (f a) R F s') F s) : WP C (m >>= f) R F s :=
  WP.andThen (hm.mono (fun _ _ h => h) fun _ _ h => WP.fail h)

theorem WP.orElse {m : Prog ε σ α} {h : Int → Prog ε σ α}
    (hm : WP C m Q (fun e s' => WP C (h e) Q F s') s) : WP C (orElse m h) Q F s :=
  WP.andThen (hm.mono (fun _ _ h => WP.pure h) fun _ _ h => h)

theorem WP.when {c : Prop} [Decidable c] {m : Prog ε σ Unit} {Q : Unit → σ → Prop}
    (hc : c → WP C m Q F s) (hn : ¬c → Q () s) : WP C (when c m) Q F s := by
  unfold Traced.when
  split
  · exact hc ‹_›
  · exact WP.pure (hn ‹_›)

theorem WP.failIf {c : Prop} [Decidable c] {e : Int} {Q : Unit → σ → Prop} (hc : c → F e s)
    (hn : ¬c → Q () s) : WP C (failIf c e : Prog ε σ Unit) Q F s := by
  unfold Traced.failIf
  split
  · exact WP.fail (hc ‹_›)
  · exact WP.pure (hn ‹_›)

theorem WP.ite {c : Prop} [Decidable c] {m m' : Prog ε σ α} (hc : c → WP C m Q F s)
    (hn : ¬c → WP C m' Q F s) : WP C (if c then m else m') Q F s := by
  split
  · exact hc ‹_›
  · exact hn ‹_›

theorem WP.forFrom {f : Nat → Prog ε σ Unit} {I : Nat → σ → Prop} :
    ∀ {n i : Nat} {s : σ},
      (∀ j s, i ≤ j → j < i + n → I j s → WP C (f j) (fun _ => I (j + 1)) F s) →
      I i s → WP C (forFrom f i n) (fun _ => I (i + n)) F s
  | 0, _, _, _, h => WP.pure h
  | n + 1, i, s, hf, h => by
      refine WP.bind ((hf i s (Nat.le_refl i) (by omega) h).imp fun _ s' h' => ?_)
      have hrest := WP.forFrom (n := n) (s := s') (fun j t hj hjn => hf j t (by omega) (by omega)) h'
      rwa [show i + 1 + n = i + (n + 1) by omega] at hrest

/-- A counting loop keeps what each round hands on. -/
theorem WP.forRange {n : Nat} {f : Nat → Prog ε σ Unit} {I : Nat → σ → Prop}
    (hf : ∀ i s, i < n → I i s → WP C (f i) (fun _ => I (i + 1)) F s) (h : I 0 s) :
    WP C (forRange n f) (fun _ => I n) F s := by
  have hrun := WP.forFrom (n := n) (i := 0) (s := s) (fun j t _ hj => hf j t (by omega)) h
  rwa [Nat.zero_add] at hrun

/-- What one round must do: hand over with a smaller variant, or leave the loop in `Q`. -/
def RoundOK {τ : Type} (I : τ → Nat → σ → Prop) (Q : α → σ → Prop) (n : Nat) :
    τ ⊕ α → σ → Prop
  | .inl x, s => ∃ n' < n, I x n' s
  | .inr a, s => Q a s

/-- A loop with an invariant, a variant and enough fuel leaves in `Q`. -/
theorem WP.iterate {τ : Type} {step : τ → Prog ε σ (τ ⊕ α)} {I : τ → Nat → σ → Prop}
    (hstep : ∀ x n s, I x n s → WP C (step x) (RoundOK I Q n) F s) :
    ∀ {fuel n : Nat} {x : τ} {s : σ}, n < fuel → I x n s → WP C (iterate step fuel x) Q F s
  | 0, _, _, _, hfuel, _ => absurd hfuel (Nat.not_lt_zero _)
  | fuel + 1, n, x, s, hfuel, h => by
      refine WP.bind ((hstep x n s h).imp fun r s' hr => ?_)
      cases r with
      | inl x' =>
          obtain ⟨n', hn', h'⟩ := hr
          exact WP.iterate hstep (by omega) h'
      | inr a => exact WP.pure hr

/-- A loop with an invariant that is good enough for its failure. -/
theorem WP.iterate_inv {τ : Type} {step : τ → Prog ε σ (τ ⊕ α)} {I : τ → σ → Prop}
    (hstep : ∀ x s, I x s → WP C (step x) (fun r s' => r.elim (I · s') (Q · s')) F s)
    (hout : ∀ x s, I x s → F (-1) s) :
    ∀ {fuel : Nat} {x : τ} {s : σ}, I x s → WP C (Traced.iterate step fuel x) Q F s
  | 0, _, _, h => WP.fail (hout _ _ h)
  | fuel + 1, x, s, h => by
      refine WP.bind ((hstep x s h).imp fun r s' hr => ?_)
      cases r with
      | inl x' => exact WP.iterate_inv hstep hout hr
      | inr a => exact WP.pure hr

end Rules

/-! ## Runs -/

section Runs

variable {ε σ ι : Type} {C : Contract ε} {prog : ι → Prog ε σ Unit} {pre : ι → σ → Prop}
  {s₀ s : σ}

/-- The states that operations lead to, one after the other, whether they succeed or give up.
Each operation is started where `pre` holds and passes only what is allowed. -/
inductive Reach (C : Contract ε) (prog : ι → Prog ε σ Unit) (pre : ι → σ → Prop) (s₀ : σ) :
    σ → Prop
  | start : Reach C prog pre s₀ s₀
  | step {s : σ} (i : ι) (h : Reach C prog pre s₀ s) (hpre : pre i s)
      (hes : ∀ e ∈ (prog i s).2, C.allowed e) : Reach C prog pre s₀ (prog i s).1.state

theorem Outcome.Ends.both {o : Outcome σ Unit} {I : σ → Prop}
    (h : o.Ends (fun _ => I) fun _ => I) : I o.state := by
  cases o with
  | ret a s => exact h
  | err e s => exact h

/-- What every operation preserves holds in every state that is reached. -/
theorem Reach.inv {I : σ → Prop}
    (hI : ∀ i s, pre i s → I s → WP C (prog i) (fun _ => I) (fun _ => I) s) (h₀ : I s₀)
    (h : Reach C prog pre s₀ s) : I s := by
  induction h with
  | start => exact h₀
  | step i h hpre hes ih => exact (hI i _ hpre ih hes).2.both

/-- What every operation promises about its events holds of all that a run passes. -/
theorem Reach.noted {I : σ → Prop}
    (hI : ∀ i s, pre i s → I s → WP C (prog i) (fun _ => I) (fun _ => I) s) (h₀ : I s₀)
    (h : Reach C prog pre s₀ s) {i : ι} (hpre : pre i s)
    (hes : ∀ e ∈ (prog i s).2, C.allowed e) : ∀ e ∈ (prog i s).2, C.noted e :=
  (hI i s hpre (h.inv hI h₀) hes).1

end Runs

/-! ## Frames -/

/-- Whatever `m` does, it ends in a state that `R` relates to the one it has started in. -/
def Preserves {ε σ α : Type} (C : Contract ε) (R : σ → σ → Prop) (m : Prog ε σ α) : Prop :=
  ∀ s, WP C m (fun _ => R s) (fun _ => R s) s

namespace Preserves

variable {ε σ α β : Type} {C : Contract ε} {R R' : σ → σ → Prop} {m : Prog ε σ α}

theorem wp {Q : α → σ → Prop} {F : Int → σ → Prop} {s : σ} (h : Preserves C R m)
    (hQ : ∀ a s', R s s' → Q a s') (hF : ∀ e s', R s s' → F e s') : WP C m Q F s :=
  (h s).mono hQ hF

theorem weaken (h : Preserves C R m) (hR : ∀ s s', R s s' → R' s s') : Preserves C R' m := fun s =>
  (h s).mono (fun _ s' => hR s s') fun _ s' => hR s s'

theorem modify {f : σ → σ} (h : ∀ s, R s (f s)) : Preserves C R (modify f : Prog ε σ Unit) :=
  fun s => WP.modify (h s)

variable [Std.Refl R]

theorem pure (a : α) : Preserves C R (pure a : Prog ε σ α) := fun s => WP.pure (refl_of R s)

theorem fail (e : Int) : Preserves C R (fail e : Prog ε σ α) := fun s => WP.fail (refl_of R s)

theorem get : Preserves C R (get : Prog ε σ σ) := fun s => WP.get (refl_of R s)

theorem emit {e : ε} (h : C.noted e) : Preserves C R (emit e : Prog ε σ Unit) := fun s =>
  WP.emit fun _ => ⟨h, refl_of R s⟩

theorem failIf (c : Prop) [Decidable c] (e : Int) : Preserves C R (failIf c e : Prog ε σ Unit) :=
  fun s => WP.failIf (fun _ => refl_of R s) fun _ => refl_of R s

theorem when {c : Prop} [Decidable c] {m : Prog ε σ Unit} (h : c → Preserves C R m) :
    Preserves C R (when c m) := fun s =>
  WP.when (fun hc => h hc s) fun _ => refl_of R s

omit [Std.Refl R] in
theorem ite {c : Prop} [Decidable c] {m m' : Prog ε σ α} (h : c → Preserves C R m)
    (h' : ¬c → Preserves C R m') : Preserves C R (if c then m else m') := fun s =>
  WP.ite (fun hc => h hc s) fun hc => h' hc s

variable [IsTrans σ R]

omit [Std.Refl R] in
theorem bind {f : α → Prog ε σ β} (h : Preserves C R m) (hf : ∀ a, Preserves C R (f a)) :
    Preserves C R (m >>= f) := fun s =>
  WP.bind ((h s).imp fun a s' hr =>
    (hf a s').mono (fun _ _ => trans_of R hr) fun _ _ => trans_of R hr)

omit [Std.Refl R] in
theorem orElse {h : Int → Prog ε σ α} (hm : Preserves C R m) (hh : ∀ e, Preserves C R (h e)) :
    Preserves C R (orElse m h) := fun s =>
  WP.orElse ((hm s).mono (fun _ _ hr => hr) fun e s' hr =>
    (hh e s').mono (fun _ _ => trans_of R hr) fun _ _ => trans_of R hr)

theorem forRange {n : Nat} {f : Nat → Prog ε σ Unit} (h : ∀ i, Preserves C R (f i)) :
    Preserves C R (forRange n f) := fun s =>
  WP.forRange (I := fun _ => R s)
    (fun i s' _ hr => (h i s').mono (fun _ _ => trans_of R hr) fun _ _ => trans_of R hr)
    (refl_of R s)

theorem iterate {τ : Type} {step : τ → Prog ε σ (τ ⊕ α)} (h : ∀ x, Preserves C R (step x)) :
    ∀ (fuel : Nat) (x : τ), Preserves C R (iterate step fuel x)
  | 0, _ => Preserves.fail _
  | fuel + 1, x => Preserves.bind (h x) fun r => by
      cases r with
      | inl x' => exact Preserves.iterate h fuel x'
      | inr a => exact Preserves.pure a

end Preserves

end Traced
