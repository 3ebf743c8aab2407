import Novo7.BootScript

/-!
# Runs of the script parsers

The two parsers share their loop: a line is read, it changes what the parser holds or is rejected,
and the script goes on behind it. A run is described as the lines that the parser gets over, and the
reason why it stops behind the last of them. `returns_iff` connects this to the loop, which has a
bound on its rounds only because a script need not end.
-/

namespace Novo7

/-- What differs between the parsers. -/
structure ScriptParser (σ ρ : Type) where
  /-- a line, `none` where the parser returns -1 -/
  line : σ → ScriptLine → Option σ
  /-- the variable that is shifted for the result -/
  var7 : σ → Int
  /-- what is left at the end of the script -/
  finished : σ → ρ
  /-- what is left where the parser stops before -/
  stopped : σ → ρ
  /-- a parameter leaves the type of its value -/
  param_var7 : ∀ {s s' name val}, line s (.param name val) = some s' → var7 s' = 1 ∨ var7 s' = 2
  /-- other lines leave the variable alone -/
  comment_var7 : ∀ {s s'}, line s .comment = some s' → var7 s' = var7 s
  sect_var7 : ∀ {s s' name}, line s (.sect name) = some s' → var7 s' = var7 s

/-- The parser between two lines. -/
structure ScriptAt (σ : Type) where
  pos : Nat
  size : Int
  s : σ

variable {σ ρ : Type} (P : ScriptParser σ ρ) (mem : Nat → UInt8)

/-- `while(scriptSize != 0)`, with what is returned and what is left; `none` when it does not
end. -/
def parserLoop (fuel : Nat) : Nat → ScriptAt σ → Option (Int × ρ)
  | 0, _ => none
  | left + 1, c =>
    if c.size = 0 then some (P.var7 c.s / 2 ^ 31, P.finished c.s)
    else
      match readLine mem fuel c.pos c.size with
      | .endless => none
      | .bad => some (P.var7 c.s / 2 ^ 31, P.stopped c.s)
      | .line l n =>
        match P.line c.s l with
        | none => some (-1, P.stopped c.s)
        | some s' => parserLoop fuel left ⟨c.pos + n, c.size - n, s'⟩

/-- The parser returns with this. -/
def ParserReturns (c : ScriptAt σ) (v : Int) (b : ρ) : Prop :=
  ∃ fuel, parserLoop P mem fuel fuel c = some (v, b)

/-! ## Lines -/

/-- What is read at a place, if reading ends. -/
def ReadsLine (pos : Nat) (size : Int) (r : ReadLine) : Prop :=
  r ≠ .endless ∧ ∃ fuel, readLine mem fuel pos size = r

/-- The parser gets over these lines. -/
inductive Steps : ScriptAt σ → List ScriptLine → ScriptAt σ → Prop
  | refl (c : ScriptAt σ) : Steps c [] c
  | step {c c' : ScriptAt σ} {l : ScriptLine} {n : Nat} {s' : σ} {ls : List ScriptLine}
      (hsize : c.size ≠ 0) (hread : ReadsLine mem c.pos c.size (.line l n))
      (hline : P.line c.s l = some s') (hrest : Steps ⟨c.pos + n, c.size - n, s'⟩ ls c') :
      Steps c (l :: ls) c'

/-- The next line is overlong, or its value is. -/
def StopsBad (c : ScriptAt σ) : Prop := c.size ≠ 0 ∧ ReadsLine mem c.pos c.size .bad

/-- The next line is rejected by the parser. -/
def StopsRejected (c : ScriptAt σ) : Prop :=
  c.size ≠ 0 ∧ ∃ l n, ReadsLine mem c.pos c.size (.line l n) ∧ P.line c.s l = none

/-- The parser stops, with this result. -/
inductive StopsWith (c : ScriptAt σ) : Int → ρ → Prop
  | whole (h : c.size = 0) : StopsWith c (P.var7 c.s / 2 ^ 31) (P.finished c.s)
  | bad (h : StopsBad mem c) : StopsWith c (P.var7 c.s / 2 ^ 31) (P.stopped c.s)
  | rejected (h : StopsRejected P mem c) : StopsWith c (-1) (P.stopped c.s)

/-- A line with a value. -/
def ScriptLine.IsParam : ScriptLine → Prop
  | .param _ _ => True
  | _ => False

/-! ## More rounds -/

section Fuel

variable {mem}

/-- A round that returns at once does so with more rounds, too. -/
theorem ite_some_mono {α : Type} {c : Prop} [Decidable c] {a x y : Option α} {r : α}
    (h : (if c then a else x) = some r) (hxy : x = some r → y = some r) :
    (if c then a else y) = some r := by
  by_cases hc : c
  · rwa [if_pos hc] at h ⊢
  · rw [if_neg hc] at h ⊢
    exact hxy h

theorem paramNameLoop_mono {fuel fuel' pos n : Nat} {p : List UInt8 × Nat} (hle : fuel ≤ fuel')
    (h : paramNameLoop mem fuel pos n = some p) : paramNameLoop mem fuel' pos n = some p := by
  induction fuel generalizing fuel' pos n p with
  | zero => cases h
  | succ fuel ih =>
      obtain ⟨k, rfl⟩ : ∃ k, fuel' = k + 1 := ⟨fuel' - 1, by omega⟩
      unfold paramNameLoop at h ⊢
      refine ite_some_mono h fun h => ite_some_mono h fun h => ?_
      obtain ⟨q, hq, rfl⟩ := Option.map_eq_some_iff.mp h
      rw [ih (by omega) hq]
      rfl

theorem findEquals_mono {fuel fuel' pos p : Nat} (hle : fuel ≤ fuel')
    (h : findEquals mem fuel pos = some p) : findEquals mem fuel' pos = some p := by
  induction fuel generalizing fuel' pos with
  | zero => cases h
  | succ fuel ih =>
      obtain ⟨k, rfl⟩ : ∃ k, fuel' = k + 1 := ⟨fuel' - 1, by omega⟩
      unfold findEquals at h ⊢
      exact ite_some_mono h fun h => ih (by omega) h

theorem paramValLoop_mono {fuel fuel' pos n : Nat} {v : Option (List UInt8)} (hle : fuel ≤ fuel')
    (h : paramValLoop mem fuel pos n = some v) : paramValLoop mem fuel' pos n = some v := by
  induction fuel generalizing fuel' pos n v with
  | zero => cases h
  | succ fuel ih =>
      obtain ⟨k, rfl⟩ : ∃ k, fuel' = k + 1 := ⟨fuel' - 1, by omega⟩
      unfold paramValLoop at h ⊢
      refine ite_some_mono h fun h => ite_some_mono h fun h => ?_
      obtain ⟨q, hq, rfl⟩ := Option.map_eq_some_iff.mp h
      rw [ih (by omega) hq]
      rfl

theorem getParam_mono {fuel fuel' pos : Nat} {r : Option (List UInt8 × List UInt8)}
    (hle : fuel ≤ fuel') (h : getParam mem fuel pos = some r) :
    getParam mem fuel' pos = some r := by
  unfold getParam at h ⊢
  obtain ⟨⟨name, p⟩, hname, h⟩ := Option.bind_eq_some_iff.mp h
  obtain ⟨e, hequals, h⟩ := Option.bind_eq_some_iff.mp h
  obtain ⟨v, hval, h⟩ := Option.bind_eq_some_iff.mp h
  rw [paramNameLoop_mono hle hname]
  show (findEquals mem fuel' p >>= _) = _
  rw [findEquals_mono hle hequals]
  show (paramValLoop mem fuel' (e + 1) 0 >>= _) = _
  rw [paramValLoop_mono hle hval]
  exact h

/-- What is read does not depend on the bound. -/
theorem readLine_mono {fuel fuel' pos : Nat} {size : Int} {r : ReadLine} (hle : fuel ≤ fuel')
    (h : readLine mem fuel pos size = r) (hr : r ≠ .endless) :
    readLine mem fuel' pos size = r := by
  unfold readLine at h ⊢
  split at h
  · exact h
  · exact h
  · exact h
  · cases hparam : getParam mem fuel pos with
    | none =>
        rw [hparam] at h
        exact absurd h.symm hr
    | some p =>
        rw [hparam] at h
        rw [getParam_mono hle hparam]
        exact h

theorem ReadsLine.unique {pos : Nat} {size : Int} {r r' : ReadLine} (h : ReadsLine mem pos size r)
    (h' : ReadsLine mem pos size r') : r = r' := by
  obtain ⟨hr, fuel, h⟩ := h
  obtain ⟨hr', fuel', h'⟩ := h'
  rw [← readLine_mono (Nat.le_max_left fuel fuel') h hr, ←
    readLine_mono (Nat.le_max_right fuel fuel') h' hr']

end Fuel

/-! ## The loop -/

section Loop

variable {P mem}

/-- A round over a line. -/
theorem parserLoop_line {fuel left n : Nat} {c : ScriptAt σ} {l : ScriptLine} {s' : σ}
    (hsize : c.size ≠ 0) (hread : readLine mem fuel c.pos c.size = .line l n)
    (hline : P.line c.s l = some s') : parserLoop P mem fuel (left + 1) c =
      parserLoop P mem fuel left ⟨c.pos + n, c.size - n, s'⟩ := by
  rw [parserLoop, if_neg hsize, hread]
  dsimp only
  rw [hline]

theorem parserLoop_run {fuel : Nat} {v : Int} {b : ρ} : ∀ {left : Nat} {c : ScriptAt σ},
    parserLoop P mem fuel left c = some (v, b) →
    ∃ ls c', Steps P mem c ls c' ∧ StopsWith P mem c' v b := by
  intro left
  induction left with
  | zero =>
      intro c h
      cases h
  | succ left ih =>
      intro c h
      by_cases hsize : c.size = 0
      · rw [parserLoop, if_pos hsize] at h
        cases h
        exact ⟨[], c, .refl c, .whole hsize⟩
      cases hread : readLine mem fuel c.pos c.size with
      | endless =>
          rw [parserLoop, if_neg hsize, hread] at h
          cases h
      | bad =>
          rw [parserLoop, if_neg hsize, hread] at h
          cases h
          exact ⟨[], c, .refl c, .bad ⟨hsize, nofun, fuel, hread⟩⟩
      | line l n =>
          have hreads : ReadsLine mem c.pos c.size (.line l n) := ⟨nofun, fuel, hread⟩
          cases hline : P.line c.s l with
          | none =>
              rw [parserLoop, if_neg hsize, hread] at h
              dsimp only at h
              rw [hline] at h
              cases h
              exact ⟨[], c, .refl c, .rejected ⟨hsize, l, n, hreads, hline⟩⟩
          | some s' =>
              rw [parserLoop_line hsize hread hline] at h
              obtain ⟨ls, c', hsteps, hstops⟩ := ih h
              exact ⟨l :: ls, c', .step hsize hreads hline hsteps, hstops⟩

/-- A run that stops is found with every bound that is large enough. -/
theorem Steps.returns {c c' : ScriptAt σ} {ls : List ScriptLine} {v : Int} {b : ρ}
    (h : Steps P mem c ls c') (hstops : StopsWith P mem c' v b) :
    ∃ bound, ∀ fuel left, bound ≤ fuel → bound ≤ left →
      parserLoop P mem fuel left c = some (v, b) := by
  induction h with
  | refl c =>
      cases hstops with
      | whole hsize =>
          refine ⟨1, fun fuel left _ hleft => ?_⟩
          obtain ⟨k, rfl⟩ : ∃ k, left = k + 1 := ⟨left - 1, by omega⟩
          rw [parserLoop, if_pos hsize]
      | bad h =>
          obtain ⟨hsize, hr, fuel₀, hread⟩ := h
          refine ⟨fuel₀ + 1, fun fuel left hfuel hleft => ?_⟩
          obtain ⟨k, rfl⟩ : ∃ k, left = k + 1 := ⟨left - 1, by omega⟩
          rw [parserLoop, if_neg hsize, readLine_mono (by omega) hread hr]
      | rejected h =>
          obtain ⟨hsize, l, n, ⟨hr, fuel₀, hread⟩, hline⟩ := h
          refine ⟨fuel₀ + 1, fun fuel left hfuel hleft => ?_⟩
          obtain ⟨k, rfl⟩ : ∃ k, left = k + 1 := ⟨left - 1, by omega⟩
          rw [parserLoop, if_neg hsize, readLine_mono (by omega) hread hr]
          dsimp only
          rw [hline]
  | step hsize hread hline _ ih =>
      obtain ⟨bound, ih⟩ := ih hstops
      obtain ⟨hr, fuel₀, hread⟩ := hread
      refine ⟨max fuel₀ bound + 1, fun fuel left hfuel hleft => ?_⟩
      obtain ⟨k, rfl⟩ : ∃ k, left = k + 1 := ⟨left - 1, by omega⟩
      rw [parserLoop_line hsize (readLine_mono (by omega) hread hr) hline]
      exact ih fuel k (by omega) (by omega)

/-- The parser returns what its run stops with. -/
theorem returns_iff {c : ScriptAt σ} {v : Int} {b : ρ} : ParserReturns P mem c v b ↔
    ∃ ls c', Steps P mem c ls c' ∧ StopsWith P mem c' v b := by
  constructor
  · rintro ⟨fuel, h⟩
    exact parserLoop_run h
  · rintro ⟨ls, c', hsteps, hstops⟩
    obtain ⟨bound, h⟩ := hsteps.returns hstops
    exact ⟨bound, h bound bound (Nat.le_refl _) (Nat.le_refl _)⟩

/-! ## Invariants -/

/-- A line more. -/
theorem Steps.snoc {c c' : ScriptAt σ} {ls : List ScriptLine} (h : Steps P mem c ls c')
    {l : ScriptLine} {n : Nat} {s' : σ} (hsize : c'.size ≠ 0)
    (hread : ReadsLine mem c'.pos c'.size (.line l n)) (hline : P.line c'.s l = some s') :
    Steps P mem c (ls ++ [l]) ⟨c'.pos + n, c'.size - n, s'⟩ := by
  induction h with
  | refl c => exact .step hsize hread hline (.refl _)
  | step hsize₁ hread₁ hline₁ _ ih => exact .step hsize₁ hread₁ hline₁ (ih hsize hread hline)

/-- What holds at the beginning and is kept by every line that a run gets over. -/
theorem Steps.invariant {I : List ScriptLine → ScriptAt σ → Prop} {c : ScriptAt σ} (hstart : I [] c)
    (hline : ∀ ls c' l n s', Steps P mem c ls c' → I ls c' → c'.size ≠ 0 →
      ReadsLine mem c'.pos c'.size (.line l n) → P.line c'.s l = some s' →
      I (ls ++ [l]) ⟨c'.pos + n, c'.size - n, s'⟩) {ls : List ScriptLine} {c' : ScriptAt σ}
    (h : Steps P mem c ls c') : I ls c' := by
  have hfrom {pre ls : List ScriptLine} {c₁ c' : ScriptAt σ} (h : Steps P mem c₁ ls c') :
      Steps P mem c pre c₁ → I pre c₁ → I (pre ++ ls) c' := by
    induction h generalizing pre with
    | refl c₁ =>
        intro _ hpre
        rw [List.append_nil]
        exact hpre
    | @step c₁ c' l n s' ls hsize hread hl hrest ih =>
        intro hsteps hpre
        rw [List.append_cons]
        exact ih (hsteps.snoc hsize hread hl) (hline _ _ _ _ _ hsteps hpre hsize hread hl)
  exact hfrom h (.refl c) hstart

/-! ## Where a run stops -/

/-- The parser does not go on. -/
inductive Stopped (P : ScriptParser σ ρ) (mem : Nat → UInt8) (c : ScriptAt σ) : Prop
  | whole (h : c.size = 0)
  | bad (h : StopsBad mem c)
  | rejected (h : StopsRejected P mem c)

theorem StopsWith.stopped {c : ScriptAt σ} {v : Int} {b : ρ} (h : StopsWith P mem c v b) :
    Stopped P mem c := by
  cases h with
  | whole h => exact .whole h
  | bad h => exact .bad h
  | rejected h => exact .rejected h

theorem Stopped.not_line {c : ScriptAt σ} (h : Stopped P mem c) {l : ScriptLine} {n : Nat} {s' : σ}
    (hsize : c.size ≠ 0) (hread : ReadsLine mem c.pos c.size (.line l n)) :
    P.line c.s l ≠ some s' := by
  intro hline
  cases h with
  | whole h => exact hsize h
  | bad h => cases h.2.unique hread
  | rejected h =>
      obtain ⟨-, l', n', hread', hnone⟩ := h
      cases hread'.unique hread
      rw [hline] at hnone
      cases hnone

/-- There is one way for a run to stop. -/
theorem Steps.unique {c c₁ c₂ : ScriptAt σ} {ls₁ ls₂ : List ScriptLine}
    (h₁ : Steps P mem c ls₁ c₁) (hstop₁ : Stopped P mem c₁) (h₂ : Steps P mem c ls₂ c₂)
    (hstop₂ : Stopped P mem c₂) : ls₁ = ls₂ ∧ c₁ = c₂ := by
  induction h₁ generalizing ls₂ with
  | refl c =>
      cases h₂ with
      | refl => exact ⟨rfl, rfl⟩
      | step hsize hread hline _ => exact absurd hline (hstop₁.not_line hsize hread)
  | step hsize hread hline _ ih =>
      cases h₂ with
      | refl => exact absurd hline (hstop₂.not_line hsize hread)
      | step hsize' hread' hline' hrest' =>
          cases hread.unique hread'
          cases hline.symm.trans hline'
          obtain ⟨rfl, hc⟩ := ih hstop₁ hrest'
          exact ⟨rfl, hc⟩

/-- The variable tells whether there was a parameter. -/
theorem Steps.var7 {c c' : ScriptAt σ} {ls : List ScriptLine} (h : Steps P mem c ls c') :
    ((∃ l ∈ ls, l.IsParam) → P.var7 c'.s = 1 ∨ P.var7 c'.s = 2) ∧
      ((∀ l ∈ ls, ¬ l.IsParam) → P.var7 c'.s = P.var7 c.s) := by
  induction h with
  | refl c => exact ⟨fun ⟨_, hl, _⟩ => (List.not_mem_nil hl).elim, fun _ => rfl⟩
  | @step c c' l n s' ls hsize hread hline hrest ih =>
      have hmem (hno : ¬ ∃ l' ∈ ls, l'.IsParam) : ∀ l' ∈ ls, ¬ l'.IsParam :=
        fun l' hl' hp => hno ⟨l', hl', hp⟩
      have hother (hl : ¬ l.IsParam) : P.var7 s' = P.var7 c.s := by
        cases l with
        | comment => exact P.comment_var7 hline
        | sect name => exact P.sect_var7 hline
        | param name val => exact absurd trivial hl
      constructor
      · rintro ⟨l', hl', hp⟩
        by_cases hls : ∃ l' ∈ ls, l'.IsParam
        · exact ih.1 hls
        · rw [ih.2 (hmem hls)]
          rcases List.mem_cons.mp hl' with rfl | hl'
          · cases l' with
            | comment => exact hp.elim
            | sect name => exact hp.elim
            | param name val => exact P.param_var7 hline
          · exact absurd hp (hmem hls l' hl')
      · intro hls
        rw [ih.2 fun l' hl' => hls l' (List.mem_cons_of_mem _ hl'),
          hother (hls l (List.mem_cons_self ..))]

end Loop

end Novo7
