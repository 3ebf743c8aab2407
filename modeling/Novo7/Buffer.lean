import Mathlib.Logic.Function.Basic

/-!
# Buffers

A buffer of the firmware is a function from offsets to contents. `store buf off n src` is
what every copy loop and every `memcpy` amounts to: the `n` cells from `off` on take the
contents of `src`, all others keep theirs. The lemmas are the three a proof about copies
needs — what is inside, what is outside, and that copies laid end to end are one copy.
-/

namespace Buffer

variable {α : Type}

/-- `n` cells of `src` copied to offset `off`. -/
def store (buf : Nat → α) (off n : Nat) (src : Nat → α) : Nat → α :=
  fun i => if off ≤ i ∧ i < off + n then src (i - off) else buf i

variable {buf src src' : Nat → α} {off n m i : Nat}

theorem store_in (h1 : off ≤ i) (h2 : i < off + n) : store buf off n src i = src (i - off) :=
  if_pos ⟨h1, h2⟩

theorem store_out (h : i < off ∨ off + n ≤ i) : store buf off n src i = buf i :=
  if_neg (by omega)

@[simp] theorem store_zero : store buf off 0 src = buf := by
  funext i
  exact store_out (by omega)

/-- A copy only depends on the cells it copies. -/
theorem store_congr (h : ∀ i < n, src i = src' i) : store buf off n src = store buf off n src' := by
  funext i
  unfold store
  split
  · exact h _ (by omega)
  · rfl

/-- Two copies laid end to end are one. -/
theorem store_append :
    store (store buf off n src) (off + n) m src' =
      store buf off (n + m) fun i => if i < n then src i else src' (i - n) := by
  funext i
  unfold store
  by_cases h1 : off + n ≤ i ∧ i < off + n + m
  · have hin : off ≤ i ∧ i < off + (n + m) := by omega
    have hpast : ¬ i - off < n := by omega
    simp only [h1, hin, hpast, and_self, if_true, if_false, Nat.sub_sub]
  · rw [if_neg h1]
    by_cases h2 : off ≤ i ∧ i < off + n
    · have hin : off ≤ i ∧ i < off + (n + m) := by omega
      have hfirst : i - off < n := by omega
      simp only [h2, hin, hfirst, and_self, if_true]
    · rw [if_neg h2, if_neg (by omega)]

/-- One source copied in two parts. -/
theorem store_split :
    store (store buf off n src) (off + n) m (fun i => src (n + i)) = store buf off (n + m) src := by
  rw [store_append]
  refine store_congr fun i hi => ?_
  split
  · rfl
  · rw [Nat.add_sub_cancel' (by omega)]

/-- Writing back what the buffer held at the front of a copy shortens it from the front. -/
theorem store_keep_head (h : ∀ i < n, src i = buf (off + i)) :
    store buf off (n + m) src = store buf (off + n) m fun i => src (n + i) := by
  rw [← store_split]
  refine congrArg (store · _ _ _) (funext fun i => ?_)
  by_cases hi : off ≤ i ∧ i < off + n
  · rw [store_in hi.1 hi.2, h _ (by omega), Nat.add_sub_cancel' hi.1]
  · exact store_out (by omega)

/-- Writing back what the buffer held at the end of a copy shortens it from the end. -/
theorem store_keep_tail (h : ∀ i < m, src (n + i) = buf (off + n + i)) :
    store buf off (n + m) src = store buf off n src := by
  rw [← store_split]
  funext i
  by_cases hi : off + n ≤ i ∧ i < off + n + m
  · rw [store_in hi.1 hi.2, store_out (by omega), h _ (by omega), Nat.add_sub_cancel' hi.1]
  · exact store_out (by omega)

/-- A second copy next to a first one leaves the whole as it would be without it exactly when
it copies what is there. -/
theorem store_append_eq_iff (buf src src' : Nat → α) (off n m : Nat) :
    store (store buf off n src) (off + n) m src' = store buf off n src ↔
      ∀ i < m, src' i = buf (off + n + i) := by
  constructor
  · intro h i hi
    have := congrFun h (off + n + i)
    rw [store_in (by omega) (by omega), store_out (by omega)] at this
    rwa [Nat.add_sub_cancel_left] at this
  · intro h
    funext i
    by_cases hi : off + n ≤ i ∧ i < off + n + m
    · rw [store_in hi.1 hi.2, store_out (by omega), h _ (by omega), Nat.add_sub_cancel' hi.1]
    · exact store_out (by omega)

/-- A list stored behind another extends it. -/
theorem map_store_append {pre : List α} {d : α}
    (h : (List.range pre.length).map buf = pre) (p : List α) :
    (List.range (pre ++ p).length).map (store buf pre.length p.length fun i => p.getD i d) =
      pre ++ p := by
  refine List.ext_getElem (by simp) fun i hi₁ hi₂ => ?_
  rw [List.getElem_map, List.getElem_range]
  rcases Nat.lt_or_ge i pre.length with hlt | hge
  · rw [store_out (.inl hlt), List.getElem_append_left hlt]
    have := List.getElem_of_eq h (i := i) (by simpa using hlt)
    simpa using this
  · rw [List.length_append] at hi₂
    rw [store_in hge (by omega), List.getElem_append_right hge]
    rw [List.getD_eq_getElem?_getD, List.getElem?_eq_getElem (by omega)]
    rfl

/-! ## Single cells -/

section Puts

variable {ι : Type} [DecidableEq ι] {f : ι → α} {cells more : List (ι × α)} {k : ι}

/-- Single cells stored one after another. -/
def puts (f : ι → α) (cells : List (ι × α)) : ι → α :=
  cells.foldl (fun f c => Function.update f c.1 c.2) f

theorem puts_append : puts f (cells ++ more) = puts (puts f cells) more := List.foldl_append

/-- A cell that is not among those stored is as it was. -/
theorem puts_kept (h : ∀ c ∈ cells, k ≠ c.1) : puts f cells k = f k := by
  induction cells generalizing f with
  | nil => rfl
  | cons c cells ih =>
      obtain ⟨hc, hrest⟩ := List.forall_mem_cons.mp h
      exact (ih hrest).trans (Function.update_of_ne hc _ _)

/-- Cells that differ hold what was stored into them. -/
theorem puts_stored (hnodup : (cells.map Prod.fst).Nodup) {c : ι × α} (hc : c ∈ cells) :
    puts f cells c.1 = c.2 := by
  induction cells generalizing f with
  | nil => cases hc
  | cons d cells ih =>
      obtain ⟨hd, hrest⟩ := List.nodup_cons.mp hnodup
      rcases List.mem_cons.mp hc with rfl | hin
      · have hfresh : ∀ e ∈ cells, c.1 ≠ e.1 := by
          intro e he heq
          rw [heq] at hd
          exact hd (List.mem_map_of_mem he)
        exact (puts_kept hfresh).trans (Function.update_self _ _ _)
      · exact ih hrest hin

end Puts

end Buffer
