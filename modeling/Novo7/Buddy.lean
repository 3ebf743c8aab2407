import Mathlib.Data.Nat.Bitwise
import Mathlib.Data.Nat.BitIndices
import Mathlib.Tactic.Ring

/-!
# Buddy tilings

The geometry of a buddy allocator, with no memory and no program in it. An arena `[a, b)`
is cut into *chunks*: a chunk of exponent `k` is `2 ^ k` long and starts at a multiple of
`2 ^ k`. The arena need not be a power of two long, so the last chunks may have no buddy
inside it.

* `Tiles a cs b` — the chunks `cs`, laid end to end from `a`, reach exactly `b`.
* `placed a cs` — the same chunks, each with its start.
* `Coalesced` — no two free chunks are buddies; `CoalescedBut p` allows such a pair at the
  one place `p` where an operation is at work.

The two facts everything rests on are about alignment. A dyadic interval that meets a chunk
is nested with it (`dyadic_nested`), so a buddy inside the arena *is* the start of a chunk
(`Tiles.twin_boundary`), and a search may skip by the length it looks for
(`Tiles.skip_boundary`). And an all-free coalesced tiling has strictly decreasing
exponents, so it is the binary decomposition of its length (`Coalesced.exps_eq`): two such
tilings of one arena are equal, whatever splits and merges led to them.
-/

namespace Buddy

universe u

/-- A chunk: its length is `2 ^ exp`, and it is free or carries what its owner wants
remembered. -/
structure Chunk (ρ : Type u) where
  exp : Nat
  owner : Option ρ
  deriving Repr, DecidableEq

variable {ρ : Type u}

/-- The length of a chunk. -/
def Chunk.size (c : Chunk ρ) : Nat := 2 ^ c.exp

@[simp] theorem Chunk.size_mk (k : Nat) (r : Option ρ) : (⟨k, r⟩ : Chunk ρ).size = 2 ^ k := rfl

theorem Chunk.size_pos (c : Chunk ρ) : 0 < c.size := Nat.two_pow_pos _

/-- The chunks `cs`, laid end to end from `a`, are aligned and reach exactly `b`. -/
def Tiles : Nat → List (Chunk ρ) → Nat → Prop
  | a, [], b => a = b
  | a, c :: cs, b => c.size ∣ a ∧ Tiles (a + c.size) cs b

/-- The chunks of a list with their starts. -/
def placed : Nat → List (Chunk ρ) → List (Nat × Chunk ρ)
  | _, [] => []
  | a, c :: cs => (a, c) :: placed (a + c.size) cs

/-! ## Tilings -/

theorem tiles_append {cs ds : List (Chunk ρ)} {b : Nat} :
    ∀ {a : Nat}, Tiles a (cs ++ ds) b ↔ ∃ m, Tiles a cs m ∧ Tiles m ds b := by
  induction cs with
  | nil =>
      intro a
      constructor
      · intro h; exact ⟨a, rfl, h⟩
      · rintro ⟨m, hm, h⟩; cases hm; exact h
  | cons c cs ih =>
      intro a
      constructor
      · rintro ⟨hal, h⟩
        obtain ⟨m, hm, hd⟩ := ih.mp h
        exact ⟨m, ⟨hal, hm⟩, hd⟩
      · rintro ⟨m, ⟨hal, hm⟩, hd⟩
        exact ⟨hal, ih.mpr ⟨m, hm, hd⟩⟩

/-- A tiling seen from one of its chunks: what is before it ends where it starts. -/
theorem tiles_focus {pre post : List (Chunk ρ)} {c : Chunk ρ} {a b : Nat} :
    Tiles a (pre ++ c :: post) b ↔
      ∃ p, Tiles a pre p ∧ c.size ∣ p ∧ Tiles (p + c.size) post b :=
  tiles_append

theorem Tiles.le {cs : List (Chunk ρ)} {b : Nat} : ∀ {a : Nat}, Tiles a cs b → a ≤ b := by
  induction cs with
  | nil => intro a h; exact Nat.le_of_eq h
  | cons c cs ih => intro a h; have := ih h.2; omega

theorem Tiles.end_unique {cs : List (Chunk ρ)} {b b' : Nat} :
    ∀ {a : Nat}, Tiles a cs b → Tiles a cs b' → b = b' := by
  induction cs with
  | nil => intro a h h'; exact h.symm.trans h'
  | cons c cs ih => intro a h h'; exact ih h.2 h'.2

theorem placed_append {cs ds : List (Chunk ρ)} {m : Nat} :
    ∀ {a : Nat}, Tiles a cs m → placed a (cs ++ ds) = placed a cs ++ placed m ds := by
  induction cs with
  | nil => intro a h; cases h; rfl
  | cons c cs ih => intro a h; simp only [List.cons_append, placed, ih h.2]

/-- Every chunk of a tiling lies inside it and is aligned. -/
theorem Tiles.mem_placed {cs : List (Chunk ρ)} {b : Nat} {x : Nat} {c : Chunk ρ} :
    ∀ {a : Nat}, Tiles a cs b → (x, c) ∈ placed a cs →
      a ≤ x ∧ x + c.size ≤ b ∧ c.size ∣ x := by
  induction cs with
  | nil => intro a _ hx; cases hx
  | cons d cs ih =>
      intro a h hx
      rcases List.mem_cons.mp hx with heq | hx
      · cases heq
        exact ⟨Nat.le_refl _, h.2.le, h.1⟩
      · obtain ⟨h1, h2, h3⟩ := ih h.2 hx
        exact ⟨by omega, h2, h3⟩

/-- A placed chunk splits the list around it. -/
theorem Tiles.split_at {cs : List (Chunk ρ)} {b : Nat} {x : Nat} {c : Chunk ρ} :
    ∀ {a : Nat}, Tiles a cs b → (x, c) ∈ placed a cs →
      ∃ pre post, cs = pre ++ c :: post ∧ Tiles a pre x ∧ Tiles (x + c.size) post b := by
  induction cs with
  | nil => intro a _ hx; cases hx
  | cons d cs ih =>
      intro a h hx
      rcases List.mem_cons.mp hx with heq | hx
      · cases heq
        exact ⟨[], cs, rfl, rfl, h.2⟩
      · obtain ⟨pre, post, rfl, hpre, hpost⟩ := ih h.2 hx
        exact ⟨d :: pre, post, rfl, ⟨h.1, hpre⟩, hpost⟩

/-- The chunk that contains a given place of the arena. -/
theorem Tiles.locate {cs : List (Chunk ρ)} {b x : Nat} :
    ∀ {a : Nat}, Tiles a cs b → a ≤ x → x < b →
      ∃ s c, (s, c) ∈ placed a cs ∧ s ≤ x ∧ x < s + c.size := by
  induction cs with
  | nil => intro a h hax hxb; cases h; omega
  | cons d cs ih =>
      intro a h hax hxb
      rcases Nat.lt_or_ge x (a + d.size) with hx | hx
      · exact ⟨a, d, List.mem_cons_self, hax, hx⟩
      · obtain ⟨s, c, hmem, hsx, hxs⟩ := ih h.2 hx hxb
        exact ⟨s, c, List.mem_cons_of_mem _ hmem, hsx, hxs⟩

/-- Two chunks of a tiling that start at one place are the same chunk. -/
theorem Tiles.placed_unique {cs : List (Chunk ρ)} {b x : Nat} {c d : Chunk ρ} :
    ∀ {a : Nat}, Tiles a cs b → (x, c) ∈ placed a cs → (x, d) ∈ placed a cs → c = d := by
  induction cs with
  | nil => intro a _ hc; cases hc
  | cons e cs ih =>
      intro a h hc hd
      have hpos := e.size_pos
      rcases List.mem_cons.mp hc with heq | hc <;> rcases List.mem_cons.mp hd with heq' | hd
      · cases heq; cases heq'; rfl
      · cases heq
        have := (h.2.mem_placed hd).1
        omega
      · cases heq'
        have := (h.2.mem_placed hc).1
        omega
      · exact ih h.2 hc hd

/-- A chunk ends before the next one starts. -/
theorem Tiles.placed_disjoint {cs : List (Chunk ρ)} {b x y : Nat} {c d : Chunk ρ} :
    ∀ {a : Nat}, Tiles a cs b → (x, c) ∈ placed a cs → (y, d) ∈ placed a cs → x < y →
      x + c.size ≤ y := by
  induction cs with
  | nil => intro a _ hc; cases hc
  | cons e cs ih =>
      intro a h hc hd hxy
      rcases List.mem_cons.mp hc with heq | hc <;> rcases List.mem_cons.mp hd with heq' | hd
      · cases heq; cases heq'; omega
      · cases heq
        exact (h.2.mem_placed hd).1
      · cases heq'
        have := (h.2.mem_placed hc).1
        omega
      · exact ih h.2 hc hd hxy

theorem Tiles.pairwise {cs : List (Chunk ρ)} {b : Nat} :
    ∀ {a : Nat}, Tiles a cs b → (placed a cs).Pairwise fun e f => e.1 + e.2.size ≤ f.1 := by
  induction cs with
  | nil => intro a _; exact .nil
  | cons c cs ih =>
      intro a h
      exact .cons (fun f hf => (h.2.mem_placed hf).1) (ih h.2)

/-- Chunks that touch are neighbours in the list. -/
theorem Tiles.adjacent {cs : List (Chunk ρ)} {a b x : Nat} {c d : Chunk ρ} (h : Tiles a cs b)
    (hc : (x, c) ∈ placed a cs) (hd : (x + c.size, d) ∈ placed a cs) :
    ∃ pre post, cs = pre ++ c :: d :: post ∧ Tiles a pre x := by
  obtain ⟨pre, post, rfl, hpre, hpost⟩ := h.split_at hc
  have hpos := c.size_pos
  rw [placed_append hpre] at hd
  rcases List.mem_append.mp hd with hd | hd
  · have := (hpre.mem_placed hd).2.1
    omega
  · rcases List.mem_cons.mp hd with heq | hd
    · have := congrArg Prod.fst heq
      simp only at this
      omega
    · cases post with
      | nil => cases hd
      | cons e post =>
          have he : (x + c.size, e) ∈ placed (x + c.size) (e :: post) := List.mem_cons_self
          cases hpost.placed_unique hd he
          exact ⟨pre, post, rfl, hpre⟩

/-! ## Alignment -/

/-- Dyadic intervals that meet are nested: the shorter lies in the longer. -/
theorem dyadic_nested {s j x i : Nat} (hs : 2 ^ j ∣ s) (hx : 2 ^ i ∣ x) (hij : i ≤ j)
    (h1 : x < s + 2 ^ j) (h2 : s < x + 2 ^ i) : s ≤ x ∧ x + 2 ^ i ≤ s + 2 ^ j := by
  have hpos : 0 < 2 ^ i := Nat.two_pow_pos i
  have hdvd : 2 ^ i ∣ 2 ^ j := Nat.pow_dvd_pow 2 hij
  obtain ⟨u, rfl⟩ := hx
  obtain ⟨v, rfl⟩ := hdvd.trans hs
  obtain ⟨w, hw⟩ := hdvd
  rw [hw] at h1 ⊢
  rw [← Nat.mul_add] at h1
  have huv : u < v + w := Nat.lt_of_mul_lt_mul_left h1
  have hvu : v < u + 1 := by
    apply Nat.lt_of_mul_lt_mul_left (a := 2 ^ i)
    rw [Nat.mul_add, Nat.mul_one]; exact h2
  refine ⟨Nat.mul_le_mul_left _ (by omega), ?_⟩
  rw [← Nat.mul_add, show 2 ^ i * u + 2 ^ i = 2 ^ i * (u + 1) by rw [Nat.mul_add, Nat.mul_one]]
  exact Nat.mul_le_mul_left _ (by omega)

/-- A multiple of `2 ^ k` is a multiple of `2 ^ (k + 1)` or one half-step above such. -/
theorem lower_or_upper {k p : Nat} (h : 2 ^ k ∣ p) :
    2 ^ (k + 1) ∣ p ∨ ∃ x, p = x + 2 ^ k ∧ 2 ^ (k + 1) ∣ x := by
  obtain ⟨m, rfl⟩ := h
  rcases Nat.even_or_odd' m with ⟨n, rfl | rfl⟩
  · exact .inl ⟨n, by rw [Nat.pow_succ, Nat.mul_assoc]⟩
  · exact .inr ⟨2 ^ k * (2 * n), by rw [Nat.mul_add, Nat.mul_one],
      ⟨n, by rw [Nat.pow_succ, Nat.mul_assoc]⟩⟩

theorem xor_lower {k p : Nat} (h : 2 ^ (k + 1) ∣ p) : p ^^^ 2 ^ k = p + 2 ^ k := by
  obtain ⟨m, rfl⟩ := h
  have hev : Even (2 * m) := even_two_mul m
  calc 2 ^ (k + 1) * m ^^^ 2 ^ k
      = (2 * m) <<< k ^^^ 1 <<< k := by
        rw [Nat.shiftLeft_eq, Nat.shiftLeft_eq, Nat.one_mul]
        congr 1
        rw [Nat.pow_succ, Nat.mul_assoc, Nat.mul_comm]
    _ = (2 * m + 1) <<< k := by rw [← Nat.shiftLeft_xor_distrib, Nat.xor_one_of_even hev]
    _ = 2 ^ (k + 1) * m + 2 ^ k := by rw [Nat.shiftLeft_eq, Nat.pow_succ]; ring

theorem xor_upper {k x : Nat} (h : 2 ^ (k + 1) ∣ x) : (x + 2 ^ k) ^^^ 2 ^ k = x := by
  rw [← xor_lower h, Nat.xor_assoc, Nat.xor_self, Nat.xor_zero]

/-! ## Steps from chunk to chunk -/

section Steps

variable {cs : List (Chunk ρ)} {c d : Chunk ρ} {a b p x i : Nat}

/-- A skip from a chunk over at least its own length and at least an aligned `2 ^ i` passes
only chunks shorter than `2 ^ i`. -/
theorem Tiles.skip_small (h : Tiles a cs b) (hp : (p, c) ∈ placed a cs) (hi : 2 ^ i ∣ p)
    (hx : (x, d) ∈ placed a cs) (hpx : p < x) (hxn : x < p + 2 ^ max c.exp i) :
    d.exp < i := by
  by_contra hid
  have hend : p + c.size ≤ x := h.placed_disjoint hp hx hpx
  rcases Nat.le_total i c.exp with hic | hic
  · rw [Nat.max_eq_left hic] at hxn
    rw [Chunk.size] at hend
    omega
  · rw [Nat.max_eq_right hic] at hxn
    have hpos := d.size_pos
    have := dyadic_nested (h.mem_placed hx).2.2 hi (by omega)
      (by rw [Chunk.size] at hpos; omega) hxn
    omega

/-- Such a skip ends at the start of a chunk. -/
theorem Tiles.skip_boundary (h : Tiles a cs b) (hp : (p, c) ∈ placed a cs) (hi : 2 ^ i ∣ p)
    (hb : p + 2 ^ max c.exp i < b) : ∃ d, (p + 2 ^ max c.exp i, d) ∈ placed a cs := by
  have hap := (h.mem_placed hp).1
  obtain ⟨x, d, hx, hxn, hnx⟩ := h.locate (Nat.le_add_right_of_le hap) hb
  rcases Nat.lt_or_ge x (p + 2 ^ max c.exp i) with hlt | hge
  · exfalso
    have hcmax : c.size ≤ 2 ^ max c.exp i := Nat.pow_le_pow_right (by decide) (by omega)
    rcases Nat.lt_trichotomy x p with hxp | rfl | hpx
    · have := h.placed_disjoint hx hp hxp
      omega
    · cases h.placed_unique hp hx
      omega
    · have hdi := h.skip_small hp hi hx hpx hlt
      have hend := h.placed_disjoint hp hx hpx
      have hmax : max c.exp i = i := by
        rcases Nat.le_total i c.exp with hic | hic
        · rw [Nat.max_eq_left hic] at hlt
          rw [Chunk.size] at hend
          omega
        · exact Nat.max_eq_right hic
      rw [hmax] at hnx hlt
      have := dyadic_nested (Nat.dvd_add hi (Nat.dvd_refl _)) (h.mem_placed hx).2.2
        (by omega) (by omega) hnx
      omega
  · obtain rfl : x = p + 2 ^ max c.exp i := by omega
    exact ⟨d, hx⟩

/-- The buddy of a chunk, when it lies in the arena at all, is where a chunk starts. -/
theorem Tiles.twin_boundary (h : Tiles 0 cs b) (hp : (p, c) ∈ placed 0 cs)
    (hb : p ^^^ 2 ^ c.exp < b) : ∃ d, (p ^^^ 2 ^ c.exp, d) ∈ placed 0 cs := by
  rcases lower_or_upper (h.mem_placed hp).2.2 with hal | ⟨t, rfl, hal⟩
  · rw [xor_lower hal] at hb ⊢
    simpa using h.skip_boundary (i := 0) hp (by simp) (by simpa using hb)
  · rw [xor_upper hal] at hb ⊢
    have hpos : 0 < 2 ^ c.exp := Nat.two_pow_pos _
    obtain ⟨x, d, hx, hxt, htx⟩ := h.locate (Nat.zero_le t) hb
    have hend := h.placed_disjoint hx hp (by omega)
    have hdal := (h.mem_placed hx).2.2
    rcases Nat.lt_or_ge c.exp d.exp with hcd | hdc
    · -- a longer chunk at the buddy would reach over the chunk itself
      have := dyadic_nested hdal hal hcd htx (by rw [Nat.pow_succ]; omega)
      rw [Nat.pow_succ] at this
      rw [Chunk.size] at hend
      omega
    · have := dyadic_nested ((Nat.pow_dvd_pow 2 (Nat.le_succ _)).trans hal) hdal hdc
        (by omega) htx
      obtain rfl : x = t := by omega
      exact ⟨d, hx⟩

end Steps

/-! ## Coalescing -/

/-- Two free chunks of exponent `k` at `x` and `x + 2 ^ k` that were one chunk before. -/
def FreeBuddies (a : Nat) (cs : List (Chunk ρ)) (x k : Nat) : Prop :=
  2 ^ (k + 1) ∣ x ∧ (x, ⟨k, none⟩) ∈ placed a cs ∧ (x + 2 ^ k, ⟨k, none⟩) ∈ placed a cs

/-- Every pair of buddies that are both free has been joined. -/
def Coalesced (a : Nat) (cs : List (Chunk ρ)) : Prop := ∀ x k, ¬ FreeBuddies a cs x k

/-- Every pair of free buddies has been joined, except possibly one with the chunk at `p`. -/
def CoalescedBut (p a : Nat) (cs : List (Chunk ρ)) : Prop :=
  ∀ x k, FreeBuddies a cs x k → x = p ∨ x + 2 ^ k = p

theorem Coalesced.but {a : Nat} {cs : List (Chunk ρ)} (h : Coalesced a cs) (p : Nat) :
    CoalescedBut p a cs := fun x k hxk => absurd hxk (h x k)

section Focus

variable {pre post : List (Chunk ρ)} {a p b : Nat}

/-- A chunk other than the one in focus is before it or after it. -/
theorem mem_placed_focus {c d : Chunk ρ} {x : Nat} (hpre : Tiles a pre p) :
    (x, d) ∈ placed a (pre ++ c :: post) ↔
      (x, d) ∈ placed a pre ∨ (x = p ∧ d = c) ∨ (x, d) ∈ placed (p + c.size) post := by
  rw [placed_append hpre]
  simp only [placed, List.mem_append, List.mem_cons, Prod.mk.injEq]

/-- Replacing the chunk in focus by others of the same total length leaves every placed
chunk that starts elsewhere where it was. -/
theorem mem_placed_away {c d : Chunk ρ} {x : Nat} (hpre : Tiles a pre p)
    (hx : x ≠ p) (h : (x, d) ∈ placed a (pre ++ c :: post)) :
    (x, d) ∈ placed a pre ∨ (x, d) ∈ placed (p + c.size) post := by
  rcases (mem_placed_focus hpre).mp h with h | ⟨rfl, -⟩ | h
  · exact .inl h
  · exact absurd rfl hx
  · exact .inr h

/-- Giving the chunk at `p` to an owner ends the exception at `p`. -/
theorem CoalescedBut.take {k : Nat} {r : ρ} (hpre : Tiles a pre p)
    (hpost : Tiles (p + 2 ^ k) post b) (h : CoalescedBut p a (pre ++ ⟨k, none⟩ :: post)) :
    Coalesced a (pre ++ ⟨k, some r⟩ :: post) := by
  have hpos : 0 < 2 ^ k := Nat.two_pow_pos k
  -- a free chunk of the new tiling is not the one at `p`, so it was there before
  have hold : ∀ x j, (x, (⟨j, none⟩ : Chunk ρ)) ∈ placed a (pre ++ ⟨k, some r⟩ :: post) →
      x ≠ p ∧ (x, ⟨j, none⟩) ∈ placed a (pre ++ ⟨k, none⟩ :: post) := by
    intro x j hx
    rw [mem_placed_focus hpre] at hx ⊢
    rcases hx with hx | ⟨-, hx⟩ | hx
    · have hend := (hpre.mem_placed hx).2.1
      have hsize := (⟨j, none⟩ : Chunk ρ).size_pos
      exact ⟨by omega, .inl hx⟩
    · simp at hx
    · have := (hpost.mem_placed hx).1
      exact ⟨by omega, .inr (.inr hx)⟩
  rintro x j ⟨hal, h1, h2⟩
  obtain ⟨hx1, h1⟩ := hold _ _ h1
  obtain ⟨hx2, h2⟩ := hold _ _ h2
  rcases h x j ⟨hal, h1, h2⟩ with hx | hx
  · exact hx1 hx
  · exact hx2 hx

/-- Freeing the chunk at `p` can only make a pair of free buddies at `p`. -/
theorem Coalesced.release {k : Nat} {r : ρ} (hpre : Tiles a pre p)
    (h : Coalesced a (pre ++ ⟨k, some r⟩ :: post)) :
    CoalescedBut p a (pre ++ ⟨k, none⟩ :: post) := by
  rintro x j ⟨hal, h1, h2⟩
  by_contra hne
  push Not at hne
  refine h x j ⟨hal, ?_, ?_⟩
  · rw [mem_placed_focus hpre]
    exact (mem_placed_away hpre hne.1 h1).imp_right .inr
  · rw [mem_placed_focus hpre]
    exact (mem_placed_away hpre hne.2 h2).imp_right .inr

/-- Halving the free chunk at `p` makes one new pair of free buddies, at `p`. -/
theorem CoalescedBut.split {k : Nat} (hpre : Tiles a pre p) (hal : 2 ^ (k + 1) ∣ p)
    (hpost : Tiles (p + 2 ^ (k + 1)) post b)
    (h : CoalescedBut p a (pre ++ ⟨k + 1, none⟩ :: post)) :
    CoalescedBut p a (pre ++ ⟨k, none⟩ :: ⟨k, none⟩ :: post) := by
  have hpos : 0 < 2 ^ k := Nat.two_pow_pos k
  have hdouble : 2 ^ (k + 1) = 2 ^ k + 2 ^ k := by rw [Nat.pow_succ]; omega
  -- a chunk of the new tiling is one of the halves or was there before
  have hold : ∀ x j, (x, ⟨j, none⟩) ∈ placed a (pre ++ ⟨k, none⟩ :: ⟨k, none⟩ :: post) →
      x ≠ p → (x = p + 2 ^ k ∧ j = k) ∨
        (x, ⟨j, none⟩) ∈ placed a (pre ++ ⟨k + 1, none⟩ :: post) := by
    intro x j hx hxp
    rcases mem_placed_away hpre hxp hx with hx | hx
    · exact .inr ((mem_placed_focus hpre).mpr (.inl hx))
    · rcases List.mem_cons.mp hx with heq | hx
      · cases heq
        exact .inl ⟨rfl, rfl⟩
      · refine .inr ((mem_placed_focus hpre).mpr (.inr (.inr ?_)))
        simpa only [Chunk.size, hdouble, Nat.add_assoc] using hx
  rintro x j ⟨halx, h1, h2⟩
  by_contra hne
  push Not at hne
  rcases hold x _ h1 hne.1 with ⟨rfl, rfl⟩ | h1
  · -- the upper half is no lower buddy
    have hk : 2 ^ (j + 1) ∣ 2 ^ j := (Nat.dvd_add_right hal).mp halx
    have := Nat.le_of_dvd hpos hk
    omega
  rcases hold _ _ h2 hne.2 with ⟨hx, rfl⟩ | h2
  · exact hne.1 (Nat.add_right_cancel hx)
  · exact (h x j ⟨halx, h1, h2⟩).elim hne.1 hne.2

/-- Joining the free buddies at `p` moves the exception to the joined chunk. -/
theorem CoalescedBut.join {k q : Nat} (hpre : Tiles a pre p)
    (hpost : Tiles (p + 2 ^ (k + 1)) post b) (hq : q = p ∨ q = p + 2 ^ k)
    (h : CoalescedBut q a (pre ++ ⟨k, none⟩ :: ⟨k, none⟩ :: post)) :
    CoalescedBut p a (pre ++ ⟨k + 1, none⟩ :: post) := by
  have hpos : 0 < 2 ^ k := Nat.two_pow_pos k
  have hdouble : 2 ^ (k + 1) = 2 ^ k + 2 ^ k := by rw [Nat.pow_succ]; omega
  -- a chunk of the new tiling that is not the joined one was there, away from both halves
  have hold : ∀ x (d : Chunk ρ), (x, d) ∈ placed a (pre ++ ⟨k + 1, none⟩ :: post) → x ≠ p →
      x ≠ q ∧ (x, d) ∈ placed a (pre ++ ⟨k, none⟩ :: ⟨k, none⟩ :: post) := by
    intro x d hx hxp
    rw [mem_placed_focus hpre]
    have hd := d.size_pos
    rcases mem_placed_away hpre hxp hx with hx | hx
    · have := (hpre.mem_placed hx).2.1
      exact ⟨by omega, .inl hx⟩
    · have := (hpost.mem_placed hx).1
      refine ⟨by omega, .inr (.inr (List.mem_cons_of_mem _ ?_))⟩
      simpa only [Chunk.size, hdouble, Nat.add_assoc] using hx
  rintro x j ⟨hal, h1, h2⟩
  by_contra hne
  push Not at hne
  obtain ⟨hx1, h1⟩ := hold _ _ h1 hne.1
  obtain ⟨hx2, h2⟩ := hold _ _ h2 hne.2
  exact (h x j ⟨hal, h1, h2⟩).elim hx1 hx2

end Focus

/-- The exception at `p` is none when the buddy of the chunk at `p` is no free chunk of its
size. -/
theorem CoalescedBut.close {cs : List (Chunk ρ)} {a b p k : Nat} (ht : Tiles a cs b)
    (hp : (p, ⟨k, none⟩) ∈ placed a cs) (h : CoalescedBut p a cs)
    (htwin : (p ^^^ 2 ^ k, ⟨k, none⟩) ∉ placed a cs) : Coalesced a cs := by
  rintro x j hxj
  obtain ⟨hal, h1, h2⟩ := hxj
  rcases h x j ⟨hal, h1, h2⟩ with rfl | rfl
  · cases ht.placed_unique hp h1
    exact htwin (by rwa [xor_lower hal])
  · cases ht.placed_unique hp h2
    exact htwin (by rwa [xor_upper hal])

/-! ## The canonical tiling -/

/-- The exponents of an all-free coalesced tiling decrease strictly. -/
theorem Coalesced.exps_chain {cs : List (Chunk ρ)} {b : Nat} :
    ∀ {a : Nat} {c : Chunk ρ}, Tiles a (c :: cs) b → (∀ d ∈ c :: cs, d.owner = none) →
      Coalesced a (c :: cs) → 2 ^ (c.exp + 1) ∣ a →
      ((c :: cs).map Chunk.exp).IsChain (· > ·) := by
  induction cs with
  | nil => intro a c _ _ _ _; exact .singleton _
  | cons d cs ih =>
      intro a c ht hfree hco hal
      have hpos : 0 < 2 ^ c.exp := Nat.two_pow_pos _
      have hdal : 2 ^ d.exp ∣ a + 2 ^ c.exp := ht.2.1
      -- the start of `d` is an odd multiple of `2 ^ c.exp`
      have hle : d.exp ≤ c.exp := by
        by_contra hlt
        have hdvd : 2 ^ (c.exp + 1) ∣ 2 ^ d.exp := Nat.pow_dvd_pow 2 (by omega)
        have hk : 2 ^ (c.exp + 1) ∣ 2 ^ c.exp := (Nat.dvd_add_right hal).mp (hdvd.trans hdal)
        have := Nat.le_of_dvd hpos hk
        rw [Nat.pow_succ] at this
        omega
      have hne : d.exp ≠ c.exp := by
        intro heq
        have hc : c = ⟨c.exp, none⟩ := by
          rw [← hfree c List.mem_cons_self]
        have hd : d = ⟨c.exp, none⟩ := by
          rw [← heq, ← hfree d (List.mem_cons_of_mem _ List.mem_cons_self)]
        refine hco a c.exp ⟨hal, ?_, ?_⟩
        · rw [← hc]; exact List.mem_cons_self
        · rw [← hd]; exact List.mem_cons_of_mem _ List.mem_cons_self
      have htail : ((d :: cs).map Chunk.exp).IsChain (· > ·) := by
        refine ih ht.2 (fun e he => hfree e (List.mem_cons_of_mem _ he)) ?_ ?_
        · rintro x k ⟨hx, h1, h2⟩
          exact hco x k ⟨hx, List.mem_cons_of_mem _ h1, List.mem_cons_of_mem _ h2⟩
        · exact Nat.dvd_add ((Nat.pow_dvd_pow 2 (by omega)).trans hal)
            (Nat.pow_dvd_pow 2 (by omega))
      exact List.isChain_cons_cons.mpr ⟨by omega, htail⟩

theorem Tiles.sum {cs : List (Chunk ρ)} {b : Nat} :
    ∀ {a : Nat}, Tiles a cs b → a + ((cs.map Chunk.exp).map (2 ^ ·)).sum = b := by
  induction cs with
  | nil => intro a h; exact h
  | cons c cs ih =>
      intro a h
      have := ih h.2
      simp only [List.map_cons, List.sum_cons, Chunk.size] at this ⊢
      omega

/-- A tiling whose exponents decrease strictly is the binary decomposition of its length. -/
theorem Tiles.exps_of_chain {cs : List (Chunk ρ)} {b : Nat} (ht : Tiles 0 cs b)
    (h : (cs.map Chunk.exp).IsChain (· > ·)) : cs.map Chunk.exp = b.bitIndices.reverse := by
  have hsum := ht.sum
  rw [Nat.zero_add] at hsum
  have hsorted : (cs.map Chunk.exp).reverse.SortedLT := (List.IsChain.sortedGT h).reverse
  have hbits := Nat.bitIndices_sum_map_two_pow hsorted
  rw [List.map_reverse, List.sum_reverse, hsum] at hbits
  rw [hbits, List.reverse_reverse]

theorem map_placed {cs : List (Chunk ρ)} :
    ∀ {a : Nat}, (placed a cs).map (fun e => e.2.exp) = cs.map Chunk.exp := by
  induction cs with
  | nil => intro a; rfl
  | cons c cs ih => intro a; simp only [placed, List.map_cons, ih]

/-- Chunks of different lengths only are coalesced. -/
theorem coalesced_of_chain {cs : List (Chunk ρ)} {a : Nat}
    (h : (cs.map Chunk.exp).IsChain (· > ·)) : Coalesced a cs := by
  rintro x k ⟨-, h1, h2⟩
  have hnodup : ((placed a cs).map fun e => e.2.exp).Nodup := by
    rw [map_placed]
    exact (List.IsChain.sortedGT h).nodup
  have heq := List.inj_on_of_nodup_map hnodup h1 h2 rfl
  have hx := congrArg Prod.fst heq
  have := Nat.two_pow_pos k
  simp only at hx
  omega

/-- An all-free coalesced tiling is the binary decomposition of its length. -/
theorem Coalesced.exps_eq {cs : List (Chunk ρ)} {b : Nat} (ht : Tiles 0 cs b)
    (hfree : ∀ d ∈ cs, d.owner = none) (hco : Coalesced 0 cs) :
    cs.map Chunk.exp = b.bitIndices.reverse := by
  cases cs with
  | nil => cases ht; rfl
  | cons c cs => exact ht.exps_of_chain (hco.exps_chain ht hfree (Nat.dvd_zero _))

/-- Two all-free coalesced tilings of one arena are the same. -/
theorem Coalesced.unique {cs ds : List (Chunk ρ)} {b : Nat} (hc : Tiles 0 cs b)
    (hd : Tiles 0 ds b) (hcfree : ∀ c ∈ cs, c.owner = none) (hdfree : ∀ d ∈ ds, d.owner = none)
    (hcco : Coalesced 0 cs) (hdco : Coalesced 0 ds) : cs = ds := by
  have hfree : ∀ es : List (Chunk ρ), (∀ e ∈ es, e.owner = none) →
      es = (es.map Chunk.exp).map (⟨·, none⟩) := by
    intro es hes
    rw [List.map_map]
    conv_lhs => rw [← List.map_id es]
    refine List.map_congr_left fun e he => ?_
    simp [← hes e he]
  rw [hfree cs hcfree, hfree ds hdfree, hcco.exps_eq hc hcfree, hdco.exps_eq hd hdfree]

end Buddy
