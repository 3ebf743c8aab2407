import Mathlib.Data.List.Chain
import Novo7.Buddy
import Novo7.Malloc

/-!
# The heap as a buddy tiling

`Layout h cs` says that the headers in memory are those of a buddy tiling `cs` of the whole
arena. Every operation of `malloc.c` is proved against it: the search returns a chunk of the
tiling, a split and a merge turn one tiling into another (`Recut`), `malloc_init` writes the
tiling with one chunk for each bit of the arena's length, and no operation writes a word of
a payload that is in use (`Untouched`).

A chunk in use remembers the request it was made for. That is bookkeeping of the proof: the
header in memory only holds the chunk's length and the flag.
-/

namespace Novo7

open Machine Buddy

/-! ## Headers -/

/-- What the allocator keeps in a chunk's first word. A chunk in use remembers the request
it was made for; the header does not. -/
def header (c : Chunk Nat) : Nat := c.size + if c.owner.isSome then 1 else 0

@[simp] theorem header_free (k : Nat) : header ⟨k, none⟩ = 2 ^ k := rfl

@[simp] theorem header_used (k n : Nat) : header ⟨k, some n⟩ = 2 ^ k + 1 := rfl

/-- The headers in memory are those of the chunks laid out from `a`. -/
def Holds (mem : Nat → Nat) (a : Nat) (cs : List (Chunk Nat)) : Prop :=
  ∀ x c, (x, c) ∈ placed a cs → mem x = header c

/-- A chunk has room for its header, and for the request it is in use for. -/
def ChunkFits (c : Chunk Nat) : Prop :=
  1 ≤ c.exp ∧ ∀ n, c.owner = some n → 1 ≤ n ∧ n + 4 ≤ 4 * c.size

/-- The arena is cut into the chunks `cs`. -/
structure Layout (h : Arena) (cs : List (Chunk Nat)) : Prop where
  pos : 0 < h.memAreaSize
  bound : h.memAreaSize < 2 ^ 30
  tiles : Tiles 0 cs h.memAreaSize
  holds : Holds h.memArea 0 cs
  fits : ∀ c ∈ cs, ChunkFits c

theorem mem_of_mem_placed {cs : List (Chunk Nat)} {x : Nat} {c : Chunk Nat} :
    ∀ {a : Nat}, (x, c) ∈ placed a cs → c ∈ cs := by
  induction cs with
  | nil => intro a h; cases h
  | cons d cs ih =>
      intro a h
      rcases List.mem_cons.mp h with heq | h
      · cases heq; exact List.mem_cons_self
      · exact List.mem_cons_of_mem _ (ih h)

theorem exp_lt_of_size_le {k n : Nat} (h : 2 ^ k ≤ n) (hn : n < 2 ^ 30) : k < 30 :=
  (Nat.pow_lt_pow_iff_right (by decide)).mp (Nat.lt_of_le_of_lt h hn)

theorem header_and_one {c : Chunk Nat} (h : 1 ≤ c.exp) :
    header c &&& 1 = if c.owner.isSome then 1 else 0 := by
  obtain ⟨k, hk⟩ := Nat.exists_eq_add_of_le h
  rw [Nat.and_one_is_mod, header, Chunk.size, hk, Nat.add_comm 1 k, Nat.pow_succ]
  split <;> omega

theorem header_and_not_one {c : Chunk Nat} (h : 1 ≤ c.exp) (hs : c.size < 2 ^ 30) :
    header c &&& 0xfffffffe = c.size := by
  have h1 := header_and_one h
  rw [Nat.and_one_is_mod] at h1
  have hle : header c ≤ c.size + 1 := by unfold header; split <;> omega
  rw [and_not_one (by omega), h1, header]
  split <;> omega

/-- Two headers are equal for chunks of one length that are both free or both in use. -/
theorem header_eq_free {c : Chunk Nat} {k : Nat} (hk : 1 ≤ k) (hc : 1 ≤ c.exp)
    (h : header c = header ⟨k, none⟩) : c = ⟨k, none⟩ := by
  have h1 := header_and_one hc
  rw [h, header_and_one hk] at h1
  obtain ⟨j, o⟩ := c
  cases o with
  | some n => simp at h1
  | none =>
      have hjk : 2 ^ j = 2 ^ k := by simpa [header] using h
      rw [Nat.pow_right_injective (Nat.le_refl 2) hjk]

theorem holds_append {mem : Nat → Nat} {a m : Nat} {cs ds : List (Chunk Nat)}
    (ht : Tiles a cs m) : Holds mem a (cs ++ ds) ↔ Holds mem a cs ∧ Holds mem m ds := by
  simp only [Holds, placed_append ht, List.mem_append]
  constructor
  · intro h
    exact ⟨fun x c hx => h x c (.inl hx), fun x c hx => h x c (.inr hx)⟩
  · rintro ⟨h1, h2⟩ x c (hx | hx)
    · exact h1 x c hx
    · exact h2 x c hx

theorem Holds.congr {mem mem' : Nat → Nat} {a b : Nat} {cs : List (Chunk Nat)}
    (ht : Tiles a cs b) (h : Holds mem a cs) (heq : ∀ x, a ≤ x → x < b → mem' x = mem x) :
    Holds mem' a cs := by
  intro x c hx
  obtain ⟨h1, h2, -⟩ := ht.mem_placed hx
  have := c.size_pos
  rw [heq x h1 (by omega), h x c hx]

/-! ## Editing a layout -/

/-- The chunks in use. -/
def occupied (a : Nat) (cs : List (Chunk Nat)) : List (Nat × Chunk Nat) :=
  (placed a cs).filter fun e => e.2.owner.isSome

theorem occupied_append {a m : Nat} {cs ds : List (Chunk Nat)} (ht : Tiles a cs m) :
    occupied a (cs ++ ds) = occupied a cs ++ occupied m ds := by
  simp only [occupied, placed_append ht, List.filter_append]

theorem occupied_free {cs : List (Chunk Nat)} :
    ∀ {a : Nat}, (∀ c ∈ cs, c.owner = none) → occupied a cs = [] := by
  induction cs with
  | nil => intro a _; rfl
  | cons c cs ih =>
      intro a h
      have hc := h c List.mem_cons_self
      have hcs := ih (a := a + c.size) fun d hd => h d (List.mem_cons_of_mem _ hd)
      simpa [occupied, placed, hc] using hcs

theorem free_of_occupied_nil {cs : List (Chunk Nat)} :
    ∀ {a : Nat}, occupied a cs = [] → ∀ c ∈ cs, c.owner = none := by
  induction cs with
  | nil => intro a _ c hc; cases hc
  | cons d cs ih =>
      intro a h c hc
      simp only [occupied, placed, List.filter_cons] at h
      cases hd : d.owner with
      | some n => simp [hd] at h
      | none =>
          rcases List.mem_cons.mp hc with rfl | hc
          · exact hd
          · exact ih (a := a + d.size) (by simpa [hd, occupied] using h) c hc

/-- The payload words of the chunks in use are the same in both memories. -/
def Untouched (mem mem' : Nat → Nat) (used : List (Nat × Chunk Nat)) : Prop :=
  ∀ e ∈ used, ∀ y, e.1 < y → y < e.1 + e.2.size → mem' y = mem y

theorem Untouched.trans {m₁ m₂ m₃ : Nat → Nat} {used : List (Nat × Chunk Nat)}
    (h : Untouched m₁ m₂ used) (h' : Untouched m₂ m₃ used) : Untouched m₁ m₃ used :=
  fun e he y hy hy' => (h' e he y hy hy').trans (h e he y hy hy')

section Edit

variable {h : Arena} {pre mid mid' post : List (Chunk Nat)} {p q : Nat} {mem' : Nat → Nat}

/-- Re-cutting the part `[p, q)` of the arena, with the new headers in memory and nothing
else written, gives a layout again. -/
theorem Layout.edit (hl : Layout h (pre ++ (mid ++ post))) (hpre : Tiles 0 pre p)
    (hmid : Tiles p mid q) (hmid' : Tiles p mid' q) (hin : Holds mem' p mid')
    (hout : ∀ x, x < p ∨ q ≤ x → mem' x = h.memArea x) (hfit : ∀ c ∈ mid', ChunkFits c) :
    Layout { h with memArea := mem' } (pre ++ (mid' ++ post)) := by
  obtain ⟨p', hp', hrest⟩ := tiles_append.mp hl.tiles
  obtain rfl := hpre.end_unique hp'
  obtain ⟨q', hq', hpost⟩ := tiles_append.mp hrest
  obtain rfl := hmid.end_unique hq'
  obtain ⟨h1, h23⟩ := (holds_append hpre).mp hl.holds
  obtain ⟨-, h3⟩ := (holds_append hmid).mp h23
  refine ⟨hl.pos, hl.bound, tiles_append.mpr ⟨p, hpre, tiles_append.mpr ⟨q, hmid', hpost⟩⟩, ?_, ?_⟩
  · rw [holds_append hpre, holds_append hmid']
    exact ⟨h1.congr hpre fun x _ hx => hout x (.inl hx), hin,
      h3.congr hpost fun x hx _ => hout x (.inr hx)⟩
  · intro c hc
    simp only [List.mem_append] at hc
    rcases hc with hc | hc | hc
    · exact hl.fits c (by simp [hc])
    · exact hfit c hc
    · exact hl.fits c (by simp [hc])

/-- Writing only inside `[p, q)` leaves the payloads in use before and after it alone. -/
theorem Layout.untouched (hl : Layout h (pre ++ (mid ++ post))) (hpre : Tiles 0 pre p)
    (hmid : Tiles p mid q) (hout : ∀ x, x < p ∨ q ≤ x → mem' x = h.memArea x) :
    Untouched h.memArea mem' (occupied 0 pre ++ occupied q post) := by
  obtain ⟨p', hp', hrest⟩ := tiles_append.mp hl.tiles
  obtain rfl := hpre.end_unique hp'
  obtain ⟨q', hq', hpost⟩ := tiles_append.mp hrest
  obtain rfl := hmid.end_unique hq'
  intro e he y hy1 hy2
  rcases List.mem_append.mp he with he | he
  · have := (hpre.mem_placed (List.mem_of_mem_filter he)).2.1
    exact hout y (.inl (by omega))
  · have := (hpost.mem_placed (List.mem_of_mem_filter he)).1
    exact hout y (.inr (by omega))

end Edit

/-! ## The search -/

section Search

variable {h : Arena} {cs : List (Chunk Nat)} {p k : Nat} {c : Chunk Nat}

theorem Layout.size_le (hl : Layout h cs) (hp : (p, c) ∈ placed 0 cs) :
    p + c.size ≤ h.memAreaSize := (hl.tiles.mem_placed hp).2.1

theorem Layout.fits_of_placed (hl : Layout h cs) (hp : (p, c) ∈ placed 0 cs) : ChunkFits c :=
  hl.fits c (mem_of_mem_placed hp)

/-- The test of the search loop fails exactly at a free chunk that is long enough. -/
theorem Layout.search_test (hl : Layout h cs) (hp : (p, c) ∈ placed 0 cs) :
    (h.memArea p &&& 1 ≠ 0 ∨ h.memArea p < 2 ^ k) ↔ ¬ (c.owner = none ∧ k ≤ c.exp) := by
  rw [hl.holds p c hp, header_and_one (hl.fits_of_placed hp).1]
  cases ho : c.owner with
  | some n => simp
  | none =>
      have : header c = 2 ^ c.exp := by simp [header, ho, Chunk.size]
      simp [this, Nat.pow_lt_pow_iff_right]

/-- The length of a skip. -/
theorem Layout.search_skip (hl : Layout h cs) (hp : (p, c) ∈ placed 0 cs) :
    (if h.memArea p &&& 0xfffffffe < 2 ^ k then 2 ^ k else h.memArea p &&& 0xfffffffe) =
      2 ^ max c.exp k := by
  have hs := hl.size_le hp
  have hb := hl.bound
  rw [hl.holds p c hp, header_and_not_one (hl.fits_of_placed hp).1 (by omega), Chunk.size]
  rcases Nat.lt_or_ge c.exp k with hlt | hge
  · rw [if_pos (Nat.pow_lt_pow_right (by decide) hlt), Nat.max_eq_right (by omega)]
  · rw [if_neg (Nat.not_lt.mpr (Nat.pow_le_pow_right (by decide) hge)), Nat.max_eq_left hge]

/-- One round of the search loop. -/
def searchStep (h : Arena) (size ptr : Nat) : Option (Nat ⊕ Option Nat) :=
  if h.memArea ptr &&& 1 ≠ 0 ∨ h.memArea ptr < size then
    let chsize := h.memArea ptr &&& 0xfffffffe
    let chsize := if chsize < size then size else chsize
    if u32 (ptr + chsize) ≥ h.memAreaSize then some (.inr none)
    else some (.inl (ptr + chsize))
  else some (.inr (some ptr))

/-- The search is at a chunk, and has passed no free chunk of at least `2 ^ k` words. -/
def Searching (cs : List (Chunk Nat)) (k ptr : Nat) : Prop :=
  (∃ c, (ptr, c) ∈ placed 0 cs) ∧ 2 ^ k ∣ ptr ∧
    ∀ x d, (x, d) ∈ placed 0 cs → x < ptr → d.owner = none → d.exp < k

/-- What the search finds. -/
def Searched (cs : List (Chunk Nat)) (k : Nat) : Option Nat → Prop
  | none => ∀ x d, (x, d) ∈ placed 0 cs → d.owner = none → d.exp < k
  | some ptr => ∃ d, (ptr, d) ∈ placed 0 cs ∧ d.owner = none ∧ k ≤ d.exp

theorem Layout.searching_zero (hl : Layout h cs) (k : Nat) : Searching cs k 0 := by
  refine ⟨?_, Nat.dvd_zero _, fun x d _ hx => by omega⟩
  obtain ⟨x, c, hx, hx0, -⟩ := hl.tiles.locate (Nat.zero_le 0) hl.pos
  obtain rfl : x = 0 := by omega
  exact ⟨c, hx⟩

theorem searchStep_round (hl : Layout h cs) (hk : k ≤ 30) (ptr : Nat)
    (hptr : Searching cs k ptr) :
    Returns (searchStep h (2 ^ k) ptr)
      (RoundOK (Searching cs k) (fun ptr => h.memAreaSize - ptr) (Searched cs k) ptr) := by
  obtain ⟨⟨c, hp⟩, hal, hpast⟩ := hptr
  have hend := hl.size_le hp
  have hbound := hl.bound
  have hc := c.size_pos
  simp only [searchStep, hl.search_test hp, hl.search_skip hp]
  by_cases hfound : c.owner = none ∧ k ≤ c.exp
  · rw [if_neg (not_not.mpr hfound)]
    exact .pure ⟨c, hp, hfound⟩
  · rw [if_pos hfound]
    have hlim : 2 ^ max c.exp k ≤ 2 ^ 30 := by
      have := exp_lt_of_size_le (k := c.exp) (by rw [Chunk.size] at hend; omega) hbound
      exact Nat.pow_le_pow_right (by decide) (by omega)
    have hskip : 0 < 2 ^ max c.exp k := Nat.two_pow_pos _
    rw [u32_of_lt (by omega)]
    have hnext : ∀ x d, (x, d) ∈ placed 0 cs → x < ptr + 2 ^ max c.exp k →
        d.owner = none → d.exp < k := by
      intro x d hx hlt hfree
      rcases Nat.lt_trichotomy x ptr with hxp | rfl | hpx
      · exact hpast x d hx hxp hfree
      · cases hl.tiles.placed_unique hp hx
        exact Nat.lt_of_not_le fun hle => hfound ⟨hfree, hle⟩
      · exact hl.tiles.skip_small hp hal hx hpx hlt
    by_cases hlast : ptr + 2 ^ max c.exp k ≥ h.memAreaSize
    · rw [if_pos hlast]
      refine .pure fun x d hx hfree => hnext x d hx ?_ hfree
      have := hl.size_le hx
      have := d.size_pos
      omega
    · rw [if_neg hlast]
      refine .pure ⟨⟨hl.tiles.skip_boundary hp hal (by omega), ?_, hnext⟩,
        Nat.sub_lt_sub_left (by omega) (by omega)⟩
      exact Nat.dvd_add hal (Nat.pow_dvd_pow 2 (Nat.le_max_right _ _))

/-- The search finds a free chunk of at least `2 ^ k` words, and only fails when there is
none. -/
theorem searchChunk_spec (hl : Layout h cs) (hk : k ≤ 30) :
    Returns (searchChunk h (2 ^ k)) (Searched cs k) :=
  iter_total (fun ptr => searchStep_round hl hk ptr) (hl.searching_zero k)
    (by have := hl.pos; omega)

end Search

/-! ## Splitting and merging -/

/-- From `h` with chunks `cs`, the free part of the arena has been re-cut: the memory is now
`mem`, laid out as `cs'`, with the same chunks in use and their payloads as they were. -/
structure Recut (h : Arena) (cs : List (Chunk Nat)) (mem : Nat → Nat) (cs' : List (Chunk Nat)) :
    Prop where
  layout : Layout { h with memArea := mem } cs'
  same : occupied 0 cs' = occupied 0 cs
  untouched : Untouched h.memArea mem (occupied 0 cs)

theorem Layout.recut {h : Arena} {cs : List (Chunk Nat)} (hl : Layout h cs) :
    Recut h cs h.memArea cs := ⟨hl, rfl, fun _ _ _ _ _ => rfl⟩

section Recut

variable {h : Arena} {cs pre mid mid' post : List (Chunk Nat)} {p q k : Nat}
  {mem mem' : Nat → Nat}

theorem Recut.edit (hr : Recut h cs mem (pre ++ (mid ++ post))) (hpre : Tiles 0 pre p)
    (hmid : Tiles p mid q) (hmid' : Tiles p mid' q) (hfree : ∀ c ∈ mid, c.owner = none)
    (hfree' : ∀ c ∈ mid', c.owner = none ∧ 1 ≤ c.exp) (hin : Holds mem' p mid')
    (hout : ∀ x, x < p ∨ q ≤ x → mem' x = mem x) :
    Recut h cs mem' (pre ++ (mid' ++ post)) := by
  have hocc : occupied 0 (pre ++ (mid ++ post)) = occupied 0 pre ++ occupied q post := by
    rw [occupied_append hpre, occupied_append hmid, occupied_free hfree, List.nil_append]
  refine ⟨hr.layout.edit hpre hmid hmid' hin hout ?_, ?_, ?_⟩
  · intro c hc
    refine ⟨(hfree' c hc).2, fun n hn => ?_⟩
    rw [(hfree' c hc).1] at hn
    cases hn
  · rw [← hr.same, hocc, occupied_append hpre, occupied_append hmid',
      occupied_free fun c hc => (hfree' c hc).1, List.nil_append]
  · refine hr.untouched.trans ?_
    rw [← hr.same, hocc]
    exact hr.layout.untouched hpre hmid hout

theorem tiles_one (hal : 2 ^ k ∣ p) : Tiles p [(⟨k, none⟩ : Chunk Nat)] (p + 2 ^ k) :=
  ⟨hal, rfl⟩

theorem tiles_halves (hal : 2 ^ (k + 1) ∣ p) :
    Tiles p [(⟨k, none⟩ : Chunk Nat), ⟨k, none⟩] (p + 2 ^ (k + 1)) := by
  have hk : 2 ^ k ∣ p := (Nat.pow_dvd_pow 2 (Nat.le_succ k)).trans hal
  refine ⟨hk, Nat.dvd_add hk (Nat.dvd_refl _), ?_⟩
  rw [Nat.pow_succ]
  simp only [Chunk.size_mk, Tiles]
  omega

/-- The two stores that halve a free chunk. -/
theorem Recut.split (hr : Recut h cs mem (pre ++ ⟨k + 1, none⟩ :: post)) (hk : 1 ≤ k)
    (hpre : Tiles 0 pre p) :
    Recut h cs (Function.update (Function.update mem p (2 ^ k)) (p + 2 ^ k) (2 ^ k))
      (pre ++ ⟨k, none⟩ :: ⟨k, none⟩ :: post) := by
  have hpos : 0 < 2 ^ k := Nat.two_pow_pos k
  obtain ⟨p', hp', hal, -⟩ := tiles_focus.mp hr.layout.tiles
  obtain rfl := hpre.end_unique hp'
  have hr' : Recut h cs mem (pre ++ ([⟨k + 1, none⟩] ++ post)) := hr
  refine hr'.edit hpre (tiles_one hal) (tiles_halves hal) (by simp) (by simp [hk]) ?_ ?_
  · intro x c hx
    simp only [placed, Chunk.size_mk, List.mem_cons, Prod.mk.injEq, List.not_mem_nil,
      or_false] at hx
    rcases hx with ⟨rfl, rfl⟩ | ⟨rfl, rfl⟩
    · rw [Function.update_of_ne (by omega), Function.update_self]; rfl
    · rw [Function.update_self]; rfl
  · intro x hx
    rw [Nat.pow_succ] at hx
    rw [Function.update_of_ne (by omega), Function.update_of_ne (by omega)]

/-- The store that joins two free buddies. -/
theorem Recut.join (hr : Recut h cs mem (pre ++ ⟨k, none⟩ :: ⟨k, none⟩ :: post))
    (hpre : Tiles 0 pre p) (hal : 2 ^ (k + 1) ∣ p) :
    Recut h cs (Function.update mem p (2 ^ (k + 1))) (pre ++ ⟨k + 1, none⟩ :: post) := by
  have hpos : 0 < 2 ^ (k + 1) := Nat.two_pow_pos _
  have hr' : Recut h cs mem (pre ++ ([⟨k, none⟩, ⟨k, none⟩] ++ post)) := hr
  refine hr'.edit hpre (tiles_halves hal) (tiles_one hal) (by simp) (by simp) ?_ ?_
  · intro x c hx
    simp only [placed, List.mem_cons, Prod.mk.injEq, List.not_mem_nil, or_false] at hx
    obtain ⟨rfl, rfl⟩ := hx
    rw [Function.update_self]; rfl
  · intro x hx
    rw [Function.update_of_ne (by omega)]

theorem Recut.header_at {c : Chunk Nat} (hr : Recut h cs mem (pre ++ c :: post))
    (hpre : Tiles 0 pre p) : mem p = header c :=
  hr.layout.holds p c ((mem_placed_focus hpre).mpr (.inr (.inl ⟨rfl, rfl⟩)))

/-- Halving stops at the length asked for. -/
theorem splitChunk_spec {j : Nat} (hl : Layout h (pre ++ ⟨j, none⟩ :: post))
    (hpre : Tiles 0 pre p) (hk : 1 ≤ k) (hkj : k ≤ j)
    (hco : CoalescedBut p 0 (pre ++ ⟨j, none⟩ :: post)) :
    Returns (splitChunk h.memArea p (2 ^ k)) fun mem' =>
      ∃ post', Recut h (pre ++ ⟨j, none⟩ :: post) mem' (pre ++ ⟨k, none⟩ :: post') ∧
        CoalescedBut p 0 (pre ++ ⟨k, none⟩ :: post') := by
  refine iter_total
    (I := fun mem => ∃ i post', k ≤ i ∧
      Recut h (pre ++ ⟨j, none⟩ :: post) mem (pre ++ ⟨i, none⟩ :: post') ∧
        CoalescedBut p 0 (pre ++ ⟨i, none⟩ :: post'))
    (m := fun mem => mem p) ?_ ⟨j, post, hkj, hl.recut, hco⟩ (Nat.lt_succ_self _)
  rintro mem ⟨i, post', hki, hr, hco'⟩
  have hhead : mem p = 2 ^ i := hr.header_at hpre
  rcases Nat.eq_or_lt_of_le hki with rfl | hlt
  · rw [if_neg (by omega)]
    exact .pure ⟨post', hr, hco'⟩
  · obtain ⟨i, rfl⟩ := Nat.exists_eq_add_one_of_ne_zero (show i ≠ 0 by omega)
    have hpos : 0 < 2 ^ i := Nat.two_pow_pos i
    have hhalf : mem p >>> 1 = 2 ^ i := by
      rw [hhead, Nat.shiftRight_eq_div_pow, Nat.pow_succ]; omega
    rw [if_pos (by rw [hhead]; exact Nat.pow_lt_pow_right (by decide) hlt), hhalf]
    simp only [Function.update_self]
    obtain ⟨p', hp', hal, hpost⟩ := tiles_focus.mp hr.layout.tiles
    obtain rfl := hpre.end_unique hp'
    refine .pure ⟨⟨i, _, by omega, hr.split (by omega) hpre, hco'.split hpre hal hpost⟩, ?_⟩
    show Function.update (Function.update mem p _) _ _ p < mem p
    rw [Function.update_of_ne (by omega), Function.update_self, hhead, Nat.pow_succ]
    omega

/-- Merging stops when the buddy is outside, in use, or cut smaller. -/
theorem mergeChunk_spec (hl : Layout h cs) (hp : (p, ⟨k, none⟩) ∈ placed 0 cs)
    (hco : CoalescedBut p 0 cs) :
    Returns (mergeChunk h.memAreaSize h.memArea p) fun mem' =>
      ∃ cs', Recut h cs mem' cs' ∧ Coalesced 0 cs' := by
  refine iter_total
    (I := fun s : (Nat → Nat) × Nat => ∃ cs' i, (s.2, ⟨i, none⟩) ∈ placed 0 cs' ∧
      Recut h cs s.1 cs' ∧ CoalescedBut s.2 0 cs')
    (m := fun s => h.memAreaSize - s.1 s.2) ?_ ⟨cs, k, hp, hl.recut, hco⟩ (by omega)
  rintro ⟨mem, ptr⟩ ⟨cs', i, hptr, hr, hco'⟩
  simp only at hptr hr hco'
  have hhead : mem ptr = 2 ^ i := hr.layout.holds ptr _ hptr
  have hi : 1 ≤ i := (hr.layout.fits_of_placed hptr).1
  have ht : Tiles 0 cs' h.memAreaSize := hr.layout.tiles
  have hbound := hl.bound
  simp only [hhead]
  by_cases htwin : ptr ^^^ 2 ^ i ≥ h.memAreaSize
  · rw [if_pos htwin]
    refine .pure ⟨cs', hr, hco'.close ht hptr fun hmem => ?_⟩
    have := (ht.mem_placed hmem).2.1
    have := (⟨i, none⟩ : Chunk Nat).size_pos
    omega
  rw [if_neg htwin]
  by_cases hsame : mem (ptr ^^^ 2 ^ i) = 2 ^ i
  · rw [if_neg (not_not.mpr hsame)]
    obtain ⟨d, hd⟩ := ht.twin_boundary hptr (by simpa using htwin)
    have hdh : header d = header ⟨i, none⟩ := by
      rw [← hr.layout.holds _ _ hd]; exact hsame
    obtain rfl := header_eq_free hi (hr.layout.fits_of_placed hd).1 hdh
    -- of the two buddies, `x` is the lower one
    obtain ⟨x, hx, hal, hlo, hhi, hwhich⟩ : ∃ x, (if ptr ^^^ 2 ^ i < ptr then ptr ^^^ 2 ^ i
        else ptr) = x ∧ 2 ^ (i + 1) ∣ x ∧ (x, ⟨i, none⟩) ∈ placed 0 cs' ∧
          (x + 2 ^ i, ⟨i, none⟩) ∈ placed 0 cs' ∧ (ptr = x ∨ ptr = x + 2 ^ i) := by
      have hpos : 0 < 2 ^ i := Nat.two_pow_pos i
      rcases lower_or_upper (ht.mem_placed hptr).2.2 with hal | ⟨t, rfl, hal⟩
      · rw [xor_lower hal] at hd ⊢
        exact ⟨ptr, if_neg (by omega), hal, hptr, hd, .inl rfl⟩
      · rw [xor_upper hal] at hd ⊢
        exact ⟨t, if_pos (Nat.lt_add_of_pos_right hpos), hal, hd, hptr, .inr rfl⟩
    obtain ⟨pre, post, rfl, hpre⟩ := ht.adjacent hlo hhi
    have hend := (ht.mem_placed hhi).2.1
    rw [Chunk.size_mk] at hend
    have hdouble : mem x <<< 1 = 2 ^ (i + 1) := by
      rw [hr.header_at hpre, header_free, Nat.shiftLeft_eq, ← Nat.pow_add]
    have hjoin : u32 (mem x <<< 1) = 2 ^ (i + 1) := by
      rw [hdouble, u32_of_lt (by rw [Nat.pow_succ]; omega)]
    simp only [hx, hjoin]
    obtain ⟨m, hm, -, hrest⟩ := tiles_append.mp ht
    obtain rfl := hpre.end_unique hm
    have hpost : Tiles (x + 2 ^ (i + 1)) post h.memAreaSize := by
      have := hrest.2
      rw [Chunk.size_mk, Nat.add_assoc] at this
      rwa [Nat.pow_succ, Nat.mul_two]
    refine .pure ⟨⟨_, i + 1, (mem_placed_focus hpre).mpr (.inr (.inl ⟨rfl, rfl⟩)),
      hr.join hpre hal, hco'.join hpre hpost hwhich⟩, ?_⟩
    show h.memAreaSize - Function.update mem x _ x < h.memAreaSize - mem ptr
    rw [Function.update_self, hhead, Nat.pow_succ]
    have := Nat.two_pow_pos i
    omega
  · rw [if_pos hsame]
    refine .pure ⟨cs', hr, hco'.close ht hptr fun hmem => hsame ?_⟩
    exact hr.layout.holds _ _ hmem

end Recut

/-! ## The two operations -/

section Operations

variable {h : Arena} {cs pre post : List (Chunk Nat)} {p k n : Nat} {o o' : Option Nat}

/-- Rewriting the header of one chunk, for another owner, writes no payload. -/
theorem Layout.reown (hl : Layout h (pre ++ ⟨k, o⟩ :: post)) (hpre : Tiles 0 pre p)
    (hfit : ChunkFits ⟨k, o'⟩) :
    Layout { h with memArea := Function.update h.memArea p (header ⟨k, o'⟩) }
        (pre ++ ⟨k, o'⟩ :: post) ∧
      Untouched h.memArea (Function.update h.memArea p (header ⟨k, o'⟩))
        (occupied 0 pre ++ occupied (p + 2 ^ k) post) := by
  have hpos : 0 < 2 ^ k := Nat.two_pow_pos k
  obtain ⟨p', hp', hal, -⟩ := tiles_focus.mp hl.tiles
  obtain rfl := hpre.end_unique hp'
  have hmid : ∀ r : Option Nat, Tiles p [(⟨k, r⟩ : Chunk Nat)] (p + 2 ^ k) := fun _ => ⟨hal, rfl⟩
  have hout : ∀ x, x < p ∨ p + 2 ^ k ≤ x →
      Function.update h.memArea p (header ⟨k, o'⟩) x = h.memArea x := fun x hx =>
    Function.update_of_ne (by omega) _ _
  have hl' : Layout h (pre ++ ([⟨k, o⟩] ++ post)) := hl
  refine ⟨hl'.edit hpre (hmid o) (hmid o') ?_ hout ?_, hl'.untouched hpre (hmid o) hout⟩
  · intro x c hx
    simp only [placed, List.mem_cons, Prod.mk.injEq, List.not_mem_nil, or_false] at hx
    obtain ⟨rfl, rfl⟩ := hx
    exact Function.update_self ..
  · intro c hc
    obtain rfl := List.mem_singleton.mp hc
    exact hfit

theorem occupied_focus_free (hpre : Tiles 0 pre p) :
    occupied 0 (pre ++ ⟨k, none⟩ :: post) = occupied 0 pre ++ occupied (p + 2 ^ k) post := by
  rw [occupied_append hpre]
  simp [occupied, placed]

theorem occupied_focus_used (hpre : Tiles 0 pre p) :
    occupied 0 (pre ++ ⟨k, some n⟩ :: post) =
      occupied 0 pre ++ (p, ⟨k, some n⟩) :: occupied (p + 2 ^ k) post := by
  rw [occupied_append hpre]
  simp [occupied, placed]

/-- `malloc` puts one chunk in use, large enough for the request, or changes nothing. -/
theorem malloc_spec (hl : Layout h cs) (hco : Coalesced 0 cs) (h1 : 1 ≤ n)
    (h2 : n ≤ 0xfffffff8) :
    Returns (malloc h n) fun
      | (h', none) => h' = h
      | (h', some ptr) => ∃ cs' p k, ptr = p + 1 ∧ h'.memAreaSize = h.memAreaSize ∧
          Layout h' cs' ∧ Coalesced 0 cs' ∧
          (occupied 0 cs').Perm ((p, ⟨k, some n⟩) :: occupied 0 cs) ∧
          Untouched h.memArea h'.memArea (occupied 0 cs) := by
  unfold malloc
  rw [if_neg (by omega)]
  refine (chunkSize_spec h1 h2).bind ?_
  rintro _ ⟨k, rfl, hk2, hk30, hroom⟩
  refine (searchChunk_spec hl hk30).bind fun r hr => ?_
  cases r with
  | none => exact .pure rfl
  | some p =>
      obtain ⟨⟨j, o⟩, hp, ho, hkj⟩ := hr
      cases ho
      obtain ⟨pre, post, rfl, hpre, -⟩ := hl.tiles.split_at hp
      refine (splitChunk_spec hl hpre (by omega) hkj (hco.but p)).bind ?_
      rintro mem ⟨post', hrec, hco'⟩
      have hhead : mem p = 2 ^ k := hrec.header_at hpre
      have hle := hrec.layout.size_le ((mem_placed_focus hpre).mpr (.inr (.inl ⟨rfl, rfl⟩)))
      have hbound := hrec.layout.bound
      have hval : u32 (mem p + 1) = header ⟨k, some n⟩ := by
        rw [hhead, header_used, u32_of_lt]
        simp only [Chunk.size_mk] at hle hbound
        omega
      have hfit : ChunkFits ⟨k, some n⟩ := by
        refine ⟨by simp; omega, fun m hm => ?_⟩
        cases hm
        exact ⟨h1, hroom⟩
      obtain ⟨hl', hun⟩ := hrec.layout.reown hpre hfit
      obtain ⟨m, hm, -, hpost'⟩ := tiles_focus.mp hrec.layout.tiles
      obtain rfl := hpre.end_unique hm
      have hsame := hrec.same
      rw [occupied_focus_free hpre] at hsame
      refine .pure ⟨pre ++ ⟨k, some n⟩ :: post', p, k, rfl, rfl, ?_, hco'.take hpre hpost', ?_, ?_⟩
      · rw [hval]; exact hl'
      · rw [occupied_focus_used hpre, ← hsame]
        exact List.perm_middle
      · rw [hval]
        refine hrec.untouched.trans ?_
        rw [← hsame]
        exact hun

/-- `free` puts one chunk out of use. -/
theorem free_spec (hl : Layout h cs) (hco : Coalesced 0 cs)
    (hp : (p, ⟨k, some n⟩) ∈ occupied 0 cs) :
    Returns (free h (some (p + 1))) fun h' => ∃ cs', h'.memAreaSize = h.memAreaSize ∧
      Layout h' cs' ∧ Coalesced 0 cs' ∧
      (occupied 0 cs).Perm ((p, ⟨k, some n⟩) :: occupied 0 cs') ∧
      Untouched h.memArea h'.memArea (occupied 0 cs') := by
  have hplaced := List.mem_of_mem_filter hp
  obtain ⟨pre, post, rfl, hpre, -⟩ := hl.tiles.split_at hplaced
  have hk : 1 ≤ k := (hl.fits_of_placed hplaced).1
  have hle := hl.size_le hplaced
  have hbound := hl.bound
  have hval : h.memArea p &&& 0xfffffffe = header ⟨k, none⟩ := by
    rw [hl.holds p _ hplaced, header_and_not_one hk (by omega)]; rfl
  have hfit : ChunkFits ⟨k, none⟩ := ⟨hk, fun _ hm => nomatch hm⟩
  obtain ⟨hl', hun⟩ := hl.reown hpre hfit
  unfold free
  simp only [Nat.add_sub_cancel, hval]
  refine (mergeChunk_spec hl' ((mem_placed_focus hpre).mpr (.inr (.inl ⟨rfl, rfl⟩)))
    (hco.release hpre)).bind ?_
  rintro mem ⟨cs', hrec, hco'⟩
  have hsame := hrec.same
  rw [occupied_focus_free hpre] at hsame
  refine .pure ⟨cs', rfl, hrec.layout, hco', ?_, ?_⟩
  · rw [occupied_focus_used hpre, hsame]
    exact List.perm_middle
  · rw [hsame]
    refine hun.trans ?_
    have := hrec.untouched
    rwa [occupied_focus_free hpre] at this

end Operations

/-! ## The fresh arena -/

/-- Halving stops at the largest power of two that still fits. -/
theorem shrinkToFit_spec {N ptr k : Nat} (hN : N < 2 ^ 30) (hptr : ptr < N) (hk : k < 30)
    (hlim : N < ptr + 2 ^ (k + 1)) :
    Returns (shrinkToFit N ptr (2 ^ k)) fun size =>
      ∃ j, j ≤ k ∧ size = 2 ^ j ∧ ptr + 2 ^ j ≤ N ∧ N < ptr + 2 ^ (j + 1) := by
  refine iter_total
    (I := fun size => ∃ j, j ≤ k ∧ size = 2 ^ j ∧ N < ptr + 2 ^ (j + 1)) (m := id) ?_
    ⟨k, Nat.le_refl k, rfl, hlim⟩ (Nat.lt_succ_self _)
  rintro _ ⟨j, hjk, rfl, hj⟩
  have hlt : 2 ^ j < 2 ^ 30 := Nat.pow_lt_pow_right (by decide) (by omega)
  rw [u32_of_lt (by omega)]
  split
  · next hbig =>
      obtain ⟨i, rfl⟩ : ∃ i, j = i + 1 := by
        refine Nat.exists_eq_add_one_of_ne_zero ?_
        rintro rfl
        omega
      have hhalf : 2 ^ (i + 1) >>> 1 = 2 ^ i := by
        rw [Nat.shiftRight_eq_div_pow, Nat.pow_succ]; omega
      rw [hhalf]
      exact .pure ⟨⟨i, by omega, rfl, hbig⟩, Nat.pow_lt_pow_right (by decide) (by omega)⟩
  · next hfit => exact .pure ⟨j, hjk, rfl, by omega, hj⟩

/-- What `malloc_init` has written up to `ptr`: free chunks of decreasing length. -/
structure Fresh (mem : Nat → Nat) (ptr : Nat) (cs : List (Chunk Nat)) : Prop where
  tiles : Tiles 0 cs ptr
  holds : Holds mem 0 cs
  free : ∀ c ∈ cs, c.owner = none ∧ 1 ≤ c.exp
  chain : (cs.map Chunk.exp).IsChain (· > ·)

theorem Fresh.nil (mem : Nat → Nat) : Fresh mem 0 [] where
  tiles := rfl
  holds := fun _ _ hx => nomatch hx
  free := fun _ hc => nomatch hc
  chain := .nil

theorem Fresh.push {mem : Nat → Nat} {ptr k : Nat} {cs : List (Chunk Nat)}
    (h : Fresh mem ptr cs) (hk : 1 ≤ k) (hal : 2 ^ k ∣ ptr)
    (hlast : ∀ j ∈ (cs.map Chunk.exp).getLast?, k < j) :
    Fresh (Function.update mem ptr (2 ^ k)) (ptr + 2 ^ k) (cs ++ [⟨k, none⟩]) := by
  refine ⟨tiles_append.mpr ⟨ptr, h.tiles, hal, rfl⟩, ?_, ?_, ?_⟩
  · rw [holds_append h.tiles]
    refine ⟨h.holds.congr h.tiles fun x _ hx => Function.update_of_ne (by omega) _ _, ?_⟩
    intro x c hx
    simp only [placed, List.mem_cons, Prod.mk.injEq, List.not_mem_nil, or_false] at hx
    obtain ⟨rfl, rfl⟩ := hx
    exact Function.update_self ..
  · intro c hc
    rcases List.mem_append.mp hc with hc | hc
    · exact h.free c hc
    · obtain rfl := List.mem_singleton.mp hc
      exact ⟨rfl, hk⟩
  · rw [List.map_append]
    refine List.isChain_append.2 ⟨h.chain, .singleton _, ?_⟩
    intro j hj i hi
    cases hi
    exact hlast j hj

/-- `malloc_init` leaves a coalesced arena with nothing in use. -/
theorem mallocInit_spec {start : Nat → Nat} {n : Nat} (h1 : 8 ≤ n) (h2 : n < 2 ^ 32) :
    Returns (mallocInit start n) fun h => ∃ cs, Layout h cs ∧ Coalesced 0 cs ∧
      ∀ c ∈ cs, c.owner = none := by
  have hN : n >>> 2 &&& 0xfffffffe = n / 4 - n / 4 % 2 := by
    rw [Nat.shiftRight_eq_div_pow, and_not_one (by omega)]
  unfold mallocInit
  simp only [hN]
  have hNpos : n / 4 - n / 4 % 2 ≠ 0 := by omega
  have hN2 : 2 ≤ n / 4 - n / 4 % 2 := by omega
  have hNlt : n / 4 - n / 4 % 2 < 2 ^ 30 := by omega
  have heven : (n / 4 - n / 4 % 2) % 2 = 0 := by omega
  generalize n / 4 - n / 4 % 2 = N at *
  have hlog := Nat.log2_self_le hNpos
  have hlog' := @Nat.lt_log2_self N
  have hlog1 : 1 ≤ N.log2 := (Nat.le_log2 hNpos).mpr (by omega)
  refine (clearLowBits_spec hlog hlog').bind fun size hsize => ?_
  subst hsize
  refine Returns.bind (P := fun mem => ∃ cs, Fresh mem N cs) ?_ ?_
  · refine iter_total
      (I := fun s : (Nat → Nat) × Nat × Nat => ∃ cs k, s.2.2 = 2 ^ k ∧ 1 ≤ k ∧
        Fresh s.1 s.2.1 cs ∧ 2 ^ k ∣ s.2.1 ∧ (∀ j ∈ (cs.map Chunk.exp).getLast?, k < j) ∧
        s.2.1 + 2 ^ k ≤ N ∧ N < s.2.1 + 2 ^ (k + 1))
      (m := fun s => N - s.2.1) ?_
      ⟨[], N.log2, rfl, hlog1, .nil start, Nat.dvd_zero _, by simp, by simpa using hlog,
        by simpa using hlog'⟩ (Nat.lt_succ_self _)
    rintro ⟨mem, ptr, size⟩ ⟨cs, k, hsize, hk, hf, hal, hlast, hfit, hnofit⟩
    simp only at hsize hf hal hfit hnofit
    subst hsize
    have hpush := hf.push hk hal hlast
    have hpos : 0 < 2 ^ k := Nat.two_pow_pos k
    simp only [u32_of_lt (show ptr + 2 ^ k < 2 ^ 32 by omega)]
    by_cases hend : ptr + 2 ^ k ≥ N
    · rw [if_pos hend]
      obtain rfl : N = ptr + 2 ^ k := by omega
      exact .pure ⟨_, hpush⟩
    · rw [if_neg hend]
      have hk30 : k < 30 := exp_lt_of_size_le (n := N) (by omega) hNlt
      refine (shrinkToFit_spec hNlt (by omega) hk30 (by omega)).bind ?_
      rintro _ ⟨j, hjk, rfl, hjfit, hjnofit⟩
      have hlt : j < k := by
        refine Nat.lt_of_le_of_ne hjk ?_
        rintro rfl
        rw [Nat.pow_succ] at hnofit
        omega
      have hj1 : 1 ≤ j := by
        have hk2 : 2 ∣ 2 ^ k := dvd_pow_self 2 (by omega)
        have hptr2 : 2 ∣ ptr := hk2.trans hal
        by_contra hj0
        obtain rfl : j = 0 := by omega
        omega
      refine .pure ⟨⟨_, j, rfl, hj1, hpush, ?_, ?_, hjfit, hjnofit⟩, ?_⟩
      · exact Nat.dvd_add ((Nat.pow_dvd_pow 2 hjk).trans hal) (Nat.pow_dvd_pow 2 hjk)
      · simpa using hlt
      · show N - (ptr + 2 ^ k) < N - ptr
        omega
  · rintro mem ⟨cs, hf⟩
    refine .pure ⟨cs, ⟨by simp; omega, hNlt, hf.tiles, hf.holds, fun c hc => ⟨(hf.free c hc).2, ?_⟩⟩,
      coalesced_of_chain hf.chain, fun c hc => (hf.free c hc).1⟩
    intro m hm
    rw [(hf.free c hc).1] at hm
    cases hm

end Novo7
