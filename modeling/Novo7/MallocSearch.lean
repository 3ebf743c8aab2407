import Novo7.MallocRuns

/-!
# Requests of any size

What a request does to the heap, told by the headers alone: the search looks at headers only and
fails only if no free chunk is long enough; otherwise one free chunk is cut, its first piece goes
to the user and the others stay free (`malloc_finds`). The length of that piece is computed in 32
bits, which is right up to `0xfffffff8` bytes and wrong above (`malloc_sound_iff`).
-/

namespace Novo7

open Machine Buddy

/-! ## What one request does -/

/-- The words at which the search looks. -/
def searchReads (h : Arena) (size : Nat) : List Nat :=
  rounds (searchStep h size) (h.memAreaSize + 1) 0

/-- A free chunk of the headers. -/
def FreeHeader (e : Nat × Nat) : Prop := e.2 &&& 1 = 0

/-- The free chunk at `p` of `len` words has been cut: its first `size` words are in use, the rest
is free, and nothing outside of it was written. -/
structure Taken (h h' : Arena) (size p len : Nat) (pre pieces post : List (Nat × Nat)) : Prop where
  before : walk h = pre ++ (p, len) :: post
  free : FreeHeader (p, len)
  after : walk h' = pre ++ (p, size + 1) :: (pieces ++ post)
  pieces : ∀ e ∈ pieces, FreeHeader e ∧ p + size ≤ e.1 ∧ e.1 + e.2 ≤ p + len
  outside : ∀ y, y < p ∨ p + len ≤ y → h'.memArea y = h.memArea y

section Request

variable {h : Arena} {cs pre post : List (Chunk Nat)} {p k j n : Nat}

/-- Halving leaves free pieces behind the one asked for. -/
theorem splitChunk_pieces (hl : Layout h (pre ++ ⟨j, none⟩ :: post)) (hpre : Tiles 0 pre p)
    (hk : 1 ≤ k) (hkj : k ≤ j) :
    Returns (splitChunk h.memArea p (2 ^ k)) fun mem' => ∃ pieces,
      Layout { h with memArea := mem' } (pre ++ ⟨k, none⟩ :: (pieces ++ post)) ∧
        (∀ c ∈ pieces, c.owner = none) ∧ Tiles (p + 2 ^ k) pieces (p + 2 ^ j) ∧
          ∀ y, y < p ∨ p + 2 ^ j ≤ y → mem' y = h.memArea y := by
  refine iter_total
    (I := fun mem => ∃ i pieces, k ≤ i ∧ i ≤ j ∧
      Recut h (pre ++ ⟨j, none⟩ :: post) mem (pre ++ ⟨i, none⟩ :: (pieces ++ post)) ∧
        (∀ c ∈ pieces, c.owner = none) ∧ Tiles (p + 2 ^ i) pieces (p + 2 ^ j) ∧
          ∀ y, y < p ∨ p + 2 ^ j ≤ y → mem y = h.memArea y)
    (m := fun mem => mem p) ?_
    ⟨j, [], hkj, Nat.le_refl j, hl.recut, (fun _ hc => nomatch hc), rfl, fun _ _ => rfl⟩
    (Nat.lt_succ_self _)
  rintro mem ⟨i, pieces, hki, hij, hr, hfree, htiles, hout⟩
  have hhead : mem p = 2 ^ i := hr.header_at hpre
  rcases Nat.eq_or_lt_of_le hki with rfl | hlt
  · rw [if_neg (by omega)]
    exact .pure ⟨pieces, hr.layout, hfree, htiles, hout⟩
  · obtain ⟨i, rfl⟩ := Nat.exists_eq_add_one_of_ne_zero (show i ≠ 0 by omega)
    have hpos : 0 < 2 ^ i := Nat.two_pow_pos i
    have hhalf : mem p >>> 1 = 2 ^ i := by
      rw [hhead, Nat.shiftRight_eq_div_pow, Nat.pow_succ]
      omega
    have hlen : 2 ^ (i + 1) ≤ 2 ^ j := Nat.pow_le_pow_right (by decide) hij
    rw [if_pos (by rw [hhead]; exact Nat.pow_lt_pow_right (by decide) hlt), hhalf]
    simp only [Function.update_self]
    obtain ⟨p', hp', hal, -⟩ := tiles_focus.mp hr.layout.tiles
    obtain rfl := hpre.end_unique hp'
    have hpieces : Tiles (p + 2 ^ i) (⟨i, none⟩ :: pieces) (p + 2 ^ j) := by
      refine ⟨Nat.dvd_add ((Nat.pow_dvd_pow 2 (Nat.le_succ i)).trans hal) (Nat.dvd_refl _), ?_⟩
      rwa [Chunk.size_mk, Nat.add_assoc, ← Nat.two_mul, ← Nat.pow_succ']
    refine .pure ⟨⟨i, ⟨i, none⟩ :: pieces, by omega, by omega, hr.split (by omega) hpre, ?_,
      hpieces, fun y hy => ?_⟩, ?_⟩
    · intro c hc
      rcases List.mem_cons.mp hc with rfl | hc
      · rfl
      · exact hfree c hc
    · rw [Nat.pow_succ] at hlen
      rw [Function.update_of_ne (by omega), Function.update_of_ne (by omega)]
      exact hout y hy
    · show Function.update (Function.update mem p _) _ _ p < mem p
      rw [Function.update_of_ne (by omega), Function.update_self, hhead, Nat.pow_succ]
      omega

/-- The headers of a tiling, as the walk meets them. -/
def headers (a : Nat) (cs : List (Chunk Nat)) : List (Nat × Nat) :=
  (placed a cs).map fun e => (e.1, header e.2)

theorem headers_focus {c : Chunk Nat} (hpre : Tiles 0 pre p) :
    headers 0 (pre ++ c :: post) =
      headers 0 pre ++ (p, header c) :: headers (p + c.size) post := by
  rw [headers, placed_append hpre, List.map_append]
  rfl

theorem headers_append {a m : Nat} (hpre : Tiles a pre m) :
    headers a (pre ++ post) = headers a pre ++ headers m post := by
  rw [headers, placed_append hpre, List.map_append, headers, headers]

theorem freeHeader_iff {c : Chunk Nat} (hc : 1 ≤ c.exp) (x : Nat) :
    FreeHeader (x, header c) ↔ c.owner = none := by
  rw [FreeHeader, header_and_one hc]
  cases c.owner <;> simp

/-- The chunk that a request takes, and that it takes one. -/
theorem malloc_taken (hl : Layout h cs) (h1 : 1 ≤ n) (h2 : n ≤ 0xfffffff8) :
    Returns (chunkSize n) fun size => n + 4 ≤ 4 * size ∧
      (∀ x ∈ searchReads h size, ∃ e ∈ walk h, e.1 = x) ∧
      Returns (malloc h n) fun r =>
        (r.2 = none ∧ r.1 = h ∧ ∀ e ∈ walk h, FreeHeader e → e.2 < size) ∨
        ∃ p len pre pieces post, r.2 = some (p + 1) ∧ r.1.memAreaSize = h.memAreaSize ∧
          size ≤ len ∧ p + len ≤ h.memAreaSize ∧ Taken h r.1 size p len pre pieces post := by
  obtain ⟨_, hsize, k, rfl, hk2, hk30, hroom⟩ := chunkSize_spec h1 h2
  refine ⟨2 ^ k, hsize, hroom, fun x hx => ?_, ?_⟩
  · obtain ⟨⟨c, hp⟩, -⟩ := rounds_inv (fun ptr => searchStep_round hl hk30 ptr)
      (hl.searching_zero k) x hx
    exact ⟨(x, header c), by rw [hl.walk_eq]; exact List.mem_map.mpr ⟨(x, c), hp, rfl⟩, rfl⟩
  · unfold malloc
    rw [if_neg (by omega), hsize]
    refine Returns.bind (P := (· = 2 ^ k)) (.pure rfl) ?_
    rintro _ rfl
    refine (searchChunk_spec hl hk30).bind fun r hr => ?_
    cases r with
    | none =>
        refine .pure (.inl ⟨rfl, rfl, fun e he hfree => ?_⟩)
        rw [hl.walk_eq] at he
        obtain ⟨⟨x, c⟩, hx, rfl⟩ := List.mem_map.mp he
        have hfit := (hl.fits_of_placed hx).1
        have hnone := (freeHeader_iff hfit x).mp hfree
        have hlt : c.exp < k := hr x c hx hnone
        show header c < 2 ^ k
        rw [header, hnone]
        exact Nat.pow_lt_pow_right (by decide) hlt
    | some p =>
        obtain ⟨⟨j, o⟩, hp, ho, hkj⟩ := hr
        cases ho
        have hle := hl.size_le hp
        obtain ⟨pre, post, rfl, hpre, -⟩ := hl.tiles.split_at hp
        refine (splitChunk_pieces hl hpre (by omega) hkj).bind ?_
        rintro mem ⟨pieces, hl', hfree, htiles, hout⟩
        have hfit : ChunkFits ⟨k, some n⟩ := by
          refine ⟨by show 1 ≤ k; omega, fun m hm => ?_⟩
          cases hm
          exact ⟨h1, hroom⟩
        have hval : u32 (mem p + 1) = header ⟨k, some n⟩ := by
          have hplaced : (p, (⟨k, none⟩ : Chunk Nat)) ∈ placed _ (pre ++ ⟨k, none⟩ :: (pieces ++ post)) :=
            (mem_placed_focus hpre).mpr (.inr (.inl ⟨rfl, rfl⟩))
          have hhead : mem p = 2 ^ k := hl'.holds p _ hplaced
          have hend : p + 2 ^ k ≤ h.memAreaSize := hl'.size_le hplaced
          have hbound := hl.bound
          rw [hhead, header_used, u32_of_lt (by omega)]
        obtain ⟨hl'', -⟩ := hl'.reown hpre hfit
        refine .pure (.inr ⟨p, 2 ^ j, headers 0 pre, headers (p + 2 ^ k) pieces,
          headers (p + 2 ^ j) post, rfl, rfl, Nat.pow_le_pow_right (by decide) hkj, hle, ?_⟩)
        rw [hval]
        refine ⟨hl.walk_eq.trans (headers_focus hpre),
          (freeHeader_iff (c := ⟨j, none⟩) (hl.fits_of_placed hp).1 p).mpr rfl, ?_, fun e he => ?_,
          fun y hy => ?_⟩
        · rw [hl''.walk_eq]
          exact (headers_focus hpre).trans (by rw [Chunk.size_mk, headers_append htiles]; rfl)
        · obtain ⟨⟨x, c⟩, hx, rfl⟩ := List.mem_map.mp he
          have hmem := mem_of_mem_placed hx
          have hexp := (hl''.fits c (by simp [hmem])).1
          obtain ⟨hlow, hhigh, -⟩ := htiles.mem_placed hx
          refine ⟨(freeHeader_iff hexp x).mpr (hfree c hmem), hlow, ?_⟩
          show x + header c ≤ _
          rw [header, hfree c hmem]
          exact hhigh
        · have hpos : 0 < 2 ^ j := Nat.two_pow_pos j
          show Function.update mem p _ y = _
          rw [Function.update_of_ne (by omega)]
          exact hout y hy

end Request

/-! ## In every run -/

/-- A request finds a chunk exactly if a free one is long enough, looks at headers only, takes the
first piece of one free chunk and changes nothing else. -/
theorem malloc_finds {start : Nat → Nat} {n : Nat} (h1 : 8 ≤ n) (h2 : n < 2 ^ 32) :
    Returns (mallocInit start n) fun h => ∀ s, Reaches h s → ∀ m, 1 ≤ m → m ≤ 0xfffffff8 →
      Returns (chunkSize m) fun size =>
        (∀ x ∈ searchReads s.heap size, ∃ e ∈ walk s.heap, e.1 = x) ∧
        Returns (malloc s.heap m) fun r =>
          (r.2 = none ↔ ∀ e ∈ walk s.heap, FreeHeader e → e.2 < size) ∧
          (r.2 = none → r.1 = s.heap) ∧
          ∀ ptr, r.2 = some ptr → ∃ p len pre pieces post, ptr = p + 1 ∧
            Taken s.heap r.1 size p len pre pieces post := by
  refine (mallocInit_inv h1 h2).mono ?_
  rintro h ⟨cs, h0⟩ s hr m hm1 hm2
  obtain ⟨cs', hs⟩ := h0.reaches hr
  refine (malloc_taken hs.layout hm1 hm2).mono ?_
  rintro size ⟨-, hreads, hrun⟩
  refine ⟨hreads, hrun.mono ?_⟩
  rintro r (⟨hnone, hsame, hsmall⟩ | ⟨p, len, pre, pieces, post, hsome, -, hle, -, htaken⟩)
  · refine ⟨⟨fun _ => hsmall, fun _ => hnone⟩, fun _ => hsame, fun ptr hptr => ?_⟩
    rw [hnone] at hptr
    cases hptr
  · refine ⟨⟨fun hnone => ?_, fun hsmall => ?_⟩, fun hnone => ?_, fun ptr hptr => ?_⟩
    · rw [hnone] at hsome
      cases hsome
    · have hlt := hsmall (p, len) (by rw [htaken.before]; simp) htaken.free
      exact absurd hle (Nat.not_le.mpr hlt)
    · rw [hnone] at hsome
      cases hsome
    · rw [hsome] at hptr
      cases hptr
      exact ⟨p, len, pre, pieces, post, rfl, htaken⟩

theorem malloc_finds_sixteen :
    Returns (mallocInit (fun _ => 0) 16) fun h => ∀ s, Reaches h s → ∀ m, 1 ≤ m → m ≤ 0xfffffff8 →
      Returns (chunkSize m) fun size =>
        (∀ x ∈ searchReads s.heap size, ∃ e ∈ walk s.heap, e.1 = x) ∧
        Returns (malloc s.heap m) fun r =>
          (r.2 = none ↔ ∀ e ∈ walk s.heap, FreeHeader e → e.2 < size) ∧
          (r.2 = none → r.1 = s.heap) ∧
          ∀ ptr, r.2 = some ptr → ∃ p len pre pieces post, ptr = p + 1 ∧
            Taken s.heap r.1 size p len pre pieces post :=
  malloc_finds (by decide) (by decide)

/-! ## Sizes near the word length -/

/-- The chunk computed for a request holds it with a header, and the request returns such a chunk
inside of the arena, or nothing and leaves the heap as it is. -/
def MallocSound (h : Arena) (m : Nat) : Prop :=
  Returns (chunkSize m) (fun size => m + 4 ≤ 4 * size) ∧
    Returns (malloc h m) fun r => (r.2 = none ∧ r.1 = h) ∨
      ∃ p len, r.2 = some (p + 1) ∧ (p, len + 1) ∈ walk r.1 ∧ m + 4 ≤ 4 * len ∧
        p + len ≤ r.1.memAreaSize

/-- Above `0xfffffff8` the sum wraps and the chunk has two words or none. -/
theorem chunkSize_wrapped {m : Nat} (h1 : 0xfffffff8 < m) (h2 : m < 2 ^ 32) :
    Returns (chunkSize m) fun size => size ≤ 2 := by
  have hr : u32 (m + 7) >>> 2 < 2 := by
    rw [u32, Nat.shiftRight_eq_div_pow]
    omega
  unfold chunkSize
  generalize u32 (m + 7) >>> 2 = v at hr
  obtain rfl | rfl : v = 0 ∨ v = 1 := by omega
  · exact ⟨0, by decide, by decide⟩
  · exact ⟨2, by decide, by decide⟩

/-- In every heap that a fresh arena comes to, a request is served soundly exactly if its size is
at most `0xfffffff8`. -/
theorem malloc_sound_iff {start : Nat → Nat} {n : Nat} (h1 : 8 ≤ n) (h2 : n < 2 ^ 32) :
    Returns (mallocInit start n) fun h => ∀ s, Reaches h s → ∀ m, 0 < m → m < 2 ^ 32 →
      (MallocSound s.heap m ↔ m ≤ 0xfffffff8) := by
  refine (mallocInit_inv h1 h2).mono ?_
  rintro h ⟨cs, h0⟩ s hr m hpos hm
  obtain ⟨cs', hs⟩ := h0.reaches hr
  constructor
  · rintro ⟨hsize, -⟩
    by_contra hbig
    obtain ⟨size, hrun, hle⟩ := chunkSize_wrapped (Nat.lt_of_not_le hbig) hm
    have := hsize.elim hrun
    omega
  · intro hle
    obtain ⟨size, hsize, hroom, -, hrun⟩ := malloc_taken hs.layout hpos hle
    refine ⟨⟨size, hsize, hroom⟩, hrun.mono ?_⟩
    rintro r (⟨hnone, hsame, -⟩ | ⟨p, len, pre, pieces, post, hsome, harea, hlen, hend, htaken⟩)
    · exact .inl ⟨hnone, hsame⟩
    · exact .inr ⟨p, size, hsome, by rw [htaken.after]; simp, hroom, by omega⟩

theorem malloc_sound_iff_sixteen :
    Returns (mallocInit (fun _ => 0) 16) fun h => ∀ s, Reaches h s → ∀ m, 0 < m → m < 2 ^ 32 →
      (MallocSound s.heap m ↔ m ≤ 0xfffffff8) :=
  malloc_sound_iff (by decide) (by decide)

/-- A fresh arena of 16 bytes hands out 4 bytes for a request of `0xfffffffd`. -/
theorem malloc_sizes_wrap :
    ∃ h, mallocInit (fun _ => 0) 16 = some h ∧ (malloc h 0xfffffffd).map Prod.snd = some (some 1) ∧
      (malloc h 0xfffffffd).map (fun r => walk r.1) = some [(0, 3), (2, 2)] ∧
      ¬ MallocSound h 0xfffffffd := by
  refine ⟨_, rfl, rfl, rfl, fun hsound => ?_⟩
  have hwrap := hsound.1.elim (show chunkSize 0xfffffffd = some 2 from rfl)
  omega

end Novo7
