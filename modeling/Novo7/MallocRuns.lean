import Mathlib.Logic.Relation
import Novo7.MallocLayout

/-!
# Runs of the heap

A session is the heap together with the blocks its user holds. `Step` is everything a user
may do — request, free what it holds, write the bytes it asked for — and `SessionInv` is what
every such step keeps: the arena is a coalesced buddy tiling whose chunks in use are exactly
the blocks held.

Well-formedness of the heap in every reachable session (`heap_reaches_ok`) and the return to
the fresh arena once everything is freed (`free_all_restores`) are read off that invariant.
The second needs no bookkeeping of the run at all: a coalesced tiling with nothing in use is
unique.
-/

namespace Novo7

open Machine Buddy

/-! ## Runs -/

/-- A block the user holds, with the number of bytes it was asked for. -/
structure Block where
  ptr : Nat
  req : Nat
  deriving Repr, DecidableEq

/-- The heap and the blocks obtained from it that have not been freed. -/
structure Session where
  heap : Arena
  live : List Block

/-- What a user of the heap may do: request up to `0xfffffff8` bytes, free `NULL` or a block
it holds, and write any word that holds requested bytes of such a block. -/
inductive Step : Session → Session → Prop
  | malloc {s : Session} {h' : Arena} {n p : Nat} (hn : n ≤ 0xfffffff8)
      (hrun : malloc s.heap n = some (h', some p)) : Step s ⟨h', ⟨p, n⟩ :: s.live⟩
  | refused {s : Session} {h' : Arena} {n : Nat} (hn : n ≤ 0xfffffff8)
      (hrun : malloc s.heap n = some (h', none)) : Step s ⟨h', s.live⟩
  | freeNull {s : Session} {h' : Arena} (hrun : free s.heap none = some h') :
      Step s ⟨h', s.live⟩
  | free {s : Session} {h' : Arena} {b : Block} (hb : b ∈ s.live)
      (hrun : free s.heap (some b.ptr) = some h') : Step s ⟨h', s.live.erase b⟩
  | write {s : Session} {b : Block} {i v : Nat} (hb : b ∈ s.live) (hi : i < (b.req + 3) / 4)
      (hv : v < 2 ^ 32) :
      Step s ⟨{ s.heap with memArea := Function.update s.heap.memArea (b.ptr + i) v }, s.live⟩

/-- The sessions a fresh heap can come to. -/
def Reaches (h : Arena) (s : Session) : Prop := Relation.ReflTransGen Step ⟨h, []⟩ s

/-- The words of a block after its header, as the header gives their number. -/
def InPayload (h : Arena) (b : Block) (y : Nat) : Prop :=
  b.ptr ≤ y ∧ y < b.ptr - 1 + (h.memArea (b.ptr - 1) &&& 0xfffffffe)

/-- The headers tile the arena, and the blocks held are disjoint, inside and long enough. -/
structure HeapOK (s : Session) : Prop where
  tiling : ∃ cs : List (Chunk Nat), Tiles 0 cs s.heap.memAreaSize ∧
    walk s.heap = (placed 0 cs).map fun e => (e.1, header e.2)
  disjoint : s.live.Pairwise fun b c => ∀ y, ¬ (InPayload s.heap b y ∧ InPayload s.heap c y)
  inside : ∀ b ∈ s.live, ∀ y, InPayload s.heap b y → y < s.heap.memAreaSize
  long : ∀ b ∈ s.live, b.req ≤ 4 * ((s.heap.memArea (b.ptr - 1) &&& 0xfffffffe) - 1)

/-- An operation that leaves the payloads of some blocks as they are. -/
def Keeps (h h' : Arena) (live : List Block) : Prop :=
  ∀ b ∈ live, ∀ y, InPayload h b y → h'.memArea y = h.memArea y

/-- The block whose header is the chunk `e`. -/
def blockOf (e : Nat × Chunk Nat) : Block := ⟨e.1 + 1, e.2.owner.getD 0⟩

/-- The invariant of every run: a coalesced buddy tiling whose chunks in use are the blocks
held. -/
structure SessionInv (N : Nat) (s : Session) (cs : List (Chunk Nat)) : Prop where
  size : s.heap.memAreaSize = N
  layout : Layout s.heap cs
  coalesced : Coalesced 0 cs
  live : s.live.Perm ((occupied 0 cs).map blockOf)

section Invariant

variable {N : Nat} {s : Session} {cs : List (Chunk Nat)} {b : Block}

theorem mem_occupied {x : Nat} {c : Chunk Nat} :
    (x, c) ∈ occupied 0 cs ↔ (x, c) ∈ placed 0 cs ∧ ∃ n, c.owner = some n := by
  simp [occupied, List.mem_filter, Option.isSome_iff_exists]

/-- The chunk of a block that is held. -/
theorem SessionInv.chunk (hs : SessionInv N s cs) (hb : b ∈ s.live) :
    ∃ p k n, b = ⟨p + 1, n⟩ ∧ (p, ⟨k, some n⟩) ∈ occupied 0 cs := by
  obtain ⟨⟨p, k, o⟩, he, rfl⟩ := List.mem_map.mp (hs.live.mem_iff.mp hb)
  obtain ⟨-, n, rfl⟩ := mem_occupied.mp he
  exact ⟨p, k, n, rfl, he⟩

theorem Layout.inPayload {h : Arena} {e : Nat × Chunk Nat} {y : Nat} (hl : Layout h cs)
    (he : e ∈ placed 0 cs) :
    InPayload h (blockOf e) y ↔ e.1 < y ∧ y < e.1 + e.2.size := by
  have hle := hl.size_le he
  have hbound := hl.bound
  simp only [InPayload, blockOf, Nat.add_sub_cancel]
  rw [hl.holds e.1 e.2 he, header_and_not_one (hl.fits_of_placed he).1 (by omega)]
  omega

/-- The walk meets the chunks of the layout. -/
theorem Layout.walk_eq {h : Arena} (hl : Layout h cs) :
    walk h = (placed 0 cs).map fun e => (e.1, header e.2) := by
  have hwalk : ∀ (ds : List (Chunk Nat)) (a fuel : Nat), Tiles a ds h.memAreaSize →
      Holds h.memArea a ds → (∀ d ∈ ds, ChunkFits d) → h.memAreaSize ≤ a + fuel →
      walkFrom h fuel a = (placed a ds).map fun e => (e.1, header e.2) := by
    intro ds
    induction ds with
    | nil =>
        intro a fuel ht _ _ _
        cases ht
        cases fuel <;> simp [walkFrom, placed]
    | cons d ds ih =>
        intro a fuel ht hh hfit hfuel
        have hpos := d.size_pos
        have hend := ht.2.le
        have hbound := hl.bound
        obtain ⟨fuel, rfl⟩ := Nat.exists_eq_add_one_of_ne_zero (show fuel ≠ 0 by omega)
        have hd : h.memArea a = header d := hh a d List.mem_cons_self
        rw [walkFrom, if_pos (by omega), hd,
          header_and_not_one (hfit d List.mem_cons_self).1 (by omega),
          ih _ fuel ht.2 (fun x c hx => hh x c (List.mem_cons_of_mem _ hx))
            (fun c hc => hfit c (List.mem_cons_of_mem _ hc)) (by omega)]
        rfl
  exact hwalk cs 0 _ hl.tiles hl.holds hl.fits (by omega)

theorem SessionInv.heapOK (hs : SessionInv N s cs) : HeapOK s := by
  obtain ⟨-, hl, -, hperm⟩ := id hs
  refine ⟨⟨cs, hl.tiles, hl.walk_eq⟩, ?_, ?_, ?_⟩
  · rw [hperm.pairwise_iff fun hbc y hy => hbc y hy.symm, List.pairwise_map]
    refine (hl.tiles.pairwise.filter _).imp_of_mem fun {e f} he hf hef y => ?_
    rw [hl.inPayload (List.mem_of_mem_filter he), hl.inPayload (List.mem_of_mem_filter hf)]
    omega
  · intro b hb y hy
    obtain ⟨p, k, n, rfl, he⟩ := hs.chunk hb
    have hplaced := List.mem_of_mem_filter he
    have hle := hl.size_le hplaced
    obtain ⟨-, hlt⟩ := (hl.inPayload hplaced).mp hy
    exact Nat.lt_of_lt_of_le hlt hle
  · intro b hb
    obtain ⟨p, k, n, rfl, he⟩ := hs.chunk hb
    have hplaced := List.mem_of_mem_filter he
    have hle := hl.size_le hplaced
    have hbound := hl.bound
    have hfit := hl.fits_of_placed hplaced
    have hroom := (hfit.2 n rfl).2
    simp only [Nat.add_sub_cancel]
    rw [hl.holds p _ hplaced, header_and_not_one hfit.1 (by omega)]
    omega

theorem SessionInv.keeps {h' : Arena} (hs : SessionInv N s cs) {live : List Block}
    (hlive : ∀ b ∈ live, ∃ e ∈ occupied 0 cs, b = blockOf e ∧
      ∀ y, e.1 < y → y < e.1 + e.2.size → h'.memArea y = s.heap.memArea y) :
    Keeps s.heap h' live := by
  intro b hb y hy
  obtain ⟨e, he, rfl, hun⟩ := hlive b hb
  obtain ⟨h1, h2⟩ := (hs.layout.inPayload (List.mem_of_mem_filter he)).mp hy
  exact hun y h1 h2

/-- What one request does to the invariant. -/
theorem SessionInv.malloc (hs : SessionInv N s cs) {n : Nat} (hn : n ≤ 0xfffffff8) :
    Returns (malloc s.heap n) fun r => Keeps s.heap r.1 s.live ∧ match r with
      | (h', none) => h' = s.heap
      | (h', some ptr) => ∃ cs', SessionInv N ⟨h', ⟨ptr, n⟩ :: s.live⟩ cs' := by
  obtain ⟨hN, hl, hco, hperm⟩ := id hs
  rcases Nat.eq_zero_or_pos n with rfl | hpos
  · exact .pure ⟨fun _ _ _ _ => rfl, rfl⟩
  · refine (malloc_spec hl hco hpos hn).mono ?_
    rintro ⟨h', _ | ptr⟩ hr
    · cases hr
      exact ⟨fun _ _ _ _ => rfl, rfl⟩
    · obtain ⟨cs', p, k, rfl, hsize, hl', hco', hocc, hun⟩ := hr
      refine ⟨hs.keeps fun b hb => ?_, cs', hsize.trans hN, hl', hco', ?_⟩
      · obtain ⟨e, he, rfl⟩ := List.mem_map.mp (hperm.mem_iff.mp hb)
        exact ⟨e, he, rfl, hun e he⟩
      · exact (hperm.cons _).trans (hocc.map blockOf).symm

/-- What freeing a block that is held does to the invariant. -/
theorem SessionInv.free (hs : SessionInv N s cs) (hb : b ∈ s.live) :
    Returns (free s.heap (some b.ptr)) fun h' => Keeps s.heap h' (s.live.erase b) ∧
      ∃ cs', SessionInv N ⟨h', s.live.erase b⟩ cs' := by
  obtain ⟨hN, hl, hco, hperm⟩ := id hs
  obtain ⟨p, k, n, rfl, he⟩ := hs.chunk hb
  refine (free_spec hl hco he).mono ?_
  rintro h' ⟨cs', hsize, hl', hco', hocc, hun⟩
  have herase : (s.live.erase ⟨p + 1, n⟩).Perm ((occupied 0 cs').map blockOf) := by
    have hcons := hperm.trans (hocc.map blockOf)
    have := hcons.erase (blockOf (p, ⟨k, some n⟩))
    rwa [List.map_cons, List.erase_cons_head] at this
  refine ⟨hs.keeps fun b hb => ?_, cs', hsize.trans hN, hl', hco', herase⟩
  obtain ⟨e, he', rfl⟩ := List.mem_map.mp (herase.mem_iff.mp hb)
  exact ⟨e, hocc.mem_iff.mpr (List.mem_cons_of_mem _ he'), rfl, hun e he'⟩

/-- A user write inside a block that is held is no header. -/
theorem SessionInv.write (hs : SessionInv N s cs) (hb : b ∈ s.live) {i v : Nat}
    (hi : i < (b.req + 3) / 4) :
    SessionInv N ⟨{ s.heap with memArea := Function.update s.heap.memArea (b.ptr + i) v }, s.live⟩
      cs := by
  obtain ⟨hN, hl, hco, hperm⟩ := id hs
  obtain ⟨p, k, n, rfl, he⟩ := hs.chunk hb
  have hplaced := List.mem_of_mem_filter he
  have hroom := ((hl.fits_of_placed hplaced).2 n rfl).2
  rw [Chunk.size_mk] at hroom
  refine ⟨hN, ⟨hl.pos, hl.bound, hl.tiles, fun x c hx => ?_, hl.fits⟩, hco, hperm⟩
  have hne : x ≠ p + 1 + i := by
    rintro rfl
    have := hl.tiles.placed_disjoint hplaced hx (by omega)
    rw [Chunk.size_mk] at this
    simp only at hi
    omega
  show Function.update s.heap.memArea (p + 1 + i) v x = header c
  rw [Function.update_of_ne hne, hl.holds x c hx]

theorem SessionInv.step {s' : Session} (hs : SessionInv N s cs) (h : Step s s') :
    ∃ cs', SessionInv N s' cs' := by
  cases h with
  | malloc hn hrun => exact ((hs.malloc hn).elim hrun).2
  | refused hn hrun =>
      have := ((hs.malloc hn).elim hrun).2
      cases this
      exact ⟨cs, hs⟩
  | freeNull hrun =>
      cases hrun
      exact ⟨cs, hs⟩
  | free hb hrun => exact ((hs.free hb).elim hrun).2
  | write hb hi _ => exact ⟨cs, hs.write hb hi⟩

theorem SessionInv.reaches {h : Arena} (h0 : SessionInv N ⟨h, []⟩ cs) (hr : Reaches h s) :
    ∃ cs', SessionInv N s cs' := by
  induction hr with
  | refl => exact ⟨cs, h0⟩
  | tail _ hstep ih =>
      obtain ⟨cs', hs⟩ := ih
      exact hs.step hstep

end Invariant

theorem mallocInit_inv {start : Nat → Nat} {n : Nat} (h1 : 8 ≤ n) (h2 : n < 2 ^ 32) :
    Returns (mallocInit start n) fun h => ∃ cs, SessionInv h.memAreaSize ⟨h, []⟩ cs := by
  refine (mallocInit_spec h1 h2).mono ?_
  rintro h ⟨cs, hl, hco, hfree⟩
  exact ⟨cs, rfl, hl, hco, by rw [occupied_free hfree]; exact .nil⟩

/-- In every session a fresh arena can come to, the heap is well formed, the allocator
returns, and no allocator call writes a payload that stays in use. -/
theorem heap_reaches_ok {start : Nat → Nat} {n : Nat} (h1 : 8 ≤ n) (h2 : n < 2 ^ 32) :
    Returns (mallocInit start n) fun h => ∀ s, Reaches h s → HeapOK s ∧
      (∀ m ≤ 0xfffffff8, Returns (malloc s.heap m) fun r => Keeps s.heap r.1 s.live) ∧
      (∀ b ∈ s.live, Returns (free s.heap (some b.ptr)) fun h' =>
        Keeps s.heap h' (s.live.erase b)) ∧
      Returns (free s.heap none) fun h' => h' = s.heap := by
  refine (mallocInit_inv h1 h2).mono ?_
  rintro h ⟨cs, h0⟩ s hr
  obtain ⟨cs', hs⟩ := h0.reaches hr
  exact ⟨hs.heapOK, fun m hm => (hs.malloc hm).mono fun _ h => h.1,
    fun b hb => (hs.free hb).mono fun _ h => h.1, .pure rfl⟩

theorem heap_reaches_ok_sixteen :
    Returns (mallocInit (fun _ => 0) 16) fun h => ∀ s, Reaches h s → HeapOK s ∧
      (∀ m ≤ 0xfffffff8, Returns (malloc s.heap m) fun r => Keeps s.heap r.1 s.live) ∧
      (∀ b ∈ s.live, Returns (free s.heap (some b.ptr)) fun h' =>
        Keeps s.heap h' (s.live.erase b)) ∧
      Returns (free s.heap none) fun h' => h' = s.heap :=
  heap_reaches_ok (by decide) (by decide)

/-- Once every block has been freed, the headers are again those `malloc_init` wrote. -/
theorem free_all_restores {start : Nat → Nat} {n : Nat} (h1 : 8 ≤ n) (h2 : n < 2 ^ 32) :
    Returns (mallocInit start n) fun h =>
      ∀ s, Reaches h s → s.live = [] → walk s.heap = walk h := by
  refine (mallocInit_inv h1 h2).mono ?_
  rintro h ⟨cs, h0⟩ s hr hnone
  obtain ⟨cs', hs⟩ := h0.reaches hr
  have heq : cs' = cs := by
    have hfree : ∀ {s : Session} {ds : List (Chunk Nat)}, SessionInv h.memAreaSize s ds →
        s.live = [] → ∀ d ∈ ds, d.owner = none := by
      intro s ds hs hnil
      have hnone := hs.live
      rw [hnil, List.nil_perm, List.map_eq_nil_iff] at hnone
      exact free_of_occupied_nil hnone
    refine Coalesced.unique (hs.size ▸ hs.layout.tiles) h0.layout.tiles (hfree hs hnone)
      (hfree h0 rfl) hs.coalesced h0.coalesced
  rw [hs.layout.walk_eq, h0.layout.walk_eq, heq]

theorem free_all_restores_twelve :
    Returns (mallocInit (fun _ => 0) 12) fun h =>
      ∀ s, Reaches h s → s.live = [] → walk s.heap = walk h :=
  free_all_restores (by decide) (by decide)

end Novo7
