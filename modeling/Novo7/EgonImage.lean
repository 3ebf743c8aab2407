import Novo7.CNumber
import Novo7.Dispatch

/-!
# Embedding a boot loader

`egon0_embed` prepares the whole boot0 area in a buffer: the image, padded twice and with its
length and checksum set, is repeated as often as it fits. It pads by a rounded length behind the
image where the difference to it is meant. Each access to the buffer is recorded.
`egon0Embed_inside_iff` says for which sizes the accesses stay inside, and
`egon0Embed_bootable` what the area then holds.
-/

namespace Novo7

open Machine Buffer Bytes CNumber

/-! ## Rounding -/

/-- The least multiple of `m` that is not below `n`. -/
def ceilTo (n m : Nat) : Nat := (n + m - 1) / m * m

theorem ceilTo_eq {n m : Nat} (hm : 0 < m) :
    ceilTo n m = if n % m = 0 then n else n + (m - n % m) := by
  have hdiv := Nat.div_add_mod n m
  have hlt := Nat.mod_lt n hm
  have hcomm : m * (n / m) = n / m * m := Nat.mul_comm _ _
  unfold ceilTo
  by_cases hrest : n % m = 0
  · have hceil : (n + m - 1) / m = n / m := by
      refine Nat.div_eq_of_lt_le (by omega) ?_
      rw [Nat.succ_mul]
      omega
    rw [if_pos hrest, hceil]
    omega
  · have hceil : (n + m - 1) / m = n / m + 1 := by
      refine Nat.div_eq_of_lt_le ?_ ?_
      · rw [Nat.succ_mul]
        omega
      · rw [Nat.succ_mul, Nat.succ_mul]
        omega
    rw [if_neg hrest, hceil, Nat.succ_mul]
    omega

theorem le_ceilTo {n m : Nat} (hm : 0 < m) : n ≤ ceilTo n m := by
  rw [ceilTo_eq hm]
  split <;> omega

theorem ceilTo_lt {n m : Nat} (hm : 0 < m) : ceilTo n m < n + m := by
  rw [ceilTo_eq hm]
  split <;> omega

theorem ceilTo_mod (n m : Nat) : ceilTo n m % m = 0 := Nat.mul_mod_left _ _

/-! ## The program -/

/-- `round_up`; a division by zero ends the program. -/
def roundUp (val round : Nat) : Option Nat :=
  if round = 0 then none
  else some (if val % round ≠ 0 then u32 (val + (round - val % round)) else val)

theorem roundUp_eq {val round : Nat} (hval : val < 2 ^ 32) (hround : 0 < round) :
    roundUp val round = some (u32 (ceilTo val round)) := by
  rw [roundUp, if_neg (by omega), ceilTo_eq hround]
  by_cases hrest : val % round = 0
  · rw [if_neg (not_not.mpr hrest), if_pos hrest, u32_of_lt hval]
  · rw [if_pos hrest, if_neg hrest]

/-- `val`, as it is read from four bytes of the buffer. -/
def wordAt (buf : Nat → UInt8) (off : Nat) : Nat :=
  leValue ((List.range 4).map fun j => buf (off + j))

/-- Four bytes stored. -/
def storeWord (buf : Nat → UInt8) (off val : Nat) : Nat → UInt8 :=
  store buf off 4 fun i => (leBytes 4 val).getD i 0

/-- `while (addr - image < imageSize)` of `setBootImgChecksum`: the sum, and what was accessed. -/
def checksumLoop (image : Nat → UInt8) (imageSize : Int) :
    Nat → Nat → Nat → Nat × List (Nat × Nat)
  | 0, _, checksum => (checksum, [])
  | fuel + 1, addr, checksum =>
    if (addr : Int) < imageSize then
      let r := checksumLoop image imageSize fuel (addr + 4) (u32 (checksum + wordAt image addr))
      (r.1, (addr, 4) :: r.2)
    else (checksum, [])

/-- The value of the checksum field while the sum is taken. -/
def bootStamp : Nat := 0x5F0A6C39

/-- `setBootImgChecksum` -/
def setBootImgChecksum (image : Nat → UInt8) (imageSize : Int) :
    (Nat → UInt8) × List (Nat × Nat) :=
  let image := storeWord image 12 bootStamp
  let r := checksumLoop image imageSize imageSize.toNat 0 0
  (storeWord image 12 r.1, (12, 4) :: r.2 ++ [(12, 4)])

/-- `for(i = 1; i < repCount; ++i)`, with `n` rounds to go. -/
def replicateLoop (imageSize : Nat) :
    Nat → Nat → (Nat → UInt8) → (Nat → UInt8) × List (Nat × Nat)
  | 0, _, buf => (buf, [])
  | n + 1, i, buf =>
    let r := replicateLoop imageSize n (i + 1) (store buf (u32 (i * imageSize)) imageSize buf)
    (r.1, (u32 (i * imageSize), imageSize) :: r.2)

/-- How `egon0_embed` ends. -/
inductive EgonResult where
  | tooBig
  | divByZero
  | written (area : List UInt8)
  deriving Repr, DecidableEq

/-- A run of `egon0_embed`: how it ends, and the ranges of the buffer it accesses. -/
structure EgonRun where
  result : EgonResult
  accesses : List (Nat × Nat)

namespace FlashmareaProperties

variable (area : FlashmareaProperties)

def pageSize : Nat := u32 (area.sectorsPerPage * 512)

def areaSize : Nat := u32 (area.pageCount * area.pageSize)

end FlashmareaProperties

/-- `egon0_embed` behind the test for the size; `heap` is what `malloc` finds. -/
def embedImage (area : FlashmareaProperties) (heap : Nat → UInt8) (image : List UInt8) : EgonRun :=
  let imageSize := image.length
  let buf := store heap 0 imageSize fun i => image.getD i 0
  match roundUp imageSize 1024 with
  | none => ⟨.divByZero, [(0, imageSize)]⟩
  | some rounded =>
    let buf := store buf imageSize rounded fun _ => 0xff
    let buf := storeWord buf 16 rounded
    let (buf, reads) := setBootImgChecksum buf (toInt32 rounded)
    let accesses := [(0, imageSize), (imageSize, rounded), (16, 4)] ++ reads
    match roundUp rounded (u32 (64 * area.pageSize)) with
    | none => ⟨.divByZero, accesses⟩
    | some step =>
      let buf := store buf rounded step fun _ => 0xff
      let accesses := accesses ++ [(rounded, step)]
      if step = 0 then ⟨.divByZero, accesses⟩
      else
        let repCount := area.areaSize / step
        let (buf, copies) := replicateLoop step (repCount - 1) 1 buf
        let filled := u32 (repCount * step)
        let rest := sub32 area.areaSize filled
        let buf := store buf filled rest fun _ => 0xff
        ⟨.written ((List.range (area.areaSize / 512 * 512)).map buf),
          accesses ++ copies ++ [(filled, rest)]⟩

/-- `egon0_embed` -/
def egon0Embed (area : FlashmareaProperties) (heap : Nat → UInt8) (image : List UInt8) : EgonRun :=
  if image.length > area.areaSize then ⟨.tooBig, []⟩ else embedImage area heap image

/-! ## Inside the buffer -/

/-- All accesses of a run lie in a buffer of `size` bytes. -/
def EgonRun.Inside (r : EgonRun) (size : Nat) : Prop := ∀ a ∈ r.accesses, a.1 + a.2 ≤ size

/-- The two paddings, each as long as the rounded size itself, end inside the area. -/
def PadsInside (area : FlashmareaProperties) (size : Nat) : Prop :=
  size + u32 (ceilTo size 1024) ≤ area.areaSize ∧
    (u32 (64 * area.pageSize) = 0 ∨ u32 (ceilTo size 1024) +
      u32 (ceilTo (u32 (ceilTo size 1024)) (u32 (64 * area.pageSize))) ≤ area.areaSize)

theorem areaSize_lt (area : FlashmareaProperties) : area.areaSize < 2 ^ 32 := u32_lt _

/-- The area is whole sectors. -/
theorem areaSize_mod (area : FlashmareaProperties) : area.areaSize % 512 = 0 := by
  have hpage : area.pageSize % 512 = 0 := by
    unfold FlashmareaProperties.pageSize u32
    omega
  obtain ⟨k, hk⟩ := Nat.dvd_of_mod_eq_zero hpage
  unfold FlashmareaProperties.areaSize u32
  rw [hk, show area.pageCount * (512 * k) = 512 * (area.pageCount * k) by
    rw [Nat.mul_left_comm]]
  omega

section Accesses

/-- The loop stays below the next multiple of four. -/
theorem checksumLoop_inside (image : Nat → UInt8) {n : Nat} (imageSize : Int)
    (hsize : imageSize ≤ n) (h4 : n % 4 = 0) : ∀ fuel addr checksum, addr % 4 = 0 →
    ∀ a ∈ (checksumLoop image imageSize fuel addr checksum).2, a.1 + a.2 ≤ n
  | 0, _, _, _ => fun _ h => nomatch h
  | fuel + 1, addr, checksum, haddr => by
      unfold checksumLoop
      by_cases hlt : (addr : Int) < imageSize
      · rw [if_pos hlt]
        refine List.forall_mem_cons.mpr ⟨?_, ?_⟩
        · dsimp only
          omega
        · exact checksumLoop_inside image imageSize hsize h4 fuel _ _ (by omega)
      · rw [if_neg hlt]
        exact fun _ h => nomatch h

theorem replicateLoop_inside {step size : Nat} (hsize : size < 2 ^ 32) : ∀ n i buf,
    (i + n) * step ≤ size → ∀ a ∈ (replicateLoop step n i buf).2, a.1 + a.2 ≤ size
  | 0, _, _, _ => fun _ h => nomatch h
  | n + 1, i, buf, hle => by
      have hmul : (i + (n + 1)) * step = i * step + step + n * step := by
        rw [Nat.add_mul, Nat.succ_mul]
        omega
      have hmul' : (i + 1 + n) * step = i * step + step + n * step := by
        rw [Nat.add_mul, Nat.succ_mul]
      unfold replicateLoop
      refine List.forall_mem_cons.mpr ⟨?_, ?_⟩
      · dsimp only
        rw [u32_of_lt (by omega)]
        omega
      · exact replicateLoop_inside hsize n (i + 1) _ (by omega)

/-- For a size that `egonfile_embed` passes on and the area has room for. -/
theorem embedImage_inside_iff (area : FlashmareaProperties) (heap : Nat → UInt8)
    {image : List UInt8} (hlow : 20 ≤ image.length) (hhigh : image.length ≤ area.areaSize) :
    (embedImage area heap image).Inside area.areaSize ↔ PadsInside area image.length := by
  have hA := areaSize_lt area
  unfold embedImage PadsInside EgonRun.Inside
  dsimp only
  rw [roundUp_eq (show image.length < 2 ^ 32 by omega) (show 0 < 1024 by decide)]
  have hr4 : u32 (ceilTo image.length 1024) % 4 = 0 := by
    have hmod := ceilTo_mod image.length 1024
    unfold u32
    omega
  have hrlt := u32_lt (ceilTo image.length 1024)
  generalize u32 (ceilTo image.length 1024) = rounded at hr4 hrlt ⊢
  dsimp only
  generalize storeWord _ 16 rounded = buf
  have hset : (∀ a ∈ (setBootImgChecksum buf (toInt32 rounded)).2, a.1 + a.2 ≤ max rounded 16) := by
    have hloop := checksumLoop_inside (storeWord buf 12 bootStamp) (toInt32 rounded)
      (toInt32_le rounded) hr4 (toInt32 rounded).toNat 0 0 rfl
    unfold setBootImgChecksum
    refine List.forall_mem_append.mpr ⟨List.forall_mem_cons.mpr ⟨by dsimp only; omega, ?_⟩, ?_⟩
    · exact fun a ha => Nat.le_trans (hloop a ha) (Nat.le_max_left _ _)
    · exact fun a ha => by
        rw [List.mem_singleton.mp ha]
        dsimp only
        omega
  generalize setBootImgChecksum buf (toInt32 rounded) = r at hset ⊢
  obtain ⟨buf', reads⟩ := r
  dsimp only at hset ⊢
  have hhead : (∀ a ∈ [(0, image.length), (image.length, rounded), (16, 4)] ++ reads,
      a.1 + a.2 ≤ area.areaSize) ↔ image.length + rounded ≤ area.areaSize := by
    rw [List.forall_mem_append]
    constructor
    · rintro ⟨h, -⟩
      exact h (image.length, rounded) (by simp)
    · intro h
      refine ⟨?_, fun a ha => ?_⟩
      · simp only [List.forall_mem_cons, List.not_mem_nil, false_implies, implies_true, and_true]
        omega
      · have := hset a ha
        omega
  by_cases hm : u32 (64 * area.pageSize) = 0
  · rw [roundUp, if_pos hm]
    dsimp only
    rw [hhead]
    exact ⟨fun h => ⟨h, .inl hm⟩, fun h => h.1⟩
  · rw [roundUp_eq hrlt (Nat.pos_of_ne_zero hm)]
    have hslt := u32_lt (ceilTo rounded (u32 (64 * area.pageSize)))
    generalize u32 (ceilTo rounded (u32 (64 * area.pageSize))) = step at hslt ⊢
    dsimp only
    have hpads : (∀ a ∈ [(0, image.length), (image.length, rounded), (16, 4)] ++ reads ++
        [(rounded, step)], a.1 + a.2 ≤ area.areaSize) ↔ image.length + rounded ≤ area.areaSize ∧
          (u32 (64 * area.pageSize) = 0 ∨ rounded + step ≤ area.areaSize) := by
      rw [List.forall_mem_append, hhead]
      refine and_congr_right fun _ => ?_
      simp only [List.forall_mem_cons, List.not_mem_nil, false_implies, implies_true, and_true]
      exact ⟨.inr, fun h => h.resolve_left hm⟩
    by_cases hzero : step = 0
    · rw [if_pos hzero]
      exact hpads
    · rw [if_neg hzero]
      dsimp only
      have hrep : area.areaSize / step * step ≤ area.areaSize := Nat.div_mul_le_self _ _
      have hfilled : u32 (area.areaSize / step * step) = area.areaSize / step * step :=
        u32_of_lt (by omega)
      rw [List.append_assoc _ _ [_], List.forall_mem_append, hpads, hfilled]
      refine and_iff_left_of_imp fun hboth => ?_
      have hone : 1 ≤ area.areaSize / step := by
        refine (Nat.one_le_div_iff (Nat.pos_of_ne_zero hzero)).mpr ?_
        rcases hboth.2 with h | h
        · exact absurd h hm
        · omega
      refine List.forall_mem_append.mpr ⟨?_, fun a ha => ?_⟩
      · refine replicateLoop_inside hA _ _ _ ?_
        rw [Nat.add_sub_cancel' hone]
        exact hrep
      · rw [List.mem_singleton.mp ha]
        dsimp only
        rw [sub32_of_le hrep hA]
        omega

end Accesses

/-- For every geometry and every image of 20 bytes up to the size of the area: all accesses stay
inside exactly if the image with a padding as long as its size rounded up to 1024 fits, and that
size with a padding as long as its own rounding up to 64 pages. -/
theorem egon0Embed_inside_iff (area : FlashmareaProperties) (heap : Nat → UInt8)
    (image : List UInt8) (hlow : 20 ≤ image.length) (hhigh : image.length ≤ area.areaSize) :
    (egon0Embed area heap image).Inside area.areaSize ↔ PadsInside area image.length := by
  rw [egon0Embed, if_neg (Nat.not_lt.mpr hhigh)]
  exact embedImage_inside_iff area heap hlow hhigh

/-- The area as the device reports it: pages of two sectors. -/
def boot0Area : FlashmareaProperties := ⟨2, 0, 512⟩

theorem egon0Embed_inside_iff_small :
    (egon0Embed boot0Area (fun _ => 0) (List.replicate 5000 7)).Inside boot0Area.areaSize :=
  (egon0Embed_inside_iff boot0Area (fun _ => 0) (List.replicate 5000 7)
    (by rw [List.length_replicate]; decide) (by rw [List.length_replicate]; decide)).mpr
    (by rw [List.length_replicate]; exact ⟨by decide, .inr (by decide)⟩)

/-- An image of 300000 bytes is smaller than the area, and its padding leaves the buffer. -/
theorem large_image_escapes :
    300000 ≤ boot0Area.areaSize ∧
      ¬ (egon0Embed boot0Area (fun _ => 0) (List.replicate 300000 7)).Inside
        boot0Area.areaSize := by
  refine ⟨by decide, fun h => ?_⟩
  rw [egon0Embed, if_neg (by rw [List.length_replicate]; decide)] at h
  have hpads := (@embedImage_inside_iff boot0Area (fun _ => 0) (List.replicate 300000 7)
    (by rw [List.length_replicate]; decide) (by rw [List.length_replicate]; decide)).mp h
  rw [List.length_replicate] at hpads
  exact absurd hpads.1 (by decide)

/-! ## What the area holds -/

/-- An image with the stamp in its checksum field. -/
def withStamp (copy : List UInt8) : List UInt8 :=
  copy.take 12 ++ leBytes 4 bootStamp ++ copy.drop 16

/-- A copy of the image in the area: padded with 0xff, with `n` in its length field, and with the
sum of all words up to `n`, taken over the stamp, in its checksum field. -/
structure BootCopy (image : List UInt8) (n : Nat) (copy : List UInt8) : Prop where
  bytes : ∀ i < copy.length, i < 12 ∨ 20 ≤ i → copy.getD i 0 = image.getD i 0xff
  length : field copy 16 4 = n
  checksum : field copy 12 4 =
    u32 ((List.range (n / 4)).map fun k => field (withStamp copy) (4 * k) 4).sum

/-- The area: as many identical copies as fit, and 0xff behind them. -/
def BootArea (image : List UInt8) (n step : Nat) (area : List UInt8) : Prop :=
  ∃ copy, copy.length = step ∧ BootCopy image n copy ∧
    area = (List.replicate (area.length / step) copy).flatten ++
      List.replicate (area.length % step) 0xff

section Words

theorem wordAt_congr {buf buf' : Nat → UInt8} {off : Nat}
    (h : ∀ i, off ≤ i → i < off + 4 → buf i = buf' i) : wordAt buf off = wordAt buf' off := by
  unfold wordAt
  congr 1
  refine List.map_congr_left fun j hj => h _ (by omega) ?_
  have := List.mem_range.mp hj
  omega

theorem storeWord_out {buf : Nat → UInt8} {off val i : Nat} (h : i < off ∨ off + 4 ≤ i) :
    storeWord buf off val i = buf i := store_out h

/-- The word just stored. -/
theorem wordAt_storeWord (buf : Nat → UInt8) (off val : Nat) :
    wordAt (storeWord buf off val) off = u32 val := by
  have hbytes : (List.range 4).map (fun j => storeWord buf off val (off + j)) = leBytes 4 val := by
    refine List.ext_getElem rfl fun i hi _ => ?_
    rw [List.length_map, List.length_range] at hi
    rw [List.getElem_map, List.getElem_range, storeWord, store_in (by omega) (by omega),
      Nat.add_sub_cancel_left]
    exact List.getD_eq_getElem _ _ _
  rw [wordAt, hbytes, leValue_leBytes]
  rfl

theorem field_map_range (f : Nat → UInt8) {n off : Nat} (h : off + 4 ≤ n) :
    field ((List.range n).map f) off 4 = wordAt f off := by
  rw [field, take_drop_map_range f h]
  rfl

theorem withStamp_map_range (f : Nat → UInt8) {n : Nat} (h : 16 ≤ n) :
    withStamp ((List.range n).map f) = (List.range n).map (storeWord f 12 bootStamp) := by
  have hhead : (((List.range n).map f).take 12).length = 12 := by
    rw [List.length_take, List.length_map, List.length_range]
    omega
  unfold withStamp
  refine List.ext_getElem ?_ fun i hi hi' => ?_
  · rw [List.length_append, List.length_append, hhead, length_leBytes, List.length_drop,
      List.length_map, List.length_map, List.length_range]
    omega
  · rw [List.getElem_map, List.getElem_range]
    rw [List.length_map, List.length_range] at hi'
    rcases Nat.lt_or_ge i 12 with h1 | h1
    · rw [List.getElem_append_left (by rw [List.length_append, hhead]; omega),
        List.getElem_append_left (by omega), List.getElem_take, List.getElem_map,
        List.getElem_range, storeWord_out (.inl h1)]
    · rcases Nat.lt_or_ge i 16 with h2 | h2
      · rw [List.getElem_append_left (by rw [List.length_append, hhead, length_leBytes]; omega),
          List.getElem_append_right (by omega), storeWord, store_in h1 (by omega)]
        simp only [hhead]
        exact (List.getD_eq_getElem _ _ _).symm
      · rw [List.getElem_append_right (by rw [List.length_append, hhead, length_leBytes]; omega),
          List.getElem_drop, List.getElem_map, List.getElem_range, storeWord_out (.inr h2)]
        congr 1
        rw [List.length_append, hhead, length_leBytes]
        omega

/-- The loop adds up the words from an address on. -/
theorem checksumLoop_sum (image : Nat → UInt8) : ∀ (m fuel addr checksum : Nat),
    m ≤ fuel → checksum < 2 ^ 32 →
    (checksumLoop image ((addr + 4 * m : Nat) : Int) fuel addr checksum).1 =
      u32 (checksum + ((List.range m).map fun k => wordAt image (addr + 4 * k)).sum)
  | 0, fuel, addr, checksum, _, hlt => by
      have hstop : ¬ (addr : Int) < ((addr + 4 * 0 : Nat) : Int) := by omega
      rw [List.range_zero, List.map_nil, List.sum_nil, Nat.add_zero checksum, u32_of_lt hlt]
      cases fuel with
      | zero => rfl
      | succ fuel => rw [checksumLoop, if_neg hstop]
  | m + 1, 0, addr, checksum, hfuel, _ => by omega
  | m + 1, fuel + 1, addr, checksum, hfuel, hlt => by
      have hgo : (addr : Int) < ((addr + 4 * (m + 1) : Nat) : Int) := by omega
      have hnext := checksumLoop_sum image m fuel (addr + 4) (u32 (checksum + wordAt image addr))
        (by omega) (u32_lt _)
      rw [show addr + 4 + 4 * m = addr + 4 * (m + 1) by omega] at hnext
      have hshift : ((List.range m).map fun k => wordAt image (addr + 4 + 4 * k)) =
          (List.range m).map fun k => wordAt image (addr + 4 * (k + 1)) :=
        List.map_congr_left fun k _ => by rw [Nat.mul_succ, Nat.add_assoc, Nat.add_comm 4]
      rw [checksumLoop, if_pos hgo]
      dsimp only
      rw [hnext, hshift, List.range_succ_eq_map, List.map_cons, List.sum_cons, List.map_map,
        Nat.mul_zero, Nat.add_zero]
      unfold u32
      rw [Nat.mod_add_mod, Nat.add_assoc]
      rfl

/-- Replication extends a buffer that repeats its first `step` bytes. -/
theorem replicateLoop_repeats {step : Nat} (hstep : 0 < step) (c : Nat → UInt8) : ∀ n i buf,
    (i + n) * step < 2 ^ 32 → 1 ≤ i → (∀ x < i * step, buf x = c (x % step)) →
    ∀ x < (i + n) * step, (replicateLoop step n i buf).1 x = c (x % step)
  | 0, _, _, _, _, hbuf => hbuf
  | n + 1, i, buf, hlt, hi, hbuf => by
      have hmul : (i + (n + 1)) * step = i * step + step + n * step := by
        rw [Nat.add_mul, Nat.succ_mul]
        omega
      have hnext : (i + 1) * step = i * step + step := Nat.succ_mul _ _
      have hall : (i + 1 + n) * step = (i + (n + 1)) * step := by rw [Nat.add_right_comm]; rfl
      have hfirst : 1 * step ≤ i * step := Nat.mul_le_mul_right _ hi
      unfold replicateLoop
      dsimp only
      rw [u32_of_lt (by omega), ← hall]
      refine replicateLoop_repeats hstep c n (i + 1) _ (by rwa [hall]) (by omega) fun x hx => ?_
      rcases Nat.lt_or_ge x (i * step) with hlow | hhigh
      · rw [store_out (.inl hlow)]
        exact hbuf x hlow
      · rw [store_in hhigh (by omega), hbuf _ (by omega)]
        congr 1
        conv_rhs => rw [← Nat.sub_add_cancel hhigh]
        rw [Nat.add_mul_mod_self_right]

theorem map_range_repeats (c : Nat → UInt8) {step : Nat} (hstep : 0 < step) : ∀ k,
    (List.range (k * step)).map (fun i => c (i % step)) =
      (List.replicate k ((List.range step).map c)).flatten
  | 0 => by rw [Nat.zero_mul]; rfl
  | k + 1 => by
      rw [Nat.succ_mul, List.range_add, List.map_append, map_range_repeats c hstep k,
        List.replicate_succ', List.flatten_append, List.flatten_singleton, List.map_map]
      congr 1
      refine List.map_congr_left fun i hi => ?_
      show c ((k * step + i) % step) = c i
      rw [Nat.add_comm, Nat.add_mul_mod_self_right, Nat.mod_eq_of_lt (List.mem_range.mp hi)]

/-! ## The image in the buffer -/

/-- The buffer with one copy of the image, as it is before it is repeated. -/
def paddedImage (heap : Nat → UInt8) (image : List UInt8) (rounded step : Nat) : Nat → UInt8 :=
  store (setBootImgChecksum (storeWord (store (store heap 0 image.length fun i => image.getD i 0)
    image.length rounded fun _ => 0xff) 16 rounded) (toInt32 rounded)).1 rounded step fun _ => 0xff

variable {heap : Nat → UInt8} {image : List UInt8} {rounded step : Nat}

/-- The copy is what the boot ROM wants. -/
theorem paddedImage_copy (hlow : 20 ≤ image.length) (hsize : image.length ≤ rounded)
    (h4 : rounded % 4 = 0) (hrounded : rounded < 2 ^ 31) (hstep : rounded ≤ step) :
    BootCopy image rounded ((List.range step).map (paddedImage heap image rounded step)) := by
  obtain ⟨b, hb⟩ : ∃ b, storeWord (store (store heap 0 image.length fun i => image.getD i 0)
    image.length rounded fun _ => 0xff) 16 rounded = b := ⟨_, rfl⟩
  obtain ⟨sum, hsum⟩ : ∃ sum, (checksumLoop (storeWord b 12 bootStamp) (toInt32 rounded)
    (toInt32 rounded).toNat 0 0).1 = sum := ⟨_, rfl⟩
  have hpad (i : Nat) : paddedImage heap image rounded step i =
      store (storeWord (storeWord b 12 bootStamp) 12 sum) rounded step (fun _ => 0xff) i := by
    rw [paddedImage, hb, setBootImgChecksum, hsum]
  generalize paddedImage heap image rounded step = f at hpad ⊢
  have hfields (i : Nat) (hi : i < rounded) (hout : i < 12 ∨ 16 ≤ i) : f i = b i := by
    rw [hpad, store_out (.inl hi), storeWord_out hout, storeWord_out hout]
  refine ⟨fun i hi hout => ?_, ?_, ?_⟩
  · rw [List.length_map, List.length_range] at hi
    have hlist : ((List.range step).map f).getD i 0 = f i := by
      rw [List.getD_eq_getElem _ _ (by simpa using hi), List.getElem_map, List.getElem_range]
    rw [hlist]
    rcases Nat.lt_or_ge i rounded with hin | hbehind
    · rw [hfields i hin (by omega), ← hb, storeWord_out (by omega)]
      rcases Nat.lt_or_ge i image.length with himage | hpadded
      · rw [store_out (.inl himage), store_in (Nat.zero_le _) (by omega), Nat.sub_zero,
          List.getD_eq_getElem _ _ himage, List.getD_eq_getElem _ _ himage]
      · rw [store_in hpadded (by omega), List.getD_eq_default _ _ hpadded]
    · rw [hpad, store_in hbehind (by omega), List.getD_eq_default _ _ (by omega)]
  · rw [field_map_range f (by omega), wordAt_congr fun i h1 h2 => hfields i (by omega) (by omega),
      ← hb, wordAt_storeWord, u32_of_lt (by omega)]
  · have hwords (k : Nat) (hk : k < rounded / 4) :
        field (withStamp ((List.range step).map f)) (4 * k) 4 =
          wordAt (storeWord b 12 bootStamp) (4 * k) := by
      rw [withStamp_map_range f (by omega), field_map_range _ (by omega)]
      refine wordAt_congr fun i h1 h2 => ?_
      by_cases hstamp : 12 ≤ i ∧ i < 16
      · rw [storeWord, store_in hstamp.1 (by omega), storeWord, store_in hstamp.1 (by omega)]
      · rw [storeWord_out (by omega), storeWord_out (by omega), hfields i (by omega) (by omega)]
    have hloop := checksumLoop_sum (storeWord b 12 bootStamp) (rounded / 4) rounded 0 0 (by omega)
      (by decide)
    have hint : toInt32 rounded = ((0 + 4 * (rounded / 4) : Nat) : Int) := by
      rw [toInt32, if_pos hrounded]
      omega
    rw [← hint, Nat.zero_add] at hloop
    have hfuel : (toInt32 rounded).toNat = rounded := by
      rw [toInt32, if_pos hrounded, Int.toNat_natCast]
    rw [hfuel, hloop] at hsum
    have hfield : wordAt f 12 = wordAt (storeWord (storeWord b 12 bootStamp) 12 sum) 12 :=
      wordAt_congr fun i h1 h2 => by rw [hpad, store_out (.inl (by omega))]
    rw [field_map_range f (by omega), hfield, wordAt_storeWord, ← hsum]
    have hmap : ((List.range (rounded / 4)).map fun k =>
          field (withStamp ((List.range step).map f)) (4 * k) 4) =
        (List.range (rounded / 4)).map fun k => wordAt (storeWord b 12 bootStamp) (0 + 4 * k) :=
      List.map_congr_left fun k hk => by rw [hwords k (List.mem_range.mp hk), Nat.zero_add]
    rw [hmap]
    unfold u32
    exact Nat.mod_mod _ _

/-- Inside the area nothing wraps around, but for an image whose rounded size is `2 ^ 32`. -/
theorem padsInside_sizes {area : FlashmareaProperties} (hlow : 20 ≤ image.length)
    (hpads : PadsInside area image.length) (hblock : u32 (64 * area.pageSize) ≠ 0)
    (hrounded : u32 (ceilTo image.length 1024) ≠ 0) :
    u32 (ceilTo image.length 1024) = ceilTo image.length 1024 ∧
      u32 (ceilTo (ceilTo image.length 1024) (u32 (64 * area.pageSize))) =
        ceilTo (ceilTo image.length 1024) (u32 (64 * area.pageSize)) ∧
      ceilTo image.length 1024 < 2 ^ 31 ∧
      ceilTo (ceilTo image.length 1024) (u32 (64 * area.pageSize)) ≤ area.areaSize := by
  have hA := areaSize_lt area
  obtain ⟨hfirst, hsecond⟩ := hpads
  replace hsecond := hsecond.resolve_left hblock
  have hmod := ceilTo_mod image.length 1024
  have hle : image.length ≤ ceilTo image.length 1024 := le_ceilTo (by decide)
  have hlt : ceilTo image.length 1024 < image.length + 1024 := ceilTo_lt (by decide)
  have hblt := u32_lt (64 * area.pageSize)
  generalize ceilTo image.length 1024 = n at hfirst hsecond hmod hle hlt hrounded ⊢
  generalize u32 (64 * area.pageSize) = m at hsecond hblock hblt ⊢
  have hsmall : u32 n = n := by
    rcases Nat.lt_or_ge n (2 ^ 32) with h | h
    · exact u32_of_lt h
    · refine absurd ?_ hrounded
      unfold u32
      omega
  rw [hsmall] at hfirst hsecond
  have hhalf : n ≤ 2 ^ 31 := by omega
  have hstep : ceilTo n m < 2 ^ 32 := by
    rcases Nat.lt_or_ge (2 ^ 31) m with hbig | hbig
    · rw [ceilTo_eq (by omega), Nat.mod_eq_of_lt (by omega)]
      split <;> omega
    · have := @ceilTo_lt n m (Nat.pos_of_ne_zero hblock)
      omega
  have hstepLe := @le_ceilTo n m (Nat.pos_of_ne_zero hblock)
  rw [u32_of_lt hstep] at hsecond
  exact ⟨hsmall, u32_of_lt hstep, by omega, by omega⟩

/-- One copy of the image is repeated over the area. -/
theorem replicated_area {f : Nat → UInt8} {size : Nat} (hsize : size < 2 ^ 32) (hpos : 0 < step)
    (hle : step ≤ size) :
    (List.range size).map (store (replicateLoop step (size / step - 1) 1 f).1 (size / step * step)
        (size - size / step * step) fun _ => 0xff) =
      (List.replicate (size / step) ((List.range step).map f)).flatten ++
        List.replicate (size % step) 0xff := by
  have hrep : size / step * step ≤ size := Nat.div_mul_le_self _ _
  have hone : 1 ≤ size / step := (Nat.one_le_div_iff hpos).mpr hle
  have hall : 1 + (size / step - 1) = size / step := by omega
  have hrest : size - size / step * step = size % step := by
    have := Nat.div_add_mod size step
    rw [Nat.mul_comm] at this
    omega
  have hcopies := replicateLoop_repeats hpos f (size / step - 1) 1 f (by rw [hall]; omega)
    (Nat.le_refl _) fun x hx => by rw [Nat.mod_eq_of_lt (by omega)]
  rw [hall] at hcopies
  generalize (replicateLoop step (size / step - 1) 1 f).1 = g at hcopies ⊢
  have hsplit : (List.range size) = List.range (size / step * step + size % step) := by
    congr 1
    omega
  rw [hsplit, List.range_add, List.map_append, List.map_map, ← map_range_repeats f hpos]
  congr 1
  · refine List.map_congr_left fun x hx => ?_
    have hlt := List.mem_range.mp hx
    rw [store_out (.inl hlt), hcopies x hlt]
  · refine List.eq_replicate_iff.mpr ⟨by simp, fun b hb => ?_⟩
    obtain ⟨x, hx, rfl⟩ := List.mem_map.mp hb
    have hlt := List.mem_range.mp hx
    exact store_in (Nat.le_add_right _ _)
      (show size / step * step + x < size / step * step + (size - size / step * step) by omega)

end Words

/-- For every image of at least 20 bytes whose accesses stay inside: the area that is written
holds as many copies as fit of the image, padded to 1024 bytes and then to 64 pages, and 0xff
behind them. No area is written if the image is larger than it, or where a size of 64 pages or of
the image is 0 modulo `2 ^ 32`. -/
theorem egon0Embed_bootable (area : FlashmareaProperties) (heap : Nat → UInt8)
    (image : List UInt8) (hlow : 20 ≤ image.length)
    (hinside : (egon0Embed area heap image).Inside area.areaSize) :
    (∃ bytes, (egon0Embed area heap image).result = .written bytes ∧
        bytes.length = area.areaSize ∧ BootArea image (ceilTo image.length 1024)
          (ceilTo (ceilTo image.length 1024) (u32 (64 * area.pageSize))) bytes) ∨
      ((egon0Embed area heap image).result = .tooBig ∧ area.areaSize < image.length) ∨
      (egon0Embed area heap image).result = .divByZero ∧
        (u32 (64 * area.pageSize) = 0 ∨ u32 (ceilTo image.length 1024) = 0) := by
  have hA := areaSize_lt area
  unfold egon0Embed at hinside ⊢
  by_cases hbig : image.length > area.areaSize
  · rw [if_pos hbig]
    exact .inr (.inl ⟨rfl, hbig⟩)
  rw [if_neg hbig] at hinside ⊢
  have hpads := (embedImage_inside_iff area heap hlow (Nat.le_of_not_lt hbig)).mp hinside
  clear hinside
  unfold embedImage
  dsimp only
  rw [roundUp_eq (show image.length < 2 ^ 32 by omega) (show 0 < 1024 by decide)]
  dsimp only
  by_cases hblock : u32 (64 * area.pageSize) = 0
  · rw [roundUp, if_pos hblock]
    exact .inr (.inr ⟨rfl, .inl hblock⟩)
  rw [roundUp_eq (u32_lt _) (Nat.pos_of_ne_zero hblock)]
  dsimp only
  by_cases hrounded : u32 (ceilTo image.length 1024) = 0
  · have hstep : u32 (ceilTo 0 (u32 (64 * area.pageSize))) = 0 := by
      rw [ceilTo_eq (Nat.pos_of_ne_zero hblock), Nat.zero_mod, if_pos rfl]
      rfl
    rw [hrounded, hstep, if_pos rfl]
    exact .inr (.inr ⟨rfl, .inr rfl⟩)
  obtain ⟨hr, hs, hhalf, hfits⟩ := padsInside_sizes hlow hpads hblock hrounded
  have hsize : image.length ≤ ceilTo image.length 1024 := le_ceilTo (by decide)
  have hmod := ceilTo_mod image.length 1024
  rw [hr, hs]
  generalize ceilTo image.length 1024 = rounded at hs hhalf hsize hmod hfits ⊢
  have hstep : rounded ≤ ceilTo rounded (u32 (64 * area.pageSize)) :=
    le_ceilTo (Nat.pos_of_ne_zero hblock)
  generalize ceilTo rounded (u32 (64 * area.pageSize)) = step at hs hfits hstep ⊢
  have hfilled : area.areaSize / step * step ≤ area.areaSize := Nat.div_mul_le_self _ _
  have hwhole : area.areaSize / 512 * 512 = area.areaSize := by
    have := areaSize_mod area
    omega
  rw [if_neg (by omega), u32_of_lt (show area.areaSize / step * step < 2 ^ 32 by omega),
    sub32_of_le hfilled hA, hwhole]
  dsimp only
  have hcopy := @paddedImage_copy heap image rounded step hlow hsize (by omega) hhalf hstep
  have hbytes := @replicated_area step (paddedImage heap image rounded step) area.areaSize hA
    (by omega) hfits
  refine .inl ⟨_, rfl, by rw [List.length_map, List.length_range],
    (List.range step).map (paddedImage heap image rounded step), by simp, hcopy, ?_⟩
  rw [List.length_map, List.length_range]
  exact hbytes

theorem egon0Embed_bootable_small :
    ∃ bytes, (egon0Embed boot0Area (fun _ => 0) (List.replicate 5000 7)).result = .written bytes ∧
      bytes.length = 2 ^ 19 ∧ BootArea (List.replicate 5000 7) 5120 (2 ^ 16) bytes := by
  have hlen : (List.replicate 5000 (7 : UInt8)).length = 5000 := List.length_replicate
  have hsizes : boot0Area.areaSize = 2 ^ 19 ∧ u32 (64 * boot0Area.pageSize) = 2 ^ 16 ∧
      ceilTo 5000 1024 = 5120 ∧ ceilTo 5120 (2 ^ 16) = 2 ^ 16 := by decide
  have hinside : (egon0Embed boot0Area (fun _ => 0) (List.replicate 5000 7)).Inside
      boot0Area.areaSize := by
    rw [egon0Embed, if_neg (by rw [hlen]; decide)]
    refine (embedImage_inside_iff boot0Area (fun _ => 0) (by rw [hlen]; decide)
      (by rw [hlen]; decide)).mpr ?_
    rw [hlen]
    exact ⟨by decide, .inr (by decide)⟩
  have h := egon0Embed_bootable boot0Area (fun _ => 0) (List.replicate 5000 7)
    (by rw [hlen]; decide) hinside
  rw [hlen, hsizes.1, hsizes.2.1, hsizes.2.2.1, hsizes.2.2.2] at h
  rcases h with h | ⟨-, h⟩ | ⟨-, h⟩
  · exact h
  · exact absurd h (by decide)
  · exact absurd h (by decide)

end Novo7
