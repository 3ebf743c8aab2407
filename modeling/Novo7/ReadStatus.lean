import Novo7.BootAreaBlocks

/-!
# The status of a page read

`PHY_PageRead` makes one read for each plane of a super page, or two commands and a read for each
plane if both planes are read at once, and ors their results together. A result is 0, `ECC_LIMIT`
(the data are right, but the page should be moved) or a negative error, of which uncorrectable ECC
is to be let through: the end of the function, and the layer above it, make 0 of `-ERR_ECC`.

The or of several results need be none of them. `phyPageRead_faithful_iff` says when the status
still says what it should.
-/

namespace Novo7

/-! ## Or of a list -/

section OrAll

variable {w : Nat}

/-- Words or-ed together. -/
def orAll (l : List (BitVec w)) : BitVec w := l.foldl (· ||| ·) 0#w

theorem foldl_or_eq (l : List (BitVec w)) : ∀ a, l.foldl (· ||| ·) a = a ||| orAll l := by
  induction l with
  | nil => exact fun a => BitVec.or_zero.symm
  | cons x l ih =>
      intro a
      have hx : orAll (x :: l) = x ||| orAll l := by
        rw [orAll, List.foldl_cons, BitVec.zero_or, ih]
      rw [List.foldl_cons, ih, hx, BitVec.or_assoc]

@[simp] theorem orAll_nil : orAll ([] : List (BitVec w)) = 0#w := rfl

theorem orAll_cons (x : BitVec w) (l : List (BitVec w)) : orAll (x :: l) = x ||| orAll l := by
  rw [orAll, List.foldl_cons, BitVec.zero_or, foldl_or_eq]

/-- A bit is set if it is set in one of them. -/
theorem getLsbD_orAll {l : List (BitVec w)} {i : Nat} :
    (orAll l).getLsbD i = true ↔ ∃ x ∈ l, x.getLsbD i = true := by
  induction l with
  | nil => simp
  | cons x l ih =>
      rw [orAll_cons, BitVec.getLsbD_or, Bool.or_eq_true, ih]
      simp only [List.mem_cons, exists_eq_or_imp]

/-- It is negative if one of them is. -/
theorem orAll_neg {l : List (BitVec w)} : (orAll l).toInt < 0 ↔ ∃ x ∈ l, x.toInt < 0 := by
  have hmsb (x : BitVec w) : x.toInt < 0 ↔ x.getLsbD (w - 1) = true := by
    rw [← BitVec.msb_eq_getLsbD_last, BitVec.msb_eq_toInt, decide_eq_true_iff]
  simp only [hmsb, getLsbD_orAll]

end OrAll

/-! ## The reads of a page -/

/-- `ECC_LIMIT` -/
def eccLimitWord : BitVec 32 := 10

/-- `-ERR_ECC` -/
def negErrEcc : BitVec 32 := -12

/-- `-ERR_INVALIDPHYADDR` -/
def negErrInvalidPhyAddr : BitVec 32 := -21

/-- `SUPPORT_MULTI_READ` -/
def NandStorageInfo.supportMultiRead (n : NandStorageInfo) : Bool := n.supports 2

/-- `FULL_BITMAP_OF_SINGLE_PAGE` -/
def NandStorageInfo.fullBitmapOfSinglePage (n : NandStorageInfo) : Nat := 2 ^ n.sectorCntPerPage - 1

/-- What the functions return that a page read calls. -/
structure ReadCalls where
  /-- `_cal_real_chip`, for the bank of the page -/
  calRealChip : Nat
  /-- `_wait_rb_ready` -/
  waitRbReady : BitVec 32
  /-- `NFC_Read` of the command that addresses both planes -/
  nfcRead : BitVec 32
  /-- `_read_single_page` of a plane -/
  readSinglePage : Nat → BitVec 32
  /-- `_read_sectors` of a plane -/
  readSectors : Nat → BitVec 32

namespace ReadCalls

variable (n : NandStorageInfo) (c : ReadCalls) (a : PhyPage) (sectBitmap : Nat)

/-- The page has no chip, or no block of it. -/
def BeyondChip : Prop := c.calRealChip = 0xff ∨ n.calBlockInChip a.bank a.blk = 0xffffffff

instance : Decidable (c.BeyondChip n a) := inferInstanceAs (Decidable (_ ∨ _))

/-- `_two_plane_read` -/
def twoPlaneRead : BitVec 32 :=
  if c.BeyondChip n a then negErrInvalidPhyAddr
  else if c.waitRbReady ≠ 0 then c.waitRbReady
  else (List.range n.programPlanes).foldl (fun ret i => ret ||| c.readSectors i) c.nfcRead

/-- `bitmap_in_single_page` -/
def bitmapInSinglePage (i : Nat) : Nat :=
  n.fullBitmapOfSinglePage &&& sectBitmap >>> (i * n.sectorCntPerPage)

/-- The loop over the planes. -/
def readPlanes : BitVec 32 :=
  (List.range n.programPlanes).foldl (fun ret i =>
    let bitmap := bitmapInSinglePage n sectBitmap i
    if bitmap ≠ 0 then
      if bitmap = n.fullBitmapOfSinglePage then ret ||| c.readSinglePage i
      else ret ||| c.readSectors i
    else ret) 0#32

/-- `PHY_PageRead_exit` -/
def pageReadExit (ret : BitVec 32) : BitVec 32 := if ret = negErrEcc then 0 else ret

/-- The result of `PHY_PageRead`. -/
def phyPageReadStatus : BitVec 32 :=
  if n.supportMultiRead then pageReadExit (c.twoPlaneRead n a)
  else if c.BeyondChip n a then negErrInvalidPhyAddr
  else pageReadExit (c.readPlanes n sectBitmap)

/-- The result of `LML_VirtualPageRead`. -/
def lmlVirtualPageReadStatus : BitVec 32 :=
  let result := c.phyPageReadStatus n a sectBitmap
  if result = negErrEcc then 0 else result

/-- The results that the status is made of. -/
def parts : List (BitVec 32) :=
  if c.BeyondChip n a then [negErrInvalidPhyAddr]
  else if n.supportMultiRead then
    if c.waitRbReady ≠ 0 then [c.waitRbReady]
    else c.nfcRead :: (List.range n.programPlanes).map c.readSectors
  else (List.range n.programPlanes).filterMap fun i =>
    let bitmap := bitmapInSinglePage n sectBitmap i
    if bitmap = 0 then none
    else some (if bitmap = n.fullBitmapOfSinglePage then c.readSinglePage i else c.readSectors i)

theorem readPlanes_eq (l : List Nat) : ∀ ret : BitVec 32,
    l.foldl (fun ret i =>
      let bitmap := bitmapInSinglePage n sectBitmap i
      if bitmap ≠ 0 then
        if bitmap = n.fullBitmapOfSinglePage then ret ||| c.readSinglePage i
        else ret ||| c.readSectors i
      else ret) ret =
    ret ||| orAll (l.filterMap fun i =>
      let bitmap := bitmapInSinglePage n sectBitmap i
      if bitmap = 0 then none
      else some (if bitmap = n.fullBitmapOfSinglePage then c.readSinglePage i
        else c.readSectors i)) := by
  induction l with
  | nil => exact fun ret => BitVec.or_zero.symm
  | cons i l ih =>
      intro ret
      rw [List.foldl_cons, ih, List.filterMap_cons]
      dsimp only
      by_cases hzero : bitmapInSinglePage n sectBitmap i = 0
      · rw [if_neg (not_not_intro hzero), if_pos hzero]
      · rw [if_pos hzero, if_neg hzero]
        dsimp only
        rw [orAll_cons, ← BitVec.or_assoc]
        split_ifs
        · rfl
        · rfl

/-- The status is the or of the parts. -/
theorem phyPageReadStatus_eq :
    c.phyPageReadStatus n a sectBitmap = pageReadExit (orAll (c.parts n a sectBitmap)) := by
  unfold phyPageReadStatus parts twoPlaneRead
  by_cases hbeyond : c.BeyondChip n a
  · simp only [if_pos hbeyond]
    split_ifs
    · rfl
    · rfl
  · simp only [if_neg hbeyond]
    by_cases hmulti : n.supportMultiRead = true
    · simp only [if_pos hmulti]
      by_cases hwait : c.waitRbReady ≠ 0
      · simp only [if_pos hwait, orAll_cons, orAll_nil, BitVec.or_zero]
      · simp only [if_neg hwait, orAll_cons, ← List.foldl_map, foldl_or_eq]
    · simp only [if_neg hmulti, readPlanes, readPlanes_eq, BitVec.zero_or]

/-- The layer above has nothing left to let through. -/
theorem lmlVirtualPageReadStatus_eq :
    c.lmlVirtualPageReadStatus n a sectBitmap = c.phyPageReadStatus n a sectBitmap := by
  unfold lmlVirtualPageReadStatus
  rw [phyPageReadStatus_eq]
  dsimp only
  rw [if_neg]
  unfold pageReadExit
  split_ifs with h
  · decide
  · exact h

end ReadCalls

/-! ## What the status should say -/

/-- The results of the parts: success, `ECC_LIMIT` or a negative error. -/
def ReadResults (l : List (BitVec 32)) : Prop := ∀ x ∈ l, x = 0 ∨ x = eccLimitWord ∨ x.toInt < 0

/-- Some part failed, and not with uncorrectable ECC. -/
def OtherError (l : List (BitVec 32)) : Prop := ∃ x ∈ l, x.toInt < 0 ∧ x ≠ negErrEcc

/-- The status is negative for an error that is not let through, and positive if there is none and
some part reached the ECC limit. -/
structure Faithful (l : List (BitVec 32)) (status : BitVec 32) : Prop where
  neg : status.toInt < 0 ↔ OtherError l
  pos : 0 < status.toInt ↔ ¬ OtherError l ∧ eccLimitWord ∈ l

/-- The bits that are set in some part are those of `-ERR_ECC`. -/
def BitsOfErrEcc (l : List (BitVec 32)) : Prop :=
  ∀ i < 32, (∃ x ∈ l, x.getLsbD i = true) ↔ negErrEcc.getLsbD i = true

theorem orAll_eq_negErrEcc {l : List (BitVec 32)} : orAll l = negErrEcc ↔ BitsOfErrEcc l := by
  constructor
  · intro h i _
    rw [← getLsbD_orAll, h]
  · intro h
    refine BitVec.eq_of_getLsbD_eq fun i hi => ?_
    rw [Bool.eq_iff_iff, getLsbD_orAll]
    exact h i hi

/-- With no other error there are four cases. -/
theorem orAll_tolerated : ∀ {l : List (BitVec 32)},
    (∀ x ∈ l, x = 0 ∨ x = eccLimitWord ∨ x = negErrEcc) →
    orAll l = (if eccLimitWord ∈ l then eccLimitWord else 0) |||
      (if negErrEcc ∈ l then negErrEcc else 0) := by
  intro l
  induction l with
  | nil => exact fun _ => rfl
  | cons x l ih =>
      intro h
      obtain ⟨hx, hl⟩ := List.forall_mem_cons.mp h
      rw [orAll_cons, ih hl]
      simp only [List.mem_cons]
      rcases hx with rfl | rfl | rfl
      · simp only [show eccLimitWord ≠ 0 by decide, show negErrEcc ≠ 0 by decide, false_or]
        exact BitVec.zero_or
      · simp only [show negErrEcc ≠ eccLimitWord by decide, true_or, false_or, if_true]
        split_ifs
        all_goals decide
      · simp only [show eccLimitWord ≠ negErrEcc by decide, true_or, false_or, if_true]
        split_ifs
        all_goals decide

/-- Where the or of the results says what they say together: with no other error, not both the ECC
limit and uncorrectable ECC, which are negative together; with one, not by chance the bits of
`-ERR_ECC`. -/
structure StatusKept (l : List (BitVec 32)) : Prop where
  tolerated : ¬ OtherError l → ¬ (eccLimitWord ∈ l ∧ negErrEcc ∈ l)
  other : OtherError l → ¬ BitsOfErrEcc l

theorem faithful_iff {l : List (BitVec 32)} (hl : ReadResults l) :
    Faithful l (ReadCalls.pageReadExit (orAll l)) ↔ StatusKept l := by
  unfold ReadCalls.pageReadExit
  by_cases hother : OtherError l
  · obtain ⟨x, hx, hneg, -⟩ := id hother
    have hor : (orAll l).toInt < 0 := orAll_neg.mpr ⟨x, hx, hneg⟩
    by_cases hbits : BitsOfErrEcc l
    · rw [if_pos (orAll_eq_negErrEcc.mpr hbits)]
      refine iff_of_false (fun h => ?_) fun h => h.other hother hbits
      exact absurd (h.neg.mpr hother) (by decide)
    · rw [if_neg (mt orAll_eq_negErrEcc.mp hbits)]
      refine iff_of_true ⟨iff_of_true hor hother, iff_of_false ?_ fun h => h.1 hother⟩
        ⟨fun h => absurd hother h, fun _ => hbits⟩
      omega
  · have htol : ∀ x ∈ l, x = 0 ∨ x = eccLimitWord ∨ x = negErrEcc := by
      intro x hx
      rcases hl x hx with h | h | h
      · exact .inl h
      · exact .inr (.inl h)
      · exact .inr (.inr (by_contra fun hne => hother ⟨x, hx, h, hne⟩))
    rw [orAll_tolerated htol]
    by_cases hlimit : eccLimitWord ∈ l
    · by_cases hecc : negErrEcc ∈ l
      · -- 10 ||| -12 is -2
        refine iff_of_false (fun h => hother (h.neg.mp ?_)) fun h =>
          h.tolerated hother ⟨hlimit, hecc⟩
        rw [if_pos hlimit, if_pos hecc]
        decide
      · rw [if_pos hlimit, if_neg hecc]
        refine iff_of_true ⟨iff_of_false (by decide) hother,
          iff_of_true (by decide) ⟨hother, hlimit⟩⟩ ⟨fun _ h => hecc h.2, fun h => absurd h hother⟩
    · rw [if_neg hlimit]
      refine iff_of_true ⟨iff_of_false ?_ hother, iff_of_false ?_ fun h => hlimit h.2⟩
        ⟨fun _ h => hlimit h.1, fun h => absurd h hother⟩
      · by_cases hecc : negErrEcc ∈ l
        · rw [if_pos hecc]
          decide
        · rw [if_neg hecc]
          decide
      · by_cases hecc : negErrEcc ∈ l
        · rw [if_pos hecc]
          decide
        · rw [if_neg hecc]
          decide

/-- For every chip, page and bitmap, and whatever the parts return. -/
theorem phyPageRead_faithful_iff (n : NandStorageInfo) (c : ReadCalls) (a : PhyPage)
    (sectBitmap : Nat) (h : ReadResults (c.parts n a sectBitmap)) :
    Faithful (c.parts n a sectBitmap) (c.phyPageReadStatus n a sectBitmap) ↔
      StatusKept (c.parts n a sectBitmap) := by
  rw [c.phyPageReadStatus_eq]
  exact faithful_iff h

theorem not_bitsOfErrEcc {l : List (BitVec 32)} {x : BitVec 32} (hx : x ∈ l) {i : Nat}
    (hi : i < 32) (hset : x.getLsbD i = true) (hclear : negErrEcc.getLsbD i = false) :
    ¬ BitsOfErrEcc l := by
  intro h
  have hecc := (h i hi).mp ⟨x, hx, hset⟩
  rw [hclear] at hecc
  cases hecc

/-- `NAND_OP_FALSE`, `-ERR_TIMEOUT` and `-ERR_INVALIDPHYADDR` have bits that `-ERR_ECC` has not, so
with them only the ECC limit and uncorrectable ECC get into each other's way. -/
theorem phyPageRead_faithful_iff_codes (n : NandStorageInfo) (c : ReadCalls) (a : PhyPage)
    (sectBitmap : Nat) (h : ∀ x ∈ c.parts n a sectBitmap,
      x = 0 ∨ x = eccLimitWord ∨ x = negErrEcc ∨ x = -1 ∨ x = -14 ∨ x = negErrInvalidPhyAddr) :
    Faithful (c.parts n a sectBitmap) (c.phyPageReadStatus n a sectBitmap) ↔
      (¬ OtherError (c.parts n a sectBitmap) →
        ¬ (eccLimitWord ∈ c.parts n a sectBitmap ∧ negErrEcc ∈ c.parts n a sectBitmap)) := by
  rw [c.phyPageReadStatus_eq]
  generalize c.parts n a sectBitmap = l at h
  have hl : ReadResults l := by
    intro x hx
    rcases h x hx with h | h | rfl | rfl | rfl | rfl
    · exact .inl h
    · exact .inr (.inl h)
    all_goals exact .inr (.inr (by decide))
  have hother : OtherError l → ¬ BitsOfErrEcc l := by
    rintro ⟨x, hx, hneg, hne⟩
    rcases h x hx with rfl | rfl | rfl | rfl | rfl | rfl
    · exact absurd hneg (by decide)
    · exact absurd hneg (by decide)
    · exact absurd rfl hne
    · exact not_bitsOfErrEcc hx (i := 0) (by decide) (by decide) (by decide)
    · exact not_bitsOfErrEcc hx (i := 1) (by decide) (by decide) (by decide)
    · exact not_bitsOfErrEcc hx (i := 0) (by decide) (by decide) (by decide)
  exact (faithful_iff hl).trans ⟨fun hk => hk.tolerated, fun htol => ⟨htol, hother⟩⟩

/-- A chip with two planes that are read at once. -/
def twoPlaneChip : NandStorageInfo := ⟨1, 1, 1, 2, 8, 128, 2048, 12, 896, ⟨2, 1⟩⟩

/-- The first plane returns `x`, the second `y`. -/
def planeResults (x y : BitVec 32) : ReadCalls :=
  ⟨0, 0, 0, fun _ => 0, fun i => if i = 0 then x else y⟩

theorem planeResults_parts (x y : BitVec 32) :
    (planeResults x y).parts twoPlaneChip ⟨0, 100, 0⟩ 0xffff = [0, x, y] := rfl

theorem readResults_planes {x y : BitVec 32} (hx : x = 0 ∨ x = eccLimitWord ∨ x.toInt < 0)
    (hy : y = 0 ∨ y = eccLimitWord ∨ y.toInt < 0) : ReadResults [0, x, y] :=
  List.forall_mem_cons.mpr ⟨.inl rfl,
    List.forall_mem_cons.mpr ⟨hx, List.forall_mem_cons.mpr ⟨hy, fun _ h => by cases h⟩⟩⟩

/-- Both planes reach the limit. -/
theorem phyPageRead_faithful_iff_limits :
    Faithful [0, 10, 10] ((planeResults 10 10).phyPageReadStatus twoPlaneChip ⟨0, 100, 0⟩ 0xffff) ↔
      StatusKept [0, 10, 10] :=
  phyPageRead_faithful_iff twoPlaneChip (planeResults 10 10) ⟨0, 100, 0⟩ 0xffff
    (readResults_planes (.inr (.inl rfl)) (.inr (.inl rfl)))

/-- One plane reaches the limit, the other has uncorrectable ECC: the status is -2. -/
theorem phyPageRead_limit_and_ecc :
    (planeResults 10 (-12)).parts twoPlaneChip ⟨0, 100, 0⟩ 0xffff = [0, 10, -12] ∧
      ReadResults [0, 10, -12] ∧
      (planeResults 10 (-12)).phyPageReadStatus twoPlaneChip ⟨0, 100, 0⟩ 0xffff = -2 ∧
      ¬ Faithful [0, 10, -12]
        ((planeResults 10 (-12)).phyPageReadStatus twoPlaneChip ⟨0, 100, 0⟩ 0xffff) := by
  have hstatus :
      (planeResults 10 (-12)).phyPageReadStatus twoPlaneChip ⟨0, 100, 0⟩ 0xffff = -2 := by
    have hor : orAll [(0 : BitVec 32), 10, -12] = -2 := by
      simp only [orAll_cons, orAll_nil]
      decide
    rw [ReadCalls.phyPageReadStatus_eq, planeResults_parts, hor]
    exact if_neg (by decide)
  refine ⟨planeResults_parts _ _,
    readResults_planes (.inr (.inl rfl)) (.inr (.inr (by decide))), hstatus, fun h => ?_⟩
  rw [hstatus] at h
  obtain ⟨x, hx, hneg, hne⟩ := h.neg.mp (by decide)
  simp only [List.mem_cons, List.not_mem_nil, or_false] at hx
  rcases hx with rfl | rfl | rfl
  · exact absurd hneg (by decide)
  · exact absurd hneg (by decide)
  · exact hne rfl

end Novo7
