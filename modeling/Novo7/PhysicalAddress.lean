import Novo7.BootAreaBlocks
import Novo7.FlashGeometry
import Mathlib.Data.Set.Lattice
import Mathlib.Order.CompletePartialOrder

/-!
# Where a super page lies

`LML_CalculatePhyOpPar` turns a page of a super block of a die into a bank, a block and a page, in
one of four ways and in fields of a byte, a halfword and a byte; `_cal_block_in_chip` turns the block
into blocks of the chip, one for each plane. `addresses_exact`: for every geometry that a scan finds
no two super pages share a physical page, none lies outside of the chips, and the blocks that are
erased for a super block are those of its pages.
-/

namespace Novo7

open Machine

namespace NandStorageInfo

variable (n : NandStorageInfo)

/-! ## The address map -/

/-- `LML_CalculatePhyOpPar` before the result is stored. -/
def widePhyOpPar (ar : LogicArchi) (nZone nBlock nPage : Nat) : PhyPage :=
  let tmpDieNum := nZone / ar.zoneCntOfDie
  let interleave := ar.interleaveBankCnt
  let dieBase := tmpDieNum % ar.dieCntOfChip * ar.superBlkCntOfDie
  if ar.supportIntInterleave then
    ⟨nPage % interleave + tmpDieNum * interleave, nBlock, nPage / interleave⟩
  else if ar.supportExtInterleave then
    ⟨nPage % interleave + tmpDieNum / ar.dieCntOfChip * interleave, nBlock + dieBase,
      nPage / interleave⟩
  else
    ⟨tmpDieNum / ar.dieCntOfChip, nBlock + dieBase, nPage⟩

/-- A page of a block of a bank, as the chip is addressed. -/
structure ChipPage where
  bank : Nat
  block : Nat
  page : Nat

/-- The blocks that an operation goes to: one in each plane, `MULTI_PLANE_BLOCK_OFFSET` apart. -/
def planeBlocks (bank superBlk : Nat) : Set Nat :=
  { b | n.calBlockInChip bank superBlk ≠ 0xffffffff ∧ ∃ i < n.programPlanes,
    b = n.calBlockInChip bank superBlk + i * n.optPhyOpPar.multiPlaneBlockOffset }

/-- The physical pages of a super page. -/
def chipPages (nZone nBlock nPage : Nat) : Set ChipPage :=
  let a := lmlCalculatePhyOpPar n.fmtInit nZone nBlock nPage
  { p | p.bank = a.bank ∧ p.block ∈ n.planeBlocks a.bank a.blk ∧ p.page = a.page }

/-- The blocks that `LML_VirtualBlkErase` erases, by bank. -/
def erasedBlocks (nZone nSuperBlk : Nat) : Set (Nat × Nat) :=
  { b | ∃ i < n.fmtInit.interleaveBankCnt,
    b.1 = (lmlCalculatePhyOpPar n.fmtInit nZone nSuperBlk i).bank ∧
      b.2 ∈ n.planeBlocks (lmlCalculatePhyOpPar n.fmtInit nZone nSuperBlk i).bank
        (lmlCalculatePhyOpPar n.fmtInit nZone nSuperBlk i).blk }

/-- A page of a super block of a zone that there is. -/
structure IsSuperPage (nZone nBlock nPage : Nat) : Prop where
  zone : nZone < n.fmtInit.dieCntOfNand * n.fmtInit.zoneCntOfDie
  blk : nBlock < n.fmtInit.superBlkCntOfDie
  page : nPage < n.fmtInit.pageCntOfLogicBlk

/-- What is asked of the address map of a geometry. -/
structure AddressesExact : Prop where
  /-- The fields hold what is stored in them. -/
  narrow : ∀ z b p, n.IsSuperPage z b p →
    lmlCalculatePhyOpPar n.fmtInit z b p = widePhyOpPar n.fmtInit z b p
  exist : ∀ z b p, n.IsSuperPage z b p → (n.chipPages z b p).Nonempty ∧
    ∀ c ∈ n.chipPages z b p, c.bank < n.chipCnt ∧ c.block < n.dieCntPerChip * n.blkCntPerDie ∧
      c.page < n.pageCntPerPhyBlk
  disjoint : ∀ z b p z' b' p', n.IsSuperPage z b p → n.IsSuperPage z' b' p' →
    (z / n.fmtInit.zoneCntOfDie, b, p) ≠ (z' / n.fmtInit.zoneCntOfDie, b', p') →
      Disjoint (n.chipPages z b p) (n.chipPages z' b' p')
  erased : ∀ z b, z < n.fmtInit.dieCntOfNand * n.fmtInit.zoneCntOfDie →
    b < n.fmtInit.superBlkCntOfDie →
      n.erasedBlocks z b = { c | ∃ p < n.fmtInit.pageCntOfLogicBlk, ∃ q ∈ n.chipPages z b p,
        c = (q.bank, q.block) }

end NandStorageInfo

/-! ## Planes -/

/-- Where a super block lies in one of two planes that alternate every `o` blocks. -/
theorem plane_block {o s : Nat} (i : Nat) (ho : 0 < o) :
    s * 2 - s % o + i * o = o * (2 * (s / o) + i) + s % o := by
  have hdiv := Nat.div_add_mod s o
  have hmod := Nat.mod_lt s ho
  rw [Nat.mul_add, Nat.mul_left_comm o 2, Nat.mul_comm o i]
  omega

/-- The planes of different super blocks are different blocks. -/
theorem plane_block_inj {o s s' i i' : Nat} (ho : 0 < o) (hi : i < 2) (hi' : i' < 2)
    (h : s * 2 - s % o + i * o = s' * 2 - s' % o + i' * o) : s = s' := by
  rw [plane_block i ho, plane_block i' ho] at h
  have hquot : 2 * (s / o) + i = 2 * (s' / o) + i' := by
    have := congrArg (· / o) h
    simpa only [Nat.mul_add_div ho, Nat.div_eq_of_lt (Nat.mod_lt _ ho), Nat.add_zero] using this
  have hrem : s % o = s' % o := by
    have := congrArg (· % o) h
    simpa only [Nat.mul_add_mod, Nat.mod_mod] using this
  have hsame : s / o = s' / o := by omega
  rw [← Nat.div_add_mod s o, hsame, hrem, Nat.div_add_mod]

/-- A die whose super blocks are whole groups of `o` has a place for both planes of each. -/
theorem plane_block_lt {o s i S : Nat} (ho : 0 < o) (hi : i < 2) (hdvd : o ∣ S) (hs : s < S) :
    s * 2 - s % o + i * o < 2 * S := by
  obtain ⟨m, rfl⟩ := hdvd
  have hmod := Nat.mod_lt s ho
  have hquot : s / o < m := Nat.div_lt_of_lt_mul hs
  rw [plane_block i ho]
  calc o * (2 * (s / o) + i) + s % o < o * (2 * (s / o) + i) + o := by omega
    _ = o * (2 * (s / o) + i + 1) := by ring
    _ ≤ o * (2 * m) := Nat.mul_le_mul_left o (by omega)
    _ = 2 * (o * m) := by ring

/-- A quotient and a remainder are told from their place. -/
theorem place_inj {k a b x y : Nat} (hx : x < k) (hy : y < k) (h : x + a * k = y + b * k) :
    a = b ∧ x = y := by
  have hk : 0 < k := by omega
  have hquot := congrArg (· / k) h
  have hrem := congrArg (· % k) h
  simp only [Nat.add_mul_div_right _ _ hk, Nat.div_eq_of_lt hx, Nat.div_eq_of_lt hy,
    Nat.zero_add] at hquot
  simp only [Nat.add_mul_mod_self_right, Nat.mod_eq_of_lt hx, Nat.mod_eq_of_lt hy] at hrem
  exact ⟨hquot, hrem⟩

/-- In the rows with two planes the planes alternate within a die. -/
theorem storageOf_planes : ∀ row ∈ nandTbls, ∀ cnt ∈ [1, 2, 4, 8],
    (storageOf row cnt).supportMultiProgram = true →
      (storageOf row cnt).fmtInit.superBlkCntOfDie %
        (storageOf row cnt).optPhyOpPar.multiPlaneBlockOffset = 0 := by
  decide +kernel

/-- The same for what a scan finds. -/
theorem scan_planes {bootId : Option (List Nat)} {chipId : Nat → List Nat} {n : NandStorageInfo}
    (h : scnAnalyzeNandSystem bootId chipId = some n) (hmulti : n.supportMultiProgram = true) :
    n.optPhyOpPar.multiPlaneBlockOffset ∣ n.fmtInit.superBlkCntOfDie := by
  unfold scnAnalyzeNandSystem at h
  obtain ⟨id, -, h⟩ := Option.bind_eq_some_iff.mp h
  obtain ⟨row, hrow, h⟩ := Option.bind_eq_some_iff.mp h
  obtain ⟨mode, hmode, h⟩ := Option.bind_eq_some_iff.mp h
  cases h
  exact Nat.dvd_of_mod_eq_zero
    (storageOf_planes row (searchNandArchi_mem hrow) _ (rbConnectMode_chips hmode) hmulti)

/-! ## The map of a regular geometry -/

/-- Where a super block lies in plane `i`. -/
def NandStorageInfo.planeBlock (n : NandStorageInfo) (s i : Nat) : Nat :=
  (if n.supportMultiProgram then s * n.planeCntPerDie - s % n.optPhyOpPar.multiPlaneBlockOffset
    else s) + i * n.optPhyOpPar.multiPlaneBlockOffset

theorem NandStorageInfo.interleaved_pos (n : NandStorageInfo) : 0 < n.interleaved := by
  unfold NandStorageInfo.interleaved
  split <;> decide

namespace NandStorageInfo.Regular

variable {n : NandStorageInfo} (h : n.Regular)
include h

theorem interleaveBankCnt_eq : n.fmtInit.interleaveBankCnt = n.interleaved := by
  rw [LogicArchi.interleaveBankCnt, h.pageCntOfLogicBlk_eq,
    show n.fmtInit.pageCntOfPhyBlk = n.pageCntPerPhyBlk from rfl,
    Nat.mul_div_cancel_left _ h.pages_pos]

/-- The dies of a zone: the chip, or the pair of chips, and the die in it. -/
theorem die_lt {z : Nat} (hz : z < n.fmtInit.dieCntOfNand * n.fmtInit.zoneCntOfDie) :
    z / n.fmtInit.zoneCntOfDie / n.dieCntPerChip < n.chipCnt / n.interleaved ∧
      z / n.fmtInit.zoneCntOfDie % n.dieCntPerChip < n.dieCntPerChip := by
  rw [h.dieCntOfNand_eq, Nat.mul_comm] at hz
  exact ⟨Nat.div_lt_of_lt_mul (Nat.div_lt_of_lt_mul hz), Nat.mod_lt _ h.dies⟩

/-- One formula covers the two ways that are in use. -/
theorem widePhyOpPar_eq (z b p : Nat) : widePhyOpPar n.fmtInit z b p =
    ⟨p % n.interleaved + z / n.fmtInit.zoneCntOfDie / n.dieCntPerChip * n.interleaved,
      b + z / n.fmtInit.zoneCntOfDie % n.dieCntPerChip * n.fmtInit.superBlkCntOfDie,
      p / n.interleaved⟩ := by
  have hint : n.fmtInit.supportIntInterleave = false := h.noInt
  have hdies : n.fmtInit.dieCntOfChip = n.dieCntPerChip := rfl
  simp only [widePhyOpPar, hint, hdies, h.interleaveBankCnt_eq, Bool.false_eq_true, if_false]
  by_cases hext : n.fmtInit.supportExtInterleave = true
  · rw [if_pos hext]
  · have hone : n.interleaved = 1 := by
      have hchips : ¬ 1 < n.chipCnt := fun hc =>
        hext (h.ext.trans (decide_eq_true hc))
      exact if_neg (by omega)
    rw [if_neg hext, hone, Nat.mod_one, Nat.div_one, Nat.zero_add, Nat.mul_one]

/-- The blocks of a super block of a chip. -/
theorem blocks_eq : n.blkCntPerDie = n.planeCntPerDie * n.fmtInit.superBlkCntOfDie := by
  have hblocks := h.blocks
  have hsuper : n.fmtInit.superBlkCntOfDie = 1024 * n.zones := by
    show n.blkCntPerDie / n.planeCntPerDie = 1024 * (n.blkCntPerDie / n.planeCntPerDie / 1024)
    rw [hblocks, Nat.mul_assoc, Nat.mul_left_comm, Nat.mul_div_cancel_left _ h.planes_pos,
      Nat.mul_div_cancel_left _ (by decide)]
  rw [hsuper, hblocks, show n.blkCntPerDie / n.planeCntPerDie / 1024 = n.zones from rfl]
  ring

theorem superBlks_lt : n.dieCntPerChip * n.fmtInit.superBlkCntOfDie < 2 ^ 16 := by
  have hsuper : n.fmtInit.superBlkCntOfDie = 1024 * n.zones := by
    have hblocks := h.blocks_eq
    have hzones := h.blocks
    rw [hblocks, Nat.mul_div_cancel_left _ h.planes_pos] at hzones
    have := Nat.eq_of_mul_eq_mul_left h.planes_pos
      (show n.planeCntPerDie * n.fmtInit.superBlkCntOfDie =
        n.planeCntPerDie * (1024 * (n.fmtInit.superBlkCntOfDie / 1024)) by rw [hzones]; ring)
    exact this
  have hzones := h.zones
  rw [show n.blkCntPerDie / n.planeCntPerDie / 1024 = n.zones from rfl] at hzones
  rw [hsuper, Nat.mul_left_comm]
  omega

section Zone

variable {z b p : Nat} (hz : z < n.fmtInit.dieCntOfNand * n.fmtInit.zoneCntOfDie)
include hz

theorem bank_lt (p : Nat) :
    p % n.interleaved + z / n.fmtInit.zoneCntOfDie / n.dieCntPerChip * n.interleaved < n.chipCnt := by
  have hchips := h.chips_eq.1
  have hbank := Nat.mod_lt p n.interleaved_pos
  have hdie := Nat.mul_le_mul_right n.interleaved (show z / n.fmtInit.zoneCntOfDie /
    n.dieCntPerChip + 1 ≤ n.chipCnt / n.interleaved from (h.die_lt hz).1)
  rw [Nat.add_mul, Nat.one_mul, Nat.mul_comm (n.chipCnt / n.interleaved), ← hchips] at hdie
  omega

theorem superBlk_lt (hb : b < n.fmtInit.superBlkCntOfDie) :
    b + z / n.fmtInit.zoneCntOfDie % n.dieCntPerChip * n.fmtInit.superBlkCntOfDie <
      n.dieCntPerChip * n.fmtInit.superBlkCntOfDie := by
  have hdie := Nat.mul_le_mul_right n.fmtInit.superBlkCntOfDie
    (show z / n.fmtInit.zoneCntOfDie % n.dieCntPerChip + 1 ≤ n.dieCntPerChip from (h.die_lt hz).2)
  rw [Nat.add_mul, Nat.one_mul] at hdie
  omega

/-- Nothing is lost in the fields. -/
theorem address_eq (hb : b < n.fmtInit.superBlkCntOfDie) (hp : p < n.fmtInit.pageCntOfLogicBlk) :
    lmlCalculatePhyOpPar n.fmtInit z b p =
      ⟨p % n.interleaved + z / n.fmtInit.zoneCntOfDie / n.dieCntPerChip * n.interleaved,
        b + z / n.fmtInit.zoneCntOfDie % n.dieCntPerChip * n.fmtInit.superBlkCntOfDie,
        p / n.interleaved⟩ ∧ p / n.interleaved < n.pageCntPerPhyBlk := by
  have hpage : p / n.interleaved < n.pageCntPerPhyBlk := by
    rw [h.pageCntOfLogicBlk_eq, Nat.mul_comm] at hp
    exact Nat.div_lt_of_lt_mul hp
  refine ⟨?_, hpage⟩
  have hchips := h.chips
  simp only [List.mem_cons, List.not_mem_nil, or_false] at hchips
  have hbank := h.bank_lt hz p
  have hblk := h.superBlk_lt hz hb
  have hblks := h.superBlks_lt
  have hpages := h.pages_le
  have hwide : lmlCalculatePhyOpPar n.fmtInit z b p =
      ⟨u8 (widePhyOpPar n.fmtInit z b p).bank, u16 (widePhyOpPar n.fmtInit z b p).blk,
        u8 (widePhyOpPar n.fmtInit z b p).page⟩ := by
    rw [lmlCalculatePhyOpPar, widePhyOpPar]
    dsimp only
    split
    · rfl
    · split <;> rfl
  rw [hwide, h.widePhyOpPar_eq]
  dsimp only
  have hbank8 := Nat.mod_eq_of_lt (Nat.lt_of_lt_of_le hbank (show n.chipCnt ≤ 2 ^ 8 by omega))
  have hblk16 := Nat.mod_eq_of_lt (Nat.lt_trans hblk hblks)
  have hpage8 := Nat.mod_eq_of_lt (Nat.lt_of_lt_of_le hpage (show _ ≤ 2 ^ 8 from hpages))
  rw [u8, u16, u8, hbank8, hblk16, hpage8]

end Zone

section Planes

theorem planeBlock_inj {s s' i i' : Nat} (hi : i < n.programPlanes) (hi' : i' < n.programPlanes)
    (heq : n.planeBlock s i = n.planeBlock s' i') : s = s' := by
  have hplanes := h.planes
  rw [NandStorageInfo.programPlanes] at hi hi'
  unfold NandStorageInfo.planeBlock at heq
  by_cases hmulti : n.supportMultiProgram = true
  · rw [if_pos hmulti] at hplanes hi hi' heq
    rw [hplanes] at hi hi' heq
    rw [if_pos hmulti] at heq
    exact plane_block_inj (h.offset hmulti) hi hi' heq
  · rw [if_neg hmulti] at hi hi' heq
    rw [if_neg hmulti] at heq
    obtain rfl : i = 0 := by omega
    obtain rfl : i' = 0 := by omega
    simpa using heq

variable (hdvd : n.supportMultiProgram = true →
  n.optPhyOpPar.multiPlaneBlockOffset ∣ n.fmtInit.superBlkCntOfDie)
include hdvd

theorem planeBlock_lt {s i : Nat} (hs : s < n.dieCntPerChip * n.fmtInit.superBlkCntOfDie)
    (hi : i < n.programPlanes) : n.planeBlock s i < n.dieCntPerChip * n.blkCntPerDie := by
  have hplanes := h.planes
  have hblocks : n.dieCntPerChip * n.blkCntPerDie =
      n.planeCntPerDie * (n.dieCntPerChip * n.fmtInit.superBlkCntOfDie) := by
    rw [h.blocks_eq, Nat.mul_left_comm]
  rw [NandStorageInfo.programPlanes] at hi
  rw [hblocks]
  unfold NandStorageInfo.planeBlock
  by_cases hmulti : n.supportMultiProgram = true
  · rw [if_pos hmulti] at hplanes hi ⊢
    rw [hplanes] at hi ⊢
    exact plane_block_lt (h.offset hmulti) hi ((hdvd hmulti).mul_left _) hs
  · rw [if_neg hmulti] at hplanes hi ⊢
    obtain rfl : i = 0 := by omega
    rw [hplanes, Nat.zero_mul, Nat.one_mul]
    exact hs

/-- The blocks of a super block of the chip: one a plane, none of them is refused. -/
theorem mem_planeBlocks_iff {s : Nat} (hs : s < n.dieCntPerChip * n.fmtInit.superBlkCntOfDie)
    (bank x : Nat) : x ∈ n.planeBlocks bank s ↔ ∃ i < n.programPlanes, x = n.planeBlock s i := by
  have hplanes : 0 < n.programPlanes := by
    rw [h.programPlanes_eq]
    exact h.planes_pos
  have hfirst := h.planeBlock_lt hdvd hs hplanes
  have hsuper := h.superBlks_le
  have hend : n.planeBlock s 0 < 0xffffffff := by
    have hplanes := h.planes
    rw [NandStorageInfo.planeBlock, Nat.zero_mul, Nat.add_zero]
    split_ifs at hplanes ⊢
    · rw [hplanes]
      omega
    · omega
  have hblk : n.calBlockInChip bank s = n.planeBlock s 0 := by
    rw [NandStorageInfo.planeBlock, Nat.zero_mul, Nat.add_zero] at hfirst hend ⊢
    have hsingle : (if n.supportMultiProgram then
        sub32 (s * n.planeCntPerDie) (s % n.optPhyOpPar.multiPlaneBlockOffset) else s) =
        if n.supportMultiProgram then
          s * n.planeCntPerDie - s % n.optPhyOpPar.multiPlaneBlockOffset else s := by
      have hplanes := h.planes
      have hmod := Nat.mod_le s n.optPhyOpPar.multiPlaneBlockOffset
      split_ifs at hplanes ⊢
      · rw [hplanes, sub32_of_le (by omega) (by omega)]
      · rfl
    rw [NandStorageInfo.calBlockInChip, hsingle, h.bank, Nat.mod_one, Nat.zero_mul, Nat.zero_add,
      u32_of_lt (by omega)]
    exact if_neg (Nat.not_le.mpr hfirst)
  have hplane (i : Nat) : n.planeBlock s 0 + i * n.optPhyOpPar.multiPlaneBlockOffset =
      n.planeBlock s i := by
    rw [NandStorageInfo.planeBlock, NandStorageInfo.planeBlock, Nat.zero_mul, Nat.add_zero]
  constructor
  · rintro ⟨_, i, hi, rfl⟩
    exact ⟨i, hi, by rw [hblk, hplane]⟩
  · rintro ⟨i, hi, rfl⟩
    exact ⟨by rw [hblk]; omega, i, hi, by rw [hblk, hplane]⟩

/-- The pages of a super page: the same page of each of its blocks. -/
theorem mem_chipPages_iff {z b p : Nat} (hin : n.IsSuperPage z b p) (c : ChipPage) :
    c ∈ n.chipPages z b p ↔
      c.bank = p % n.interleaved + z / n.fmtInit.zoneCntOfDie / n.dieCntPerChip * n.interleaved ∧
      (∃ i < n.programPlanes, c.block = n.planeBlock
        (b + z / n.fmtInit.zoneCntOfDie % n.dieCntPerChip * n.fmtInit.superBlkCntOfDie) i) ∧
      c.page = p / n.interleaved := by
  rw [NandStorageInfo.chipPages, (h.address_eq hin.zone hin.blk hin.page).1, Set.mem_ofPred_eq,
    h.mem_planeBlocks_iff hdvd (h.superBlk_lt hin.zone hin.blk)]

theorem chipPages_disjoint {z b p z' b' p' : Nat} (hin : n.IsSuperPage z b p)
    (hin' : n.IsSuperPage z' b' p')
    (hne : (z / n.fmtInit.zoneCntOfDie, b, p) ≠ (z' / n.fmtInit.zoneCntOfDie, b', p')) :
    Disjoint (n.chipPages z b p) (n.chipPages z' b' p') := by
  rw [Set.disjoint_left]
  intro c hc hc'
  obtain ⟨hbank, ⟨i, hi, hblk⟩, hpage⟩ := (h.mem_chipPages_iff hdvd hin c).mp hc
  obtain ⟨hbank', ⟨i', hi', hblk'⟩, hpage'⟩ := (h.mem_chipPages_iff hdvd hin' c).mp hc'
  have hbanks := place_inj (Nat.mod_lt p n.interleaved_pos) (Nat.mod_lt p' n.interleaved_pos)
    (hbank.symm.trans hbank')
  have hblks := place_inj hin.blk hin'.blk (h.planeBlock_inj hi hi' (hblk.symm.trans hblk'))
  apply hne
  have hp : p = p' := by
    rw [← Nat.div_add_mod p n.interleaved, ← hpage, hpage', hbanks.2, Nat.div_add_mod]
  have hd : z / n.fmtInit.zoneCntOfDie = z' / n.fmtInit.zoneCntOfDie := by
    rw [← Nat.div_add_mod (z / n.fmtInit.zoneCntOfDie) n.dieCntPerChip, hbanks.1, hblks.1,
      Nat.div_add_mod]
  rw [hd, hblks.2, hp]

end Planes

/-- An erase goes to the first page of each bank, which has the block of all of them. -/
theorem erasedBlocks_eq {z b : Nat} (hz : z < n.fmtInit.dieCntOfNand * n.fmtInit.zoneCntOfDie)
    (hb : b < n.fmtInit.superBlkCntOfDie) :
    n.erasedBlocks z b = { c | ∃ p < n.fmtInit.pageCntOfLogicBlk, ∃ q ∈ n.chipPages z b p,
      c = (q.bank, q.block) } := by
  have hbanks : n.interleaved ≤ n.fmtInit.pageCntOfLogicBlk := by
    rw [h.pageCntOfLogicBlk_eq]
    exact Nat.le_mul_of_pos_left _ h.pages_pos
  ext ⟨bank, block⟩
  rw [NandStorageInfo.erasedBlocks, h.interleaveBankCnt_eq, Set.mem_ofPred_eq, Set.mem_ofPred_eq]
  constructor
  · rintro ⟨i, hi, hbank, hblock⟩
    have hp : i < n.fmtInit.pageCntOfLogicBlk := Nat.lt_of_lt_of_le hi hbanks
    refine ⟨i, hp, ⟨bank, block, i / n.interleaved⟩, ?_, rfl⟩
    refine ⟨hbank, hblock, ?_⟩
    rw [(h.address_eq hz hb hp).1]
  · rintro ⟨p, hp, q, hq, heq⟩
    obtain ⟨rfl, rfl⟩ := Prod.mk.inj heq
    have hi : p % n.interleaved < n.interleaved := Nat.mod_lt _ n.interleaved_pos
    have hfirst := (h.address_eq hz hb (Nat.lt_of_lt_of_le hi hbanks)).1
    obtain ⟨hbank, hblock, -⟩ := hq
    rw [(h.address_eq hz hb hp).1] at hbank hblock
    refine ⟨p % n.interleaved, hi, ?_, ?_⟩
    · rw [hfirst, hbank, Nat.mod_mod]
    · rw [hfirst, Nat.mod_mod]
      exact hblock

end NandStorageInfo.Regular

/-- Every geometry that a scan finds has an exact address map. -/
theorem addresses_exact (bootId : Option (List Nat)) (chipId : Nat → List Nat)
    (n : NandStorageInfo) (hscan : scnAnalyzeNandSystem bootId chipId = some n) :
    n.AddressesExact := by
  have h := scan_regular hscan
  have hdvd := fun hmulti => scan_planes hscan hmulti
  refine ⟨fun z b p hin => ?_, fun z b p hin => ⟨?_, fun c hc => ?_⟩,
    fun z b p z' b' p' hin hin' hne => h.chipPages_disjoint hdvd hin hin' hne,
    fun z b hz hb => h.erasedBlocks_eq hz hb⟩
  · rw [(h.address_eq hin.zone hin.blk hin.page).1, h.widePhyOpPar_eq]
  · have hplanes : 0 < n.programPlanes := by
      rw [h.programPlanes_eq]
      exact h.planes_pos
    exact ⟨⟨_, _, _⟩, (h.mem_chipPages_iff hdvd hin _).mpr ⟨rfl, ⟨0, hplanes, rfl⟩, rfl⟩⟩
  · obtain ⟨hbank, ⟨i, hi, hblk⟩, hpage⟩ := (h.mem_chipPages_iff hdvd hin c).mp hc
    rw [hbank, hblk, hpage]
    exact ⟨h.bank_lt hin.zone p, h.planeBlock_lt hdvd (h.superBlk_lt hin.zone hin.blk) hi,
      (h.address_eq hin.zone hin.blk hin.page).2⟩

/-- Four chips with two dies in two planes each. -/
theorem addresses_exact_fourChips :
    ∃ n, scnAnalyzeNandSystem (some (fourChips 0)) fourChips = some n ∧ n.AddressesExact :=
  ⟨_, rfl, addresses_exact (some (fourChips 0)) fourChips _ rfl⟩

end Novo7
