import Mathlib.Tactic.Ring
import Novo7.NandScan

/-!
# The geometry of the disk

Four functions derive sizes from what the scan found. `FMT_Init` fixes the zones and the first
block behind the boot areas, `LML_Init` and `NAND_GetDiskSize` compute the capacity, and
`FMT_GetFlashMemProperties` tells the host how long each area is. For a regular geometry their
truncating divisions are exact, so the disk ends with its last zone: `disk_fits_zones`.
-/

namespace Novo7

open Machine

namespace NandStorageInfo

variable (n : NandStorageInfo)

/-! ## What the functions compute -/

/-- `blks_array`: a block size in KiB, and the blocks set aside for the two boot loaders. -/
def blksArray : List (Nat × Nat × Nat) :=
  [(16, 4, 16), (32, 4, 8), (128, 4, 3), (256, 4, 3), (512, 4, 3), (0xffffffff, 4, 3)]

/-- `DIE0_FIRST_BLK_NUM`, the first block that is not set aside. -/
def die0FirstBlkNum : Nat :=
  match blksArray.find? fun (size, _) =>
      size = 0xffffffff ∨ size = n.sectorCntPerPage * n.pageCntPerPhyBlk / 2 with
  | some (_, boot0, boot1) => boot0 + boot1
  | none => 0

/-- `FMT_Init` -/
def fmtInit : LogicArchi where
  pageCntOfLogicBlk :=
    let cnt := n.pageCntPerPhyBlk * n.bankCntPerChip
    u16 (if n.supportExtInterleave ∧ n.chipCnt ≥ 2 then cnt * 2 else cnt)
  pageCntOfPhyBlk := n.pageCntPerPhyBlk
  sectorCntOfLogicPage := n.sectorCntPerPage * n.planeCntPerDie
  dataBlkCntOfZone := n.validBlkRatio
  zoneCntOfDie := u8 (n.blkCntPerDie / n.planeCntPerDie / 1024)
  dieCntOfChip := n.dieCntPerChip
  superBlkCntOfDie := n.blkCntPerDie / n.planeCntPerDie
  dieCntOfNand :=
    let cnt := n.dieCntPerChip / n.bankCntPerChip
    if !n.supportExtInterleave then cnt * n.chipCnt
    else if n.chipCnt ≥ 2 then cnt * (n.chipCnt / 2) else cnt
  supportIntInterleave := n.supportIntInterleave
  supportExtInterleave := n.supportExtInterleave
  supportAlignNandBnk := n.supportAlignNandBnk
  supportPageCopyback := n.supportPageCopyback
  supportMultiProgram := n.supportMultiProgram

/-- `LogicalCtl.DiskCap`, as `LML_Init` sets it. -/
def diskCap : Nat :=
  u32 (n.sectorCntPerPage * n.pageCntPerPhyBlk * n.blkCntPerDie * n.dieCntPerChip * n.chipCnt /
    blockCntOfZone * n.fmtInit.dataBlkCntOfZone)

/-- `SUPPORT_MULTI_PROGRAM ? PLANE_CNT_OF_DIE : 1` -/
def programPlanes : Nat := if n.supportMultiProgram then n.planeCntPerDie else 1

/-- `FMT_GetFlashMemProperties`; the areas are the two boot areas, the physical and the logical
disk. -/
def fmtGetFlashMemProperties : FlashmemProperties where
  areas := fun
    | 0 => ⟨2, 0, 512⟩
    | 1 => ⟨n.sectorCntPerPage, 512, sub32 (n.die0FirstBlkNum * n.pageCntPerPhyBlk) 512⟩
    | 2 => ⟨n.sectorCntPerPage, u32 (n.die0FirstBlkNum * n.pageCntPerPhyBlk),
        u32 (n.pageCntPerPhyBlk *
          sub32 (n.blkCntPerDie * n.dieCntPerChip * n.chipCnt) n.die0FirstBlkNum)⟩
    | 3 => ⟨n.sectorCntPerPage * n.programPlanes, 0,
        u32 (n.pageCntPerPhyBlk * n.blkCntPerDie * n.dieCntPerChip * n.chipCnt / 1024 *
          n.fmtInit.dataBlkCntOfZone / n.programPlanes)⟩
  sectorsPerPage := n.sectorCntPerPage
  pagesPerBlock := n.pageCntPerPhyBlk
  blocksPerChip := n.blkCntPerDie * n.dieCntPerChip
  chipCnt := n.chipCnt
  pagewithbadflag := n.optPhyOpPar.badBlockFlagPosition
  blockCntOfZone := n.fmtInit.dataBlkCntOfZone

end NandStorageInfo

/-- The sectors an area has as the host is told. -/
def FlashmareaProperties.sectors (a : FlashmareaProperties) : Nat := a.sectorsPerPage * a.pageCount

/-! ## Sizes of a regular geometry -/

namespace NandStorageInfo

variable (n : NandStorageInfo)

/-- Zones in a die. -/
def zones : Nat := n.blkCntPerDie / n.planeCntPerDie / 1024

/-- Chips that share the pages of a logical block. -/
def interleaved : Nat := if 2 ≤ n.chipCnt then 2 else 1

namespace Regular

variable {n} (h : n.Regular)
include h

theorem pages_pos : 0 < n.pageCntPerPhyBlk := by
  have := h.pages
  simp only [List.mem_cons, List.not_mem_nil, or_false] at this
  omega

theorem pages_le : n.pageCntPerPhyBlk ≤ 256 := by
  have := h.pages
  simp only [List.mem_cons, List.not_mem_nil, or_false] at this
  omega

theorem sectors_pos : 0 < n.sectorCntPerPage := by
  have := h.sectors
  simp only [List.mem_cons, List.not_mem_nil, or_false] at this
  omega

theorem sectors_le : n.sectorCntPerPage ≤ 16 := by
  have := h.sectors
  simp only [List.mem_cons, List.not_mem_nil, or_false] at this
  omega

theorem planes_pos : 0 < n.planeCntPerDie := by
  rw [h.planes]
  split <;> decide

theorem planes_le : n.planeCntPerDie ≤ 2 := by
  rw [h.planes]
  split <;> decide

theorem programPlanes_eq : n.programPlanes = n.planeCntPerDie := by
  unfold programPlanes
  rw [h.planes]
  split <;> rfl

theorem zones_le : n.zones ≤ 8 :=
  Nat.le_trans (Nat.le_mul_of_pos_left _ h.dies) h.zones

/-- The chips are pairs that are interleaved, or there is one. -/
theorem chips_eq : n.chipCnt = n.interleaved * (n.chipCnt / n.interleaved) ∧
    n.chipCnt / n.interleaved ≤ 4 := by
  have := h.chips
  simp only [List.mem_cons, List.not_mem_nil, or_false] at this
  rcases this with hc | hc | hc | hc <;> rw [interleaved, hc] <;> decide

theorem pageCntOfLogicBlk_eq :
    n.fmtInit.pageCntOfLogicBlk = n.pageCntPerPhyBlk * n.interleaved := by
  have hpages := h.pages_le
  simp only [fmtInit, h.bank, h.ext, Nat.mul_one, interleaved, decide_eq_true_eq]
  by_cases hc : 2 ≤ n.chipCnt
  · rw [if_pos ⟨hc, hc⟩, if_pos hc, u16, Nat.mod_eq_of_lt (by omega)]
  · rw [if_neg (fun hb => hc hb.2), if_neg hc, u16, Nat.mod_eq_of_lt (by omega), Nat.mul_one]

theorem zoneCntOfDie_eq : n.fmtInit.zoneCntOfDie = n.zones := by
  have := h.zones_le
  exact Nat.mod_eq_of_lt (show n.zones < 2 ^ 8 by omega)

theorem dieCntOfNand_eq :
    n.fmtInit.dieCntOfNand = n.dieCntPerChip * (n.chipCnt / n.interleaved) := by
  have := h.chips
  simp only [List.mem_cons, List.not_mem_nil, or_false] at this
  rcases this with hc | hc | hc | hc <;> simp [fmtInit, h.bank, h.ext, interleaved, hc]

/-- All zones of the chips. -/
theorem zoneCnt_le : n.fmtInit.dieCntOfNand * n.fmtInit.zoneCntOfDie ≤ 32 := by
  rw [h.dieCntOfNand_eq, h.zoneCntOfDie_eq]
  calc n.dieCntPerChip * (n.chipCnt / n.interleaved) * n.zones
      = n.dieCntPerChip * n.zones * (n.chipCnt / n.interleaved) := by ring
    _ ≤ 8 * 4 := Nat.mul_le_mul h.zones h.chips_eq.2

/-- The sectors of all super blocks that hold data, counted by zone. -/
theorem zoned_lt : n.sectorCntPerPage * n.planeCntPerDie * (n.pageCntPerPhyBlk * n.interleaved) *
    (n.fmtInit.dieCntOfNand * n.fmtInit.zoneCntOfDie) * n.validBlkRatio < 2 ^ 31 := by
  have hinter : n.interleaved ≤ 2 := by
    unfold interleaved
    split <;> decide
  calc n.sectorCntPerPage * n.planeCntPerDie * (n.pageCntPerPhyBlk * n.interleaved) *
        (n.fmtInit.dieCntOfNand * n.fmtInit.zoneCntOfDie) * n.validBlkRatio
      ≤ 16 * 2 * (256 * 2) * 32 * 974 :=
        Nat.mul_le_mul (Nat.mul_le_mul (Nat.mul_le_mul (Nat.mul_le_mul h.sectors_le h.planes_le)
          (Nat.mul_le_mul h.pages_le hinter)) h.zoneCnt_le) h.ratio_le
    _ < 2 ^ 31 := by decide

/-- The sectors of the chips, by zone: the remainders of all divisions are zero. -/
theorem physical_eq :
    n.sectorCntPerPage * n.pageCntPerPhyBlk * n.blkCntPerDie * n.dieCntPerChip * n.chipCnt =
      1024 * (n.sectorCntPerPage * n.planeCntPerDie * (n.pageCntPerPhyBlk * n.interleaved) *
        (n.fmtInit.dieCntOfNand * n.fmtInit.zoneCntOfDie)) := by
  rw [h.dieCntOfNand_eq, h.zoneCntOfDie_eq]
  conv_lhs => rw [h.blocks, h.chips_eq.1]
  rw [show n.blkCntPerDie / n.planeCntPerDie / 1024 = n.zones from rfl]
  ring

theorem diskCap_eq :
    n.diskCap = n.sectorCntPerPage * n.planeCntPerDie * (n.pageCntPerPhyBlk * n.interleaved) *
      (n.fmtInit.dieCntOfNand * n.fmtInit.zoneCntOfDie) * n.validBlkRatio := by
  have hlt := h.zoned_lt
  rw [diskCap, blockCntOfZone, h.physical_eq, Nat.mul_div_cancel_left _ (by decide),
    show n.fmtInit.dataBlkCntOfZone = n.validBlkRatio from rfl, u32_of_lt (by omega)]

/-- The logical disk that is advertised has the sectors of the disk. -/
theorem logDisk_eq : (n.fmtGetFlashMemProperties.areas 3).sectors = n.diskCap := by
  have hplanes := h.planes_pos
  have hlt := h.zoned_lt
  rw [h.diskCap_eq]
  simp only [fmtGetFlashMemProperties, FlashmareaProperties.sectors, h.programPlanes_eq]
  rw [show n.fmtInit.dataBlkCntOfZone = n.validBlkRatio from rfl]
  have hblocks : n.pageCntPerPhyBlk * n.blkCntPerDie * n.dieCntPerChip * n.chipCnt =
      1024 * (n.planeCntPerDie * (n.pageCntPerPhyBlk * n.interleaved *
        (n.fmtInit.dieCntOfNand * n.fmtInit.zoneCntOfDie))) := by
    refine Nat.eq_of_mul_eq_mul_left h.sectors_pos ?_
    calc n.sectorCntPerPage * (n.pageCntPerPhyBlk * n.blkCntPerDie * n.dieCntPerChip * n.chipCnt)
        = n.sectorCntPerPage * n.pageCntPerPhyBlk * n.blkCntPerDie * n.dieCntPerChip *
            n.chipCnt := by ring
      _ = _ := by rw [h.physical_eq]; ring
  rw [hblocks, Nat.mul_div_cancel_left _ (by decide), Nat.mul_assoc n.planeCntPerDie,
    Nat.mul_div_cancel_left _ hplanes]
  have hpages : n.pageCntPerPhyBlk * n.interleaved *
      (n.fmtInit.dieCntOfNand * n.fmtInit.zoneCntOfDie) * n.validBlkRatio < 2 ^ 32 := by
    refine Nat.lt_of_le_of_lt (Nat.le_mul_of_pos_left _
      (Nat.mul_pos h.sectors_pos hplanes)) (Nat.lt_trans ?_ (show 2 ^ 31 < 2 ^ 32 by decide))
    rw [← Nat.mul_assoc, ← Nat.mul_assoc]
    exact hlt
  rw [u32_of_lt hpages]
  ring

end Regular

/-- The geometry in the record that the disk commands use. -/
def storage (n : NandStorageInfo) (h : n.Regular) : StorageInfo where
  chipCnt := n.chipCnt
  dieCntPerChip := n.dieCntPerChip
  blkCntPerDie := n.blkCntPerDie
  pageCntPerPhyBlk := n.pageCntPerPhyBlk
  sectorCntPerPage := n.sectorCntPerPage
  validBlkRatio := n.validBlkRatio
  ratio_le := h.ratio_le
  sectors_lt := by
    rw [h.physical_eq]
    have hinter : n.interleaved ≤ 2 := by
      unfold interleaved
      split <;> decide
    calc 1024 * (n.sectorCntPerPage * n.planeCntPerDie * (n.pageCntPerPhyBlk * n.interleaved) *
          (n.fmtInit.dieCntOfNand * n.fmtInit.zoneCntOfDie))
        ≤ 1024 * (16 * 2 * (256 * 2) * 32) :=
          Nat.mul_le_mul_left _ (Nat.mul_le_mul (Nat.mul_le_mul (Nat.mul_le_mul h.sectors_le
            h.planes_le) (Nat.mul_le_mul h.pages_le hinter)) h.zoneCnt_le)
      _ < 2 ^ 31 := by decide

/-! ## The zones of the disk -/

/-- A sector of the disk is in a zone that the dies have, and in a data block of it. -/
theorem Regular.sector_zone {n : NandStorageInfo} (h : n.Regular) {sector : Nat}
    (hsector : sector < n.diskCap) :
    let x := calculateLogicPagePar n.fmtInit (sector / n.fmtInit.sectorCntOfLogicPage)
    x.zoneNum < n.fmtInit.dieCntOfNand * n.fmtInit.zoneCntOfDie ∧ x.zoneNum < 32 ∧
      x.blockNum < n.fmtInit.dataBlkCntOfZone := by
  intro x
  have hzones := h.zoneCnt_le
  have hratio := h.ratio_le
  have hblk := Nat.mod_lt
    (sector / n.fmtInit.sectorCntOfLogicPage / n.fmtInit.pageCntOfLogicBlk) h.ratio_pos
  have hzone : sector / n.fmtInit.sectorCntOfLogicPage / n.fmtInit.pageCntOfLogicBlk /
      n.fmtInit.dataBlkCntOfZone < n.fmtInit.dieCntOfNand * n.fmtInit.zoneCntOfDie := by
    rw [h.pageCntOfLogicBlk_eq,
      show n.fmtInit.sectorCntOfLogicPage = n.sectorCntPerPage * n.planeCntPerDie from rfl,
      show n.fmtInit.dataBlkCntOfZone = n.validBlkRatio from rfl, Nat.div_div_eq_div_mul,
      Nat.div_div_eq_div_mul]
    refine Nat.div_lt_of_lt_mul (Nat.lt_of_lt_of_eq hsector ?_)
    rw [h.diskCap_eq]
    ring
  have hz : x.zoneNum = sector / n.fmtInit.sectorCntOfLogicPage / n.fmtInit.pageCntOfLogicBlk /
      n.fmtInit.dataBlkCntOfZone := Nat.mod_eq_of_lt (by omega)
  exact ⟨hz ▸ hzone, by omega, Nat.lt_of_le_of_lt (Nat.mod_le _ _) hblk⟩

end NandStorageInfo

/-- Every size of the disk is the size that its zones have, for every geometry that a scan
finds. -/
theorem disk_fits_zones {bootId : Option (List Nat)} {chipId : Nat → List Nat}
    {n : NandStorageInfo} (hscan : scnAnalyzeNandSystem bootId chipId = some n) :
    ∃ h : n.Regular,
      (n.fmtGetFlashMemProperties.areas 3).sectors ≤ nandGetDiskSize (n.storage h) ∧
      (n.fmtGetFlashMemProperties.areas 3).sectors ≤ n.diskCap ∧
      ∀ sector < n.diskCap,
        let x := calculateLogicPagePar n.fmtInit (sector / n.fmtInit.sectorCntOfLogicPage)
        x.zoneNum < n.fmtInit.dieCntOfNand * n.fmtInit.zoneCntOfDie ∧ x.zoneNum < 32 ∧
          x.blockNum < n.fmtInit.dataBlkCntOfZone := by
  have h := scan_regular hscan
  exact ⟨h, Nat.le_of_eq h.logDisk_eq, Nat.le_of_eq h.logDisk_eq, fun _ hs => h.sector_zone hs⟩

/-- Four chips with two dies of 4096 blocks each in two planes. -/
def fourChips (i : Nat) : List Nat :=
  if i < 4 then [0xec, 0xd7, 0x55, 0xb6, 0x78, 0x41] else []

theorem disk_fits_zones_fourChips :
    ∃ n, scnAnalyzeNandSystem (some (fourChips 0)) fourChips = some n ∧ n.diskCap = 31916032 ∧
      n.fmtInit.dieCntOfNand * n.fmtInit.zoneCntOfDie = 8 ∧
      ∃ h : n.Regular,
        (n.fmtGetFlashMemProperties.areas 3).sectors ≤ nandGetDiskSize (n.storage h) ∧
        (n.fmtGetFlashMemProperties.areas 3).sectors ≤ n.diskCap ∧
        ∀ sector < n.diskCap,
          let x := calculateLogicPagePar n.fmtInit (sector / n.fmtInit.sectorCntOfLogicPage)
          x.zoneNum < n.fmtInit.dieCntOfNand * n.fmtInit.zoneCntOfDie ∧ x.zoneNum < 32 ∧
            x.blockNum < n.fmtInit.dataBlkCntOfZone :=
  ⟨_, rfl, rfl, rfl, @disk_fits_zones (some (fourChips 0)) fourChips _ rfl⟩

end Novo7
