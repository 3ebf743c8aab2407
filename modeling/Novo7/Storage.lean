import Novo7.Machine

/-!
# The flash chips of the board

What the driver knows about the chips once it has read their identification: counts of
chips, dies, planes, blocks, pages and sectors, and how many blocks of each 1024 are valid.
-/

namespace Novo7

open Machine

/-- `struct __NandStorageInfo_t`, as `SearchNandArchi` fills it from the identification
tables: at most 974 blocks of 1024 are valid, and the chips together have less than 2^31
sectors. -/
structure StorageInfo where
  chipCnt : Nat
  dieCntPerChip : Nat
  blkCntPerDie : Nat
  pageCntPerPhyBlk : Nat
  sectorCntPerPage : Nat
  validBlkRatio : Nat
  ratio_le : validBlkRatio ≤ 974
  sectors_lt :
    sectorCntPerPage * pageCntPerPhyBlk * blkCntPerDie * dieCntPerChip * chipCnt < 2 ^ 31

/-- `NAND_GetDiskSize`. -/
def nandGetDiskSize (info : StorageInfo) : Nat :=
  u32 (info.sectorCntPerPage * info.pageCntPerPhyBlk * info.blkCntPerDie * info.dieCntPerChip *
    info.chipCnt / 1024 * info.validBlkRatio)

theorem nandGetDiskSize_lt (info : StorageInfo) : nandGetDiskSize info < 2 ^ 31 := by
  have hsectors := info.sectors_lt
  have hblocks : info.sectorCntPerPage * info.pageCntPerPhyBlk * info.blkCntPerDie *
      info.dieCntPerChip * info.chipCnt / 1024 ≤ 2 ^ 21 - 1 := by omega
  have hsize := Nat.mul_le_mul hblocks info.ratio_le
  rw [nandGetDiskSize, u32_of_lt (by omega)]
  omega

end Novo7
