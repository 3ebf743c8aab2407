import Mathlib.Logic.Function.Basic
import Novo7.Machine
import Novo7.Traced

/-!
# The flash translation layer: data model

What the logic layer of the NAND driver keeps in RAM, and the flash array below it.

A *zone* of the disk has three tables: for each logical block its data block, up to sixteen
log blocks, and the free blocks. Four sets of tables are cached in RAM; the others are on
flash, in the *table block* of their zone. A log block has a page map (which of its pages
holds which logical page); four page maps are cached.

The main data of a page is a sequence of halfwords, because the tables are stored as such.
Of the spare area the model keeps the first `__NandUserData_t`; the second one is a copy for
the other plane that no code looks at.

What the flash does is not under the driver's control. `NandEnv` says for the `n`-th
operation on the flash how it goes. The state has one ghost, `marked`: the blocks that
`_MarkBadBlk` has been called on. Each cached set of tables has three more, `loSrc`, `hiSrc` and
`logSrc`: the zone its parts were last read for. No code reads them.
-/

namespace Novo7

open Machine

/-! ## Words -/

/-- Reduction to an unsigned 16-bit word. -/
def u16 (n : Nat) : Nat := n % 2 ^ 16

/-- Reduction to an unsigned byte. -/
def u8 (n : Nat) : Nat := n % 2 ^ 8

/-! ## Geometry -/

/-- The parameters of `NandStorageInfo` and `LogicArchiPar` that the logic layer uses, as
`FMT_Init` sets them. -/
structure LogicArchi where
  /-- `PAGE_CNT_OF_LOGIC_BLK` and `PAGE_CNT_OF_SUPER_BLK` -/
  pageCntOfLogicBlk : Nat
  pageCntOfPhyBlk : Nat
  sectorCntOfLogicPage : Nat
  dataBlkCntOfZone : Nat
  zoneCntOfDie : Nat
  dieCntOfChip : Nat
  /-- `BLOCK_CNT_OF_DIE / PLANE_CNT_OF_DIE` -/
  superBlkCntOfDie : Nat
  /-- `DieCntOfNand` -/
  dieCntOfNand : Nat
  supportIntInterleave : Bool
  supportExtInterleave : Bool
  supportAlignNandBnk : Bool
  supportPageCopyback : Bool
  supportMultiProgram : Bool

/-- `BLOCK_CNT_OF_ZONE` -/
def blockCntOfZone : Nat := 1024

/-- `LOG_BLK_CNT_OF_ZONE` -/
def logBlkCntOfZone : Nat := 16

namespace LogicArchi

variable (ar : LogicArchi)

/-- `INTERLEAVE_BANK_CNT` -/
def interleaveBankCnt : Nat := ar.pageCntOfLogicBlk / ar.pageCntOfPhyBlk

/-- `FREE_BLK_CNT_OF_ZONE` -/
def freeBlkCntOfZone : Nat := blockCntOfZone - ar.dataBlkCntOfZone - 1

/-- `FULL_BITMAP_OF_LOGIC_PAGE` -/
def fullBitmapOfLogicPage : Nat := 2 ^ ar.sectorCntOfLogicPage - 1

/-- The die a zone is in. -/
def dieOf (nZone : Nat) : Nat := nZone / ar.zoneCntOfDie

end LogicArchi

/-! ## Flash -/

/-- `struct __PhysicOpPara_t` without its buffers: a page of a block of a bank. -/
structure PhyPage where
  bank : Nat
  blk : Nat
  page : Nat
deriving DecidableEq

/-- `struct __NandUserData_t` -/
structure UserData where
  badBlkFlag : Nat
  logicInfo : Nat
  logicPageNum : Nat
  pageStatus : Nat
deriving DecidableEq

/-- The spare area of an erased page. -/
def UserData.blank : UserData := ⟨0xff, 0xffff, 0xffff, 0xff⟩

/-- Main data, by halfword. -/
abbrev Buf := Nat → Nat

/-- Main data and spare area of a page. -/
structure Page where
  main : Buf
  spare : UserData

/-- What an erased page reads as. -/
def Page.blank : Page := ⟨fun _ => 0xffff, .blank⟩

/-- Programming a page that is already programmed can only clear bits. -/
def Page.over (old new : Page) : Page where
  main i := old.main i &&& new.main i
  spare := ⟨old.spare.badBlkFlag &&& new.spare.badBlkFlag,
    old.spare.logicInfo &&& new.spare.logicInfo,
    old.spare.logicPageNum &&& new.spare.logicPageNum,
    old.spare.pageStatus &&& new.spare.pageStatus⟩

/-- The flash array: what is programmed in each page since its last erase, and for each bank
whether its last program or erase failed. -/
structure Nand where
  cell : PhyPage → Option Page
  failed : Nat → Bool
  /-- the number of operations so far -/
  clock : Nat

/-- What a page reads as. -/
def Nand.read (n : Nand) (a : PhyPage) : Page := (n.cell a).getD .blank

inductive ReadOutcome where
  | good
  /-- correct data, at the limit of what ECC can correct -/
  | eccLimit
  /-- too many bit errors: the layer delivers what it has got and reports success -/
  | uncorrectable (junk : Page)
  | timeout (junk : Page)

inductive ProgOutcome where
  | done
  /-- the status register reports a failure; `left` is what the page holds then -/
  | failed (left : Page)
  /-- the controller gives up before it has sent the data -/
  | timeout

inductive EraseOutcome where
  | done
  /-- the status register reports a failure; `left` is what the pages hold then -/
  | failed (left : Nat → Option Page)

/-- How the `n`-th operation on the flash goes. -/
structure NandEnv where
  read : Nat → ReadOutcome
  prog : Nat → ProgOutcome
  erase : Nat → EraseOutcome

/-! ## Tables in RAM -/

/-- `struct __SuperPhyBlkType_t` -/
structure SuperPhyBlk where
  phyBlkNum : Nat
  blkEraseCnt : Nat
deriving DecidableEq

def SuperPhyBlk.none : SuperPhyBlk := ⟨0xffff, 0xffff⟩

/-- `struct __LogBlkType_t` -/
structure LogBlk where
  logicBlkNum : Nat
  lastUsedPage : Nat
  phyBlk : SuperPhyBlk
deriving DecidableEq

def LogBlk.none : LogBlk := ⟨0xffff, 0xffff, .none⟩

/-- `struct __ZoneTblPstInfo_t` -/
structure ZoneTblPst where
  phyBlkNum : Nat
  tablePst : Nat

/-- The tables of a zone: `DATA_BLK_TBL`, `FREE_BLK_TBL` and `LOG_BLK_TBL`. -/
structure BlkTbls where
  dataBlkTbl : Nat → SuperPhyBlk
  freeBlkTbl : Nat → SuperPhyBlk
  logBlkTbl : Nat → LogBlk

/-- `struct __BlkMapTblCache_t`. `checkSum` is the word behind the free block table. -/
structure BlkMapTblCache where
  zoneNum : Nat
  dirtyFlag : Bool
  accessCnt : Nat
  tbls : BlkTbls
  checkSum : Nat
  lastFreeBlkPst : Nat
  loSrc : Nat
  hiSrc : Nat
  logSrc : Nat

/-- `struct __PageMapTblCache_t` -/
structure PageMapTblCache where
  zoneNum : Nat
  logBlkPst : Nat
  accessCnt : Nat
  pageMapTbl : Nat → Nat
  dirtyFlag : Bool

/-- `OpMode` -/
inductive OpMode where
  | none
  | read
  | write
deriving DecidableEq

/-- `struct __LogicCtlPar_t` -/
structure LogicCtlPar where
  opMode : OpMode
  zoneNum : Nat
  logicBlkNum : Nat
  logicPageNum : Nat
  logPageNum : Nat
  dataBlkNum : SuperPhyBlk
  logBlkNum : SuperPhyBlk
  diskCap : Nat

/-- `struct __GlobalLogicPageType_t` -/
structure GlobalLogicPage where
  logicPageNum : Nat
  sectorBitmap : Nat

/-- The state of the translation layer. `host` is the memory around the buffer that the
caller has handed in, by halfword from its start. -/
structure Ftl where
  nand : Nand
  zoneTblPst : Nat → ZoneTblPst
  blkCache : Fin 4 → BlkMapTblCache
  actBlk : Fin 4
  logAccessAge : Nat → Nat
  logAccessTimer : Nat
  pageCache : Fin 4 → PageMapTblCache
  actPage : Fin 4
  tempBuf : Buf
  writePageCache : Buf
  processTblBuf : Buf
  logicalCtl : LogicCtlPar
  cachePage : GlobalLogicPage
  host : Int → Nat
  marked : List (Nat × Nat)

namespace Ftl

variable (s : Ftl)

/-- `BLK_MAP_CACHE` -/
def blkMapCache : BlkMapTblCache := s.blkCache s.actBlk

/-- `CUR_MAP_ZONE` -/
def curMapZone : Nat := s.blkMapCache.zoneNum

/-- `DATA_BLK_TBL`, `FREE_BLK_TBL` and `LOG_BLK_TBL` -/
def tbls : BlkTbls := s.blkMapCache.tbls

/-- `PAGE_MAP_CACHE` -/
def pageMapCache : PageMapTblCache := s.pageCache s.actPage

/-- `PAGE_MAP_TBL` -/
def pageMapTbl : Nat → Nat := s.pageMapCache.pageMapTbl

def setBlkMapCache (f : BlkMapTblCache → BlkMapTblCache) : Ftl :=
  { s with blkCache := Function.update s.blkCache s.actBlk (f s.blkMapCache) }

def setTbls (f : BlkTbls → BlkTbls) : Ftl := s.setBlkMapCache fun c => { c with tbls := f c.tbls }

def setPageMapCache (f : PageMapTblCache → PageMapTblCache) : Ftl :=
  { s with pageCache := Function.update s.pageCache s.actPage (f s.pageMapCache) }

def setLogicalCtl (f : LogicCtlPar → LogicCtlPar) : Ftl :=
  { s with logicalCtl := f s.logicalCtl }

end Ftl

/-! ## Points a run can pass -/

/-- The points of a run that a theorem can be about. The first three show the state where they
stand; the others mark branches that are only taken when something has failed. -/
inductive Event where
  /-- before each operation on the flash -/
  | flashOp (s : Ftl)
  /-- a page operation on zone `nZone` uses the active tables -/
  | tblUse (nZone : Nat) (s : Ftl)
  /-- `BMM_GetFreeBlk` hands out a block -/
  | freeTaken (b : SuperPhyBlk) (s : Ftl)
  /-- `_read_block_map_tbl` gives up when it has already overwritten a part of the tables in a
  slot that belongs to a zone -/
  | tblMixed
  /-- `_blk_map_tbl_cache_post` gives up when it has written the tables of a dirty slot back:
  the slot stays, and stays dirty -/
  | dirtyKept
  /-- `_write_back_block_map_tbl` programs a page that is not blank -/
  | tblOverlaid
  /-- `_CloseWritePage` replaces a block that is not the log block of the logical block -/
  | strayReplace
  /-- a move or simple merge gives up when it has taken a free block -/
  | mergeDropped
  /-- a swap merge gives up when its log block has already been replaced -/
  | swapDropped
  /-- `_write_back_block_map_tbl` gives up when the table block has already been replaced -/
  | tblDropped
  /-- a merge puts a block that it has just marked bad into the free table -/
  | badFreed

/-- Programs of the translation layer. -/
abbrev FtlProg := Traced.Prog Event Ftl

end Novo7
