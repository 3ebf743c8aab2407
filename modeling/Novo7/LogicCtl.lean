import Novo7.LogPage

/-!
# The logical disk

`logic_ctl.c` and `read_reclaim.c`: the disk as sectors, cut into pages, over blocks that are
mapped by the tables of their zone. `LogicalCtl` remembers the zone, the block and the mode of
the last page operation, so that the next one can skip what it has in common with it.

The status of a page write is not read before the next write to the same bank, or when the
block is left or the mode changes. Sectors that do not fill a page wait in the page cache.
-/

namespace Novo7

open Traced Machine

/-- `ERR_PHYSIC` -/
def errPhysic : Int := 15

/-- `ERR_MAPPING` -/
def errMapping : Int := 18

/-- `ERR_LOGICCTL` -/
def errLogicctl : Int := 19

/-- `ERR_ADDRBEYOND` -/
def errAddrBeyond : Int := 20

/-! ## Page buffers -/

/-- A buffer for a page: at an offset of the caller's memory, or `LML_WRITE_PAGE_CACHE`. -/
inductive PageBuf where
  | host (off : Int)
  | writePageCache

/-- What a buffer holds. -/
def PageBuf.load (s : Ftl) : PageBuf → Buf
  | .host off => fun i => s.host (off + i)
  | .writePageCache => s.writePageCache

/-- Put the sectors of `bitmap` into memory at `off`. -/
def storeSectors (bitmap : Nat) (off : Int) (src : Buf) (host : Int → Nat) : Int → Nat :=
  fun i => if off ≤ i ∧ bitmap.testBit ((i - off).toNat / 256) then src (i - off).toNat else host i

/-- Put the sectors of `bitmap` into a buffer. -/
def PageBuf.store (bitmap : Nat) (src : Buf) (s : Ftl) : PageBuf → Ftl
  | .host off => { s with host := storeSectors bitmap off src s.host }
  | .writePageCache => { s with writePageCache := copySectors bitmap src s.writePageCache }

/-- Call `m`; when it fails, fail with `e`. -/
def failWith {α : Type} (m : FtlProg α) (e : Int) : FtlProg α := orElse m fun _ => fail e

/-- `struct __LogicPageType_t` without the bitmap -/
structure LogicPage where
  zoneNum : Nat
  blockNum : Nat
  pageNum : Nat

/-- `_CalculateLogicPagePar` -/
def calculateLogicPagePar (ar : LogicArchi) (nPage : Nat) : LogicPage where
  zoneNum := u8 (nPage / ar.pageCntOfLogicBlk / ar.dataBlkCntOfZone)
  blockNum := u16 (nPage / ar.pageCntOfLogicBlk % ar.dataBlkCntOfZone)
  pageNum := u16 (nPage % ar.pageCntOfLogicBlk)

section PageOps

variable (ar : LogicArchi) (env : NandEnv)

/-! ## Pages -/

/-- A page operation on a zone is about to use the active tables. -/
def useTbls (nZone : Nat) : FtlProg Unit := do
  let s ← get
  emit (.tblUse nZone s)

/-- Replace the log block that is being written: restore its first pages in another block and
enter that in the log block table. -/
def replaceLogBlk (nErrPage : Nat) : FtlProg Unit := do
  let c := (← get).logicalCtl
  useTbls c.zoneNum
  let newBlk ← lmlBadBlkManage ar env c.logBlkNum c.zoneNum nErrPage
  modify (·.setLogicalCtl ({ · with logBlkNum := newBlk }))
  let l := (← get).tbls.getLogBlk c.logicBlkNum
  bmmSetLogBlk c.logicBlkNum { l with phyBlk := newBlk }

/-- `_CloseWritePage`. Only the bank of the last page is looked at. -/
def closeWritePage : FtlProg Unit := do
  let s ← get
  let c := s.logicalCtl
  when (c.opMode = .write) do
    let ret ← phySynchBank (bankOf ar c.zoneNum c.logBlkNum.phyBlkNum c.logPageNum)
    when (ret < 0) do
      when (¬(s.curMapZone = c.zoneNum ∧ s.tbls.IsLogOf c.logicBlkNum c.logBlkNum))
        (emit .strayReplace)
      replaceLogBlk ar env (c.logPageNum + 1)
  modify (·.setLogicalCtl ({ · with opMode := .none }))

/-- Make the tables of a zone active, unless the last page operation was in the same zone. -/
def enterZone (nZone : Nat) : FtlProg Unit := do
  when (nZone ≠ (← get).logicalCtl.zoneNum) do
    failWith (bmmSwitchMapTbl ar env nZone) (-errMapping)
    modify (·.setLogicalCtl ({ · with zoneNum := nZone, logicBlkNum := 0xffff }))

/-- The blocks of the logical block that is read, unless they are those of the last operation. -/
def enterReadBlk (x : LogicPage) : FtlProg Unit := do
  when (x.blockNum ≠ (← get).logicalCtl.logicBlkNum) do
    useTbls x.zoneNum
    modify fun s => s.setLogicalCtl ({ · with
      dataBlkNum := bmmGetDataBlk ar s.tbls x.blockNum
      logBlkNum := (s.tbls.getLogBlk x.blockNum).phyBlk
      logicBlkNum := x.blockNum })

/-- `LML_PageRead`: zero, or `ECC_LIMIT`. -/
def lmlPageRead (nPage nBitmap : Nat) (pBuf : PageBuf) : FtlProg Int := do
  let x := calculateLogicPagePar ar nPage
  when ((← get).logicalCtl.opMode ≠ .read) do
    when ((← get).logicalCtl.opMode = .write) (failWith (closeWritePage ar env) (-errLogicctl))
    modify (·.setLogicalCtl ({ · with opMode := .read }))
  enterZone ar env x.zoneNum
  enterReadBlk ar x
  modify (·.setLogicalCtl ({ · with logicPageNum := x.pageNum }))
  let c := (← get).logicalCtl
  let logPage ← (if c.logBlkNum.phyBlkNum ≠ 0xffff then do
      useTbls x.zoneNum
      pmmGetLogPageRead ar env x.blockNum x.pageNum
    else
      pure 0xffff)
  modify (·.setLogicalCtl ({ · with logPageNum := logPage }))
  let c := (← get).logicalCtl
  let (ret, p) ← (if logPage ≠ 0xffff then
      lmlVirtualPageRead ar env c.zoneNum c.logBlkNum.phyBlkNum logPage
    else
      lmlVirtualPageRead ar env c.zoneNum c.dataBlkNum.phyBlkNum c.logicPageNum)
  modify (pBuf.store nBitmap p.main)
  failIf (ret < 0) (-1)
  pure ret

/-- One try of `__TRY_WRITE_PHYSIC_PAGE`: first the status of the last write to this bank. -/
def tryWritePage (p : Page) : Unit → FtlProg (Unit ⊕ Unit) := fun _ => do
  let c := (← get).logicalCtl
  let a := lmlCalculatePhyOpPar ar c.zoneNum c.logBlkNum.phyBlkNum c.logPageNum
  let result ← (if c.opMode = .write then phySynchBank a.bank else pure 0)
  if result < 0 then do
    replaceLogBlk ar env c.logPageNum
    pure (.inl ())
  else do
    let ret ← phyPageWrite env a p
    failIf (ret < 0) (-errLogicctl)
    pure (.inr ())

/-- The log page for a page that is written, and the blocks of its logical block. -/
def enterWritePage (x : LogicPage) : FtlProg Unit := do
  modify (·.setLogicalCtl ({ · with logicPageNum := x.pageNum }))
  useTbls x.zoneNum
  let logPage ← orElse (pmmGetLogPageWrite ar env x.blockNum x.pageNum) fun _ => do
    modify (·.setLogicalCtl ({ · with logPageNum := 0xffff }))
    fail (-errMapping)
  useTbls x.zoneNum
  modify fun s => s.setLogicalCtl ({ · with
    logPageNum := logPage
    dataBlkNum := bmmGetDataBlk ar s.tbls x.blockNum
    logBlkNum := (s.tbls.getLogBlk x.blockNum).phyBlk })
  failIf ((← get).logicalCtl.logBlkNum.phyBlkNum = 0xffff) (-errMapping)

/-- `PageStatus` of the page that is written: in page 0 the age of the log block, one more than
that of the data block. -/
def writePageStatus : FtlProg Nat := do
  let c := (← get).logicalCtl
  if c.logPageNum = 0 then do
    let (ret, u) ← readTemp ar env c.zoneNum c.dataBlkNum.phyBlkNum 0 0x3
    failIf (ret < 0) (-errPhysic)
    pure (u8 (u.pageStatus + 1))
  else
    pure 0x55

/-- `LML_PageWrite` -/
def lmlPageWrite (nPage nBitmap : Nat) (pBuf : PageBuf) : FtlProg Unit := do
  failIf (nBitmap ≠ ar.fullBitmapOfLogicPage) (-errLogicctl)
  let x := calculateLogicPagePar ar nPage
  when (x.zoneNum ≠ (← get).logicalCtl.zoneNum) (failWith (closeWritePage ar env) (-errLogicctl))
  enterZone ar env x.zoneNum
  bmmSetDirtyFlag ar env
  when (x.blockNum ≠ (← get).logicalCtl.logicBlkNum) do
    failWith (closeWritePage ar env) (-errLogicctl)
    modify (·.setLogicalCtl ({ · with logicBlkNum := x.blockNum }))
  enterWritePage ar env x
  let status ← writePageStatus ar env
  let s ← get
  let spare := ⟨0xff, logicInfo ar s.logicalCtl.zoneNum x.blockNum, x.pageNum, status⟩
  iterate (tryWritePage ar env ⟨pBuf.load s, spare⟩) (ar.freeBlkCntOfZone + 2) ()
  modify (·.setLogicalCtl ({ · with opMode := .write }))

/-! ## The page cache -/

/-- `_WritePageCacheToNand` -/
def writePageCacheToNand : FtlProg Unit := do
  let c := (← get).cachePage
  when (c.logicPageNum ≠ 0xffffffff) do
    when (c.sectorBitmap ≠ ar.fullBitmapOfLogicPage) do
      let _ ← failWith (lmlPageRead ar env c.logicPageNum
        (c.sectorBitmap ^^^ ar.fullBitmapOfLogicPage) .writePageCache) (-1)
    failWith (lmlPageWrite ar env c.logicPageNum ar.fullBitmapOfLogicPage .writePageCache) (-1)
    modify ({ · with cachePage := ⟨0xffffffff, 0⟩ })

/-- `LML_FlushPageCache` -/
def lmlFlushPageCache : FtlProg Unit := do
  failWith (writePageCacheToNand ar env) (-1)
  failWith (closeWritePage ar env) (-1)

/-- `LML_ReadReclaim` -/
def lmlReadReclaim (nPage : Nat) : FtlProg Unit := do
  failWith (lmlFlushPageCache ar env) (-1)
  let _ ← failWith (lmlPageRead ar env nPage ar.fullBitmapOfLogicPage .writePageCache) (-1)
  failWith (lmlPageWrite ar env nPage ar.fullBitmapOfLogicPage .writePageCache) (-1)

/-- `_UpdateReadPageData` -/
def updateReadPageData (nSectBitmap : Nat) (off : Int) : FtlProg Unit := modify fun s =>
  { s with host := storeSectors (nSectBitmap &&& s.cachePage.sectorBitmap) off s.writePageCache s.host }

/-- `_MergeCachePageData` -/
def mergeCachePageData (nPage nBitmap : Nat) (off : Int) : FtlProg Unit := modify fun s =>
  let c := if s.cachePage.logicPageNum = 0xffffffff then ⟨nPage, 0⟩ else s.cachePage
  { s with
    writePageCache := copySectors nBitmap (PageBuf.load s (.host off)) s.writePageCache
    cachePage := { c with sectorBitmap := c.sectorBitmap ||| nBitmap } }

/-! ## Sectors -/

/-- The pages of a range of sectors. -/
structure SectPar where
  headPage : GlobalLogicPage
  midPageCnt : Nat
  tailPage : GlobalLogicPage

/-- `_CalculateSectPar` -/
def calculateSectPar (nSectNum nSectCnt : Nat) : SectPar :=
  let cnt := ar.sectorCntOfLogicPage
  let full := ar.fullBitmapOfLogicPage
  let head := nSectNum / cnt
  let sectCnt := u32 (nSectCnt + nSectNum % cnt)
  let bitmap := u32 (full <<< (nSectNum % cnt))
  if sectCnt > cnt then
    -- the loop that counts the full pages divides
    let mid := (sectCnt - cnt) / cnt
    let rest := (sectCnt - cnt) % cnt
    ⟨⟨head, bitmap &&& full⟩, mid,
      if rest ≠ 0 then ⟨head + mid + 1, full >>> (cnt - rest)⟩ else ⟨0xffffffff, 0⟩⟩
  else
    ⟨⟨head, bitmap &&& (full >>> (cnt - sectCnt))⟩, 0, ⟨0xffffffff, 0⟩⟩

namespace SectPar

variable (x : SectPar)

/-- `tmpPageCnt` -/
def pageCnt : Nat := 1 + x.midPageCnt + if x.tailPage.sectorBitmap ≠ 0 then 1 else 0

/-- `tmpBitmap` in round `i`. -/
def bitmap (i : Nat) : Nat :=
  if i = 0 then x.headPage.sectorBitmap
  else if x.tailPage.sectorBitmap ≠ 0 ∧ i = x.pageCnt - 1 then x.tailPage.sectorBitmap
  else ar.fullBitmapOfLogicPage

/-- `tmpPageNum` in round `i`. -/
def page (i : Nat) : Nat := u32 (x.headPage.logicPageNum + i)

/-- How many sectors of the head page come before the range. -/
def skip : Nat :=
  ((List.range ar.sectorCntOfLogicPage).find? x.headPage.sectorBitmap.testBit).getD
    ar.sectorCntOfLogicPage

/-- `tmpBuf` in round `i`, by halfword from the start of the buffer. -/
def off (i : Nat) : Int := ((i * ar.sectorCntOfLogicPage : Nat) - (x.skip ar : Nat) : Int) * 256

end SectPar

/-- One page of `LML_Read`. -/
def readRound (x : SectPar) (i : Nat) : FtlProg Unit := do
  let result ← failWith
    (lmlPageRead ar env (x.page i) (x.bitmap ar i) (.host (x.off ar i))) (-1)
  when (result = eccLimit) (orElse (lmlReadReclaim ar env (x.page i)) fun _ => pure ())
  when (x.page i = (← get).cachePage.logicPageNum)
    (updateReadPageData (x.bitmap ar i) (x.off ar i))

/-- `LML_Read` -/
def lmlRead (nSectNum nSectorCnt : Nat) : FtlProg Unit := do
  failIf (u32 (nSectNum + nSectorCnt) > (← get).logicalCtl.diskCap) (-errAddrBeyond)
  when (nSectorCnt ≠ 0) do
    let x := calculateSectPar ar nSectNum nSectorCnt
    forRange x.pageCnt (readRound ar env x)

/-- One page of `LML_Write`. -/
def writeRound (x : SectPar) (i : Nat) : FtlProg Unit := do
  if x.page i = (← get).cachePage.logicPageNum then
    mergeCachePageData (x.page i) (x.bitmap ar i) (x.off ar i)
  else do
    failWith (writePageCacheToNand ar env) (-1)
    if x.bitmap ar i = ar.fullBitmapOfLogicPage then
      failWith (lmlPageWrite ar env (x.page i) (x.bitmap ar i) (.host (x.off ar i))) (-1)
    else
      mergeCachePageData (x.page i) (x.bitmap ar i) (x.off ar i)

/-- `LML_Write`: a range beyond the disk is reported, but written all the same. -/
def lmlWrite (nSectNum nSectorCnt : Nat) : FtlProg Unit :=
  when (nSectorCnt ≠ 0) do
    let x := calculateSectPar ar nSectNum nSectorCnt
    forRange x.pageCnt (writeRound ar env x)

/-! ## Operations from outside -/

/-- What the code above calls, page by page. -/
inductive PageOp where
  /-- `LML_PageRead` -/
  | read (nPage nBitmap : Nat) (pBuf : PageBuf)
  /-- `LML_PageWrite` -/
  | write (nPage nBitmap : Nat) (pBuf : PageBuf)
  /-- `_CloseWritePage`, the end of `LML_FlushPageCache` -/
  | close
  /-- `BMM_WriteBackAllMapTbl` -/
  | writeBackAll

def PageOp.run : PageOp → FtlProg Unit
  | .read nPage nBitmap pBuf => do
    let _ ← lmlPageRead ar env nPage nBitmap pBuf
  | .write nPage nBitmap pBuf => lmlPageWrite ar env nPage nBitmap pBuf
  | .close => closeWritePage ar env
  | .writeBackAll => bmmWriteBackAllMapTbl ar env

/-- The zone that an operation is on. -/
def PageOp.zone : PageOp → Option Nat
  | .read nPage _ _ => some (calculateLogicPagePar ar nPage).zoneNum
  | .write nPage _ _ => some (calculateLogicPagePar ar nPage).zoneNum
  | .close => none
  | .writeBackAll => none

end PageOps

end Novo7
