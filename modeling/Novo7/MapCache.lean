import Novo7.LogMerge

/-!
# The map caches

`mapping.c`. Four zones have their block tables in RAM and four log blocks their page map. A
slot is found by its label; when there is none, an empty or the least recently used slot is
written back, if it is dirty, and filled again.

Block tables are stored in groups of four pages of the table block of the zone: two pages for the
data and free tables with their checksum, one for the log table with its own, and one that is
blank as long as the group is what the driver has in RAM, the dirty page. A page map is
stored in the next free page of its log block; when that page does not hold a page map, the map
is rebuilt from the spare areas.
-/

namespace Novo7

open Traced Machine

/-! ## Words and checksums -/

/-- Word `k` of a buffer. -/
def Buf.word (b : Buf) (k : Nat) : Nat := b (2 * k) + 2 ^ 16 * b (2 * k + 1)

/-- Store a word. -/
def Buf.setWord (b : Buf) (k v : Nat) : Buf :=
  Function.update (Function.update b (2 * k) (v % 2 ^ 16)) (2 * k + 1) (v / 2 ^ 16)

/-- The first `n` halfwords from `src`. -/
def Buf.copy (b : Buf) (n : Nat) (src : Buf) : Buf := fun i => if i < n then src i else b i

/-- A buffer that has been set to 0xff. -/
def Buf.blank : Buf := fun _ => 0xffff

/-- `_GetTblCheckSum`: the sum of the first words of a table. -/
def getTblCheckSum (word : Nat → Nat) : Nat → Nat
  | 0 => 0
  | n + 1 => u32 (getTblCheckSum word n + word n)

/-! ## Tables in memory -/

/-- A halfword of a block item: block number, then erase count. -/
def SuperPhyBlk.half (b : SuperPhyBlk) (i : Nat) : Nat :=
  if i % 2 = 0 then b.phyBlkNum else b.blkEraseCnt

/-- Item `k` of the array that holds the data block table and behind it the free block
table. -/
def BlkTbls.item (t : BlkTbls) (dataCnt k : Nat) : SuperPhyBlk :=
  if k < dataCnt then t.dataBlkTbl k else t.freeBlkTbl (k - dataCnt)

/-- The array of data and free block table, by halfword; word 1023 is the checksum. -/
def BlkMapTblCache.blkBuf (c : BlkMapTblCache) (dataCnt : Nat) : Buf := fun i =>
  if i < 2046 then (c.tbls.item dataCnt (i / 2)).half i
  else if i = 2046 then c.checkSum % 2 ^ 16
  else c.checkSum / 2 ^ 16

/-- The log block table, by halfword. -/
def BlkTbls.logBuf (t : BlkTbls) : Buf := fun i =>
  let l := t.logBlkTbl (i / 4)
  if i % 4 = 0 then l.logicBlkNum
  else if i % 4 = 1 then l.lastUsedPage
  else l.phyBlk.half i

/-- The block item at word `k` of a buffer. -/
def Buf.blkAt (b : Buf) (k : Nat) : SuperPhyBlk := ⟨b (2 * k), b (2 * k + 1)⟩

/-- The log block item `k` of a buffer. -/
def Buf.logAt (b : Buf) (k : Nat) : LogBlk :=
  ⟨b (4 * k), b (4 * k + 1), ⟨b (4 * k + 2), b (4 * k + 3)⟩⟩

/-- Overwrite the items `base`, …, `base + 511` of the array of data and free block table. -/
def BlkMapTblCache.loadBlk (c : BlkMapTblCache) (dataCnt base : Nat) (b : Buf) :
    BlkMapTblCache :=
  { c with
    tbls := { c.tbls with
      dataBlkTbl := fun k =>
        if base ≤ k ∧ k < base + 512 ∧ k < dataCnt then b.blkAt (k - base)
        else c.tbls.dataBlkTbl k
      freeBlkTbl := fun k =>
        if base ≤ dataCnt + k ∧ dataCnt + k < base + 512 ∧ dataCnt + k < 1023 then
          b.blkAt (dataCnt + k - base)
        else c.tbls.freeBlkTbl k }
    checkSum := if base ≤ 1023 ∧ 1023 < base + 512 then b.word (1023 - base) else c.checkSum }

/-- Overwrite the log block table. -/
def BlkMapTblCache.loadLog (c : BlkMapTblCache) (b : Buf) : BlkMapTblCache :=
  { c with tbls := { c.tbls with
      logBlkTbl := fun k => if k < logBlkCntOfZone then b.logAt k else c.tbls.logBlkTbl k } }

/-- The words that the checksum of data and free block table is about. -/
def BlkMapTblCache.blkSum (c : BlkMapTblCache) (dataCnt : Nat) : Nat :=
  getTblCheckSum (c.blkBuf dataCnt).word 1023

/-! ## Slots -/

/-- The first slot with a property. -/
def findSlot (p : Fin 4 → Bool) : Option (Fin 4) := (List.finRange 4).find? p

/-- The least recently used slot. -/
def lruSlot (accessCnt : Fin 4 → Nat) : Fin 4 :=
  (List.finRange 4).foldl (fun l i => if accessCnt l < accessCnt i then i else l) 0

section MapCache

variable (ar : LogicArchi) (env : NandEnv)

/-! ## Dirty page -/

/-- `_write_dirty_flag` -/
def writeDirtyFlag (nZone : Nat) : FtlProg Unit := do
  let pst := (← get).zoneTblPst nZone
  modify fun s => { s with processTblBuf := s.processTblBuf.copy 256 fun _ => 0x5555 }
  let _ ← writeTbl ar env nZone pst.phyBlkNum (pst.tablePst + 3) { UserData.blank with pageStatus := 0x55 }

/-- `BMM_SetDirtyFlag` -/
def bmmSetDirtyFlag : FtlProg Unit := do
  let s ← get
  when (s.blkMapCache.dirtyFlag = false) do
    writeDirtyFlag ar env s.curMapZone
    modify (·.setBlkMapCache fun c => { c with dirtyFlag := true })

/-! ## Page maps on flash -/

/-- The page that holds a page map. -/
def pageMapBuf (map : Nat → Nat) : Buf :=
  let b := Buf.blank.copy ar.pageCntOfLogicBlk map
  b.setWord 511 (getTblCheckSum b.word (ar.pageCntOfLogicBlk / 2))

/-- Change the log block at a position of the active log block table. -/
def setLogAt (nLogBlkPst : Nat) (f : LogBlk → LogBlk) : FtlProg Unit :=
  modify (·.setTbls fun t => t.setLog nLogBlkPst (f (t.logBlkTbl nLogBlkPst)))

/-- One try of `_write_back_page_map_tbl` (`rewrite`): the block goes from try to try. -/
def writePageMapRound (nLogBlkPst tablePage : Nat) (tableBlk : Nat) : FtlProg (Nat ⊕ Unit) := do
  let s ← get
  modify ({ · with processTblBuf := pageMapBuf ar s.pageMapTbl })
  let ret ← writeTbl ar env s.curMapZone tableBlk tablePage { UserData.blank with pageStatus := 0xaa }
  if ret ≠ 0 then do
    let newBlk ← lmlBadBlkManage ar env ⟨tableBlk, 0⟩ s.curMapZone tablePage
    setLogAt nLogBlkPst ({ · with phyBlk := newBlk })
    pure (.inl newBlk.phyBlkNum)
  else
    pure (.inr ())

/-- `_write_back_page_map_tbl`: the map goes to the page behind the last used one. When there
is none, the log block is merged; after a move merge there is room. -/
def writeBackPageMapTbl (nLogBlkPst : Nat) : FtlProg Unit := do
  let s ← get
  let full := u16 ((s.tbls.logBlkTbl nLogBlkPst).lastUsedPage + 1) = ar.pageCntOfLogicBlk
  when full (lmlMergeLogBlk ar env .special (s.tbls.logBlkTbl nLogBlkPst).logicBlkNum)
  let s' ← get
  when (¬(full ∧ s'.pageMapCache.zoneNum = 0xff)) do
    let l := s'.tbls.logBlkTbl nLogBlkPst
    let tablePage := u16 (l.lastUsedPage + 1)
    iterate (writePageMapRound ar env nLogBlkPst tablePage) (ar.freeBlkCntOfZone + 2)
      l.phyBlk.phyBlkNum
    setLogAt nLogBlkPst ({ · with lastUsedPage := tablePage })
    modify (·.setPageMapCache fun c => { c with zoneNum := 0xff, logBlkPst := 0xff })

/-- `_rebuild_page_map_tbl` -/
def rebuildPageMapTbl (nLogBlkPst : Nat) : FtlProg Unit := do
  modify (·.setPageMapCache fun c => { c with pageMapTbl := fun _ => 0xffff })
  let s ← get
  let tableBlk := (s.tbls.logBlkTbl nLogBlkPst).phyBlk.phyBlkNum
  forRange ar.pageCntOfLogicBlk fun tablePage => do
    let (ret, u) ← readTbl ar env s.curMapZone tableBlk tablePage 0x3
    failIf (ret < 0) (-1)
    when (u.logicPageNum ≠ 0xffff ∧ u.logicPageNum < ar.pageCntOfLogicBlk)
      (pmmSetCurMapPage u.logicPageNum tablePage)
  modify (·.setPageMapCache fun c => { c with dirtyFlag := true })
  bmmSetDirtyFlag ar env

/-- `_read_page_map_tbl` -/
def readPageMapTbl (nLogBlkPst : Nat) : FtlProg Unit := do
  let s ← get
  let l := s.tbls.logBlkTbl nLogBlkPst
  if l.lastUsedPage = 0xffff then
    modify (·.setPageMapCache fun c => { c with pageMapTbl := fun _ => 0xffff })
  else do
    let (ret, u) ← readTbl ar env s.curMapZone l.phyBlk.phyBlkNum l.lastUsedPage 0xf
    let b := (← get).processTblBuf
    if ret < 0 ∨ u.pageStatus ≠ 0xaa ∨ u.logicPageNum ≠ 0xffff ∨
        getTblCheckSum b.word (ar.pageCntOfLogicBlk / 2) ≠ b.word 511 then
      rebuildPageMapTbl ar env nLogBlkPst
    else
      modify (·.setPageMapCache fun c =>
        { c with pageMapTbl := Buf.blank.copy ar.pageCntOfLogicBlk b })

/-! ## The page map cache -/

/-- `_find_page_tbl_post_location`, and the slot becomes the active one. -/
def postPageSlot : FtlProg Unit := modify fun s =>
  match findSlot fun i => (s.pageCache i).zoneNum = 0xff with
  | some i => { s with actPage := i }
  | none => { s with
      actPage := lruSlot fun i => (s.pageCache i).accessCnt
      pageCache := fun i => { s.pageCache i with accessCnt := 0 } }

/-- Write the page map in the active slot back, with the block tables of its zone active
meanwhile. They stay active when that fails. -/
def evictPageMap : FtlProg Unit := do
  let s ← get
  when (s.pageMapCache.dirtyFlag ∧ s.pageMapCache.zoneNum ≠ 0xff) do
    when (s.pageMapCache.zoneNum ≠ s.curMapZone)
      (match findSlot fun i => (s.blkCache i).zoneNum = s.pageMapCache.zoneNum with
        | some i => modify ({ · with actBlk := i })
        | none => fail (-1))
    bmmSetDirtyFlag ar env
    writeBackPageMapTbl ar env s.pageMapCache.logBlkPst
    modify ({ · with actBlk := s.actBlk })

/-- `_page_map_tbl_cache_post` -/
def pageMapTblCachePost (nLogBlkPst : Nat) : FtlProg Unit := do
  postPageSlot
  evictPageMap ar env
  modify (·.setPageMapCache fun c => { c with dirtyFlag := false })
  readPageMapTbl ar env nLogBlkPst
  modify fun s => s.setPageMapCache fun c =>
    { c with zoneNum := s.curMapZone, logBlkPst := nLogBlkPst }

/-- `_CalPageTblAccessCount` -/
def calPageTblAccessCount : FtlProg Unit := modify fun s => { s with
  pageCache := fun i => { s.pageCache i with
    accessCnt := if i = s.actPage then 0 else u16 ((s.pageCache i).accessCnt + 1) } }

/-- Count an access, whether it succeeds or not. -/
def counted (m count : FtlProg Unit) : FtlProg Unit := do
  orElse m fun e => do
    count
    fail e
  count

/-- `PMM_SwitchMapTbl` -/
def pmmSwitchMapTbl (nLogBlkPst : Nat) : FtlProg Unit := do
  let s ← get
  counted
    (match findSlot fun i =>
        (s.pageCache i).zoneNum = s.curMapZone ∧ (s.pageCache i).logBlkPst = nLogBlkPst with
      | some i => modify ({ · with actPage := i })
      | none => pageMapTblCachePost ar env nLogBlkPst)
    calPageTblAccessCount

/-! ## Block tables on flash -/

/-- `_write_back_all_page_map_tbl` -/
def writeBackAllPageMapTbl (nZone : Nat) : FtlProg Unit :=
  forRange 4 fun i => do
    let s ← get
    let i := Fin.ofNat 4 i
    when ((s.pageCache i).zoneNum = nZone ∧ (s.pageCache i).dirtyFlag) do
      modify ({ · with actPage := i })
      writeBackPageMapTbl ar env (s.pageCache i).logBlkPst
      modify (·.setPageMapCache fun c => { c with dirtyFlag := false })

/-- The spare area of the first page of a table block. -/
def tblLogicInfo (nZone : Nat) : Nat := 2 ^ 14 ||| ((nZone % ar.zoneCntOfDie) <<< 10) ||| 0xaa

/-- Write `LML_PROCESS_TBL_BUF` to a page of a table block; when that fails, another block
takes its place. -/
def writeTblPage (nZone tableBlk tablePage logicInfo : Nat) : FtlProg (Option SuperPhyBlk) := do
  let a := lmlCalculatePhyOpPar ar nZone tableBlk tablePage
  when (((← get).nand.cell a).isSome) (emit .tblOverlaid)
  let ret ← writeTbl ar env nZone tableBlk tablePage
    { UserData.blank with logicInfo := logicInfo, pageStatus := 0x55 }
  if ret ≠ 0 then do
    let newBlk ← lmlBadBlkManage ar env ⟨tableBlk, 0⟩ nZone 0
    pure (some newBlk)
  else
    pure none

/-- One try of `_write_back_block_map_tbl` (`rewrite`): the three pages of a table group. The
checksum of data and free block table has been computed before the first try. -/
def writeTblGroup (nZone : Nat) (x : Nat × Nat) : FtlProg ((Nat × Nat) ⊕ (Nat × Nat)) := do
  let dataCnt := ar.dataBlkCntOfZone
  modify fun s => { s with
    processTblBuf := s.processTblBuf.copy 1024 (s.blkMapCache.blkBuf dataCnt) }
  match ← writeTblPage ar env nZone x.1 x.2 (if x.2 = 0 then tblLogicInfo ar nZone else 0xffff) with
  | some newBlk => pure (.inl (newBlk.phyBlkNum, 0))
  | none => do
    modify fun s => { s with
      processTblBuf := s.processTblBuf.copy 1024 fun i => s.blkMapCache.blkBuf dataCnt (1024 + i) }
    match ← writeTblPage ar env nZone x.1 (x.2 + 1) 0xffff with
    | some newBlk => pure (.inl (newBlk.phyBlkNum, 0))
    | none => do
      modify fun s =>
        let b := Buf.blank.copy (4 * logBlkCntOfZone) s.tbls.logBuf
        { s with processTblBuf := b.setWord 511 (getTblCheckSum b.word (2 * logBlkCntOfZone)) }
      match ← writeTblPage ar env nZone x.1 (x.2 + 2) 0xffff with
      | some newBlk => pure (.inl (newBlk.phyBlkNum, 0))
      | none => pure (.inr x)

/-- Where the next table group goes: behind the last one, or to the start of the table block,
which is erased for it. -/
def nextTblGroup (nZone : Nat) : FtlProg (Nat × Nat) := do
  let s ← get
  let pst := s.zoneTblPst nZone
  if pst.tablePst ≥ ar.pageCntOfLogicBlk - 4 then do
    let ret ← lmlVirtualBlkErase ar env nZone pst.phyBlkNum
    if ret ≠ 0 then do
      let newBlk ← lmlBadBlkManage ar env ⟨pst.phyBlkNum, 0⟩ s.curMapZone 0
      pure (newBlk.phyBlkNum, 0)
    else
      pure (pst.phyBlkNum, 0)
  else
    pure (pst.phyBlkNum, pst.tablePst + 4)

/-- `_write_back_block_map_tbl` -/
def writeBackBlockMapTbl (nZone : Nat) : FtlProg Unit := do
  writeBackAllPageMapTbl ar env nZone
  let oldBlk := ((← get).zoneTblPst nZone).phyBlkNum
  let x ← nextTblGroup ar env nZone
  modify (·.setBlkMapCache fun c => { c with checkSum := c.blkSum ar.dataBlkCntOfZone })
  modify ({ · with processTblBuf := Buf.blank })
  let x ← iterate
    (fun x => orElse (writeTblGroup ar env nZone x) fun e => do
      when (x.1 ≠ oldBlk) (emit .tblDropped)
      fail e)
    (ar.freeBlkCntOfZone + 2) x
  modify fun s => { s with zoneTblPst := Function.update s.zoneTblPst nZone ⟨x.1, x.2⟩ }

/-- `_read_block_map_tbl` gives up after it has overwritten a part of the active tables. -/
def mixTbls : FtlProg Unit := do
  let s ← get
  when (s.curMapZone ≠ 0xff) (emit .tblMixed)
  fail (-1)

/-- `_read_block_map_tbl` -/
def readBlockMapTbl (nZone : Nat) : FtlProg Unit := do
  let dataCnt := ar.dataBlkCntOfZone
  let pst := (← get).zoneTblPst nZone
  let (ret, _) ← readTbl ar env nZone pst.phyBlkNum pst.tablePst 0xf
  failIf (ret < 0) (-1)
  modify fun s => s.setBlkMapCache fun c =>
    { c.loadBlk dataCnt 0 s.processTblBuf with loSrc := nZone }
  let (ret, _) ← readTbl ar env nZone pst.phyBlkNum (pst.tablePst + 1) 0xf
  when (ret < 0) mixTbls
  modify fun s => s.setBlkMapCache fun c =>
    { c.loadBlk dataCnt 512 s.processTblBuf with hiSrc := nZone }
  let c := (← get).blkMapCache
  when (c.checkSum ≠ c.blkSum dataCnt) mixTbls
  let (ret, _) ← readTbl ar env nZone pst.phyBlkNum (pst.tablePst + 2) 0xf
  when (ret < 0) mixTbls
  let b := (← get).processTblBuf
  when (b.word 511 ≠ getTblCheckSum b.word (2 * logBlkCntOfZone)) mixTbls
  modify fun s => s.setBlkMapCache fun c => { c.loadLog s.processTblBuf with logSrc := nZone }

/-! ## The block map cache -/

/-- `_find_blk_tbl_post_location`, and the slot becomes the active one. -/
def postBlkSlot : FtlProg Unit := modify fun s =>
  match findSlot fun i => (s.blkCache i).zoneNum = 0xff with
  | some i => { s with actBlk := i }
  | none => { s with
      actBlk := lruSlot fun i => (s.blkCache i).accessCnt
      blkCache := fun i => { s.blkCache i with accessCnt := 0 } }

/-- `_blk_map_tbl_cache_post` -/
def blkMapTblCachePost (nZone : Nat) : FtlProg Unit := do
  postBlkSlot
  let c := (← get).blkMapCache
  when (c.dirtyFlag = true) (writeBackBlockMapTbl ar env c.zoneNum)
  orElse (readBlockMapTbl ar env nZone) fun e => do
    when (c.dirtyFlag = true) (emit .dirtyKept)
    fail e
  modify (·.setBlkMapCache fun c => { c with zoneNum := nZone, dirtyFlag := false })

/-- `_CalBlkTblAccessCount` -/
def calBlkTblAccessCount : FtlProg Unit := modify fun s => { s with
  blkCache := fun i => { s.blkCache i with
    accessCnt := if i = s.actBlk then 0 else u16 ((s.blkCache i).accessCnt + 1) } }

/-- `BMM_SwitchMapTbl` -/
def bmmSwitchMapTbl (nZone : Nat) : FtlProg Unit := do
  let s ← get
  counted
    (match findSlot fun i => (s.blkCache i).zoneNum = nZone with
      | some i => modify ({ · with actBlk := i })
      | none => blkMapTblCachePost ar env nZone)
    calBlkTblAccessCount

/-- `BMM_WriteBackAllMapTbl`; when a write-back fails its slot stays active. -/
def bmmWriteBackAllMapTbl : FtlProg Unit := do
  let s ← get
  forRange 4 fun i => do
    let i := Fin.ofNat 4 i
    when (((← get).blkCache i).dirtyFlag = true) do
      modify ({ · with actBlk := i })
      writeBackBlockMapTbl ar env (← get).curMapZone
      modify (·.setBlkMapCache fun c => { c with dirtyFlag := false })
  modify ({ · with actBlk := s.actBlk, actPage := s.actPage })

end MapCache

end Novo7
