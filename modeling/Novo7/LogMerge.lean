import Novo7.BlkTables

/-!
# Merging a log block

The three merges of `merge.c`. A *swap* merge completes a log block that is in order and makes it
the data block. A *move* merge copies the pages of a full log block that are still current
into a new log block. A *simple* merge collects all pages of the logical block in a new data
block. Each copies page by page and checks each copy; when one has failed, `LML_BadBlkManage`
supplies another block and the merge goes on in that one.

The page map is the active one; it belongs to the log block that is merged.
-/

namespace Novo7

open Traced

/-! ## The active page map -/

/-- `PMM_ClearCurMapTbl` -/
def pmmClearCurMapTbl : FtlProg Unit :=
  modify (·.setPageMapCache fun c => { c with zoneNum := 0xff, logBlkPst := 0xff, dirtyFlag := false })

/-- `PMM_SetCurMapPage` -/
def pmmSetCurMapPage (nLogicalPage nPhysicPage : Nat) : FtlProg Unit :=
  modify (·.setPageMapCache fun c =>
    { c with pageMapTbl := Function.update c.pageMapTbl nLogicalPage nPhysicPage })

section Merge

variable (ar : LogicArchi) (env : NandEnv)

/-! ## Steps the merges share -/

/-- `_copy_page0`: the main data and page number of `srcDataPage`, with the logical information
and age of page 0. -/
def copyPage0 (srcBlk srcDataPage dstBlk seqPlus : Nat) : FtlProg Unit := do
  let z := (← get).curMapZone
  let (ret, u) ← readTemp ar env z srcBlk 0 0x3
  failIf (ret < 0) (-1)
  let (ret, u') ← readTemp ar env z srcBlk srcDataPage ar.fullBitmapOfLogicPage
  failIf (ret < 0) (-1)
  let s ← get
  let ret ← lmlVirtualPageWrite ar env z dstBlk 0
    ⟨s.tempBuf, { u' with logicInfo := u.logicInfo, pageStatus := u8 (u.pageStatus + seqPlus) }⟩
  failIf (ret ≠ 0) (-1)

/-- `PHY_PageCopyback` between pages of the active zone, giving up when it is refused. -/
def copyPage (srcBlk srcPage dstBlk dstPage : Nat) : FtlProg Unit := do
  let z := (← get).curMapZone
  let ret ← phyPageCopyback ar env (lmlCalculatePhyOpPar ar z srcBlk srcPage)
    (lmlCalculatePhyOpPar ar z dstBlk dstPage)
  failIf (ret ≠ 0) (-1)

/-- The status of the bank that a page of the active zone is in. -/
def synchPage (blk page : Nat) : FtlProg Int := do
  let s ← get
  phySynchBank (bankOf ar s.curMapZone blk page)

/-- The erase count of a block that has been erased. -/
def SuperPhyBlk.erased (b : SuperPhyBlk) : SuperPhyBlk :=
  if b.blkEraseCnt < 0xffff then { b with blkEraseCnt := b.blkEraseCnt + 1 } else b

/-- Erase a block that is no longer needed and put it into the free table; when the erase
fails the block is marked bad before. -/
def freeOldBlk (b : SuperPhyBlk) : FtlProg Unit := do
  let z := (← get).curMapZone
  let ret ← lmlVirtualBlkErase ar env z b.phyBlkNum
  when (ret ≠ 0) do
    emit .badFreed
    lmlBadBlkManageNull ar env b z
  bmmSetFreeBlk ar b.erased

/-! ## Swap merge -/

/-- One round of the loop of `_log2data_swap_merge`: copy page `x.1` of the data block to the log
block `x.2`, replacing the log block when that has failed. -/
def swapRound (dataBlk logBlk : SuperPhyBlk) (x : Nat × SuperPhyBlk) :
    FtlProg ((Nat × SuperPhyBlk) ⊕ SuperPhyBlk) :=
  if x.1 < ar.pageCntOfLogicBlk then
    orElse
      (do
        let z := (← get).curMapZone
        copyPage ar env dataBlk.phyBlkNum x.1 x.2.phyBlkNum x.1
        let ret ← synchPage ar x.2.phyBlkNum x.1
        if ret ≠ 0 then do
          let subBlk ← lmlBadBlkManage ar env x.2 z x.1
          pure (.inl (x.1, subBlk))
        else
          pure (.inl (x.1 + 1, x.2)))
      (fun e => do
        when (x.2 ≠ logBlk) (emit .swapDropped)
        fail e)
  else
    pure (.inr x.2)

/-- The rounds that a merge of pages one by one can take: each either advances or uses up a
free block. -/
def mergeFuel : Nat := ar.pageCntOfLogicBlk + ar.freeBlkCntOfZone + 2

/-- `_log2data_swap_merge` -/
def log2dataSwapMerge (nlogical : Nat) : FtlProg Unit := do
  let s ← get
  let dataBlk := bmmGetDataBlk ar s.tbls nlogical
  let logBlk := s.tbls.getLogBlk nlogical
  let newData ← iterate (swapRound ar env dataBlk logBlk.phyBlk) (mergeFuel ar)
    (u16 (logBlk.lastUsedPage + 1), logBlk.phyBlk)
  bmmSetDataBlk ar nlogical newData
  bmmSetLogBlk nlogical .none
  freeOldBlk ar env dataBlk
  pmmClearCurMapTbl

/-! ## Move merge -/

/-- The copies of `_free2log_move_merge` for one bank: `n` logical pages from `superPage` on,
each `INTERLEAVE_BANK_CNT` apart. The result is the next page to use, or the block to start
again with. -/
def moveBankPages (logBlk freeBlk : SuperPhyBlk) :
    Nat → Nat → Nat → FtlProg (SuperPhyBlk ⊕ Nat)
  | 0, _, dstPage => pure (.inr dstPage)
  | n + 1, superPage, dstPage => do
    let s ← get
    let srcPage := s.pageMapTbl superPage
    if srcPage = 0xffff then
      moveBankPages logBlk freeBlk n (superPage + ar.interleaveBankCnt) dstPage
    else do
      (if dstPage = 0 then copyPage0 ar env logBlk.phyBlkNum srcPage freeBlk.phyBlkNum 0
        else copyPage ar env logBlk.phyBlkNum srcPage freeBlk.phyBlkNum dstPage)
      let ret ← synchPage ar freeBlk.phyBlkNum dstPage
      if ret ≠ 0 then do
        let subBlk ← lmlBadBlkManage ar env freeBlk s.curMapZone 0
        pure (.inl subBlk)
      else do
        pmmSetCurMapPage superPage dstPage
        moveBankPages logBlk freeBlk n (superPage + ar.interleaveBankCnt)
          (dstPage + ar.interleaveBankCnt)

/-- Of `n` pages of a bank from `superPage` on, the last one is a page of the block. -/
def BankPages (n superPage : Nat) : Prop :=
  ∀ k, n = k + 1 → superPage + k * ar.interleaveBankCnt < ar.pageCntOfLogicBlk

variable {ar} in
theorem BankPages.step {n superPage : Nat} (h : BankPages ar (n + 1) superPage) :
    superPage < ar.pageCntOfLogicBlk ∧ BankPages ar n (superPage + ar.interleaveBankCnt) := by
  refine ⟨Nat.lt_of_le_of_lt (Nat.le_add_right _ _) (h n rfl), ?_⟩
  rintro k rfl
  have hlast := h (k + 1) rfl
  rw [Nat.add_mul, Nat.one_mul] at hlast
  omega

/-- The pages of a bank. -/
theorem bankPages_all (hcnt : 0 < ar.interleaveBankCnt) (bank : Nat) :
    BankPages ar ((ar.pageCntOfLogicBlk - bank + ar.interleaveBankCnt - 1) / ar.interleaveBankCnt)
      bank := by
  intro k hk
  have hpages := Nat.div_mul_le_self
    (ar.pageCntOfLogicBlk - bank + ar.interleaveBankCnt - 1) ar.interleaveBankCnt
  rw [hk, Nat.add_mul, Nat.one_mul] at hpages
  omega

/-- Page 0 of the new log block when no page of bank 0 has been copied: only the management
information counts. -/
def moveManageInfo (logBlk freeBlk : SuperPhyBlk) : FtlProg (SuperPhyBlk ⊕ Unit) := do
  let z := (← get).curMapZone
  copyPage0 ar env logBlk.phyBlkNum 0 freeBlk.phyBlkNum 0
  let ret ← synchPage ar freeBlk.phyBlkNum 0
  if ret ≠ 0 then do
    let subBlk ← lmlBadBlkManage ar env freeBlk z 0
    pure (.inl subBlk)
  else
    pure (.inr ())

/-- The banks `bank`, …, of one pass; the last used page goes along. -/
def moveBanks (logBlk freeBlk : SuperPhyBlk) :
    Nat → Nat → Nat → FtlProg (SuperPhyBlk ⊕ Nat)
  | 0, _, lastUsedPage => pure (.inr lastUsedPage)
  | n + 1, bank, lastUsedPage => do
    let cnt := ar.interleaveBankCnt
    let pages := (ar.pageCntOfLogicBlk - bank + cnt - 1) / cnt
    match ← moveBankPages ar env logBlk freeBlk pages bank bank with
    | .inl subBlk => pure (.inl subBlk)
    | .inr dstPage => do
      let info ← (if bank = 0 ∧ dstPage = 0 then moveManageInfo ar env logBlk freeBlk
        else pure (.inr ()))
      match info with
      | .inl subBlk => pure (.inl subBlk)
      | .inr () =>
        moveBanks logBlk freeBlk n (bank + 1)
          (if dstPage > lastUsedPage + cnt then dstPage - cnt else lastUsedPage)

/-- One pass over all banks (`redo`). -/
def movePass (logBlk freeBlk : SuperPhyBlk) :
    FtlProg (SuperPhyBlk ⊕ (SuperPhyBlk × Nat)) := do
  match ← moveBanks ar env logBlk freeBlk ar.interleaveBankCnt 0 0 with
  | .inl subBlk => pure (.inl subBlk)
  | .inr lastUsedPage => pure (.inr (freeBlk, lastUsedPage))

/-- Where the page by page copy of a move merge stands. -/
structure MoveState where
  superPage : Nat
  dstPage : Nat
  lastUsedPage : Nat
  freeBlk : SuperPhyBlk

/-- One page of a move merge through the page cache. -/
def movePageByBuf (logBlk freeBlk srcPage dstPage : Nat) : FtlProg Unit := do
  let z := (← get).curMapZone
  let (ret, u) ← readTemp ar env z logBlk srcPage ar.fullBitmapOfLogicPage
  failIf (ret < 0) (-1)
  let s ← get
  let ret ← lmlVirtualPageWrite ar env z freeBlk dstPage ⟨s.tempBuf, u⟩
  failIf (ret ≠ 0) (-1)

/-- One round of the move merge when pages need not stay in their bank. After a failed copy
`SuperPage` is taken back by one, but `DstPage` and the page map are advanced as after a good
one. -/
def moveRound (logBlk : SuperPhyBlk) (x : MoveState) :
    FtlProg (MoveState ⊕ (SuperPhyBlk × Nat)) :=
  if x.superPage < ar.pageCntOfLogicBlk then do
    let s ← get
    let srcPage := s.pageMapTbl x.superPage
    if srcPage = 0xffff then
      pure (.inl { x with superPage := x.superPage + 1 })
    else do
      (if x.dstPage = 0 then copyPage0 ar env logBlk.phyBlkNum srcPage x.freeBlk.phyBlkNum 0
        else movePageByBuf ar env logBlk.phyBlkNum x.freeBlk.phyBlkNum srcPage x.dstPage)
      let ret ← synchPage ar x.freeBlk.phyBlkNum x.dstPage
      let y ← (if ret ≠ 0 then do
          let subBlk ← lmlBadBlkManage ar env x.freeBlk s.curMapZone x.lastUsedPage
          pure (u16 (x.superPage + 0xffff), subBlk)
        else
          pure (x.superPage, x.freeBlk))
      pmmSetCurMapPage y.1 x.dstPage
      pure (.inl ⟨u16 (y.1 + 1), u16 (x.dstPage + 1), x.dstPage, y.2⟩)
  else
    pure (.inr (x.freeBlk, x.lastUsedPage))

/-- `_free2log_move_merge` -/
def free2logMoveMerge (nlogical : Nat) : FtlProg Unit := do
  let s ← get
  let logBlk := s.tbls.getLogBlk nlogical
  let freeBlk ← bmmGetFreeBlk ar true
  let (newLog, lastUsedPage) ← orElse
    (if ar.supportAlignNandBnk then
      iterate (movePass ar env logBlk.phyBlk) (mergeFuel ar) freeBlk
    else
      iterate (moveRound ar env logBlk.phyBlk) (mergeFuel ar) ⟨0, 0, 0, freeBlk⟩)
    (fun e => do
      emit .mergeDropped
      fail e)
  freeOldBlk ar env logBlk.phyBlk
  bmmSetLogBlk nlogical { logBlk with lastUsedPage := lastUsedPage, phyBlk := newLog }

/-! ## Simple merge -/

/-- One round of the loop of `_free2data_simple_merge`: page `x.1` of the logical block into the
new data block `x.2`. -/
def simpleRound (dataBlk logBlk : SuperPhyBlk) (x : Nat × SuperPhyBlk) :
    FtlProg ((Nat × SuperPhyBlk) ⊕ SuperPhyBlk) :=
  if x.1 < ar.pageCntOfLogicBlk then do
    let s ← get
    let inLog := s.pageMapTbl x.1
    let inData : Bool := inLog = 0xffff
    let srcBlk := if inData then dataBlk.phyBlkNum else logBlk.phyBlkNum
    let srcPage := if inData then x.1 else inLog
    (if x.1 = 0 then copyPage0 ar env srcBlk srcPage x.2.phyBlkNum (if inData then 2 else 1)
      else copyPage ar env srcBlk srcPage x.2.phyBlkNum x.1)
    let ret ← synchPage ar x.2.phyBlkNum x.1
    if ret ≠ 0 then do
      let subBlk ← lmlBadBlkManage ar env x.2 s.curMapZone x.1
      pure (.inl (x.1, subBlk))
    else
      pure (.inl (x.1 + 1, x.2))
  else
    pure (.inr x.2)

/-- `_free2data_simple_merge` -/
def free2dataSimpleMerge (nlogical : Nat) : FtlProg Unit := do
  let dataBlk := bmmGetDataBlk ar (← get).tbls nlogical
  let freeBlk ← bmmGetFreeBlk ar true
  let logBlk := (← get).tbls.getLogBlk nlogical
  let newData ← orElse
    (iterate (simpleRound ar env dataBlk logBlk.phyBlk) (mergeFuel ar) (0, freeBlk))
    (fun e => do
      emit .mergeDropped
      fail e)
  bmmSetDataBlk ar nlogical newData
  freeOldBlk ar env dataBlk
  freeOldBlk ar env logBlk.phyBlk
  bmmSetLogBlk nlogical .none
  pmmClearCurMapTbl

/-! ## Choosing the merge -/

/-- `nValidPage` of `_get_page_map_tbl_info`: how many logical pages are in the log block. -/
def validPages (map : Nat → Nat) : Nat → Nat
  | 0 => 0
  | n + 1 => validPages map n + if map n ≠ 0xffff then 1 else 0

/-- `InOrder` of `_get_page_map_tbl_info`: each logical page in the log block is in the page of
its number, and the log block has no other page. -/
def logInOrder (map : Nat → Nat) (pageCnt lastUsedPage : Nat) : Bool :=
  (List.range pageCnt).all (fun i => map i = 0xffff ∨ map i = i) ∧
    lastUsedPage + 1 ≤ validPages map pageCnt

/-- The `nMode` of `LML_MergeLogBlk` -/
inductive MergeMode where
  | normal
  | special
deriving DecidableEq

/-- `LML_MergeLogBlk` -/
def lmlMergeLogBlk (nMode : MergeMode) (nlogical : Nat) : FtlProg Unit := do
  let s ← get
  let pageCnt := ar.pageCntOfLogicBlk
  let logBlk := s.tbls.getLogBlk nlogical
  if logInOrder s.pageMapTbl pageCnt logBlk.lastUsedPage then
    log2dataSwapMerge ar env nlogical
  else if nMode = .special ∧
      validPages s.pageMapTbl pageCnt < pageCnt / (ar.interleaveBankCnt + 1) then
    free2logMoveMerge ar env nlogical
  else
    free2dataSimpleMerge ar env nlogical

end Merge

end Novo7
