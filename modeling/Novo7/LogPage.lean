import Novo7.MapCache

/-!
# Log pages

`PMM_GetLogPage` and what it needs: for a read, the page of the log block that holds a
logical page; for a write, a fresh page of a log block, which may have to be created first or
merged to make room.
-/

namespace Novo7

open Traced

section LogPage

variable (ar : LogicArchi) (env : NandEnv)

/-- `_CalLogAccessCnt` -/
def calLogAccessCnt (nLogPst : Nat) : FtlProg Unit := modify fun s =>
  let age := if s.logAccessTimer = 0xffff then
    fun i => if i < logBlkCntOfZone then 0 else s.logAccessAge i else s.logAccessAge
  let timer := (if s.logAccessTimer = 0xffff then 0 else s.logAccessTimer) + 1
  { s with logAccessTimer := timer, logAccessAge := Function.update age nLogPst timer }

/-- The oldest log block; `0xffff` is the age to beat. -/
def oldestLogPst (age : Nat → Nat) : Nat → Option Nat × Nat
  | 0 => (none, 0xffff)
  | n + 1 =>
    let (pst, a) := oldestLogPst age n
    if age n < a then (some n, age n) else (pst, a)

/-- The log block that `_CreateNewLogBlk` merges when every position is in use: a full one,
else the oldest. -/
def victimLogPst (s : Ftl) : Option Nat :=
  match (List.range logBlkCntOfZone).find? fun i =>
      (s.tbls.logBlkTbl i).lastUsedPage = ar.pageCntOfLogicBlk - 1 with
  | some i => some i
  | none => (oldestLogPst s.logAccessAge logBlkCntOfZone).1

/-- The position for a new log block (`tmpPst`), made free if need be. -/
def emptyLogPst : FtlProg Nat := do
  let s ← get
  match s.tbls.logBlkPst 0xffff with
  | some i => pure i
  | none =>
    match victimLogPst ar s with
    | none => fail (-1)
    | some i => do
      pmmSwitchMapTbl ar env i
      let s ← get
      lmlMergeLogBlk ar env .normal (s.tbls.logBlkTbl i).logicBlkNum
      pure i

/-- The logical information of a block of the active zone. -/
def logicInfo (nZone nBlk : Nat) : Nat := ((nZone % ar.zoneCntOfDie) <<< 10) ||| nBlk

/-- One try of `__CHECK_LOGICAL_INFO_OF_DATA_BLOCK`: a data block without logical information
gets it in the spare area of page 0, whose main data is what `LML_TEMP_BUF` holds. -/
def checkDataBlkInfo (nBlk : Nat) : Unit → FtlProg (Unit ⊕ Unit) := fun _ => do
  let s ← get
  let z := s.curMapZone
  let dataBlk := s.tbls.dataBlkTbl nBlk
  let (_, u) ← readTemp ar env z dataBlk.phyBlkNum 0 0x3
  if u.logicInfo = 0xffff then do
    let ret ← lmlVirtualPageWrite ar env z dataBlk.phyBlkNum 0
      ⟨(← get).tempBuf, { UserData.blank with logicInfo := logicInfo ar z nBlk }⟩
    failIf (ret < 0) (-1)
    let ret ← phySynchBank (bankOf ar z dataBlk.phyBlkNum 0)
    if ret < 0 then do
      let newBlk ← lmlBadBlkManage ar env dataBlk z 0
      modify (·.setTbls (·.setData nBlk newBlk))
      pure (.inl ())
    else
      pure (.inr ())
  else
    pure (.inr ())

/-- `_CreateNewLogBlk` -/
def createNewLogBlk (nBlk : Nat) : FtlProg Nat := do
  let tmpPst ← emptyLogPst ar env
  let freeBlk ← bmmGetFreeBlk ar true
  setLogAt tmpPst fun _ => ⟨nBlk, 0xffff, freeBlk⟩
  iterate (checkDataBlkInfo ar env nBlk) (ar.freeBlkCntOfZone + 2) ()
  pure tmpPst

/-- The page after `lastUsedPage`; when the log page has to be in the bank of the logical
page, the next one that is. -/
def nextLogPage (nPage lastUsedPage : Nat) : Nat :=
  let cnt := ar.interleaveBankCnt
  if ar.supportAlignNandBnk then
    if lastUsedPage = 0xffff then
      nPage % cnt
    else if nPage % cnt > lastUsedPage % cnt then
      u16 (lastUsedPage + (nPage % cnt - lastUsedPage % cnt))
    else
      u16 (lastUsedPage + nPage % cnt + (cnt - lastUsedPage % cnt))
  else
    u16 (lastUsedPage + 1)

/-- One try of `__CHECK_WRITE_LOGICAL_INFO_OF_LOG_BLOCK`: a log block whose first page is not
page 0 gets its logical information and age there. -/
def writeLogBlkInfo (nBlk logPst : Nat) : Unit → FtlProg (Unit ⊕ Unit) := fun _ => do
  let s ← get
  let z := s.curMapZone
  let logBlk := (s.tbls.logBlkTbl logPst).phyBlk
  let (_, u) ← readTemp ar env z (s.tbls.dataBlkTbl nBlk).phyBlkNum 0 0x3
  let ret ← lmlVirtualPageWrite ar env z logBlk.phyBlkNum 0
    ⟨(← get).tempBuf, ⟨0xff, logicInfo ar z nBlk, 0xffff, u8 (u.pageStatus + 1)⟩⟩
  failIf (ret < 0) (-1)
  let ret ← phySynchBank (bankOf ar z logBlk.phyBlkNum 0)
  if ret < 0 then do
    let newBlk ← lmlBadBlkManage ar env logBlk z 0
    setLogAt logPst ({ · with phyBlk := newBlk })
    pure (.inl ())
  else
    pure (.inr ())

/-- `_GetLogPageForWrite`: the log page and the position of the log block. -/
def getLogPageForWrite (nBlk nPage : Nat) : FtlProg (Nat × Nat) := do
  let s ← get
  let logPst ← (match s.tbls.logBlkPst nBlk with
    | some i => pure i
    | none => createNewLogBlk ar env nBlk)
  pmmSwitchMapTbl ar env logPst
  let lastUsedPage := ((← get).tbls.logBlkTbl logPst).lastUsedPage
  let page := nextLogPage ar nPage lastUsedPage
  when (lastUsedPage = 0xffff ∧ page ≠ 0)
    (iterate (writeLogBlkInfo ar env nBlk logPst) (ar.freeBlkCntOfZone + 2) ())
  pure (page, logPst)

/-- `PMM_GetLogPage` for a read: 0xffff also when the page map cannot be had. -/
def pmmGetLogPageRead (nBlk nPage : Nat) : FtlProg Nat := do
  let s ← get
  match s.tbls.logBlkPst nBlk with
  | none => pure 0xffff
  | some logPst =>
    orElse
      (do
        pmmSwitchMapTbl ar env logPst
        calLogAccessCnt logPst
        let s ← get
        pure (s.pageMapTbl nPage))
      (fun _ => pure 0xffff)

/-- `PMM_GetLogPage` for a write. -/
def pmmGetLogPageWrite (nBlk nPage : Nat) : FtlProg Nat := do
  let x ← getLogPageForWrite ar env nBlk nPage
  let x ← (if x.1 < ar.pageCntOfLogicBlk then pure x else do
    lmlMergeLogBlk ar env .special nBlk
    getLogPageForWrite ar env nBlk nPage)
  failIf (¬x.1 < ar.pageCntOfLogicBlk) (-1)
  setLogAt x.2 ({ · with lastUsedPage := x.1 })
  modify (·.setPageMapCache fun c =>
    { c with pageMapTbl := Function.update c.pageMapTbl nPage x.1, dirtyFlag := true })
  calLogAccessCnt x.2
  pure x.1

end LogPage

end Novo7
