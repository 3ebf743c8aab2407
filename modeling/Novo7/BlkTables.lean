import Novo7.NandPhysic

/-!
# The block tables

`BMM_GetDataBlk`, `BMM_SetDataBlk`, `BMM_GetFreeBlk`, `BMM_SetFreeBlk`, `BMM_GetLogBlk` and
`BMM_SetLogBlk` on the active tables, and `LML_BadBlkManage`, which takes a bad block out of
service and puts a free block in its place.
-/

namespace Novo7

open Traced

/-! ## Table operations -/

namespace BlkTbls

variable (t : BlkTbls)

def setData (nBlk : Nat) (b : SuperPhyBlk) : BlkTbls :=
  { t with dataBlkTbl := Function.update t.dataBlkTbl nBlk b }

def setFree (i : Nat) (b : SuperPhyBlk) : BlkTbls :=
  { t with freeBlkTbl := Function.update t.freeBlkTbl i b }

def setLog (i : Nat) (l : LogBlk) : BlkTbls :=
  { t with logBlkTbl := Function.update t.logBlkTbl i l }

/-- `_GetLogBlkPst`: the first position of the log block table that belongs to `nBlk`. -/
def logBlkPst (nBlk : Nat) : Option Nat :=
  (List.range logBlkCntOfZone).find? fun i => (t.logBlkTbl i).logicBlkNum = nBlk

/-- `BMM_GetLogBlk`: all ones if there is none. -/
def getLogBlk (nLogicBlk : Nat) : LogBlk :=
  match t.logBlkPst nLogicBlk with
  | some i => t.logBlkTbl i
  | none => .none

/-- Whether the log block of `nLogicBlk` is `b`. -/
def IsLogOf (nLogicBlk : Nat) (b : SuperPhyBlk) : Prop :=
  nLogicBlk ≠ 0xffff ∧ (t.logBlkPst nLogicBlk).isSome ∧ (t.getLogBlk nLogicBlk).phyBlk = b

instance (nLogicBlk : Nat) (b : SuperPhyBlk) : Decidable (t.IsLogOf nLogicBlk b) :=
  inferInstanceAs (Decidable (_ ∧ _ ∧ _))

/-- `BMM_SetLogBlk`: into the position of the logical block, else into an empty one. -/
def setLogBlk (nLogicBlk : Nat) (l : LogBlk) : BlkTbls :=
  match t.logBlkPst nLogicBlk with
  | some i => t.setLog i l
  | none =>
    match t.logBlkPst 0xffff with
    | some i => t.setLog i l
    | none => t

/-- The search of `BMM_GetFreeBlk` from position `item` on: the position found so far and its
erase count go along. -/
def findFreeBlk (cnt : Nat) (lowest : Bool) : Nat → Nat → Option Nat → Nat → Option Nat
  | 0, _, pst, _ => pst
  | n + 1, item, pst, eraseCnt =>
    let item := if item ≥ cnt then 0 else item
    let b := t.freeBlkTbl item
    if b.phyBlkNum ≠ 0xffff ∧
        (if lowest then b.blkEraseCnt ≤ eraseCnt else b.blkEraseCnt ≥ eraseCnt) then
      findFreeBlk cnt lowest n (item + 1) (some item) b.blkEraseCnt
    else
      findFreeBlk cnt lowest n (item + 1) pst eraseCnt

/-- The search of `BMM_SetFreeBlk`: the first empty position. -/
def emptyFreePst (cnt : Nat) : Option Nat :=
  (List.range cnt).find? fun i => (t.freeBlkTbl i).phyBlkNum = 0xffff

/-- `BMM_SetFreeBlk` -/
def setFreeBlk (cnt : Nat) (b : SuperPhyBlk) : BlkTbls :=
  match t.emptyFreePst cnt with
  | some i => t.setFree i b
  | none => t

end BlkTbls

section Tables

variable (ar : LogicArchi)

/-- `BMM_GetDataBlk` -/
def bmmGetDataBlk (t : BlkTbls) (nBlk : Nat) : SuperPhyBlk :=
  if nBlk > ar.dataBlkCntOfZone then .none else t.dataBlkTbl nBlk

/-- `BMM_SetDataBlk` -/
def bmmSetDataBlk (nBlk : Nat) (b : SuperPhyBlk) : FtlProg Unit :=
  modify (·.setTbls (·.setData nBlk (if nBlk > ar.dataBlkCntOfZone then .none else b)))

/-- `BMM_SetLogBlk` -/
def bmmSetLogBlk (nLogicBlk : Nat) (l : LogBlk) : FtlProg Unit :=
  modify (·.setTbls (·.setLogBlk nLogicBlk l))

/-- `BMM_SetFreeBlk` -/
def bmmSetFreeBlk (b : SuperPhyBlk) : FtlProg Unit :=
  modify (·.setTbls (·.setFreeBlk ar.freeBlkCntOfZone b))

/-- `BMM_GetFreeBlk`; `lowest` is `LOWEST_EC_TYPE`. -/
def bmmGetFreeBlk (lowest : Bool) : FtlProg SuperPhyBlk := do
  let s ← get
  let cnt := ar.freeBlkCntOfZone
  match s.tbls.findFreeBlk cnt lowest cnt (u16 (s.blkMapCache.lastFreeBlkPst + 1)) none
      (if lowest then 0xffff else 0) with
  | none => fail (-1)
  | some pst => do
    emit (.freeTaken (s.tbls.freeBlkTbl pst) s)
    modify (·.setBlkMapCache fun c =>
      { c with lastFreeBlkPst := pst, tbls := c.tbls.setFree pst .none })
    pure (s.tbls.freeBlkTbl pst)

end Tables

/-! ## Bad blocks -/

section BadManage

variable (ar : LogicArchi) (env : NandEnv)

/-- The loop of `_RestorePageData` from page `i` on: copy pages, checking each copy. -/
def restorePages (nZoneNum badBlk newBlk : Nat) : Nat → Nat → FtlProg Int
  | _, 0 => pure 0
  | i, n + 1 => do
    let dst := lmlCalculatePhyOpPar ar nZoneNum newBlk i
    let _ ← phyPageCopyback ar env (lmlCalculatePhyOpPar ar nZoneNum badBlk i) dst
    let result ← phySynchBank dst.bank
    if result < 0 then pure (-1) else restorePages nZoneNum badBlk newBlk (i + 1) n

/-- `_RestorePageData` -/
def restorePageData (nZoneNum nErrPage badBlk newBlk : Nat) : FtlProg Int :=
  restorePages ar env nZoneNum badBlk newBlk 0 nErrPage

/-- The spare area that `_MarkBadBlk` writes. -/
def UserData.bad : UserData := ⟨0, 0, 0, 0⟩

/-- One write of the bad flag. -/
def writeBadFlag (nZoneNum blk nPage : Nat) : FtlProg Unit := do
  let s ← get
  let _ ← lmlVirtualPageWrite ar env nZoneNum blk nPage ⟨s.tempBuf, .bad⟩
  let _ ← phySynchBank (bankOf ar nZoneNum blk nPage)

/-- `_MarkBadBlk` -/
def markBadBlk (badBlk : SuperPhyBlk) (nZoneNum : Nat) : FtlProg Unit := do
  let blk := badBlk.phyBlkNum
  modify fun s => { s with marked := (nZoneNum, blk) :: s.marked }
  let _ ← lmlVirtualBlkErase ar env nZoneNum blk
  forRange ar.interleaveBankCnt fun i => do
    writeBadFlag ar env nZoneNum blk i
    writeBadFlag ar env nZoneNum blk (ar.pageCntOfLogicBlk - ar.interleaveBankCnt + i)

/-- One round of `LML_BadBlkManage`: take a free block and restore the pages before
`nErrPage` in it. -/
def replaceBadBlk (badBlk : SuperPhyBlk) (nZoneNum nErrPage : Nat) :
    Unit → FtlProg (Unit ⊕ SuperPhyBlk) := fun _ => do
  let freeBlk ← bmmGetFreeBlk ar true
  if nErrPage = 0 then
    pure (.inr freeBlk)
  else do
    let result ← restorePageData ar env nZoneNum nErrPage badBlk.phyBlkNum freeBlk.phyBlkNum
    if result < 0 then do
      markBadBlk ar env freeBlk nZoneNum
      pure (.inl ())
    else
      pure (.inr freeBlk)

/-- `LML_BadBlkManage` with a place for the new block. Each round takes a block from the free
table, so there are no more rounds than it has positions. -/
def lmlBadBlkManage (badBlk : SuperPhyBlk) (nZoneNum nErrPage : Nat) : FtlProg SuperPhyBlk := do
  let newBlk ← iterate (replaceBadBlk ar env badBlk nZoneNum nErrPage)
    (ar.freeBlkCntOfZone + 1) ()
  markBadBlk ar env badBlk nZoneNum
  pure newBlk

/-- `LML_BadBlkManage` with `NULL` in the place of the new block. -/
def lmlBadBlkManageNull (badBlk : SuperPhyBlk) (nZoneNum : Nat) : FtlProg Unit :=
  markBadBlk ar env badBlk nZoneNum

end BadManage

end Novo7
