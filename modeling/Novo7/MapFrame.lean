import Novo7.LogicCtl

/-!
# What the operations below the page operations leave alone

`SameCtl` is the part of the state that only the page operations themselves write:
`LogicalCtl`, the page cache and the memory of the caller. `SameMaps` adds what only a switch of
the block tables writes: which slot is active, which zone each slot is labelled with, and where
its tables have come from; a dirty slot stays dirty. A merge, a bad block, a new log block and a
page map that is written back are below both; the eviction of a page map for another one and a
switch of tables are only below the first.
-/

namespace Novo7

open Traced

/-- `LogicalCtl`, the page cache and the memory of the caller are as before. -/
structure SameCtl (s s' : Ftl) : Prop where
  ctl : s'.logicalCtl = s.logicalCtl
  host : s'.host = s.host
  write : s'.writePageCache = s.writePageCache
  page : s'.cachePage = s.cachePage

/-- What a slot says about its tables. -/
structure SameSlot (c c' : BlkMapTblCache) : Prop where
  zone : c'.zoneNum = c.zoneNum
  lo : c'.loSrc = c.loSrc
  hi : c'.hiSrc = c.hiSrc
  log : c'.logSrc = c.logSrc
  dirty : c.dirtyFlag = true → c'.dirtyFlag = true

/-- No slot has changed what it says about its tables, and the same one is active. -/
structure SameMaps (s s' : Ftl) : Prop where
  ctl : SameCtl s s'
  act : s'.actBlk = s.actBlk
  slot : ∀ i, SameSlot (s.blkCache i) (s'.blkCache i)

instance : Std.Refl SameCtl := ⟨fun _ => ⟨rfl, rfl, rfl, rfl⟩⟩

instance : IsTrans Ftl SameCtl := ⟨fun _ _ _ h h' =>
  ⟨h'.ctl.trans h.ctl, h'.host.trans h.host, h'.write.trans h.write, h'.page.trans h.page⟩⟩

namespace SameSlot

variable {c c' c'' : BlkMapTblCache}

theorem refl (c : BlkMapTblCache) : SameSlot c c := ⟨rfl, rfl, rfl, rfl, fun h => h⟩

theorem trans (h : SameSlot c c') (h' : SameSlot c' c'') : SameSlot c c'' :=
  ⟨h'.zone.trans h.zone, h'.lo.trans h.lo, h'.hi.trans h.hi, h'.log.trans h.log,
    fun hd => h'.dirty (h.dirty hd)⟩

end SameSlot

instance : Std.Refl SameMaps := ⟨fun s => ⟨refl_of SameCtl s, rfl, fun _ => .refl _⟩⟩

instance : IsTrans Ftl SameMaps := ⟨fun _ _ _ h h' =>
  ⟨trans_of SameCtl h.ctl h'.ctl, h'.act.trans h.act, fun i => (h.slot i).trans (h'.slot i)⟩⟩

/-- No slot has changed what it says about its tables. -/
def SameSlots (s s' : Ftl) : Prop := ∀ i, SameSlot (s.blkCache i) (s'.blkCache i)

instance : Std.Refl SameSlots := ⟨fun _ _ => .refl _⟩

instance : IsTrans Ftl SameSlots := ⟨fun _ _ _ h h' i => (h i).trans (h' i)⟩

namespace SameMaps

variable {s s' : Ftl}

theorem slots (h : SameMaps s s') : SameSlots s s' := h.slot

/-- Nothing has changed but what neither relation is about. -/
theorem of_eq (hctl : SameCtl s s') (hcache : s'.blkCache = s.blkCache)
    (hact : s'.actBlk = s.actBlk) : SameMaps s s' :=
  ⟨hctl, hact, fun i => by rw [hcache]; exact .refl _⟩

theorem setNand (s : Ftl) (f : Nand → Nand) : SameMaps s (s.setNand f) :=
  of_eq ⟨rfl, rfl, rfl, rfl⟩ rfl rfl

theorem setPageMapCache (s : Ftl) (f : PageMapTblCache → PageMapTblCache) :
    SameMaps s (s.setPageMapCache f) :=
  of_eq ⟨rfl, rfl, rfl, rfl⟩ rfl rfl

theorem setBlkMapCache {f : BlkMapTblCache → BlkMapTblCache}
    (hf : SameSlot s.blkMapCache (f s.blkMapCache)) : SameMaps s (s.setBlkMapCache f) := by
  refine ⟨⟨rfl, rfl, rfl, rfl⟩, rfl, fun i => ?_⟩
  rcases eq_or_ne i s.actBlk with rfl | hne
  · simp only [Ftl.setBlkMapCache, Function.update_self]
    exact hf
  · simp only [Ftl.setBlkMapCache, Function.update_of_ne hne]
    exact .refl _

theorem setTbls (s : Ftl) (f : BlkTbls → BlkTbls) : SameMaps s (s.setTbls f) :=
  setBlkMapCache ⟨rfl, rfl, rfl, rfl, fun h => h⟩

theorem active (h : SameMaps s s') : SameSlot s.blkMapCache s'.blkMapCache := by
  rw [Ftl.blkMapCache, Ftl.blkMapCache, h.act]
  exact h.slot _

theorem curMapZone (h : SameMaps s s') : s'.curMapZone = s.curMapZone := by
  rw [Ftl.curMapZone, Ftl.blkMapCache, h.act]
  exact (h.slot s.actBlk).zone

end SameMaps

/-- An event that is not about the use of tables by a page operation. -/
def Event.IsPlain : Event → Prop
  | .tblUse _ _ => False
  | _ => True

/-- A contract that says nothing about any other event. -/
def PlainContract (C : Contract Event) : Prop := ∀ e : Event, e.IsPlain → C.noted e

@[simp] theorem Ftl.blkMapCache_setBlkMapCache (s : Ftl) (f : BlkMapTblCache → BlkMapTblCache) :
    (s.setBlkMapCache f).blkMapCache = f s.blkMapCache := Function.update_self _ _ _

/-! ## The flash -/

section Frame

variable {ar : LogicArchi} {env : NandEnv} {C : Contract Event} (hC : PlainContract C)

include hC

theorem phyPageRead_keeps (a : PhyPage) : Preserves C SameMaps (phyPageRead env a) := by
  refine Preserves.bind Preserves.get fun s => Preserves.bind (Preserves.emit (hC _ trivial)) fun _ =>
    Preserves.bind (Preserves.modify fun s => .setNand s _) fun _ => ?_
  split <;> exact Preserves.pure _

theorem phyPageWrite_keeps (a : PhyPage) (p : Page) :
    Preserves C SameMaps (phyPageWrite env a p) := by
  refine Preserves.bind Preserves.get fun s => Preserves.bind (Preserves.emit (hC _ trivial)) fun _ =>
    Preserves.bind (Preserves.modify fun s => .setNand s _) fun _ => ?_
  split
  · exact Preserves.bind (Preserves.modify fun s => .setNand s _) fun _ => Preserves.pure _
  · exact Preserves.bind (Preserves.modify fun s => .setNand s _) fun _ => Preserves.pure _
  · exact Preserves.pure _

theorem phyBlockErase_keeps (a : PhyPage) : Preserves C SameMaps (phyBlockErase env a) := by
  refine Preserves.bind Preserves.get fun s => Preserves.bind (Preserves.emit (hC _ trivial)) fun _ =>
    Preserves.bind (Preserves.modify fun s => .setNand s _) fun _ => ?_
  split <;> exact Preserves.modify fun s => .setNand s _

omit hC in
theorem phySynchBank_keeps (bank : Nat) : Preserves C SameMaps (phySynchBank bank) :=
  Preserves.bind Preserves.get fun _ => Preserves.pure _

omit hC in
/-- A buffer of the layer is written. -/
theorem setBuf_keeps {f : Ftl → Ftl} (hctl : ∀ s, SameCtl s (f s))
    (hcache : ∀ s, (f s).blkCache = s.blkCache) (hact : ∀ s, (f s).actBlk = s.actBlk) :
    Preserves C SameMaps (modify f : FtlProg Unit) :=
  Preserves.modify fun s => .of_eq (hctl s) (hcache s) (hact s)

omit hC in
theorem setTempBuf_keeps (f : Ftl → Buf) :
    Preserves C SameMaps (modify fun s => { s with tempBuf := f s } : FtlProg Unit) :=
  setBuf_keeps (fun _ => ⟨rfl, rfl, rfl, rfl⟩) (fun _ => rfl) fun _ => rfl

omit hC in
theorem setTblBuf_keeps (f : Ftl → Buf) :
    Preserves C SameMaps (modify fun s => { s with processTblBuf := f s } : FtlProg Unit) :=
  setBuf_keeps (fun _ => ⟨rfl, rfl, rfl, rfl⟩) (fun _ => rfl) fun _ => rfl

theorem phyPageCopyback_keeps (src dst : PhyPage) :
    Preserves C SameMaps (phyPageCopyback ar env src dst) := by
  refine Preserves.ite (fun _ => ?_) fun _ => ?_
  · refine Preserves.bind (phyPageRead_keeps hC src) fun x =>
      Preserves.bind (setTempBuf_keeps _) fun _ => Preserves.ite (fun _ => Preserves.pure _) fun _ => ?_
    exact phyPageWrite_keeps hC dst _
  · exact Preserves.bind Preserves.get fun _ => phyPageWrite_keeps hC _ _

omit hC in
theorem synchBanks_keeps : ∀ i n, Preserves C SameMaps (synchBanks i n)
  | _, 0 => Preserves.pure _
  | i, n + 1 => Preserves.bind (phySynchBank_keeps i) fun _ =>
      Preserves.ite (fun _ => Preserves.pure _) fun _ => synchBanks_keeps (i + 1) n

theorem lmlVirtualBlkErase_keeps (z b : Nat) :
    Preserves C SameMaps (lmlVirtualBlkErase ar env z b) :=
  Preserves.bind (Preserves.forRange fun _ => phyBlockErase_keeps hC _) fun _ => synchBanks_keeps _ _

theorem readTemp_keeps (z b page bitmap : Nat) :
    Preserves C SameMaps (readTemp ar env z b page bitmap) :=
  Preserves.bind (phyPageRead_keeps hC _) fun _ => Preserves.bind (setTempBuf_keeps _) fun _ => Preserves.pure _

theorem readTbl_keeps (z b page bitmap : Nat) :
    Preserves C SameMaps (readTbl ar env z b page bitmap) :=
  Preserves.bind (phyPageRead_keeps hC _) fun _ => Preserves.bind (setTblBuf_keeps _) fun _ => Preserves.pure _

theorem writeTbl_keeps (z b page : Nat) (spare : UserData) :
    Preserves C SameMaps (writeTbl ar env z b page spare) :=
  Preserves.bind Preserves.get fun _ => Preserves.bind (phyPageWrite_keeps hC _ _) fun _ => phySynchBank_keeps _

/-! ## Block tables and bad blocks -/

omit hC in
theorem setTbls_keeps (f : Ftl → BlkTbls → BlkTbls) :
    Preserves C SameMaps (modify fun s => s.setTbls (f s) : FtlProg Unit) :=
  Preserves.modify fun s => .setTbls s _

theorem bmmGetFreeBlk_keeps (lowest : Bool) :
    Preserves C SameMaps (bmmGetFreeBlk ar lowest) := by
  refine Preserves.bind Preserves.get fun s => ?_
  dsimp only
  generalize s.tbls.findFreeBlk _ _ _ _ _ _ = r
  cases r with
  | none => exact Preserves.fail _
  | some pst => exact Preserves.bind (Preserves.emit (hC _ trivial)) fun _ =>
      Preserves.bind (Preserves.modify fun s => .setBlkMapCache ⟨rfl, rfl, rfl, rfl, fun h => h⟩) fun _ =>
        Preserves.pure _

theorem restorePages_keeps (z badBlk newBlk : Nat) :
    ∀ i n, Preserves C SameMaps (restorePages ar env z badBlk newBlk i n)
  | _, 0 => Preserves.pure _
  | i, n + 1 => Preserves.bind (phyPageCopyback_keeps hC _ _) fun _ =>
      Preserves.bind (phySynchBank_keeps _) fun _ => Preserves.ite (fun _ => Preserves.pure _) fun _ =>
        restorePages_keeps z badBlk newBlk (i + 1) n

theorem writeBadFlag_keeps (z b page : Nat) : Preserves C SameMaps (writeBadFlag ar env z b page) :=
  Preserves.bind Preserves.get fun _ => Preserves.bind (phyPageWrite_keeps hC _ _) fun _ =>
    Preserves.bind (phySynchBank_keeps _) fun _ => Preserves.pure _

theorem markBadBlk_keeps (b : SuperPhyBlk) (z : Nat) :
    Preserves C SameMaps (markBadBlk ar env b z) :=
  Preserves.bind (setBuf_keeps (fun _ => ⟨rfl, rfl, rfl, rfl⟩) (fun _ => rfl) fun _ => rfl) fun _ =>
    Preserves.bind (lmlVirtualBlkErase_keeps hC z _) fun _ => Preserves.forRange fun _ =>
      Preserves.bind (writeBadFlag_keeps hC _ _ _) fun _ => writeBadFlag_keeps hC _ _ _

theorem lmlBadBlkManage_keeps (b : SuperPhyBlk) (z nErrPage : Nat) :
    Preserves C SameMaps (lmlBadBlkManage ar env b z nErrPage) := by
  refine Preserves.bind (Preserves.iterate (fun _ => ?_) _ _) fun _ =>
    Preserves.bind (markBadBlk_keeps hC b z) fun _ => Preserves.pure _
  refine Preserves.bind (bmmGetFreeBlk_keeps hC true) fun _ => Preserves.ite (fun _ => Preserves.pure _)
    fun _ => Preserves.bind (restorePages_keeps hC _ _ _ _ _) fun _ => Preserves.ite (fun _ => ?_)
      fun _ => Preserves.pure _
  exact Preserves.bind (markBadBlk_keeps hC _ z) fun _ => Preserves.pure _

/-! ## Merges -/

omit hC in
theorem setPageMap_keeps (f : Ftl → PageMapTblCache → PageMapTblCache) :
    Preserves C SameMaps (modify fun s => s.setPageMapCache (f s) : FtlProg Unit) :=
  Preserves.modify fun s => .setPageMapCache s _

theorem copyPage0_keeps (srcBlk srcPage dstBlk seqPlus : Nat) :
    Preserves C SameMaps (copyPage0 ar env srcBlk srcPage dstBlk seqPlus) :=
  Preserves.bind Preserves.get fun _ => Preserves.bind (readTemp_keeps hC _ _ _ _) fun _ =>
    Preserves.bind (Preserves.failIf _ _) fun _ => Preserves.bind (readTemp_keeps hC _ _ _ _) fun _ =>
      Preserves.bind (Preserves.failIf _ _) fun _ => Preserves.bind Preserves.get fun _ =>
        Preserves.bind (phyPageWrite_keeps hC _ _) fun _ => Preserves.failIf _ _

theorem copyPage_keeps (srcBlk srcPage dstBlk dstPage : Nat) :
    Preserves C SameMaps (copyPage ar env srcBlk srcPage dstBlk dstPage) :=
  Preserves.bind Preserves.get fun _ => Preserves.bind (phyPageCopyback_keeps hC _ _) fun _ => Preserves.failIf _ _

omit hC in
theorem synchPage_keeps (b page : Nat) : Preserves C SameMaps (synchPage ar b page) :=
  Preserves.bind Preserves.get fun _ => phySynchBank_keeps _

theorem freeOldBlk_keeps (b : SuperPhyBlk) : Preserves C SameMaps (freeOldBlk ar env b) := by
  refine Preserves.bind Preserves.get fun _ => Preserves.bind (lmlVirtualBlkErase_keeps hC _ _) fun _ =>
    Preserves.bind (Preserves.when fun _ => ?_) fun _ => setTbls_keeps fun _ => _
  exact Preserves.bind (Preserves.emit (hC _ trivial)) fun _ => markBadBlk_keeps hC _ _

theorem swapRound_keeps (dataBlk logBlk : SuperPhyBlk) (x : Nat × SuperPhyBlk) :
    Preserves C SameMaps (swapRound ar env dataBlk logBlk x) := by
  refine Preserves.ite (fun _ => Preserves.orElse ?_ fun _ => ?_) fun _ => Preserves.pure _
  · refine Preserves.bind Preserves.get fun _ => Preserves.bind (copyPage_keeps hC _ _ _ _) fun _ =>
      Preserves.bind (synchPage_keeps _ _) fun _ => Preserves.ite (fun _ => ?_) fun _ => Preserves.pure _
    exact Preserves.bind (lmlBadBlkManage_keeps hC _ _ _) fun _ => Preserves.pure _
  · exact Preserves.bind (Preserves.when fun _ => Preserves.emit (hC _ trivial)) fun _ => Preserves.fail _

theorem log2dataSwapMerge_keeps (nlogical : Nat) :
    Preserves C SameMaps (log2dataSwapMerge ar env nlogical) :=
  Preserves.bind Preserves.get fun _ =>
    Preserves.bind (Preserves.iterate (fun _ => swapRound_keeps hC _ _ _) _ _) fun _ =>
      Preserves.bind (setTbls_keeps fun _ => _) fun _ => Preserves.bind (setTbls_keeps fun _ => _) fun _ =>
        Preserves.bind (freeOldBlk_keeps hC _) fun _ => setPageMap_keeps fun _ => _

theorem moveBankPages_keeps (logBlk freeBlk : SuperPhyBlk) :
    ∀ n superPage dstPage,
      Preserves C SameMaps (moveBankPages ar env logBlk freeBlk n superPage dstPage)
  | 0, _, _ => Preserves.pure _
  | n + 1, superPage, dstPage => by
      refine Preserves.bind Preserves.get fun _ => Preserves.ite
        (fun _ => moveBankPages_keeps logBlk freeBlk n _ _) fun _ => ?_
      refine Preserves.bind ?_ fun _ => Preserves.bind (synchPage_keeps _ _) fun _ =>
        Preserves.ite (fun _ => ?_) fun _ => ?_
      · exact Preserves.ite (fun _ => copyPage0_keeps hC _ _ _ _) fun _ => copyPage_keeps hC _ _ _ _
      · exact Preserves.bind (lmlBadBlkManage_keeps hC _ _ _) fun _ => Preserves.pure _
      · exact Preserves.bind (setPageMap_keeps fun _ => _) fun _ =>
          moveBankPages_keeps logBlk freeBlk n _ _

theorem moveManageInfo_keeps (logBlk freeBlk : SuperPhyBlk) :
    Preserves C SameMaps (moveManageInfo ar env logBlk freeBlk) := by
  refine Preserves.bind Preserves.get fun _ => Preserves.bind (copyPage0_keeps hC _ _ _ _) fun _ =>
    Preserves.bind (synchPage_keeps _ _) fun _ => Preserves.ite (fun _ => ?_) fun _ => Preserves.pure _
  exact Preserves.bind (lmlBadBlkManage_keeps hC _ _ _) fun _ => Preserves.pure _

theorem moveBanks_keeps (logBlk freeBlk : SuperPhyBlk) :
    ∀ n bank last, Preserves C SameMaps (moveBanks ar env logBlk freeBlk n bank last)
  | 0, _, _ => Preserves.pure _
  | n + 1, bank, last => by
      refine Preserves.bind (moveBankPages_keeps hC _ _ _ _ _) fun r => ?_
      cases r with
      | inl _ => exact Preserves.pure _
      | inr _ =>
          refine Preserves.bind ?_ fun info => ?_
          · exact Preserves.ite (fun _ => moveManageInfo_keeps hC _ _) fun _ => Preserves.pure _
          · cases info with
            | inl _ => exact Preserves.pure _
            | inr _ => exact moveBanks_keeps logBlk freeBlk n _ _

theorem movePass_keeps (logBlk freeBlk : SuperPhyBlk) :
    Preserves C SameMaps (movePass ar env logBlk freeBlk) :=
  Preserves.bind (moveBanks_keeps hC _ _ _ _ _) fun r => by cases r <;> exact Preserves.pure _

theorem movePageByBuf_keeps (logBlk freeBlk srcPage dstPage : Nat) :
    Preserves C SameMaps (movePageByBuf ar env logBlk freeBlk srcPage dstPage) :=
  Preserves.bind Preserves.get fun _ => Preserves.bind (readTemp_keeps hC _ _ _ _) fun _ =>
    Preserves.bind (Preserves.failIf _ _) fun _ => Preserves.bind Preserves.get fun _ =>
      Preserves.bind (phyPageWrite_keeps hC _ _) fun _ => Preserves.failIf _ _

theorem moveRound_keeps (logBlk : SuperPhyBlk) (x : MoveState) :
    Preserves C SameMaps (moveRound ar env logBlk x) := by
  refine Preserves.ite (fun _ => Preserves.bind Preserves.get fun _ => Preserves.ite (fun _ => Preserves.pure _)
    fun _ => ?_) fun _ => Preserves.pure _
  refine Preserves.bind ?_ fun _ => Preserves.bind (synchPage_keeps _ _) fun _ => Preserves.bind ?_ fun x => ?_
  · exact Preserves.ite (fun _ => copyPage0_keeps hC _ _ _ _) fun _ => movePageByBuf_keeps hC _ _ _ _
  · exact Preserves.ite (fun _ => Preserves.bind (lmlBadBlkManage_keeps hC _ _ _) fun _ => Preserves.pure _)
      fun _ => Preserves.pure _
  · exact Preserves.bind (setPageMap_keeps fun _ => _) fun _ => Preserves.pure _

theorem free2logMoveMerge_keeps (nlogical : Nat) :
    Preserves C SameMaps (free2logMoveMerge ar env nlogical) := by
  refine Preserves.bind Preserves.get fun _ => Preserves.bind (bmmGetFreeBlk_keeps hC true) fun _ =>
    Preserves.bind (Preserves.orElse ?_ fun _ => ?_) fun x => ?_
  · exact Preserves.ite (fun _ => Preserves.iterate (fun _ => movePass_keeps hC _ _) _ _)
      fun _ => Preserves.iterate (fun _ => moveRound_keeps hC _ _) _ _
  · exact Preserves.bind (Preserves.emit (hC _ trivial)) fun _ => Preserves.fail _
  · exact Preserves.bind (freeOldBlk_keeps hC _) fun _ => setTbls_keeps fun _ => _

theorem simpleRound_keeps (dataBlk logBlk : SuperPhyBlk) (x : Nat × SuperPhyBlk) :
    Preserves C SameMaps (simpleRound ar env dataBlk logBlk x) := by
  refine Preserves.ite (fun _ => Preserves.bind Preserves.get fun _ => ?_) fun _ => Preserves.pure _
  refine Preserves.bind ?_ fun _ => Preserves.bind (synchPage_keeps _ _) fun _ =>
    Preserves.ite (fun _ => ?_) fun _ => Preserves.pure _
  · exact Preserves.ite (fun _ => copyPage0_keeps hC _ _ _ _) fun _ => copyPage_keeps hC _ _ _ _
  · exact Preserves.bind (lmlBadBlkManage_keeps hC _ _ _) fun _ => Preserves.pure _

theorem free2dataSimpleMerge_keeps (nlogical : Nat) :
    Preserves C SameMaps (free2dataSimpleMerge ar env nlogical) := by
  refine Preserves.bind Preserves.get fun _ => Preserves.bind (bmmGetFreeBlk_keeps hC true) fun _ =>
    Preserves.bind Preserves.get fun _ => Preserves.bind (Preserves.orElse
      (Preserves.iterate (fun _ => simpleRound_keeps hC _ _ _) _ _) fun _ => ?_) fun _ => ?_
  · exact Preserves.bind (Preserves.emit (hC _ trivial)) fun _ => Preserves.fail _
  · exact Preserves.bind (setTbls_keeps fun _ => _) fun _ => Preserves.bind (freeOldBlk_keeps hC _)
      fun _ => Preserves.bind (freeOldBlk_keeps hC _) fun _ =>
        Preserves.bind (setTbls_keeps fun _ => _) fun _ => setPageMap_keeps fun _ => _

theorem lmlMergeLogBlk_keeps (nMode : MergeMode) (nlogical : Nat) :
    Preserves C SameMaps (lmlMergeLogBlk ar env nMode nlogical) :=
  Preserves.bind Preserves.get fun _ => Preserves.ite (fun _ => log2dataSwapMerge_keeps hC _)
    fun _ => Preserves.ite (fun _ => free2logMoveMerge_keeps hC _)
      fun _ => free2dataSimpleMerge_keeps hC _

/-! ## Page maps -/

omit hC in
theorem setLogAt_keeps (pst : Nat) (f : LogBlk → LogBlk) : Preserves C SameMaps (setLogAt pst f) :=
  setTbls_keeps fun _ => _

omit hC in
theorem setZoneTblPst_keeps (f : Ftl → Nat → ZoneTblPst) :
    Preserves C SameMaps (modify fun s => { s with zoneTblPst := f s } : FtlProg Unit) :=
  setBuf_keeps (fun _ => ⟨rfl, rfl, rfl, rfl⟩) (fun _ => rfl) fun _ => rfl

theorem writeDirtyFlag_keeps (z : Nat) : Preserves C SameMaps (writeDirtyFlag ar env z) :=
  Preserves.bind Preserves.get fun _ => Preserves.bind (setTblBuf_keeps _) fun _ =>
    Preserves.bind (writeTbl_keeps hC _ _ _ _) fun _ => Preserves.pure _

theorem bmmSetDirtyFlag_keeps : Preserves C SameMaps (bmmSetDirtyFlag ar env) := by
  refine Preserves.bind Preserves.get fun _ => Preserves.when fun _ =>
    Preserves.bind (writeDirtyFlag_keeps hC _) fun _ => Preserves.modify fun s => ?_
  exact .setBlkMapCache ⟨rfl, rfl, rfl, rfl, fun _ => rfl⟩

theorem writePageMapRound_keeps (pst tablePage tableBlk : Nat) :
    Preserves C SameMaps (writePageMapRound ar env pst tablePage tableBlk) := by
  refine Preserves.bind Preserves.get fun _ => Preserves.bind (setTblBuf_keeps _) fun _ =>
    Preserves.bind (writeTbl_keeps hC _ _ _ _) fun _ => Preserves.ite (fun _ => ?_) fun _ => Preserves.pure _
  exact Preserves.bind (lmlBadBlkManage_keeps hC _ _ _) fun _ =>
    Preserves.bind (setLogAt_keeps _ _) fun _ => Preserves.pure _

theorem writeBackPageMapTbl_keeps (pst : Nat) :
    Preserves C SameMaps (writeBackPageMapTbl ar env pst) :=
  Preserves.bind Preserves.get fun _ => Preserves.bind (Preserves.when fun _ => lmlMergeLogBlk_keeps hC _ _) fun _ =>
    Preserves.bind Preserves.get fun _ => Preserves.when fun _ =>
      Preserves.bind (Preserves.iterate (fun _ => writePageMapRound_keeps hC _ _ _) _ _) fun _ =>
        Preserves.bind (setLogAt_keeps _ _) fun _ => setPageMap_keeps fun _ => _

theorem rebuildPageMapTbl_keeps (pst : Nat) :
    Preserves C SameMaps (rebuildPageMapTbl ar env pst) := by
  refine Preserves.bind (setPageMap_keeps fun _ => _) fun _ => Preserves.bind Preserves.get fun _ =>
    Preserves.bind (Preserves.forRange fun _ => ?_) fun _ =>
      Preserves.bind (setPageMap_keeps fun _ => _) fun _ => bmmSetDirtyFlag_keeps hC
  exact Preserves.bind (readTbl_keeps hC _ _ _ _) fun _ => Preserves.bind (Preserves.failIf _ _) fun _ =>
    Preserves.when fun _ => setPageMap_keeps fun _ => _

theorem readPageMapTbl_keeps (pst : Nat) : Preserves C SameMaps (readPageMapTbl ar env pst) := by
  refine Preserves.bind Preserves.get fun _ => Preserves.ite (fun _ => setPageMap_keeps fun _ => _) fun _ => ?_
  exact Preserves.bind (readTbl_keeps hC _ _ _ _) fun _ => Preserves.bind Preserves.get fun _ =>
    Preserves.ite (fun _ => rebuildPageMapTbl_keeps hC _) fun _ => setPageMap_keeps fun _ => _

omit hC in
theorem postPageSlot_keeps : Preserves C SameMaps postPageSlot := Preserves.modify fun s => by
  split <;> exact .of_eq ⟨rfl, rfl, rfl, rfl⟩ rfl rfl

omit hC in
theorem calPageTblAccessCount_keeps : Preserves C SameMaps calPageTblAccessCount :=
  setBuf_keeps (fun _ => ⟨rfl, rfl, rfl, rfl⟩) (fun _ => rfl) fun _ => rfl

omit hC in
theorem calLogAccessCnt_keeps (pst : Nat) : Preserves C SameMaps (calLogAccessCnt pst) :=
  setBuf_keeps (fun _ => ⟨rfl, rfl, rfl, rfl⟩) (fun _ => rfl) fun _ => rfl

theorem writeBackAllPageMapTbl_keeps (z : Nat) :
    Preserves C SameMaps (writeBackAllPageMapTbl ar env z) := by
  refine Preserves.forRange fun _ => Preserves.bind Preserves.get fun _ => Preserves.when fun _ =>
    Preserves.bind ?_ fun _ => Preserves.bind (writeBackPageMapTbl_keeps hC _) fun _ =>
      setPageMap_keeps fun _ => _
  exact setBuf_keeps (fun _ => ⟨rfl, rfl, rfl, rfl⟩) (fun _ => rfl) fun _ => rfl

/-! ## Writing block tables back -/

theorem writeTblPage_keeps (z tableBlk tablePage info : Nat) :
    Preserves C SameMaps (writeTblPage ar env z tableBlk tablePage info) := by
  refine Preserves.bind Preserves.get fun _ => Preserves.bind (Preserves.when fun _ => Preserves.emit (hC _ trivial))
    fun _ => Preserves.bind (writeTbl_keeps hC _ _ _ _) fun _ => Preserves.ite (fun _ => ?_)
      fun _ => Preserves.pure _
  exact Preserves.bind (lmlBadBlkManage_keeps hC _ _ _) fun _ => Preserves.pure _

theorem writeTblGroup_keeps (z : Nat) (x : Nat × Nat) :
    Preserves C SameMaps (writeTblGroup ar env z x) := by
  refine Preserves.bind (setTblBuf_keeps _) fun _ => Preserves.bind (writeTblPage_keeps hC _ _ _ _) fun r => ?_
  cases r with
  | some newBlk => exact Preserves.pure _
  | none =>
      refine Preserves.bind (setTblBuf_keeps _) fun _ =>
        Preserves.bind (writeTblPage_keeps hC _ _ _ _) fun r => ?_
      cases r with
      | some newBlk => exact Preserves.pure _
      | none =>
          refine Preserves.bind (setTblBuf_keeps _) fun _ =>
            Preserves.bind (writeTblPage_keeps hC _ _ _ _) fun r => ?_
          cases r <;> exact Preserves.pure _

theorem nextTblGroup_keeps (z : Nat) : Preserves C SameMaps (nextTblGroup ar env z) := by
  refine Preserves.bind Preserves.get fun _ => Preserves.ite (fun _ => ?_) fun _ => Preserves.pure _
  refine Preserves.bind (lmlVirtualBlkErase_keeps hC _ _) fun _ => Preserves.ite (fun _ => ?_)
    fun _ => Preserves.pure _
  exact Preserves.bind (lmlBadBlkManage_keeps hC _ _ _) fun _ => Preserves.pure _

theorem writeBackBlockMapTbl_keeps (z : Nat) :
    Preserves C SameMaps (writeBackBlockMapTbl ar env z) := by
  refine Preserves.bind (writeBackAllPageMapTbl_keeps hC _) fun _ => Preserves.bind Preserves.get fun _ =>
    Preserves.bind (nextTblGroup_keeps hC _) fun _ => Preserves.bind (Preserves.modify fun s => ?_) fun _ =>
      Preserves.bind (setTblBuf_keeps _) fun _ => Preserves.bind (Preserves.iterate (fun _ => ?_) _ _) fun _ =>
        setZoneTblPst_keeps _
  · exact .setBlkMapCache ⟨rfl, rfl, rfl, rfl, fun h => h⟩
  · exact Preserves.orElse (writeTblGroup_keeps hC _ _) fun _ =>
      Preserves.bind (Preserves.when fun _ => Preserves.emit (hC _ trivial)) fun _ => Preserves.fail _

/-! ## Log blocks -/

theorem checkDataBlkInfo_keeps (nBlk : Nat) :
    Preserves C SameMaps (checkDataBlkInfo ar env nBlk ()) := by
  refine Preserves.bind Preserves.get fun _ => Preserves.bind (readTemp_keeps hC _ _ _ _) fun _ =>
    Preserves.ite (fun _ => ?_) fun _ => Preserves.pure _
  refine Preserves.bind Preserves.get fun _ => Preserves.bind (phyPageWrite_keeps hC _ _) fun _ =>
    Preserves.bind (Preserves.failIf _ _) fun _ => Preserves.bind (phySynchBank_keeps _) fun _ =>
      Preserves.ite (fun _ => ?_) fun _ => Preserves.pure _
  exact Preserves.bind (lmlBadBlkManage_keeps hC _ _ _) fun _ =>
    Preserves.bind (setTbls_keeps fun _ => _) fun _ => Preserves.pure _

theorem writeLogBlkInfo_keeps (nBlk logPst : Nat) :
    Preserves C SameMaps (writeLogBlkInfo ar env nBlk logPst ()) := by
  refine Preserves.bind Preserves.get fun _ => Preserves.bind (readTemp_keeps hC _ _ _ _) fun _ =>
    Preserves.bind Preserves.get fun _ => Preserves.bind (phyPageWrite_keeps hC _ _) fun _ =>
      Preserves.bind (Preserves.failIf _ _) fun _ => Preserves.bind (phySynchBank_keeps _) fun _ =>
        Preserves.ite (fun _ => ?_) fun _ => Preserves.pure _
  exact Preserves.bind (lmlBadBlkManage_keeps hC _ _ _) fun _ =>
    Preserves.bind (setLogAt_keeps _ _) fun _ => Preserves.pure _

/-! ## Page maps for other page maps -/

omit hC

/-- As `SameMaps`, but another slot may be active. -/
structure Drifts (s s' : Ftl) : Prop where
  ctl : SameCtl s s'
  slots : SameSlots s s'

instance : Std.Refl Drifts := ⟨fun s => ⟨refl_of SameCtl s, refl_of SameSlots s⟩⟩

instance : IsTrans Ftl Drifts := ⟨fun _ _ _ h h' =>
  ⟨trans_of SameCtl h.ctl h'.ctl, trans_of SameSlots h.slots h'.slots⟩⟩

theorem SameMaps.drifts {s s' : Ftl} (h : SameMaps s s') : Drifts s s' := ⟨h.ctl, h.slots⟩

/-- `m` comes back to the active slot when it succeeds. -/
def Settles (C : Contract Event) {α : Type} (m : FtlProg α) : Prop :=
  ∀ s, WP C m (fun _ => SameMaps s) (fun _ => Drifts s) s

namespace Settles

variable {α β : Type} {m : FtlProg α}

theorem of_keeps (h : Preserves C SameMaps m) : Settles C m := fun _ =>
  h.wp (fun _ _ hs => hs) fun _ _ hs => hs.drifts

theorem bind {f : α → FtlProg β} (h : Settles C m) (hf : ∀ a, Settles C (f a)) :
    Settles C (m >>= f) := fun s => WP.bind ((h s).imp fun a s' hs =>
  (hf a s').mono (fun _ _ => trans_of SameMaps hs) fun _ _ => trans_of Drifts hs.drifts)

theorem ite {c : Prop} [Decidable c] {m m' : FtlProg α} (h : c → Settles C m)
    (h' : ¬c → Settles C m') : Settles C (if c then m else m') := fun s =>
  WP.ite (fun hc => h hc s) fun hc => h' hc s

theorem when {c : Prop} [Decidable c] {m : FtlProg Unit} (h : c → Settles C m) :
    Settles C (when c m) := fun s =>
  WP.when (fun hc => h hc s) fun _ => refl_of SameMaps s

end Settles

include hC

theorem evictPageMap_settles : Settles C (evictPageMap ar env) := by
  intro s
  refine WP.bind (WP.get (WP.when (fun _ => ?_) fun _ => refl_of SameMaps s))
  refine WP.bind (WP.imp (?_ : WP C _ (fun _ => Drifts s) (fun _ => Drifts s) s)
    fun _ s₁ h₁ => WP.bind ?_)
  · refine WP.when (fun _ => ?_) fun _ => refl_of Drifts s
    split
    · exact WP.modify ⟨⟨rfl, rfl, rfl, rfl⟩, fun _ => .refl _⟩
    · exact WP.fail (refl_of Drifts s)
  refine (bmmSetDirtyFlag_keeps hC).wp (fun _ s₂ h₂ => WP.bind ?_) fun _ s₂ h₂ =>
    trans_of Drifts h₁ h₂.drifts
  have hd₂ : Drifts s s₂ := trans_of Drifts h₁ h₂.drifts
  refine (writeBackPageMapTbl_keeps hC _).wp (fun _ s₃ h₃ => WP.modify ?_) fun _ s₃ h₃ =>
    trans_of Drifts hd₂ h₃.drifts
  obtain ⟨hctl, hslots⟩ := trans_of Drifts hd₂ h₃.drifts
  exact ⟨⟨hctl.ctl, hctl.host, hctl.write, hctl.page⟩, rfl, hslots⟩

theorem pageMapTblCachePost_settles (pst : Nat) : Settles C (pageMapTblCachePost ar env pst) :=
  .bind (.of_keeps postPageSlot_keeps) fun _ => .bind (evictPageMap_settles hC) fun _ =>
    .bind (.of_keeps (setPageMap_keeps fun _ => _)) fun _ =>
      .bind (.of_keeps (readPageMapTbl_keeps hC pst)) fun _ =>
        .of_keeps (setPageMap_keeps fun _ => _)

theorem pmmSwitchMapTbl_settles (pst : Nat) : Settles C (pmmSwitchMapTbl ar env pst) := by
  intro s
  refine WP.bind (WP.get (WP.bind (WP.orElse ?_)))
  refine WP.mono (?_ : WP C _ (fun _ => SameMaps s) (fun _ => Drifts s) s) (fun _ s' h => ?_)
    fun e s' h => ?_
  · split
    · exact WP.modify (.of_eq ⟨rfl, rfl, rfl, rfl⟩ rfl rfl)
    · exact pageMapTblCachePost_settles hC pst s
  · exact calPageTblAccessCount_keeps.wp (fun _ _ h' => trans_of SameMaps h h')
      fun _ _ h' => (trans_of SameMaps h h').drifts
  · refine WP.bind (calPageTblAccessCount_keeps.wp (fun _ _ h' => WP.fail ?_) fun _ _ h' => ?_)
    · exact trans_of Drifts h h'.drifts
    · exact trans_of Drifts h h'.drifts

theorem emptyLogPst_settles : Settles C (emptyLogPst ar env) := by
  refine .bind (.of_keeps Preserves.get) fun s => ?_
  cases s.tbls.logBlkPst 0xffff with
  | some i => exact .of_keeps (Preserves.pure i)
  | none =>
      cases victimLogPst ar s with
      | none => exact .of_keeps (Preserves.fail _)
      | some i =>
          exact .bind (pmmSwitchMapTbl_settles hC i) fun _ => .bind (.of_keeps Preserves.get) fun _ =>
            .bind (.of_keeps (lmlMergeLogBlk_keeps hC _ _)) fun _ => .of_keeps (Preserves.pure i)

theorem createNewLogBlk_settles (nBlk : Nat) : Settles C (createNewLogBlk ar env nBlk) :=
  .bind (emptyLogPst_settles hC) fun _ => .bind (.of_keeps (bmmGetFreeBlk_keeps hC true)) fun _ =>
    .bind (.of_keeps (setLogAt_keeps _ _)) fun _ =>
      .bind (.of_keeps (Preserves.iterate (fun _ => checkDataBlkInfo_keeps hC nBlk) _ _)) fun _ =>
        .of_keeps (Preserves.pure _)

theorem getLogPageForWrite_settles (nBlk nPage : Nat) :
    Settles C (getLogPageForWrite ar env nBlk nPage) := by
  refine .bind (.of_keeps Preserves.get) fun s₀ => .bind ?_ fun _ => .bind (pmmSwitchMapTbl_settles hC _)
    fun _ => .bind (.of_keeps Preserves.get) fun _ => .bind (.when fun _ => ?_) fun _ =>
      .of_keeps (Preserves.pure _)
  · cases s₀.tbls.logBlkPst nBlk with
    | some i => exact .of_keeps (Preserves.pure i)
    | none => exact createNewLogBlk_settles hC nBlk
  · exact .of_keeps (Preserves.iterate (fun _ => writeLogBlkInfo_keeps hC nBlk _) _ _)

theorem pmmGetLogPageWrite_settles (nBlk nPage : Nat) :
    Settles C (pmmGetLogPageWrite ar env nBlk nPage) := by
  refine .bind (getLogPageForWrite_settles hC _ _) fun x => .bind (.ite
    (fun _ => .of_keeps (Preserves.pure x)) fun _ => .bind (.of_keeps (lmlMergeLogBlk_keeps hC _ _))
      fun _ => getLogPageForWrite_settles hC _ _) fun x => ?_
  exact .bind (.of_keeps (Preserves.failIf _ _)) fun _ => .bind (.of_keeps (setLogAt_keeps _ _)) fun _ =>
    .bind (.of_keeps (setPageMap_keeps fun _ => _)) fun _ =>
      .bind (.of_keeps (calLogAccessCnt_keeps _)) fun _ => .of_keeps (Preserves.pure _)

/-- For a read, a page map that cannot be had is no failure. -/
theorem pmmGetLogPageRead_keeps (nBlk nPage : Nat) :
    Preserves C Drifts (pmmGetLogPageRead ar env nBlk nPage) := by
  refine Preserves.bind Preserves.get fun s => ?_
  cases s.tbls.logBlkPst nBlk with
  | none => exact Preserves.pure _
  | some pst =>
      refine Preserves.orElse (fun s => ?_) fun _ => Preserves.pure _
      have h : Settles C (do
          pmmSwitchMapTbl ar env pst
          calLogAccessCnt pst
          let s ← get
          pure (s.pageMapTbl nPage)) :=
        .bind (pmmSwitchMapTbl_settles hC pst) fun _ =>
          .bind (.of_keeps (calLogAccessCnt_keeps pst)) fun _ =>
            .bind (.of_keeps Preserves.get) fun _ => .of_keeps (Preserves.pure _)
      exact (h s).mono (fun _ _ hs => hs.drifts) fun _ _ hs => hs

end Frame

end Novo7
