import Novo7.DiskRange
import Novo7.LogRoom

/-!
# The bank of a copy-back

The copy-back commands of `PHY_PageCopyback` take the chip from the source page. So every copy has
to stay in its bank; that is what the merges are in two forms for. Here they are once more, over the
copy that they use: with `PHY_PageCopyback` they are the merges of the driver
(`lmlMergeLogBlkBy_phyPageCopyback`), with `copybackInBank` they stop with a code of their own where
a copy would leave its bank.

A log block that is in order, a bad block that is replaced and a block that is copied whole have
each page at its place. A move merge looks at `SUPPORT_ALIGN_NAND_BNK`, a simple merge does not:
`copyback_staysInBank_iff` says what it relies on.
-/

namespace Novo7

open Traced

/-! ## The copies -/

section By

variable (ar : LogicArchi) (env : NandEnv) (copyback : PhyPage → PhyPage → FtlProg Int)

/-- The loop of `_RestorePageData`. -/
def restorePagesBy (nZoneNum badBlk newBlk : Nat) : Nat → Nat → FtlProg Int
  | _, 0 => pure 0
  | i, n + 1 => do
    let dst := lmlCalculatePhyOpPar ar nZoneNum newBlk i
    let _ ← copyback (lmlCalculatePhyOpPar ar nZoneNum badBlk i) dst
    let result ← phySynchBank dst.bank
    if result < 0 then pure (-1) else restorePagesBy nZoneNum badBlk newBlk (i + 1) n

/-- `_VirtualBlockCopy` of the formatter; `_CalculatePhyOpPar` has the body of
`LML_CalculatePhyOpPar`. -/
def virtualBlockCopyBy (nDieNum nSrcBlk nDstBlk : Nat) : FtlProg Int :=
  restorePagesBy ar copyback (nDieNum * ar.zoneCntOfDie) nSrcBlk nDstBlk 0 ar.pageCntOfLogicBlk

/-- One round of `LML_BadBlkManage`. -/
def replaceBadBlkBy (badBlk : SuperPhyBlk) (nZoneNum nErrPage : Nat) :
    Unit → FtlProg (Unit ⊕ SuperPhyBlk) := fun _ => do
  let freeBlk ← bmmGetFreeBlk ar true
  if nErrPage = 0 then
    pure (.inr freeBlk)
  else do
    let result ← restorePagesBy ar copyback nZoneNum badBlk.phyBlkNum freeBlk.phyBlkNum 0 nErrPage
    if result < 0 then do
      markBadBlk ar env freeBlk nZoneNum
      pure (.inl ())
    else
      pure (.inr freeBlk)

/-- `LML_BadBlkManage` -/
def lmlBadBlkManageBy (badBlk : SuperPhyBlk) (nZoneNum nErrPage : Nat) : FtlProg SuperPhyBlk := do
  let newBlk ← iterate (replaceBadBlkBy ar env copyback badBlk nZoneNum nErrPage)
    (ar.freeBlkCntOfZone + 1) ()
  markBadBlk ar env badBlk nZoneNum
  pure newBlk

def copyPageBy (srcBlk srcPage dstBlk dstPage : Nat) : FtlProg Unit := do
  let z := (← get).curMapZone
  let ret ← copyback (lmlCalculatePhyOpPar ar z srcBlk srcPage)
    (lmlCalculatePhyOpPar ar z dstBlk dstPage)
  failIf (ret ≠ 0) (-1)

/-- One round of `_log2data_swap_merge`. -/
def swapRoundBy (dataBlk logBlk : SuperPhyBlk) (x : Nat × SuperPhyBlk) :
    FtlProg ((Nat × SuperPhyBlk) ⊕ SuperPhyBlk) :=
  if x.1 < ar.pageCntOfLogicBlk then
    orElse
      (do
        let z := (← get).curMapZone
        copyPageBy ar copyback dataBlk.phyBlkNum x.1 x.2.phyBlkNum x.1
        let ret ← synchPage ar x.2.phyBlkNum x.1
        if ret ≠ 0 then do
          let subBlk ← lmlBadBlkManageBy ar env copyback x.2 z x.1
          pure (.inl (x.1, subBlk))
        else
          pure (.inl (x.1 + 1, x.2)))
      (fun e => do
        when (x.2 ≠ logBlk) (emit .swapDropped)
        fail e)
  else
    pure (.inr x.2)

/-- `_log2data_swap_merge` -/
def log2dataSwapMergeBy (nlogical : Nat) : FtlProg Unit := do
  let s ← get
  let dataBlk := bmmGetDataBlk ar s.tbls nlogical
  let logBlk := s.tbls.getLogBlk nlogical
  let newData ← iterate (swapRoundBy ar env copyback dataBlk logBlk.phyBlk) (mergeFuel ar)
    (u16 (logBlk.lastUsedPage + 1), logBlk.phyBlk)
  bmmSetDataBlk ar nlogical newData
  bmmSetLogBlk nlogical .none
  freeOldBlk ar env dataBlk
  pmmClearCurMapTbl

/-- The copies of `_free2log_move_merge` for one bank. -/
def moveBankPagesBy (logBlk freeBlk : SuperPhyBlk) :
    Nat → Nat → Nat → FtlProg (SuperPhyBlk ⊕ Nat)
  | 0, _, dstPage => pure (.inr dstPage)
  | n + 1, superPage, dstPage => do
    let s ← get
    let srcPage := s.pageMapTbl superPage
    if srcPage = 0xffff then
      moveBankPagesBy logBlk freeBlk n (superPage + ar.interleaveBankCnt) dstPage
    else do
      (if dstPage = 0 then copyPage0 ar env logBlk.phyBlkNum srcPage freeBlk.phyBlkNum 0
        else copyPageBy ar copyback logBlk.phyBlkNum srcPage freeBlk.phyBlkNum dstPage)
      let ret ← synchPage ar freeBlk.phyBlkNum dstPage
      if ret ≠ 0 then do
        let subBlk ← lmlBadBlkManageBy ar env copyback freeBlk s.curMapZone 0
        pure (.inl subBlk)
      else do
        pmmSetCurMapPage superPage dstPage
        moveBankPagesBy logBlk freeBlk n (superPage + ar.interleaveBankCnt)
          (dstPage + ar.interleaveBankCnt)

def moveManageInfoBy (logBlk freeBlk : SuperPhyBlk) : FtlProg (SuperPhyBlk ⊕ Unit) := do
  let z := (← get).curMapZone
  copyPage0 ar env logBlk.phyBlkNum 0 freeBlk.phyBlkNum 0
  let ret ← synchPage ar freeBlk.phyBlkNum 0
  if ret ≠ 0 then do
    let subBlk ← lmlBadBlkManageBy ar env copyback freeBlk z 0
    pure (.inl subBlk)
  else
    pure (.inr ())

def moveBanksBy (logBlk freeBlk : SuperPhyBlk) :
    Nat → Nat → Nat → FtlProg (SuperPhyBlk ⊕ Nat)
  | 0, _, lastUsedPage => pure (.inr lastUsedPage)
  | n + 1, bank, lastUsedPage => do
    let cnt := ar.interleaveBankCnt
    let pages := (ar.pageCntOfLogicBlk - bank + cnt - 1) / cnt
    match ← moveBankPagesBy ar env copyback logBlk freeBlk pages bank bank with
    | .inl subBlk => pure (.inl subBlk)
    | .inr dstPage => do
      let info ← (if bank = 0 ∧ dstPage = 0 then moveManageInfoBy ar env copyback logBlk freeBlk
        else pure (.inr ()))
      match info with
      | .inl subBlk => pure (.inl subBlk)
      | .inr () =>
        moveBanksBy logBlk freeBlk n (bank + 1)
          (if dstPage > lastUsedPage + cnt then dstPage - cnt else lastUsedPage)

def movePassBy (logBlk freeBlk : SuperPhyBlk) :
    FtlProg (SuperPhyBlk ⊕ (SuperPhyBlk × Nat)) := do
  match ← moveBanksBy ar env copyback logBlk freeBlk ar.interleaveBankCnt 0 0 with
  | .inl subBlk => pure (.inl subBlk)
  | .inr lastUsedPage => pure (.inr (freeBlk, lastUsedPage))

/-- One round of the move merge when pages need not stay in their bank: the pages go through the
page cache. -/
def moveRoundBy (logBlk : SuperPhyBlk) (x : MoveState) :
    FtlProg (MoveState ⊕ (SuperPhyBlk × Nat)) :=
  if x.superPage < ar.pageCntOfLogicBlk then do
    let s ← get
    let srcPage := s.pageMapTbl x.superPage
    if srcPage = 0xffff then
      pure (.inl { x with superPage := x.superPage + 1 })
    else do
      (if x.dstPage = 0 then copyPage0 ar env logBlk.phyBlkNum srcPage x.freeBlk.phyBlkNum 0
        else movePageByBuf ar env logBlk.phyBlkNum x.freeBlk.phyBlkNum srcPage x.dstPage)
      let ret ← synchPage ar x.freeBlk.phyBlkNum x.dstPage
      let y ← (if ret ≠ 0 then do
          let subBlk ← lmlBadBlkManageBy ar env copyback x.freeBlk s.curMapZone x.lastUsedPage
          pure (u16 (x.superPage + 0xffff), subBlk)
        else
          pure (x.superPage, x.freeBlk))
      pmmSetCurMapPage y.1 x.dstPage
      pure (.inl ⟨u16 (y.1 + 1), u16 (x.dstPage + 1), x.dstPage, y.2⟩)
  else
    pure (.inr (x.freeBlk, x.lastUsedPage))

/-- `_free2log_move_merge` -/
def free2logMoveMergeBy (nlogical : Nat) : FtlProg Unit := do
  let s ← get
  let logBlk := s.tbls.getLogBlk nlogical
  let freeBlk ← bmmGetFreeBlk ar true
  let (newLog, lastUsedPage) ← orElse
    (if ar.supportAlignNandBnk then
      iterate (movePassBy ar env copyback logBlk.phyBlk) (mergeFuel ar) freeBlk
    else
      iterate (moveRoundBy ar env copyback logBlk.phyBlk) (mergeFuel ar) ⟨0, 0, 0, freeBlk⟩)
    (fun e => do
      emit .mergeDropped
      fail e)
  freeOldBlk ar env logBlk.phyBlk
  bmmSetLogBlk nlogical { logBlk with lastUsedPage := lastUsedPage, phyBlk := newLog }

/-- One round of `_free2data_simple_merge`. -/
def simpleRoundBy (dataBlk logBlk : SuperPhyBlk) (x : Nat × SuperPhyBlk) :
    FtlProg ((Nat × SuperPhyBlk) ⊕ SuperPhyBlk) :=
  if x.1 < ar.pageCntOfLogicBlk then do
    let s ← get
    let inLog := s.pageMapTbl x.1
    let inData : Bool := inLog = 0xffff
    let srcBlk := if inData then dataBlk.phyBlkNum else logBlk.phyBlkNum
    let srcPage := if inData then x.1 else inLog
    (if x.1 = 0 then copyPage0 ar env srcBlk srcPage x.2.phyBlkNum (if inData then 2 else 1)
      else copyPageBy ar copyback srcBlk srcPage x.2.phyBlkNum x.1)
    let ret ← synchPage ar x.2.phyBlkNum x.1
    if ret ≠ 0 then do
      let subBlk ← lmlBadBlkManageBy ar env copyback x.2 s.curMapZone x.1
      pure (.inl (x.1, subBlk))
    else
      pure (.inl (x.1 + 1, x.2))
  else
    pure (.inr x.2)

/-- `_free2data_simple_merge` -/
def free2dataSimpleMergeBy (nlogical : Nat) : FtlProg Unit := do
  let dataBlk := bmmGetDataBlk ar (← get).tbls nlogical
  let freeBlk ← bmmGetFreeBlk ar true
  let logBlk := (← get).tbls.getLogBlk nlogical
  let newData ← orElse
    (iterate (simpleRoundBy ar env copyback dataBlk logBlk.phyBlk) (mergeFuel ar) (0, freeBlk))
    (fun e => do
      emit .mergeDropped
      fail e)
  bmmSetDataBlk ar nlogical newData
  freeOldBlk ar env dataBlk
  freeOldBlk ar env logBlk.phyBlk
  bmmSetLogBlk nlogical .none
  pmmClearCurMapTbl

/-- `LML_MergeLogBlk` -/
def lmlMergeLogBlkBy (nMode : MergeMode) (nlogical : Nat) : FtlProg Unit := do
  let s ← get
  let pageCnt := ar.pageCntOfLogicBlk
  let logBlk := s.tbls.getLogBlk nlogical
  if logInOrder s.pageMapTbl pageCnt logBlk.lastUsedPage then
    log2dataSwapMergeBy ar env copyback nlogical
  else if nMode = .special ∧
      validPages s.pageMapTbl pageCnt < pageCnt / (ar.interleaveBankCnt + 1) then
    free2logMoveMergeBy ar env copyback nlogical
  else
    free2dataSimpleMergeBy ar env copyback nlogical

end By

/-! ## With the copy of the driver -/

section Driver

variable (ar : LogicArchi) (env : NandEnv)

theorem restorePagesBy_phyPageCopyback (z badBlk newBlk : Nat) : ∀ i n,
    restorePagesBy ar (phyPageCopyback ar env) z badBlk newBlk i n =
      restorePages ar env z badBlk newBlk i n
  | _, 0 => rfl
  | i, n + 1 => by
      rw [restorePagesBy, restorePages, restorePagesBy_phyPageCopyback z badBlk newBlk (i + 1) n]

theorem lmlBadBlkManageBy_phyPageCopyback :
    lmlBadBlkManageBy ar env (phyPageCopyback ar env) = lmlBadBlkManage ar env := by
  have hround : replaceBadBlkBy ar env (phyPageCopyback ar env) = replaceBadBlk ar env := by
    funext b z nErrPage _
    simp only [replaceBadBlkBy, replaceBadBlk, restorePageData, restorePagesBy_phyPageCopyback]
  funext b z nErrPage
  simp only [lmlBadBlkManageBy, lmlBadBlkManage, hround]

theorem copyPageBy_phyPageCopyback :
    copyPageBy ar (phyPageCopyback ar env) = copyPage ar env := rfl

theorem moveBankPagesBy_phyPageCopyback (logBlk freeBlk : SuperPhyBlk) : ∀ n superPage dstPage,
    moveBankPagesBy ar env (phyPageCopyback ar env) logBlk freeBlk n superPage dstPage =
      moveBankPages ar env logBlk freeBlk n superPage dstPage
  | 0, _, _ => rfl
  | n + 1, superPage, dstPage => by
      simp only [moveBankPagesBy, moveBankPages, lmlBadBlkManageBy_phyPageCopyback,
        copyPageBy_phyPageCopyback,
        moveBankPagesBy_phyPageCopyback logBlk freeBlk n]

theorem moveBanksBy_phyPageCopyback (logBlk freeBlk : SuperPhyBlk) : ∀ n bank lastUsedPage,
    moveBanksBy ar env (phyPageCopyback ar env) logBlk freeBlk n bank lastUsedPage =
      moveBanks ar env logBlk freeBlk n bank lastUsedPage
  | 0, _, _ => rfl
  | n + 1, bank, lastUsedPage => by
      simp only [moveBanksBy, moveBanks, moveBankPagesBy_phyPageCopyback, moveManageInfoBy,
        moveManageInfo, lmlBadBlkManageBy_phyPageCopyback,
        moveBanksBy_phyPageCopyback logBlk freeBlk n]
      -- the matches of the two may have got different names
      try rfl

/-- Over the copy of the driver the merge is the driver's. -/
theorem lmlMergeLogBlkBy_phyPageCopyback :
    lmlMergeLogBlkBy ar env (phyPageCopyback ar env) = lmlMergeLogBlk ar env := by
  funext nMode nlogical
  have hpass : movePassBy ar env (phyPageCopyback ar env) = movePass ar env := by
    funext logBlk freeBlk
    simp only [movePassBy, movePass, moveBanksBy_phyPageCopyback]
    try rfl
  have hmove : moveRoundBy ar env (phyPageCopyback ar env) = moveRound ar env := by
    funext logBlk x
    simp only [moveRoundBy, moveRound, lmlBadBlkManageBy_phyPageCopyback]
  have hswap : swapRoundBy ar env (phyPageCopyback ar env) = swapRound ar env := by
    funext dataBlk logBlk x
    simp only [swapRoundBy, swapRound, lmlBadBlkManageBy_phyPageCopyback,
      copyPageBy_phyPageCopyback]
  have hsimple : simpleRoundBy ar env (phyPageCopyback ar env) = simpleRound ar env := by
    funext dataBlk logBlk x
    simp only [simpleRoundBy, simpleRound, lmlBadBlkManageBy_phyPageCopyback,
      copyPageBy_phyPageCopyback]
  simp only [lmlMergeLogBlkBy, lmlMergeLogBlk, log2dataSwapMergeBy, log2dataSwapMerge,
    free2logMoveMergeBy, free2logMoveMerge, free2dataSimpleMergeBy, free2dataSimpleMerge, hpass,
    hmove, hswap, hsimple]

end Driver

/-! ## Copies that stay in their bank -/

/-- The code of a copy that would leave its bank. -/
def bankLeft : Int := -0x100

/-- `PHY_PageCopyback`, stopping where the two pages are in different banks. -/
def copybackInBank (ar : LogicArchi) (env : NandEnv) (src dst : PhyPage) : FtlProg Int :=
  if src.bank = dst.bank then phyPageCopyback ar env src dst else fail bankLeft

/-- The run does not stop at a copy that would leave its bank. -/
def StaysInBank {α : Type} (m : FtlProg α) (s : Ftl) : Prop :=
  ∀ e s', (m s).1 = .err e s' → e ≠ bankLeft

theorem staysInBank_of_wp {α : Type} {m : FtlProg α} {Q : α → Ftl → Prop} {s : Ftl}
    (h : WP anyRun m Q (fun e _ => e ≠ bankLeft) s) : StaysInBank m s := by
  intro e s' hm
  have hends := ends_of_wp h
  rw [hm] at hends
  exact hends

/-- The active page map is as before, and that of the same zone. -/
structure KeepsMap (s s' : Ftl) : Prop where
  zone : s'.curMapZone = s.curMapZone
  map : s'.pageMapTbl = s.pageMapTbl

instance : Std.Refl KeepsMap := ⟨fun _ => ⟨rfl, rfl⟩⟩

instance : IsTrans Ftl KeepsMap := ⟨fun _ _ _ h h' => ⟨h'.zone.trans h.zone, h'.map.trans h.map⟩⟩

/-- Any two states. -/
def Anyhow (_ _ : Ftl) : Prop := True

instance : Std.Refl Anyhow := ⟨fun _ => trivial⟩

instance : IsTrans Ftl Anyhow := ⟨fun _ _ _ _ _ => trivial⟩

/-- The program does not stop at such a copy, and ends in a state that `R` relates to the one it
has started in. -/
def Stays {α : Type} (R : Ftl → Ftl → Prop) (m : FtlProg α) : Prop :=
  ∀ s, WP anyRun m (fun _ => R s) (fun e _ => e ≠ bankLeft) s

namespace Stays

variable {α β : Type} {R : Ftl → Ftl → Prop} {m : FtlProg α}

theorem modify {f : Ftl → Ftl} (h : ∀ s, R s (f s)) : Stays R (modify f : FtlProg Unit) :=
  fun s => WP.modify (h s)

theorem ite {c : Prop} [Decidable c] {m m' : FtlProg α} (h : c → Stays R m)
    (h' : ¬c → Stays R m') : Stays R (if c then m else m') := fun s =>
  WP.ite (fun hc => h hc s) fun hc => h' hc s

theorem anyhow (h : Stays R m) : Stays Anyhow m := fun s => (h s).imp fun _ _ _ => trivial

/-- Whatever is done before an error is passed on. -/
theorem passOn {k : FtlProg Unit} (h : Stays R m) (hk : Stays Anyhow k) :
    Stays R (Traced.orElse m fun e => k >>= fun _ => fail e) := fun s =>
  WP.orElse ((h s).mono (fun _ _ hr => hr) fun _ s' he =>
    WP.bind ((hk s').imp fun _ _ _ => WP.fail he))

variable [Std.Refl R]

theorem pure (a : α) : Stays R (pure a : FtlProg α) := fun s => WP.pure (refl_of R s)

theorem get : Stays R (get : FtlProg Ftl) := fun s => WP.get (refl_of R s)

theorem emit (e : Event) : Stays R (emit e : FtlProg Unit) := fun s =>
  WP.emit fun _ => ⟨trivial, refl_of R s⟩

theorem failIf (c : Prop) [Decidable c] : Stays R (failIf c (-1) : FtlProg Unit) := fun s =>
  WP.failIf (fun _ => by decide) fun _ => refl_of R s

theorem when {c : Prop} [Decidable c] {m : FtlProg Unit} (h : c → Stays R m) :
    Stays R (when c m) := fun s => WP.when (fun hc => h hc s) fun _ => refl_of R s

variable [IsTrans Ftl R]

omit [Std.Refl R] in
/-- From one start on. -/
theorem bind_at {f : α → FtlProg β} {s : Ftl}
    (h : WP anyRun m (fun _ => R s) (fun e _ => e ≠ bankLeft) s) (hf : ∀ a, Stays R (f a)) :
    WP anyRun (m >>= f) (fun _ => R s) (fun e _ => e ≠ bankLeft) s :=
  WP.bind (h.imp fun a s' hr => (hf a s').imp fun _ _ => trans_of R hr)

omit [Std.Refl R] in
theorem bind {f : α → FtlProg β} (h : Stays R m) (hf : ∀ a, Stays R (f a)) :
    Stays R (m >>= f) := fun s => bind_at (h s) hf

theorem forRange {n : Nat} {f : Nat → FtlProg Unit} (h : ∀ i, Stays R (f i)) :
    Stays R (forRange n f) := fun s =>
  WP.forRange (I := fun _ => R s) (fun i s' _ hr => (h i s').imp fun _ _ => trans_of R hr)
    (refl_of R s)

theorem iterate {τ : Type} {step : τ → FtlProg (τ ⊕ α)} (h : ∀ x, Stays R (step x)) :
    ∀ (fuel : Nat) (x : τ), Stays R (iterate step fuel x)
  | 0, _ => fun _ => WP.fail (by decide)
  | fuel + 1, x => Stays.bind (h x) fun r => by
      cases r with
      | inl x' => exact Stays.iterate h fuel x'
      | inr a => exact Stays.pure a

end Stays

/-! ## The other operations -/

section Operations

variable {ar : LogicArchi} {env : NandEnv}

theorem setNand_stays (f : Ftl → Nand → Nand) :
    Stays KeepsMap (modify fun s => s.setNand (f s) : FtlProg Unit) :=
  .modify fun _ => ⟨rfl, rfl⟩

theorem phyPageRead_stays (a : PhyPage) : Stays KeepsMap (phyPageRead env a) := by
  refine .bind .get fun s => .bind (.emit _) fun _ => .bind (setNand_stays _) fun _ => ?_
  split <;> exact .pure _

theorem phyPageWrite_stays (a : PhyPage) (p : Page) : Stays KeepsMap (phyPageWrite env a p) := by
  refine .bind .get fun s => .bind (.emit _) fun _ => .bind (setNand_stays _) fun _ => ?_
  split
  · exact .bind (setNand_stays _) fun _ => .pure _
  · exact .bind (setNand_stays _) fun _ => .pure _
  · exact .pure _

theorem phyBlockErase_stays (a : PhyPage) : Stays KeepsMap (phyBlockErase env a) := by
  refine .bind .get fun s => .bind (.emit _) fun _ => .bind (setNand_stays _) fun _ => ?_
  split <;> exact setNand_stays _

theorem phySynchBank_stays (bank : Nat) : Stays KeepsMap (phySynchBank bank) :=
  .bind .get fun _ => .pure _

theorem setTempBuf_stays (f : Ftl → Buf) :
    Stays KeepsMap (modify fun s => { s with tempBuf := f s } : FtlProg Unit) :=
  .modify fun _ => ⟨rfl, rfl⟩

theorem phyPageCopyback_stays (src dst : PhyPage) :
    Stays KeepsMap (phyPageCopyback ar env src dst) := by
  refine .ite (fun _ => ?_) fun _ => .bind .get fun _ => phyPageWrite_stays _ _
  exact .bind (phyPageRead_stays src) fun x => .bind (setTempBuf_stays _) fun _ =>
    .ite (fun _ => .pure _) fun _ => phyPageWrite_stays dst _

theorem synchBanks_stays : ∀ i n, Stays KeepsMap (synchBanks i n)
  | _, 0 => .pure _
  | i, n + 1 => .bind (phySynchBank_stays i) fun _ => .ite (fun _ => .pure _) fun _ =>
      synchBanks_stays (i + 1) n

theorem lmlVirtualBlkErase_stays (z b : Nat) : Stays KeepsMap (lmlVirtualBlkErase ar env z b) :=
  .bind (.forRange fun _ => phyBlockErase_stays _) fun _ => synchBanks_stays _ _

theorem readTemp_stays (z b page bitmap : Nat) :
    Stays KeepsMap (readTemp ar env z b page bitmap) :=
  .bind (phyPageRead_stays _) fun _ => .bind (setTempBuf_stays _) fun _ => .pure _

theorem bmmGetFreeBlk_stays (lowest : Bool) : Stays KeepsMap (bmmGetFreeBlk ar lowest) := by
  refine .bind .get fun s => ?_
  dsimp only
  generalize s.tbls.findFreeBlk _ _ _ _ _ _ = r
  cases r with
  | none => exact fun _ => WP.fail (by decide)
  | some pst =>
      refine .bind (.emit _) fun _ => .bind (.modify fun s => ⟨?_, rfl⟩) fun _ => .pure _
      rw [Ftl.curMapZone, Ftl.blkMapCache_setBlkMapCache]
      rfl

theorem writeBadFlag_stays (z b page : Nat) : Stays KeepsMap (writeBadFlag ar env z b page) :=
  .bind .get fun _ => .bind (phyPageWrite_stays _ _) fun _ => .bind (phySynchBank_stays _) fun _ =>
    .pure _

theorem markBadBlk_stays (b : SuperPhyBlk) (z : Nat) : Stays KeepsMap (markBadBlk ar env b z) :=
  .bind (.modify fun _ => ⟨rfl, rfl⟩) fun _ => .bind (lmlVirtualBlkErase_stays z _) fun _ =>
    .forRange fun _ => .bind (writeBadFlag_stays _ _ _) fun _ => writeBadFlag_stays _ _ _

theorem copyPage0_stays (srcBlk srcPage dstBlk seqPlus : Nat) :
    Stays KeepsMap (copyPage0 ar env srcBlk srcPage dstBlk seqPlus) :=
  .bind .get fun _ => .bind (readTemp_stays _ _ _ _) fun _ => .bind (.failIf _) fun _ =>
    .bind (readTemp_stays _ _ _ _) fun _ => .bind (.failIf _) fun _ => .bind .get fun _ =>
      .bind (phyPageWrite_stays _ _) fun _ => .failIf _

theorem movePageByBuf_stays (logBlk freeBlk srcPage dstPage : Nat) :
    Stays KeepsMap (movePageByBuf ar env logBlk freeBlk srcPage dstPage) :=
  .bind .get fun _ => .bind (readTemp_stays _ _ _ _) fun _ => .bind (.failIf _) fun _ =>
    .bind .get fun _ => .bind (phyPageWrite_stays _ _) fun _ => .failIf _

theorem synchPage_stays (b page : Nat) : Stays KeepsMap (synchPage ar b page) :=
  .bind .get fun _ => phySynchBank_stays _

theorem modify_stays (f : Ftl → Ftl) : Stays Anyhow (modify f : FtlProg Unit) :=
  .modify fun _ => trivial

theorem freeOldBlk_stays (b : SuperPhyBlk) : Stays Anyhow (freeOldBlk ar env b) :=
  .bind .get fun _ => .bind (lmlVirtualBlkErase_stays _ _).anyhow fun _ =>
    .bind (.when fun _ => .bind (.emit _) fun _ => (markBadBlk_stays _ _).anyhow) fun _ =>
      modify_stays _

end Operations

/-! ## Pages at their place -/

section Place

variable {ar : LogicArchi} {env : NandEnv}

/-- The bank of a page depends on its remainder only. -/
theorem bankOf_congr {z b b' p p' : Nat}
    (h : p % ar.interleaveBankCnt = p' % ar.interleaveBankCnt) :
    bankOf ar z b p = bankOf ar z b' p' := by
  simp only [bankOf, lmlCalculatePhyOpPar, h]
  cases ar.supportIntInterleave <;> cases ar.supportExtInterleave <;> rfl

theorem copybackInBank_stays {z b b' p p' : Nat} (h : bankOf ar z b p = bankOf ar z b' p') :
    Stays KeepsMap (copybackInBank ar env (lmlCalculatePhyOpPar ar z b p)
      (lmlCalculatePhyOpPar ar z b' p')) :=
  .ite (fun _ => phyPageCopyback_stays _ _) fun hn => absurd h hn

theorem restorePagesBy_stays (z badBlk newBlk : Nat) : ∀ i n,
    Stays KeepsMap (restorePagesBy ar (copybackInBank ar env) z badBlk newBlk i n)
  | _, 0 => .pure _
  | i, n + 1 => .bind (copybackInBank_stays (bankOf_congr rfl)) fun _ =>
      .bind (phySynchBank_stays _) fun _ => .ite (fun _ => .pure _) fun _ =>
        restorePagesBy_stays z badBlk newBlk (i + 1) n

theorem lmlBadBlkManageBy_stays (b : SuperPhyBlk) (z nErrPage : Nat) :
    Stays KeepsMap (lmlBadBlkManageBy ar env (copybackInBank ar env) b z nErrPage) := by
  refine .bind (.iterate (fun _ => ?_) _ _) fun _ => .bind (markBadBlk_stays b z) fun _ => .pure _
  refine .bind (bmmGetFreeBlk_stays true) fun _ => .ite (fun _ => .pure _) fun _ =>
    .bind (restorePagesBy_stays _ _ _ _ _) fun _ => .ite (fun _ => ?_) fun _ => .pure _
  exact .bind (markBadBlk_stays _ z) fun _ => .pure _

theorem copyPageBy_stays {srcBlk srcPage dstBlk dstPage : Nat} {s : Ftl}
    (h : bankOf ar s.curMapZone 0 srcPage = bankOf ar s.curMapZone 0 dstPage) :
    WP anyRun (copyPageBy ar (copybackInBank ar env) srcBlk srcPage dstBlk dstPage)
      (fun _ => KeepsMap s) (fun e _ => e ≠ bankLeft) s := by
  have hsrc := @bankOf_congr ar s.curMapZone srcBlk 0 srcPage srcPage rfl
  have hdst := @bankOf_congr ar s.curMapZone 0 dstBlk dstPage dstPage rfl
  exact WP.bind (WP.get (Stays.bind_at (copybackInBank_stays (hsrc.trans (h.trans hdst)) s)
    fun _ => .failIf _))

theorem log2dataSwapMergeBy_stays (nlogical : Nat) :
    Stays Anyhow (log2dataSwapMergeBy ar env (copybackInBank ar env) nlogical) := by
  refine .bind .get fun s => .bind (.iterate (fun x => ?_) _ _) fun _ => .bind (modify_stays _)
    fun _ => .bind (modify_stays _) fun _ => .bind (freeOldBlk_stays _) fun _ => modify_stays _
  refine .ite (fun _ => .passOn ?_ (.when fun _ => .emit _)) fun _ => .pure _
  refine .bind .get fun _ => .bind (fun s => ?_) fun _ =>
    .bind (synchPage_stays _ _).anyhow fun _ =>
    .ite (fun _ => ?_) fun _ => .pure _
  · exact (copyPageBy_stays rfl).imp fun _ _ _ => trivial
  · exact .bind (lmlBadBlkManageBy_stays _ _ _).anyhow fun _ => .pure _

/-- Without `SUPPORT_ALIGN_NAND_BNK` the pages of a move merge go through the page cache. -/
theorem moveRoundBy_stays (logBlk : SuperPhyBlk) (x : MoveState) :
    Stays Anyhow (moveRoundBy ar env (copybackInBank ar env) logBlk x) := by
  refine .ite (fun _ => .bind .get fun s => ?_) fun _ => .pure _
  refine .ite (fun _ => .pure _) fun _ => .bind (.ite (fun _ => (copyPage0_stays _ _ _ _).anyhow)
    fun _ => (movePageByBuf_stays _ _ _ _).anyhow) fun _ => .bind (synchPage_stays _ _).anyhow
      fun _ => .bind (.ite (fun _ => ?_) fun _ => .pure _) fun _ => .bind (modify_stays _) fun _ =>
        .pure _
  exact .bind (lmlBadBlkManageBy_stays _ _ _).anyhow fun _ => .pure _

end Place

/-! ## Pages of the log block -/

section Log

variable {ar : LogicArchi} {env : NandEnv}

/-- What a simple merge relies on at a page: its place in the log block is in its bank. Page 0 is
not copied back. -/
def SimpleInBankAt (ar : LogicArchi) (z : Nat) (map : Nat → Nat) (p : Nat) : Prop :=
  0 < p → map p ≠ 0xffff → bankOf ar z 0 (map p) = bankOf ar z 0 p

def SimpleInBank (ar : LogicArchi) (z : Nat) (map : Nat → Nat) : Prop :=
  ∀ p < ar.pageCntOfLogicBlk, SimpleInBankAt ar z map p

/-- What a move merge relies on at a page. The first page that it copies in bank 0 is not copied
back. -/
def MoveInBankAt (ar : LogicArchi) (z : Nat) (map : Nat → Nat) (p : Nat) : Prop :=
  map p ≠ 0xffff →
    (p % ar.interleaveBankCnt ≠ 0 ∨
      ∃ q < p, q % ar.interleaveBankCnt = 0 ∧ map q ≠ 0xffff) →
    bankOf ar z 0 (map p) = bankOf ar z 0 p

def MoveInBank (ar : LogicArchi) (z : Nat) (map : Nat → Nat) : Prop :=
  ∀ p < ar.pageCntOfLogicBlk, MoveInBankAt ar z map p

theorem simpleRoundBy_stays {dataBlk logBlk : SuperPhyBlk} {x : Nat × SuperPhyBlk} {s : Ftl}
    (h : SimpleInBank ar s.curMapZone s.pageMapTbl) :
    WP anyRun (simpleRoundBy ar env (copybackInBank ar env) dataBlk logBlk x) (fun _ => KeepsMap s)
      (fun e _ => e ≠ bankLeft) s := by
  refine WP.ite (fun hx => WP.bind (WP.get ?_)) fun _ => WP.pure (refl_of KeepsMap s)
  refine Stays.bind_at (WP.ite (fun _ => copyPage0_stays _ _ _ _ s) fun hx0 => ?_) fun _ =>
    .bind (synchPage_stays _ _) fun _ => .ite (fun _ => ?_) fun _ => .pure _
  · refine copyPageBy_stays ?_
    by_cases hin : s.pageMapTbl x.1 = 0xffff
    · simp [hin]
    · simp only [hin, decide_false, Bool.false_eq_true, if_false]
      exact h x.1 hx (Nat.pos_of_ne_zero hx0) hin
  · exact .bind (lmlBadBlkManageBy_stays _ _ _) fun _ => .pure _

theorem free2dataSimpleMergeBy_stays (nlogical : Nat) {s : Ftl}
    (h : SimpleInBank ar s.curMapZone s.pageMapTbl) :
    WP anyRun (free2dataSimpleMergeBy ar env (copybackInBank ar env) nlogical) (fun _ _ => True)
      (fun e _ => e ≠ bankLeft) s := by
  refine WP.bind (WP.get (WP.bind ((bmmGetFreeBlk_stays true s).imp fun freeBlk s₁ h₁ =>
    WP.bind (WP.get (WP.bind (WP.orElse ?_))))))
  have hin : SimpleInBank ar s₁.curMapZone s₁.pageMapTbl := by
    rw [h₁.zone, h₁.map]
    exact h
  refine (WP.iterate_inv (I := fun _ t => KeepsMap s₁ t) (Q := fun _ _ => True) (fun x t ht => ?_)
    (fun _ _ _ => by decide) (refl_of KeepsMap s₁)).mono (fun _ s₂ _ => ?_) fun e s₂ he =>
      WP.bind (WP.emit fun _ => ⟨trivial, WP.fail he⟩)
  · refine (simpleRoundBy_stays ?_).imp fun r t' ht' => ?_
    · rw [ht.zone, ht.map]
      exact hin
    · cases r with
      | inl y => exact trans_of KeepsMap ht ht'
      | inr b => exact trivial
  · exact Stays.bind (modify_stays _) (fun _ => .bind (freeOldBlk_stays _) fun _ =>
      .bind (freeOldBlk_stays _) fun _ => .bind (modify_stays _) fun _ => modify_stays _) s₂

/-- In a move merge from the page map `map`: a page has its old place in the log block, or its new
one, which is in the bank of its number. -/
structure Moving (ar : LogicArchi) (z : Nat) (map : Nat → Nat) (s : Ftl) : Prop where
  zone : s.curMapZone = z
  place : ∀ p, s.pageMapTbl p = map p ∨
    (map p ≠ 0xffff ∧ s.pageMapTbl p % ar.interleaveBankCnt = p % ar.interleaveBankCnt)

theorem Moving.keep {z : Nat} {map : Nat → Nat} {s s' : Ftl} (h : Moving ar z map s)
    (hk : KeepsMap s s') : Moving ar z map s' := by
  refine ⟨hk.zone.trans h.zone, ?_⟩
  rw [hk.map]
  exact h.place

theorem Moving.mapped {z : Nat} {map : Nat → Nat} {s : Ftl} (h : Moving ar z map s) {p : Nat}
    (hp : s.pageMapTbl p ≠ 0xffff) : map p ≠ 0xffff := by
  rcases h.place p with heq | ⟨hmap, _⟩
  · rw [← heq]
    exact hp
  · exact hmap

theorem Moving.set {z : Nat} {map : Nat → Nat} {s : Ftl} (h : Moving ar z map s) {p dst : Nat}
    (hp : map p ≠ 0xffff) (hdst : dst % ar.interleaveBankCnt = p % ar.interleaveBankCnt) :
    WP anyRun (pmmSetCurMapPage p dst) (fun _ => Moving ar z map) (fun e _ => e ≠ bankLeft) s := by
  refine WP.modify ⟨h.zone, fun q => ?_⟩
  have hmap : (s.setPageMapCache fun c =>
      { c with pageMapTbl := Function.update c.pageMapTbl p dst }).pageMapTbl =
      Function.update s.pageMapTbl p dst := by
    rw [Ftl.pageMapTbl, Ftl.pageMapCache, Ftl.setPageMapCache]
    dsimp only
    rw [Function.update_self]
    rfl
  rw [hmap]
  by_cases hq : q = p
  · subst hq
    rw [Function.update_self]
    exact Or.inr ⟨hp, hdst⟩
  · rw [Function.update_of_ne hq]
    exact h.place q

/-- The pages of one bank. The next page to use is the first of the bank, or a page has been copied
before. -/
theorem moveBankPagesBy_stays {z : Nat} {map : Nat → Nat} (hin : MoveInBank ar z map)
    (hcnt : 0 < ar.interleaveBankCnt) {logBlk freeBlk : SuperPhyBlk} (n : Nat) :
    ∀ (superPage dstPage : Nat) (s : Ftl), Moving ar z map s →
      BankPages ar n superPage →
      dstPage % ar.interleaveBankCnt = superPage % ar.interleaveBankCnt →
      (dstPage = superPage % ar.interleaveBankCnt ∨ ∃ q < superPage,
        q % ar.interleaveBankCnt = superPage % ar.interleaveBankCnt ∧ map q ≠ 0xffff) →
      WP anyRun (moveBankPagesBy ar env (copybackInBank ar env) logBlk freeBlk n superPage dstPage)
        (fun _ => Moving ar z map) (fun e _ => e ≠ bankLeft) s := by
  induction n with
  | zero => exact fun superPage dstPage s h _ _ _ => WP.pure h
  | succ n ih =>
      intro superPage dstPage s h hlast hrem hfirst
      obtain ⟨hsuper, hlast'⟩ := hlast.step
      refine WP.bind (WP.get (WP.ite (fun _ => ?_) fun hsrc => ?_))
      · refine ih _ dstPage s h hlast' (by rw [Nat.add_mod_right, hrem]) ?_
        rw [Nat.add_mod_right]
        refine hfirst.imp_right ?_
        rintro ⟨q, hq, hq'⟩
        exact ⟨q, by omega, hq'⟩
      have hmapped := h.mapped hsrc
      have hcopy : WP anyRun (if dstPage = 0 then
            copyPage0 ar env logBlk.phyBlkNum (s.pageMapTbl superPage) freeBlk.phyBlkNum 0
          else copyPageBy ar (copybackInBank ar env) logBlk.phyBlkNum (s.pageMapTbl superPage)
            freeBlk.phyBlkNum dstPage) (fun _ => KeepsMap s) (fun e _ => e ≠ bankLeft) s := by
        refine WP.ite (fun _ => copyPage0_stays _ _ _ _ s) fun hdst => copyPageBy_stays ?_
        rw [h.zone]
        have hdstBank : bankOf ar z 0 superPage = bankOf ar z 0 dstPage := bankOf_congr hrem.symm
        refine Eq.trans ?_ hdstBank
        rcases h.place superPage with heq | ⟨_, hplace⟩
        · rw [heq]
          refine hin superPage hsuper hmapped ?_
          rcases hfirst with hbank | ⟨q, hq, hqrem, hqmap⟩
          · exact Or.inl (hbank ▸ hdst)
          · by_cases hzero : superPage % ar.interleaveBankCnt = 0
            · exact Or.inr ⟨q, hq, hqrem.trans hzero, hqmap⟩
            · exact Or.inl hzero
        · exact bankOf_congr hplace
      refine WP.bind (hcopy.imp fun _ s₁ h₁ => WP.bind ((synchPage_stays _ _ s₁).imp
        fun ret s₂ h₂ => ?_))
      have hmoving := h.keep (trans_of KeepsMap h₁ h₂)
      refine WP.ite (fun _ => ?_) fun _ => ?_
      · exact WP.bind ((lmlBadBlkManageBy_stays _ _ _ s₂).imp fun _ s₃ h₃ =>
          WP.pure (hmoving.keep h₃))
      · refine WP.bind ((hmoving.set hmapped hrem).imp fun _ s₃ h₃ => ih _ _ s₃ h₃ hlast' ?_ ?_)
        · rw [Nat.add_mod_right, Nat.add_mod_right, hrem]
        · exact Or.inr ⟨superPage, by omega, by rw [Nat.add_mod_right], hmapped⟩

theorem moveManageInfoBy_stays (logBlk freeBlk : SuperPhyBlk) :
    Stays KeepsMap (moveManageInfoBy ar env (copybackInBank ar env) logBlk freeBlk) :=
  .bind .get fun _ => .bind (copyPage0_stays _ _ _ _) fun _ => .bind (synchPage_stays _ _) fun _ =>
    .ite (fun _ => .bind (lmlBadBlkManageBy_stays _ _ _) fun _ => .pure _) fun _ => .pure _

theorem moveBanksBy_stays {z : Nat} {map : Nat → Nat} (hin : MoveInBank ar z map)
    {logBlk freeBlk : SuperPhyBlk} (n : Nat) : ∀ (bank lastUsedPage : Nat) (s : Ftl),
      Moving ar z map s → bank + n ≤ ar.interleaveBankCnt →
      WP anyRun (moveBanksBy ar env (copybackInBank ar env) logBlk freeBlk n bank lastUsedPage)
        (fun _ => Moving ar z map) (fun e _ => e ≠ bankLeft) s := by
  induction n with
  | zero => exact fun bank lastUsedPage s h _ => WP.pure h
  | succ n ih =>
      intro bank lastUsedPage s h hbank
      have hmod : bank % ar.interleaveBankCnt = bank := Nat.mod_eq_of_lt (by omega)
      refine WP.bind ((moveBankPagesBy_stays hin (by omega) _ bank bank s h
        (bankPages_all ar (by omega) bank) rfl (Or.inl hmod.symm)).imp fun r s₁ h₁ => ?_)
      cases r with
      | inl subBlk => exact WP.pure h₁
      | inr dstPage =>
          refine WP.bind (WP.mono (Q := fun _ => KeepsMap s₁) (F := fun e _ => e ≠ bankLeft)
            (WP.ite (fun _ => moveManageInfoBy_stays _ _ s₁) fun _ => WP.pure (refl_of KeepsMap s₁))
            (fun info s₂ h₂ => ?_) fun _ _ he => he)
          cases info with
          | inl subBlk => exact WP.pure (h₁.keep h₂)
          | inr _ => exact ih (bank + 1) _ s₂ (h₁.keep h₂) (by omega)

theorem free2logMoveMergeBy_stays (nlogical : Nat) {s : Ftl}
    (h : ar.supportAlignNandBnk → MoveInBank ar s.curMapZone s.pageMapTbl) :
    WP anyRun (free2logMoveMergeBy ar env (copybackInBank ar env) nlogical) (fun _ _ => True)
      (fun e _ => e ≠ bankLeft) s := by
  refine WP.bind (WP.get (WP.bind ((bmmGetFreeBlk_stays true s).imp fun freeBlk s₁ h₁ =>
    WP.bind (WP.orElse (WP.mono (Q := fun _ _ => True) (F := fun e _ => e ≠ bankLeft) ?_
      (fun x s₂ _ => ?_) fun e s₂ he => WP.bind (WP.emit fun _ => ⟨trivial, WP.fail he⟩))))))
  · refine WP.ite (fun halign => ?_) fun _ => Stays.iterate (fun x => moveRoundBy_stays _ x) _ _ s₁
    have hmoving : Moving ar s.curMapZone s.pageMapTbl s₁ :=
      ⟨h₁.zone, fun p => Or.inl (by rw [h₁.map])⟩
    refine WP.iterate_inv (I := fun _ t => Moving ar s.curMapZone s.pageMapTbl t)
      (fun b t ht => ?_) (fun _ _ _ => by decide) hmoving
    refine WP.bind ((moveBanksBy_stays (h halign) _ 0 0 t ht (by omega)).imp fun r t' ht' => ?_)
    cases r with
    | inl subBlk => exact WP.pure ht'
    | inr lastUsedPage => exact WP.pure trivial
  · obtain ⟨newLog, lastUsedPage⟩ := x
    exact Stays.bind (freeOldBlk_stays _) (fun _ => modify_stays _) s₂

end Log

/-! ## Copies that leave their bank -/

section Leaves

variable {ar : LogicArchi} {env : NandEnv}

/-- The run returns only if `P`, and else it stops at a copy that would leave its bank. -/
def Tells {α : Type} (P : Prop) (m : FtlProg α) (s : Ftl) : Prop :=
  WP anyRun m (fun _ _ => P) (fun e _ => e = bankLeft) s

theorem Tells.of_staysInBank {α : Type} {P : Prop} {m : FtlProg α} {s : Ftl} (h : Tells P m s)
    (hin : StaysInBank m s) : P := by
  have hends := ends_of_wp h
  cases hm : (m s).1 with
  | ret a s' =>
      rw [hm] at hends
      exact hends
  | err e s' =>
      rw [hm] at hends
      exact absurd hends (hin e s' hm)

/-- A copy that is made stays in its bank. -/
theorem copyPageBy_tells (henv : env.NoFailure) {srcBlk srcPage dstBlk dstPage : Nat} {s : Ftl}
    (hs : s.Clear) :
    WP anyRun (copyPageBy ar (copybackInBank ar env) srcBlk srcPage dstBlk dstPage)
      (fun _ s' => Quiet s s' ∧
        bankOf ar s.curMapZone 0 srcPage = bankOf ar s.curMapZone 0 dstPage)
      (fun e _ => e = bankLeft) s := by
  have hsrc := @bankOf_congr ar s.curMapZone 0 srcBlk srcPage srcPage rfl
  have hdst := @bankOf_congr ar s.curMapZone dstBlk 0 dstPage dstPage rfl
  refine WP.bind (WP.get (WP.bind (WP.ite (fun hin => ?_) fun _ => WP.fail rfl)))
  refine (phyPageCopyback_completes henv _ _).wp hs fun ret s₁ hret h₁ => ?_
  exact WP.failIf (fun hne => absurd hret hne) fun _ => ⟨h₁, hsrc.trans (hin.trans hdst)⟩

theorem simpleRoundBy_tells (henv : env.NoFailure) {dataBlk logBlk b : SuperPhyBlk} {p : Nat}
    (hp : p < ar.pageCntOfLogicBlk) {s : Ftl} (hs : s.Clear) :
    WP anyRun (simpleRoundBy ar env (copybackInBank ar env) dataBlk logBlk (p, b))
      (fun r s' => r = .inl (p + 1, b) ∧ Quiet s s' ∧
        SimpleInBankAt ar s.curMapZone s.pageMapTbl p)
      (fun e _ => e = bankLeft) s := by
  rw [simpleRoundBy, if_pos hp]
  refine WP.bind (WP.get (WP.bind (WP.mono (Q := fun _ s₁ => Quiet s s₁ ∧
    SimpleInBankAt ar s.curMapZone s.pageMapTbl p) (F := fun e _ => e = bankLeft)
    (WP.ite (fun hzero => ?_) fun hpos => ?_) (fun _ s₁ h₁ => ?_) fun _ _ he => he)))
  · exact (copyPage0_completes henv _ _ _ _).wp hs fun _ _ _ h₁ =>
      ⟨h₁, fun hpos => absurd hzero (Nat.ne_of_gt hpos)⟩
  · refine (copyPageBy_tells henv hs).imp fun _ s₁ h₁ => ⟨h₁.1, fun _ hmap => ?_⟩
    have hbank := h₁.2
    rwa [decide_eq_false hmap, if_neg Bool.false_ne_true] at hbank
  · refine WP.bind ((synchPage_completes _ _).wp h₁.1.clear fun ret s₂ hret h₂ =>
      WP.ite (fun hne => absurd hret hne) fun _ => WP.pure ⟨rfl, h₁.1.quiet h₂, h₁.2⟩)

theorem free2dataSimpleMergeBy_tells (henv : env.NoFailure) (nlogical : Nat) {s : Ftl}
    (hs : s.Clear) (hfree : s.tbls.HasFree ar.freeBlkCntOfZone) :
    Tells (SimpleInBank ar s.curMapZone s.pageMapTbl)
      (free2dataSimpleMergeBy ar env (copybackInBank ar env) nlogical) s := by
  refine WP.bind (WP.get (WP.bind ((bmmGetFreeBlk_takes hfree hs).imp ?_)))
  rintro freeBlk s₁ ⟨_, -, h₁⟩
  have hmap : s₁.pageMapTbl = s.pageMapTbl := congrArg PageMapTblCache.pageMapTbl h₁.slot
  refine WP.bind (WP.get (WP.bind (WP.orElse (WP.mono
    (Q := fun _ s₂ => s₂.Clear ∧ SimpleInBank ar s.curMapZone s.pageMapTbl)
    (F := fun e _ => e = bankLeft) ?_ (fun b s₂ h₂ => ?_) fun e s₂ he =>
      WP.bind (WP.emit fun _ => ⟨trivial, WP.fail he⟩)))))
  · refine WP.iterate (I := fun x n s' => x.2 = freeBlk ∧ n = ar.pageCntOfLogicBlk - x.1 ∧
      Quiet s₁ s' ∧ ∀ q < x.1, SimpleInBankAt ar s.curMapZone s.pageMapTbl q)
      (n := ar.pageCntOfLogicBlk) (fun x n s' hx => ?_) ?_
      ⟨rfl, rfl, .refl h₁.clear, fun _ hq => absurd hq (Nat.not_lt_zero _)⟩
    · obtain ⟨p, b⟩ := x
      obtain ⟨rfl, rfl, hq, hbefore⟩ := hx
      by_cases hp : p < ar.pageCntOfLogicBlk
      · refine (simpleRoundBy_tells henv hp hq.clear).imp ?_
        rintro _ s₃ ⟨rfl, h₃, hat⟩
        rw [hq.zone, h₁.zone, Ftl.pageMapTbl, hq.slot, h₁.slot] at hat
        refine ⟨_, ?_, rfl, rfl, hq.quiet h₃, fun q hlt => ?_⟩
        · dsimp only
          omega
        · rcases Nat.lt_succ_iff_lt_or_eq.mp hlt with hlt | rfl
          · exact hbefore q hlt
          · exact hat
      · rw [simpleRoundBy, if_neg hp]
        exact WP.pure ⟨hq.clear, fun q hlt => hbefore q (by omega)⟩
    · unfold mergeFuel
      omega
  · refine WP.bind (WP.modify (WP.bind ((freeOldBlk_frees henv _ (h₂.1.setTbls _)).imp
      fun _ s₃ h₃ => WP.bind ((freeOldBlk_frees henv _ h₃.clear).imp fun _ _ _ =>
        WP.bind (WP.modify (WP.modify h₂.2))))))

/-- Inside an aligned move merge from the page map `map`: the map is the old one for the banks from
`bank` on, in that bank from `superPage` on. -/
structure Unmoved (ar : LogicArchi) (z : Nat) (map : Nat → Nat) (bank superPage : Nat) (s : Ftl) :
    Prop where
  zone : s.curMapZone = z
  clear : s.Clear
  rest : ∀ p, bank < p % ar.interleaveBankCnt ∨
    p % ar.interleaveBankCnt = bank ∧ superPage ≤ p → s.pageMapTbl p = map p

variable {z : Nat} {map : Nat → Nat}

namespace Unmoved

variable {bank superPage : Nat} {s s' : Ftl}

theorem quiet (h : Unmoved ar z map bank superPage s) (h' : Quiet s s') :
    Unmoved ar z map bank superPage s' where
  zone := h'.zone.trans h.zone
  clear := h'.clear
  rest p hp := by
    rw [Ftl.pageMapTbl, h'.slot]
    exact h.rest p hp

theorem later (h : Unmoved ar z map bank superPage s) {superPage' : Nat}
    (hle : superPage ≤ superPage') : Unmoved ar z map bank superPage' s :=
  ⟨h.zone, h.clear, fun p hp => h.rest p (hp.imp_right fun hq => ⟨hq.1, Nat.le_trans hle hq.2⟩)⟩

/-- The page at hand gets another place. -/
theorem set {F : Int → Ftl → Prop} (h : Unmoved ar z map bank superPage s)
    (hbank : superPage % ar.interleaveBankCnt = bank) (hcnt : 0 < ar.interleaveBankCnt)
    (dst : Nat) :
    WP anyRun (pmmSetCurMapPage superPage dst)
      (fun _ => Unmoved ar z map bank (superPage + ar.interleaveBankCnt)) F s := by
  refine WP.modify ⟨h.zone, h.clear, fun p hp => ?_⟩
  have hne : p ≠ superPage := by
    rintro rfl
    rcases hp with hlt | ⟨-, hle⟩ <;> omega
  rw [Ftl.pageMapTbl, Ftl.setPageMapCache_pageMapCache]
  show Function.update s.pageMapTbl superPage dst p = map p
  rw [Function.update_of_ne hne]
  exact h.rest p (hp.imp_right fun hq => ⟨hq.1, by omega⟩)

end Unmoved

/-- The next page of a bank. -/
theorem next_of_bank {cnt p q : Nat} (h : q % cnt = p % cnt) (hlt : p < q) : p + cnt ≤ q := by
  have hp := Nat.div_add_mod p cnt
  have hq := Nat.div_add_mod q cnt
  have hdiv : p / cnt < q / cnt := by
    by_contra hle
    have hmul := Nat.mul_le_mul_left cnt (Nat.le_of_not_lt hle)
    omega
  have hmul := Nat.mul_le_mul_left cnt hdiv
  rw [Nat.mul_succ] at hmul
  omega

/-- The pages of a bank from `superPage` up to `last` have been copied, and each was in its bank. -/
structure BankChecked (ar : LogicArchi) (z : Nat) (map : Nat → Nat) (bank superPage last : Nat)
    (r : SuperPhyBlk ⊕ Nat) (s : Ftl) : Prop where
  goesOn : ∃ d, r = .inr d
  unmoved : Unmoved ar z map bank last s
  checked : ∀ q, q % ar.interleaveBankCnt = bank → superPage ≤ q → q < last →
    MoveInBankAt ar z map q

/-- The page at hand, and those behind it. -/
theorem BankChecked.front {bank superPage last : Nat} {r : SuperPhyBlk ⊕ Nat} {s : Ftl}
    (h : BankChecked ar z map bank (superPage + ar.interleaveBankCnt) last r s)
    (hbank : superPage % ar.interleaveBankCnt = bank) (hat : MoveInBankAt ar z map superPage) :
    BankChecked ar z map bank superPage last r s := by
  refine ⟨h.goesOn, h.unmoved, fun q hq hle hlt => ?_⟩
  rcases Nat.eq_or_lt_of_le hle with rfl | hless
  · exact hat
  · exact h.checked q hq (next_of_bank (hq.trans hbank.symm) hless) hlt

theorem moveBankPagesBy_tells (henv : env.NoFailure) (hcnt : 0 < ar.interleaveBankCnt)
    {logBlk freeBlk : SuperPhyBlk} {bank : Nat} (n : Nat) : ∀ (superPage dstPage : Nat) (s : Ftl),
      Unmoved ar z map bank superPage s → superPage % ar.interleaveBankCnt = bank →
      dstPage % ar.interleaveBankCnt = bank →
      (dstPage = 0 → ∀ q < superPage, q % ar.interleaveBankCnt = 0 → map q = 0xffff) →
      WP anyRun (moveBankPagesBy ar env (copybackInBank ar env) logBlk freeBlk n superPage dstPage)
        (BankChecked ar z map bank superPage (superPage + n * ar.interleaveBankCnt))
        (fun e _ => e = bankLeft) s := by
  induction n with
  | zero =>
      intro superPage dstPage s h _ _ _
      rw [Nat.zero_mul, Nat.add_zero]
      exact WP.pure ⟨⟨_, rfl⟩, h, fun q _ hle hlt => absurd hle (Nat.not_le_of_lt hlt)⟩
  | succ n ih =>
      intro superPage dstPage s h hbank hdst hfirst
      have hlast : superPage + (n + 1) * ar.interleaveBankCnt =
          superPage + ar.interleaveBankCnt + n * ar.interleaveBankCnt := by
        rw [Nat.succ_mul]
        omega
      rw [hlast]
      have hsrc : s.pageMapTbl superPage = map superPage := h.rest _ (Or.inr ⟨hbank, Nat.le_refl _⟩)
      refine WP.bind (WP.get (WP.ite (fun hnone => ?_) fun hmapped => ?_))
      · rw [hsrc] at hnone
        refine (ih _ dstPage s (h.later (Nat.le_add_right _ _)) (by rw [Nat.add_mod_right, hbank])
          hdst fun hzero q hq hrem => ?_).imp fun _ _ hr => hr.front hbank fun hmap => absurd hnone hmap
        rcases Nat.lt_or_ge q superPage with hlt | hge
        · exact hfirst hzero q hlt hrem
        · rw [hzero, Nat.zero_mod] at hdst
          rcases Nat.eq_or_lt_of_le hge with rfl | hless
          · exact hnone
          · have := next_of_bank (hrem.trans (hdst.trans hbank.symm)) hless
            omega
      have hcopy : WP anyRun (if dstPage = 0 then
            copyPage0 ar env logBlk.phyBlkNum (s.pageMapTbl superPage) freeBlk.phyBlkNum 0
          else copyPageBy ar (copybackInBank ar env) logBlk.phyBlkNum (s.pageMapTbl superPage)
            freeBlk.phyBlkNum dstPage)
          (fun _ s' => Quiet s s' ∧ MoveInBankAt ar z map superPage)
          (fun e _ => e = bankLeft) s := by
        refine WP.ite (fun hzero => ?_) fun _ => ?_
        · refine (copyPage0_completes henv _ _ _ _).wp h.clear fun _ _ _ h₁ => ⟨h₁, ?_⟩
          rw [hzero, Nat.zero_mod] at hdst
          rintro - (hne | ⟨q, hlt, hrem, hmap⟩)
          · exact absurd (hbank.trans hdst.symm) hne
          · exact absurd (hfirst hzero q hlt hrem) hmap
        · refine (copyPageBy_tells henv h.clear).imp fun _ _ h₁ => ⟨h₁.1, fun _ _ => ?_⟩
          rw [← hsrc, ← h.zone]
          exact h₁.2.trans (bankOf_congr (hdst.trans hbank.symm))
      refine WP.bind (hcopy.imp fun _ s₁ h₁ => WP.bind ((synchPage_completes _ _).wp h₁.1.clear
        fun ret s₂ hret h₂ => WP.ite (fun hne => absurd hret hne) fun _ => ?_))
      refine WP.bind ((((h.quiet h₁.1).quiet h₂).set hbank hcnt dstPage).imp fun _ s₃ h₃ => ?_)
      refine (ih _ _ s₃ h₃ (by rw [Nat.add_mod_right, hbank]) (by rw [Nat.add_mod_right, hdst])
        fun hzero => ?_).imp fun _ _ hr => hr.front hbank h₁.2
      omega

/-- The pages of a bank go up to the end of the block. -/
theorem bankPages_cover (hcnt : 0 < ar.interleaveBankCnt) (bank : Nat) :
    ar.pageCntOfLogicBlk ≤ bank + (ar.pageCntOfLogicBlk - bank + ar.interleaveBankCnt - 1) /
      ar.interleaveBankCnt * ar.interleaveBankCnt := by
  have hdiv := Nat.div_add_mod (ar.pageCntOfLogicBlk - bank + ar.interleaveBankCnt - 1)
    ar.interleaveBankCnt
  have hmod := Nat.mod_lt (ar.pageCntOfLogicBlk - bank + ar.interleaveBankCnt - 1) hcnt
  rw [Nat.mul_comm] at hdiv
  omega

theorem moveBanksBy_tells (henv : env.NoFailure) {logBlk freeBlk : SuperPhyBlk} (n : Nat) :
    ∀ (bank lastUsedPage : Nat) (s : Ftl), Unmoved ar z map bank bank s →
      bank + n ≤ ar.interleaveBankCnt →
      WP anyRun (moveBanksBy ar env (copybackInBank ar env) logBlk freeBlk n bank lastUsedPage)
        (fun r s' => (∃ l, r = .inr l) ∧ s'.Clear ∧ ∀ q < ar.pageCntOfLogicBlk,
          bank ≤ q % ar.interleaveBankCnt → q % ar.interleaveBankCnt < bank + n →
            MoveInBankAt ar z map q)
        (fun e _ => e = bankLeft) s := by
  induction n with
  | zero =>
      exact fun bank _ s h _ => WP.pure ⟨⟨_, rfl⟩, h.clear, fun q _ hle hlt =>
        absurd hle (Nat.not_le_of_lt hlt)⟩
  | succ n ih =>
      intro bank lastUsedPage s h hbank
      have hcnt : 0 < ar.interleaveBankCnt := by omega
      have hmod : bank % ar.interleaveBankCnt = bank := Nat.mod_eq_of_lt (by omega)
      refine WP.bind ((moveBankPagesBy_tells henv hcnt _ bank bank s h hmod hmod
        fun hzero q hq _ => ?_).imp ?_)
      · rw [hzero] at hq
        exact absurd hq (Nat.not_lt_zero q)
      rintro _ s₁ ⟨⟨d, rfl⟩, h₁, hat⟩
      have hinfo : Completes (· = Sum.inr ()) (if bank = 0 ∧ d = 0 then
          moveManageInfoBy ar env (copybackInBank ar env) logBlk freeBlk
        else pure (Sum.inr ())) := by
        refine .ite (fun _ => .bind .get fun _ _ => ?_) fun _ => .pure rfl
        exact .bind (copyPage0_completes henv _ _ _ _) fun _ _ => .bind (synchPage_completes _ _)
          fun _ hret => .ite (fun hne => absurd hret hne) fun _ => .pure rfl
      refine WP.bind (hinfo.wp h₁.clear fun info s₂ hinfo h₂ => ?_)
      rw [hinfo]
      have hnext : Unmoved ar z map (bank + 1) (bank + 1) s₂ :=
        ⟨(h₁.quiet h₂).zone, h₂.clear, fun p hp => (h₁.quiet h₂).rest p (Or.inl (by omega))⟩
      refine (ih (bank + 1) _ s₂ hnext (by omega)).imp ?_
      rintro r s' ⟨hr, hclear, hrest⟩
      refine ⟨hr, hclear, fun q hq hle hlt => ?_⟩
      rcases Nat.eq_or_lt_of_le hle with heq | hless
      · refine hat q heq.symm ?_ (Nat.lt_of_lt_of_le hq (bankPages_cover hcnt bank))
        rw [heq]
        exact Nat.mod_le q _
      · exact hrest q hq hless (by omega)

theorem free2logMoveMergeBy_tells (henv : env.NoFailure) (hcnt : 0 < ar.interleaveBankCnt)
    (halign : ar.supportAlignNandBnk) (nlogical : Nat) {s : Ftl} (hs : s.Clear)
    (hfree : s.tbls.HasFree ar.freeBlkCntOfZone) :
    Tells (MoveInBank ar s.curMapZone s.pageMapTbl)
      (free2logMoveMergeBy ar env (copybackInBank ar env) nlogical) s := by
  refine WP.bind (WP.get (WP.bind ((bmmGetFreeBlk_takes hfree hs).imp ?_)))
  rintro freeBlk s₁ ⟨_, -, h₁⟩
  have hstart : Unmoved ar s.curMapZone s.pageMapTbl 0 0 s₁ :=
    ⟨h₁.zone, h₁.clear, fun p _ => congrFun (congrArg PageMapTblCache.pageMapTbl h₁.slot) p⟩
  refine WP.bind (WP.orElse (WP.mono
    (Q := fun _ s₂ => s₂.Clear ∧ MoveInBank ar s.curMapZone s.pageMapTbl)
    (F := fun e _ => e = bankLeft) ?_ ?_ fun e s₂ he =>
      WP.bind (WP.emit fun _ => ⟨trivial, WP.fail he⟩)))
  · rw [if_pos halign]
    refine iterate_once (ar.pageCntOfLogicBlk + ar.freeBlkCntOfZone + 1) ?_
    refine WP.bind ((moveBanksBy_tells henv _ 0 0 s₁ hstart (by omega)).imp ?_)
    rintro r s₂ ⟨⟨l, rfl⟩, hclear, hat⟩
    exact WP.pure ⟨_, rfl, hclear, fun q hq => hat q hq (Nat.zero_le _) (by
      have := Nat.mod_lt q hcnt
      omega)⟩
  · rintro ⟨newLog, lastUsedPage⟩ s₂ h₂
    exact WP.bind ((freeOldBlk_frees henv _ h₂.1).imp fun _ _ _ => WP.modify h₂.2)

end Leaves

/-! ## The merges -/

section Main

variable (ar : LogicArchi) (env : NandEnv)

/-- What `LML_MergeLogBlk` relies on, by the merge that it chooses. -/
def CopiesInBank (nMode : MergeMode) (nlogical : Nat) (s : Ftl) : Prop :=
  if logInOrder s.pageMapTbl ar.pageCntOfLogicBlk (s.tbls.getLogBlk nlogical).lastUsedPage then True
  else if nMode = .special ∧ validPages s.pageMapTbl ar.pageCntOfLogicBlk <
      ar.pageCntOfLogicBlk / (ar.interleaveBankCnt + 1) then
    ar.supportAlignNandBnk → MoveInBank ar s.curMapZone s.pageMapTbl
  else SimpleInBank ar s.curMapZone s.pageMapTbl

variable {ar env}

theorem lmlMergeLogBlkBy_stays {nMode : MergeMode} {nlogical : Nat} {s : Ftl}
    (h : CopiesInBank ar nMode nlogical s) :
    StaysInBank (lmlMergeLogBlkBy ar env (copybackInBank ar env) nMode nlogical) s := by
  refine staysInBank_of_wp (Q := fun _ _ => True) ?_
  rw [CopiesInBank] at h
  refine WP.bind (WP.get (WP.ite (fun _ => ?_) fun hin => WP.ite (fun hmove => ?_) fun hmove => ?_))
  · exact (log2dataSwapMergeBy_stays nlogical s).imp fun _ _ _ => trivial
  · rw [if_neg hin, if_pos hmove] at h
    exact free2logMoveMergeBy_stays nlogical h
  · rw [if_neg hin, if_neg hmove] at h
    exact free2dataSimpleMergeBy_stays nlogical h

/-- The merge that is chosen is the one of `CopiesInBank`. -/
theorem copiesInBank_of_stays (hcnt : 0 < ar.interleaveBankCnt) (henv : env.NoFailure)
    {nMode : MergeMode} {nlogical : Nat} {s : Ftl} (hs : s.Clear)
    (hfree : s.tbls.HasFree ar.freeBlkCntOfZone)
    (h : StaysInBank (lmlMergeLogBlkBy ar env (copybackInBank ar env) nMode nlogical) s) :
    CopiesInBank ar nMode nlogical s := by
  rw [CopiesInBank]
  split_ifs with hin hmove
  · intro halign
    refine Tells.of_staysInBank ?_ h
    refine WP.bind (WP.get ?_)
    rw [if_neg hin, if_pos hmove]
    exact free2logMoveMergeBy_tells henv hcnt halign nlogical hs hfree
  · refine Tells.of_staysInBank ?_ h
    refine WP.bind (WP.get ?_)
    rw [if_neg hin, if_neg hmove]
    exact free2dataSimpleMergeBy_tells henv nlogical hs hfree

variable (ar)

end Main

/-! ## Aligned log pages -/

section Align

variable {ar : LogicArchi}

/-- Every page of the log block is in the bank of its logical page. -/
def MapInBank (ar : LogicArchi) (map : Nat → Nat) : Prop :=
  ∀ p, map p ≠ 0xffff → map p % ar.interleaveBankCnt = p % ar.interleaveBankCnt

/-- Such a map is all that a merge needs. -/
theorem MapInBank.copiesInBank {nMode : MergeMode} {nlogical : Nat} {s : Ftl}
    (h : MapInBank ar s.pageMapTbl) : CopiesInBank ar nMode nlogical s := by
  rw [CopiesInBank]
  split_ifs
  · exact fun _ p _ hp _ => bankOf_congr (h p hp)
  · exact fun p _ _ hp => bankOf_congr (h p hp)

/-- With `SUPPORT_ALIGN_NAND_BNK` the page that is taken for a write is in the bank of the logical
page, so the map stays such a map. -/
theorem nextLogPage_mapInBank (halign : ar.supportAlignNandBnk) {nPage lastUsedPage : Nat}
    (hcnt : 0 < ar.interleaveBankCnt)
    (hlast : lastUsedPage = 0xffff ∨ lastUsedPage + 2 * ar.interleaveBankCnt < 2 ^ 16)
    {map : Nat → Nat} (h : MapInBank ar map) :
    MapInBank ar (Function.update map nPage (nextLogPage ar nPage lastUsedPage)) := by
  have hn := Nat.mod_lt nPage hcnt
  have hl := Nat.mod_lt lastUsedPage hcnt
  have hdiv := Nat.div_add_mod lastUsedPage ar.interleaveBankCnt
  have hmod : nextLogPage ar nPage lastUsedPage % ar.interleaveBankCnt =
      nPage % ar.interleaveBankCnt := by
    rw [nextLogPage, if_pos halign]
    split_ifs with hnone hlt
    · exact Nat.mod_mod _ _
    · have hpage : u16 (lastUsedPage + (nPage % ar.interleaveBankCnt -
          lastUsedPage % ar.interleaveBankCnt)) = nPage % ar.interleaveBankCnt +
          ar.interleaveBankCnt * (lastUsedPage / ar.interleaveBankCnt) := by
        rw [u16, Nat.mod_eq_of_lt (by omega)]
        omega
      rw [hpage, Nat.add_mul_mod_self_left, Nat.mod_mod]
    · have hpage : u16 (lastUsedPage + nPage % ar.interleaveBankCnt + (ar.interleaveBankCnt -
          lastUsedPage % ar.interleaveBankCnt)) = nPage % ar.interleaveBankCnt +
          ar.interleaveBankCnt * (lastUsedPage / ar.interleaveBankCnt + 1) := by
        rw [u16, Nat.mod_eq_of_lt (by omega), Nat.mul_add, Nat.mul_one]
        omega
      rw [hpage, Nat.add_mul_mod_self_left, Nat.mod_mod]
  intro p hp
  by_cases heq : p = nPage
  · subst heq
    rw [Function.update_self]
    exact hmod
  · rw [Function.update_of_ne heq] at hp ⊢
    exact h p hp

end Align

/-! ## A page in the other bank -/

/-- Two chips that are interleaved; log pages are not aligned. -/
def twoBanks : LogicArchi :=
  { fiveZones with
    pageCntOfLogicBlk := 128
    supportExtInterleave := true
    supportPageCopyback := true }

/-- Block 7 has a log block with one page, logical page `p` in page 0. -/
def onePageLogged (p : Nat) : Ftl :=
  (fourCached.setTbls (·.setLog 0 ⟨7, 0, ⟨60, 0⟩⟩)).setPageMapCache fun c =>
    { c with pageMapTbl := fun q => if q = p then 0 else 0xffff }

/-- The code of an error. -/
def errorCode {α : Type} : Outcome Ftl α → Option Int
  | .ret _ _ => none
  | .err e _ => some e

end Novo7
