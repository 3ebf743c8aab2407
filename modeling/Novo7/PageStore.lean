import Novo7.LogWrite
import Novo7.MapLoad

/-!
# The disk by pages

`LML_PageRead` and `LML_PageWrite` over coherent caches. `DiskOK` relates the state of the layer to an
abstract disk `D`, a map from page numbers to contents: what has been written to a page is what is
read for it (`DiskHolds`), and the blocks that `LogicalCtl` remembers are those of the tables (`CtlOK`).
`lmlPageRead_reads` and `lmlPageWrite_writes`: where no operation on the flash fails, reads and writes
succeed, and they are those of the abstract disk.
-/

namespace Novo7

open HeldSlots Traced

/-! ## The logical pages -/

section Pages

variable {ar : LogicArchi} {n m : Nat}

/-- A logical page that there is. -/
def LogicArchi.InDisk (ar : LogicArchi) (n : Nat) : Prop :=
  n < ar.dieCntOfNand * ar.zoneCntOfDie * ar.dataBlkCntOfZone * ar.pageCntOfLogicBlk

theorem LogicArchi.InDisk.dataBlks_pos (hn : ar.InDisk n) : 0 < ar.dataBlkCntOfZone := by
  rcases Nat.eq_zero_or_pos ar.dataBlkCntOfZone with hzero | hpos
  · rw [LogicArchi.InDisk, hzero, Nat.mul_zero, Nat.zero_mul] at hn
    exact absurd hn (Nat.not_lt_zero n)
  · exact hpos

/-- No part of the place of a page is cut off. -/
theorem calculateLogicPagePar_eq (har : ar.Fits) (hn : ar.InDisk n) :
    calculateLogicPagePar ar n = ⟨n / ar.pageCntOfLogicBlk / ar.dataBlkCntOfZone,
      n / ar.pageCntOfLogicBlk % ar.dataBlkCntOfZone, n % ar.pageCntOfLogicBlk⟩ ∧
    ar.IsZone (n / ar.pageCntOfLogicBlk / ar.dataBlkCntOfZone) := by
  have hmaps := har.maps
  have hblks := har.dataBlks
  have hzones := har.zones
  have hpages := Nat.mod_lt n har.pageCnt_pos
  have hblk := Nat.mod_lt (n / ar.pageCntOfLogicBlk) hn.dataBlks_pos
  have hzone : n / ar.pageCntOfLogicBlk / ar.dataBlkCntOfZone < ar.dieCntOfNand * ar.zoneCntOfDie := by
    refine Nat.div_lt_of_lt_mul (Nat.div_lt_of_lt_mul ?_)
    rw [Nat.mul_comm, Nat.mul_comm ar.dataBlkCntOfZone]
    exact hn
  have hu16 {x : Nat} (hx : x < 2 ^ 16) : u16 x = x := Nat.mod_eq_of_lt hx
  refine ⟨?_, hzone⟩
  rw [calculateLogicPagePar, u8, Nat.mod_eq_of_lt (by omega), hu16 (by omega), hu16 (by omega)]

theorem logicPage_zone (har : ar.Fits) (hn : ar.InDisk n) :
    ar.IsZone (calculateLogicPagePar ar n).zoneNum := by
  rw [(calculateLogicPagePar_eq har hn).1]
  exact (calculateLogicPagePar_eq har hn).2

theorem logicPage_block (har : ar.Fits) (hn : ar.InDisk n) :
    (calculateLogicPagePar ar n).blockNum < ar.dataBlkCntOfZone := by
  rw [(calculateLogicPagePar_eq har hn).1]
  exact Nat.mod_lt _ hn.dataBlks_pos

theorem logicPage_page (har : ar.Fits) (hn : ar.InDisk n) :
    (calculateLogicPagePar ar n).pageNum < ar.pageCntOfLogicBlk := by
  rw [(calculateLogicPagePar_eq har hn).1]
  exact Nat.mod_lt _ har.pageCnt_pos

/-- Pages of the disk are in different places. -/
theorem logicPage_inj (har : ar.Fits) (hn : ar.InDisk n) (hm : ar.InDisk m)
    (hzone : (calculateLogicPagePar ar n).zoneNum = (calculateLogicPagePar ar m).zoneNum)
    (hblk : (calculateLogicPagePar ar n).blockNum = (calculateLogicPagePar ar m).blockNum)
    (hpage : (calculateLogicPagePar ar n).pageNum = (calculateLogicPagePar ar m).pageNum) : n = m := by
  rw [(calculateLogicPagePar_eq har hn).1, (calculateLogicPagePar_eq har hm).1] at hzone hblk hpage
  dsimp only at hzone hblk hpage
  have hquot : n / ar.pageCntOfLogicBlk = m / ar.pageCntOfLogicBlk := by
    rw [← Nat.div_add_mod (n / ar.pageCntOfLogicBlk) ar.dataBlkCntOfZone,
      ← Nat.div_add_mod (m / ar.pageCntOfLogicBlk) ar.dataBlkCntOfZone, hzone, hblk]
  rw [← Nat.div_add_mod n ar.pageCntOfLogicBlk, ← Nat.div_add_mod m ar.pageCntOfLogicBlk, hquot, hpage]

end Pages

/-! ## The abstract disk -/

section Disk

variable {ar : LogicArchi} {L : ZoneLayout ar} {D : Nat → Option Buf} {s s' s'' : Ftl}

/-- The pages that have been written are the pages that are read. -/
def DiskHolds (ar : LogicArchi) (D : Nat → Option Buf) (s : Ftl) : Prop :=
  ∀ n buf, D n = some buf → ar.InDisk n → ∃ t,
    ZoneHas ar s (calculateLogicPagePar ar n).zoneNum t ∧
    DataInfo ar s.nand.cell (calculateLogicPagePar ar n).zoneNum t
      (calculateLogicPagePar ar n).blockNum ∧
    SameSectors ar (pageOf ar s.nand.cell (calculateLogicPagePar ar n).zoneNum t
      (calculateLogicPagePar ar n).blockNum (calculateLogicPagePar ar n).pageNum).main buf

/-- What the sectors have to do with: the page cache, the memory of the caller, the capacity. -/
def Ftl.buffers (s : Ftl) : GlobalLogicPage × Buf × (Int → Nat) × Nat :=
  (s.cachePage, s.writePageCache, s.host, s.logicalCtl.diskCap)

theorem PageBuf.load_congr (b : PageBuf) (h : s'.buffers = s.buffers) : b.load s' = b.load s := by
  obtain ⟨-, hwrite, hhost, -⟩ := by simpa [Ftl.buffers] using h
  cases b with
  | host off =>
      funext i
      rw [PageBuf.load, PageBuf.load, hhost]
  | writePageCache => exact hwrite

/-- A step that leaves the pages of the disk as they are. -/
structure Onward (L : ZoneLayout ar) (s s' : Ftl) : Prop where
  coherent : Coherent L s'
  ages : AgesOK s'
  kept : DiskKept ar s s'
  buffers : s'.buffers = s.buffers

theorem Onward.trans (h : Onward L s s') (h' : Onward L s' s'') : Onward L s s'' where
  coherent := h'.coherent
  ages := h'.ages
  kept := h.kept.trans h'.kept
  buffers := h'.buffers.trans h.buffers

theorem Onward.refl (hc : Coherent L s) (hages : AgesOK s) : Onward L s s :=
  ⟨hc, hages, .refl ar s, rfl⟩

theorem Onward.thenCtl (h : Onward L s s') {f : LogicCtlPar → LogicCtlPar}
    (hf : (f s'.logicalCtl).diskCap = s'.logicalCtl.diskCap) : Onward L s (s'.setLogicalCtl f) where
  coherent := h.coherent.withOutside (f s'.logicalCtl, s'.cachePage, s'.writePageCache, s'.host,
    s'.logAccessAge, s'.logAccessTimer)
  ages := ⟨h.ages.timer, h.ages.young, h.ages.other⟩
  kept := h.kept
  buffers := by
    rw [← h.buffers]
    show (_, _, _, (f s'.logicalCtl).diskCap) = _
    rw [hf]
    rfl

theorem Ftl.buffers_of_outside (h : s'.outside = s.outside) : s'.buffers = s.buffers := by
  obtain ⟨hctl, hpage, hbuf, hhost, -⟩ := by simpa [Ftl.outside] using h
  rw [Ftl.buffers, hctl, hpage, hbuf, hhost]
  rfl

theorem DiskStays.onward (h : DiskStays ar s s') (hc : Coherent L s') (hages : AgesOK s) :
    Onward L s s' :=
  ⟨hc, hages.of_outside h.outside, h.kept, Ftl.buffers_of_outside h.outside⟩

theorem Flashed.onward (har : ar.Fits) (h : Flashed s s') (hcell : s'.nand.cell = s.nand.cell)
    (hc : Coherent L s) (hages : AgesOK s) : Onward L s s' := by
  have hsame : SameTables L s s' := .of_flashed h hcell
  exact (hsame.stays har hc h.actBlk (by rw [h.eq]; rfl)).onward (hsame.coherent har hc) hages

theorem DiskHolds.onward (har : ar.Fits) (h : DiskHolds ar D s) (hs : Onward L s s') : DiskHolds ar D s' := by
  intro n buf hD hn
  obtain ⟨t, ht, hinfo, hpage⟩ := h n buf hD hn
  obtain ⟨t', ht', hkept⟩ := hs.kept _ (logicPage_zone har hn) t ht
  obtain ⟨hinfo', hpages⟩ := hkept _ (logicPage_block har hn) hinfo
  exact ⟨t', ht', hinfo', (hpages _ (logicPage_page har hn)).trans hpage⟩

/-- A page of the active zone. -/
theorem DiskHolds.active (har : ar.Fits) (h : DiskHolds ar D s) (hc : Coherent L s) {n : Nat}
    (hcur : s.curMapZone = (calculateLogicPagePar ar n).zoneNum) (hn : ar.InDisk n) {buf : Buf}
    (hD : D n = some buf) : SameSectors ar (pageOf ar s.nand.cell s.curMapZone s.tbls
      (calculateLogicPagePar ar n).blockNum (calculateLogicPagePar ar n).pageNum).main buf := by
  obtain ⟨t, ht, -, hpage⟩ := h n buf hD hn
  rw [← hcur] at ht hpage
  rwa [ZoneStep.zoneHas_active hc (hcur ▸ (logicPage_zone har hn).ne_none har) ht] at hpage

/-- What `LogicalCtl` remembers is still so. -/
structure CtlOK (ar : LogicArchi) (s : Ftl) : Prop where
  zone : s.logicalCtl.zoneNum ≠ 0xff → s.curMapZone = s.logicalCtl.zoneNum
  blks : s.logicalCtl.logicBlkNum ≠ 0xffff →
    s.logicalCtl.dataBlkNum = bmmGetDataBlk ar s.tbls s.logicalCtl.logicBlkNum ∧
    s.logicalCtl.logBlkNum = (s.tbls.getLogBlk s.logicalCtl.logicBlkNum).phyBlk

/-- The blocks of a page are the ones that are remembered. -/
structure CtlAt (ar : LogicArchi) (x : LogicPage) (s : Ftl) : Prop where
  cur : s.curMapZone = x.zoneNum
  zone : s.logicalCtl.zoneNum = x.zoneNum
  blk : s.logicalCtl.logicBlkNum = x.blockNum
  data : s.logicalCtl.dataBlkNum = bmmGetDataBlk ar s.tbls x.blockNum
  log : s.logicalCtl.logBlkNum = (s.tbls.getLogBlk x.blockNum).phyBlk

theorem CtlAt.ctlOK {x : LogicPage} (h : CtlAt ar x s) : CtlOK ar s where
  zone _ := h.cur.trans h.zone.symm
  blks _ := by
    rw [h.blk]
    exact ⟨h.data, h.log⟩

theorem CtlAt.flashed {x : LogicPage} (h : CtlAt ar x s) (hs : Flashed s s') : CtlAt ar x s' := by
  obtain ⟨hcur, hzone, hblk, hdata, hlog⟩ := h
  refine ⟨hs.curMapZone.trans hcur, ?_, ?_, ?_, ?_⟩ <;> rw [hs.logicalCtl]
  · exact hzone
  · exact hblk
  · rw [hs.tbls]
    exact hdata
  · rw [hs.tbls]
    exact hlog

/-- The layer is fine, and the disk is `D`. -/
structure DiskOK (L : ZoneLayout ar) (D : Nat → Option Buf) (s : Ftl) : Prop where
  coherent : Coherent L s
  ages : AgesOK s
  ctl : CtlOK ar s
  holds : DiskHolds ar D s

theorem DiskOK.onward (har : ar.Fits) (h : DiskOK L D s) (hs : Onward L s s')
    (hctl : CtlOK ar s') : DiskOK L D s' where
  coherent := hs.coherent
  ages := hs.ages
  ctl := hctl
  holds := h.holds.onward har hs

end Disk

/-! ## Closing a page, entering a zone -/

section Enter

variable {ar : LogicArchi} {env : NandEnv} {L : ZoneLayout ar} {F : Int → Ftl → Prop} {z : Nat}
  {s : Ftl}

theorem useTbls_any {Q : Unit → Ftl → Prop} (h : Q () s) : WP anyRun (useTbls z) Q F s :=
  WP.bind (WP.get (WP.emit fun _ => ⟨trivial, h⟩))

/-- Only the mode is changed. -/
theorem closeWritePage_closes (hs : s.Clear) : WP anyRun (closeWritePage ar env)
    (fun _ s' => s' = s.setLogicalCtl ({ · with opMode := .none })) F s := by
  refine WP.bind (WP.get (WP.bind (WP.when (fun _ => WP.bind (WP.bind (WP.get (WP.pure ?_))))
    fun _ => WP.modify rfl)))
  rw [hs]
  exact WP.when (fun hneg => absurd hneg (by decide)) fun _ => WP.modify rfl

/-- The zone is the active one, and the blocks that are remembered are forgotten if it is another one. -/
theorem enterZone_enters (har : ar.Fits) (hcopy : ar.CopiesExactly) (henv : env.NoFailure)
    (hc : Coherent L s) (hages : AgesOK s) (hctl : CtlOK ar s) (hz : ar.IsZone z) :
    WP anyRun (enterZone ar env z) (fun _ s' => Onward L s s' ∧ CtlOK ar s' ∧ s'.curMapZone = z ∧
      s'.logicalCtl.zoneNum = z ∧ s'.logicalCtl.opMode = s.logicalCtl.opMode) F s := by
  have hrefl : Onward L s s := .refl hc hages
  refine WP.bind (WP.get (WP.when (fun _ => ?_) fun hsame => ?_))
  · refine WP.bind (WP.orElse ((bmmSwitchMapTbl_switches har hcopy henv hc hz).imp ?_))
    rintro _ s₁ ⟨hc₁, hkept, hcur, hout⟩
    have hmode : s₁.logicalCtl = s.logicalCtl := congrArg Prod.fst hout
    have hstep : Onward L s s₁ := ⟨hc₁, hages.of_outside hout, hkept, Ftl.buffers_of_outside hout⟩
    refine WP.modify ⟨hstep.thenCtl rfl, ⟨fun _ => hcur, fun h => absurd rfl h⟩,
      hcur, rfl, ?_⟩
    show s₁.logicalCtl.opMode = _
    rw [hmode]
  · have hzone : z = s.logicalCtl.zoneNum := not_not.mp hsame
    exact ⟨hrefl, hctl, (hctl.zone (hzone ▸ hz.ne_none har)).trans hzone.symm, hzone.symm, rfl⟩

end Enter

/-! ## Reading a page -/

section Read

variable {ar : LogicArchi} {env : NandEnv} {L : ZoneLayout ar} {F : Int → Ftl → Prop}
  {D : Nat → Option Buf} {k p i n : Nat} {s : Ftl}

theorem ZoneOK.getLogBlk_eq {c : Cells} {z : Nat} {t : BlkTbls} (h : ZoneOK L c z t)
    (hi : i < logBlkCntOfZone) (hused : (t.logBlkTbl i).logicBlkNum ≠ 0xffff) :
    t.getLogBlk (t.logBlkTbl i).logicBlkNum = t.logBlkTbl i := by
  rw [BlkTbls.getLogBlk, h.logBlkPst_eq hi hused]

/-- The page of the log block comes from its page map, in RAM or not. -/
theorem pmmGetLogPageRead_gets (har : ar.Fits) (hcopy : ar.CopiesExactly) (henv : env.NoFailure)
    (hc : Coherent L s) (hact : s.curMapZone ≠ 0xff) (hages : AgesOK s)
    (hi : i < logBlkCntOfZone) (hused : (s.tbls.logBlkTbl i).logicBlkNum ≠ 0xffff)
    (hp : p < ar.pageCntOfLogicBlk) :
    WP anyRun (pmmGetLogPageRead ar env (s.tbls.logBlkTbl i).logicBlkNum p) (fun q s' =>
      Onward L s s' ∧ s'.curMapZone = s.curMapZone ∧ LogSame s.tbls s'.tbls i ∧
      s'.logicalCtl = s.logicalCtl ∧ q = mapEntry (logPageOf ar s'.nand.cell s.curMapZone
        (s.tbls.logBlkTbl i).phyBlk.phyBlkNum p)) F s := by
  refine WP.bind (WP.get ?_)
  rw [(hc.activeTbls hact).logBlkPst_eq hi hused]
  refine WP.orElse (WP.bind ((pmmSwitchMapTbl_switches har hcopy henv hc hact hi hused).imp
    fun _ s₁ h₁ => WP.bind ?_))
  have hages₁ := hages.of_outside h₁.stays.outside
  refine (calLogAccessCnt_ages hages₁ hi).imp ?_
  rintro _ _ ⟨hages₂, timer, age, rfl⟩
  have hready := h₁.coherent.mergeReady (h₁.stays.curMapZone ▸ hact) h₁.map
  have hstep := h₁.stays.onward h₁.coherent hages
  refine WP.bind (WP.get (WP.pure ⟨⟨h₁.coherent.withOutside (s₁.logicalCtl, s₁.cachePage,
    s₁.writePageCache, s₁.host, age, timer), hages₂, hstep.kept, hstep.buffers⟩,
    h₁.stays.curMapZone, h₁.log, congrArg Prod.fst h₁.stays.outside, ?_⟩))
  have hmap := hready.map p hp
  rw [h₁.log.log, h₁.stays.curMapZone] at hmap
  exact hmap

/-- What is remembered for a page, and where it is. -/
structure PageFound (L : ZoneLayout ar) (x : LogicPage) (q : Nat) (s s' : Ftl) : Prop where
  onward : Onward L s s'
  ctl : CtlAt ar x s'
  page : (if q ≠ 0xffff then pageAt ar s'.nand.cell x.zoneNum s'.logicalCtl.logBlkNum.phyBlkNum q
    else pageAt ar s'.nand.cell x.zoneNum s'.logicalCtl.dataBlkNum.phyBlkNum x.pageNum) =
      pageOf ar s'.nand.cell x.zoneNum s'.tbls x.blockNum x.pageNum

theorem logPage_finds (har : ar.Fits) (hcopy : ar.CopiesExactly) (henv : env.NoFailure)
    (hc : Coherent L s) (hages : AgesOK s) {x : LogicPage} (hctl : CtlAt ar x s)
    (hz : ar.IsZone x.zoneNum) (hk : x.blockNum < ar.dataBlkCntOfZone)
    (hp : x.pageNum < ar.pageCntOfLogicBlk) :
    WP anyRun (if s.logicalCtl.logBlkNum.phyBlkNum ≠ 0xffff then do
        useTbls x.zoneNum
        pmmGetLogPageRead ar env x.blockNum x.pageNum
      else
        pure 0xffff)
      (fun q s' => PageFound L x q s s' ∧ s'.logicalCtl = s.logicalCtl) F s := by
  have hact : s.curMapZone ≠ 0xff := hctl.cur ▸ hz.ne_none har
  have hok := hc.activeTbls hact
  have hblks := har.dataBlks
  have hmaps := har.maps
  have hdata {t : BlkTbls} : bmmGetDataBlk ar t x.blockNum = t.dataBlkTbl x.blockNum :=
    if_neg (by omega)
  cases hpst : s.tbls.logBlkPst x.blockNum with
  | none =>
      have hnone : s.logicalCtl.logBlkNum.phyBlkNum = 0xffff := by
        rw [hctl.log, BlkTbls.getLogBlk, hpst]
        rfl
      refine WP.ite (fun hne => absurd hnone hne) fun _ => WP.pure
        ⟨⟨.refl hc hages, hctl, ?_⟩, rfl⟩
      rw [if_neg (not_not.mpr rfl), hctl.data, hdata, pageOf, hpst]
  | some i =>
      obtain ⟨hi, hnum⟩ := BlkTbls.logBlkPst_spec hpst
      have hused : (s.tbls.logBlkTbl i).logicBlkNum ≠ 0xffff := by omega
      have hlog : s.logicalCtl.logBlkNum = (s.tbls.logBlkTbl i).phyBlk := by
        rw [hctl.log, BlkTbls.getLogBlk, hpst]
      refine WP.ite (fun _ => WP.bind (useTbls_any ?_)) fun hnone => ?_
      · have hget := pmmGetLogPageRead_gets (F := F) har hcopy henv hc hact hages hi hused hp
        rw [hnum] at hget
        refine hget.imp ?_
        rintro q s₁ ⟨h₁, hcur, hsame, hsame', hq⟩
        have hok₁ := h₁.coherent.activeTbls (hcur ▸ hact)
        have hused₁ : (s₁.tbls.logBlkTbl i).logicBlkNum ≠ 0xffff := hsame.log ▸ hused
        have hnum₁ : (s₁.tbls.logBlkTbl i).logicBlkNum = x.blockNum := hsame.log ▸ hnum
        have hdata₁ := hsame.data hused
        rw [hnum] at hdata₁
        have hget₁ := hok₁.getLogBlk_eq hi hused₁
        have hpage := hok₁.pageOf_log hi hused₁ x.pageNum
        rw [hnum₁] at hget₁ hpage
        have hcur₁ := hcur.trans hctl.cur
        refine ⟨⟨h₁, ⟨hcur₁, hsame' ▸ hctl.zone, hsame' ▸ hctl.blk, ?_, ?_⟩, ?_⟩, hsame'⟩
        · rw [hsame', hctl.data, hdata, hdata, hdata₁]
        · rw [hsame', hget₁, hsame.log, hlog]
        · rw [hcur₁, hsame.log] at hpage
          rw [hctl.cur] at hq
          rw [hpage, hq, hsame', hlog, hctl.data, hdata, ← hdata₁]
          cases hlatest : logPageOf ar s₁.nand.cell x.zoneNum (s.tbls.logBlkTbl i).phyBlk.phyBlkNum
              x.pageNum with
          | none => exact if_neg (not_not.mpr rfl)
          | some d =>
              have hd := (latest_eq_some.mp hlatest).1
              exact if_pos (show d ≠ 0xffff by omega)
      · rw [hlog] at hnone
        exact absurd (L.listed_ne_none har (hok.log_mem hi hused)) hnone

/-- `LML_PageRead` reads what has been written. -/
theorem lmlPageRead_reads (har : ar.Fits) (hcopy : ar.CopiesExactly) (henv : env.NoFailure)
    (h : DiskOK L D s) (hn : ar.InDisk n)
    (nBitmap : Nat) (pBuf : PageBuf) :
    WP anyRun (lmlPageRead ar env n nBitmap pBuf) (fun ret s' => ret = 0 ∧ ∃ s₁ main,
      DiskOK L D s₁ ∧ s₁.buffers = s.buffers ∧ (∀ buf, D n = some buf → SameSectors ar main buf) ∧
      s' = pBuf.store nBitmap main s₁) F s := by
  have hzone := logicPage_zone har hn
  have hk := logicPage_block har hn
  have hp := logicPage_page har hn
  have hblks := har.dataBlks
  have hopen : WP anyRun (when (s.logicalCtl.opMode ≠ .read) do
        when ((← get).logicalCtl.opMode = .write) (failWith (closeWritePage ar env) (-errLogicctl))
        modify (·.setLogicalCtl ({ · with opMode := .read })))
      (fun _ s' => Onward L s s' ∧ CtlOK ar s') F s := by
    have hstart : Onward L s s := .refl h.coherent h.ages
    refine WP.when (fun _ => WP.bind (WP.get (WP.bind (WP.when (fun _ => ?_) fun _ =>
      WP.modify ⟨hstart.thenCtl rfl, ⟨h.ctl.zone, h.ctl.blks⟩⟩)))) fun _ => ⟨hstart, h.ctl⟩
    refine WP.orElse ((closeWritePage_closes h.coherent.clear).imp ?_)
    rintro _ _ rfl
    exact WP.modify ⟨(hstart.thenCtl rfl).thenCtl rfl, ⟨h.ctl.zone, h.ctl.blks⟩⟩
  refine WP.bind (WP.get (WP.bind (hopen.imp ?_)))
  rintro _ s₁ ⟨h₁, hctl₁⟩
  refine WP.bind ((enterZone_enters har hcopy henv h₁.coherent h₁.ages hctl₁ hzone).imp ?_)
  rintro _ s₂ ⟨h₂, hctl₂, hcur₂, hctlz₂, -⟩
  have henter : WP anyRun (enterReadBlk ar (calculateLogicPagePar ar n)) (fun _ s' => Onward L s s' ∧
      CtlAt ar (calculateLogicPagePar ar n) s') F s₂ := by
    refine WP.bind (WP.get (WP.when (fun _ => WP.bind (useTbls_any (WP.modify
      ⟨(h₁.trans h₂).thenCtl rfl, ⟨hcur₂, hctlz₂, rfl, rfl, rfl⟩⟩))) fun hsame => ?_))
    have hblk := not_not.mp hsame
    obtain ⟨hdata, hlog⟩ := hctl₂.blks (by omega)
    exact ⟨h₁.trans h₂, ⟨hcur₂, hctlz₂, hblk.symm, hblk ▸ hdata, hblk ▸ hlog⟩⟩
  refine WP.bind (henter.imp ?_)
  rintro _ s₃ ⟨h₃, hat₃⟩
  refine WP.bind (WP.modify (WP.bind (WP.get (WP.bind ?_))))
  generalize hs₄ : s₃.setLogicalCtl _ = s₄
  have h₄ : Onward L s s₄ := hs₄ ▸ h₃.thenCtl rfl
  have hat₄ : CtlAt ar (calculateLogicPagePar ar n) s₄ := by
    rw [← hs₄]
    exact ⟨hat₃.cur, hat₃.zone, hat₃.blk, hat₃.data, hat₃.log⟩
  have hpage₄ : s₄.logicalCtl.logicPageNum = (calculateLogicPagePar ar n).pageNum := by
    rw [← hs₄]
    rfl
  refine (logPage_finds har hcopy henv h₄.coherent h₄.ages hat₄ hzone hk hp).imp ?_
  rintro q s₅ ⟨h₅, hsame₅⟩
  refine WP.bind (WP.modify (WP.bind (WP.get (WP.bind ?_))))
  generalize hs₆ : s₅.setLogicalCtl _ = s₆
  have h₆ : Onward L s s₆ := hs₆ ▸ (h₄.trans h₅.onward).thenCtl rfl
  have hat₆ : CtlAt ar (calculateLogicPagePar ar n) s₆ := by
    rw [← hs₆]
    exact ⟨h₅.ctl.cur, h₅.ctl.zone, h₅.ctl.blk, h₅.ctl.data, h₅.ctl.log⟩
  have hread : WP anyRun (if q ≠ 0xffff then
        lmlVirtualPageRead ar env s₆.logicalCtl.zoneNum s₆.logicalCtl.logBlkNum.phyBlkNum q
      else
        lmlVirtualPageRead ar env s₆.logicalCtl.zoneNum s₆.logicalCtl.dataBlkNum.phyBlkNum
          s₆.logicalCtl.logicPageNum)
      (fun r s' => r = (0, pageOf ar s₆.nand.cell s₆.curMapZone s₆.tbls
        (calculateLogicPagePar ar n).blockNum (calculateLogicPagePar ar n).pageNum) ∧
        Flashed s₆ s' ∧ s'.nand.cell = s₆.nand.cell) F s₆ := by
    have hpage := h₅.page
    have hnum : s₆.logicalCtl.logicPageNum = (calculateLogicPagePar ar n).pageNum := by
      rw [← hpage₄, ← hsame₅, ← hs₆]
      rfl
    have hcell : s₆.nand.cell = s₅.nand.cell := by rw [← hs₆]; rfl
    have htbls : s₆.tbls = s₅.tbls := by rw [← hs₆]; rfl
    have hlog : s₆.logicalCtl.logBlkNum = s₅.logicalCtl.logBlkNum := by rw [← hs₆]; rfl
    have hdata : s₆.logicalCtl.dataBlkNum = s₅.logicalCtl.dataBlkNum := by rw [← hs₆]; rfl
    rw [hat₆.cur, hat₆.zone, hnum, hcell, htbls, hlog, hdata, ← hpage]
    refine WP.ite (fun hq => ?_) fun hq => ?_
    · refine (phyPageRead_gives henv h₆.coherent.clear _).imp ?_
      rintro r s' ⟨rfl, hfl, hcell', -⟩
      rw [if_pos hq, ← hcell]
      exact ⟨rfl, hfl, hcell'⟩
    · refine (phyPageRead_gives henv h₆.coherent.clear _).imp ?_
      rintro r s' ⟨rfl, hfl, hcell', -⟩
      rw [if_neg hq, ← hcell]
      exact ⟨rfl, hfl, hcell'⟩
  refine hread.imp ?_
  rintro _ s₇ ⟨rfl, hfl, hcell⟩
  have h₇ := h₆.trans (hfl.onward har hcell h₆.coherent h₆.ages)
  exact WP.bind (WP.modify (WP.bind (WP.failIf (fun hneg => absurd hneg (by decide)) fun _ =>
    WP.pure ⟨rfl, s₇, _, h.onward har h₇ (hat₆.flashed hfl).ctlOK, h₇.buffers, fun buf hD =>
      (h.holds.onward har h₆).active har h₆.coherent hat₆.cur hn hD, rfl⟩)))

end Read

/-! ## Writing a page -/

section Write

variable {ar : LogicArchi} {env : NandEnv} {L : ZoneLayout ar} {F : Int → Ftl → Prop}
  {D : Nat → Option Buf} {i q n : Nat} {x : LogicPage} {s : Ftl}

/-- The log block that a page is written to is remembered, and the page of it that is taken. -/
structure WriteEntered (L : ZoneLayout ar) (x : LogicPage) (i q : Nat) (s s₁ s' : Ftl) : Prop where
  onward : Onward L s s₁
  zone : s₁.curMapZone = x.zoneNum
  got : LogPageGot L x.blockNum x.pageNum (q, i) s₁ s'
  page_lt : q < ar.pageCntOfLogicBlk
  ages : AgesOK s'
  flashed : ∃ o, Flashed ((s₁.takeLogPage i q x.pageNum).withOutside o) s'
  ctl : CtlAt ar x s'
  log : s'.logicalCtl.logBlkNum = (s₁.tbls.logBlkTbl i).phyBlk
  logPage : s'.logicalCtl.logPageNum = q
  buffers : s'.buffers = s.buffers

theorem BlkTbls.getLogBlk_setLog {t : BlkTbls} {l : LogBlk}
    (hnum : l.logicBlkNum = (t.logBlkTbl i).logicBlkNum) {k : Nat} (hpst : t.logBlkPst k = some i) :
    (t.setLog i l).getLogBlk k = l := by
  have hsame : (t.setLog i l).logBlkPst k = t.logBlkPst k := by
    unfold BlkTbls.logBlkPst
    refine congrArg (fun f => List.find? f (List.range logBlkCntOfZone)) (funext fun j => ?_)
    by_cases hj : j = i
    · simp [hj, BlkTbls.setLog, hnum]
    · simp [hj, BlkTbls.setLog]
  rw [BlkTbls.getLogBlk, hsame, hpst]
  exact Function.update_self ..

theorem enterWritePage_enters (har : ar.Fits) (hcopy : ar.CopiesExactly) (henv : env.NoFailure)
    (hc : Coherent L s) (hages : AgesOK s) (hcur : s.curMapZone = x.zoneNum)
    (hctlz : s.logicalCtl.zoneNum = x.zoneNum) (hctlb : s.logicalCtl.logicBlkNum = x.blockNum)
    (hz : ar.IsZone x.zoneNum) (hd : s.blkMapCache.dirtyFlag = true)
    (hk : x.blockNum < ar.dataBlkCntOfZone) :
    WP anyRun (enterWritePage ar env x) (fun _ s' => ∃ i q s₁, WriteEntered L x i q s s₁ s') F s := by
  have hstart : Onward L s s := .refl hc hages
  have hact : s.curMapZone ≠ 0xff := hcur ▸ hz.ne_none har
  refine WP.bind (WP.modify (WP.bind (useTbls_any (WP.bind (WP.orElse ?_)))))
  generalize hs₀ : s.setLogicalCtl _ = s₀
  have h₀ : Onward L s s₀ := hs₀ ▸ hstart.thenCtl rfl
  have hcur₀ : s₀.curMapZone = s.curMapZone := by rw [← hs₀]; rfl
  have hd₀ : s₀.blkMapCache.dirtyFlag = true := by
    rw [← hs₀]
    exact hd
  have hctl₀ : s₀.logicalCtl.zoneNum = x.zoneNum ∧ s₀.logicalCtl.logicBlkNum = x.blockNum := by
    rw [← hs₀]
    exact ⟨hctlz, hctlb⟩
  refine (pmmGetLogPageWrite_places har hcopy henv h₀.coherent (hcur₀ ▸ hact) hd₀ h₀.ages hk
    x.pageNum).imp ?_
  rintro q s₂ ⟨i, s₁, timer, age, hstays, hgot, hq, hages₂, hfl⟩
  have hcur₁ : s₁.curMapZone = s.curMapZone := hstays.curMapZone.trans hcur₀
  have hready := hgot.coherent.mergeReady (hcur₁ ▸ hact) hgot.map
  have honward := h₀.trans (hstays.onward hgot.coherent h₀.ages)
  have hctl₁ : s₁.logicalCtl = s₀.logicalCtl := congrArg Prod.fst hstays.outside
  have hctl₂ : s₂.logicalCtl = s₀.logicalCtl := hfl.logicalCtl.trans hctl₁
  have hbuf₂ : s₂.buffers = s.buffers := by
    rw [← honward.buffers, hfl.eq]
    rfl
  have htbls₂ : s₂.tbls = s₁.tbls.setLog i { s₁.tbls.logBlkTbl i with lastUsedPage := q } :=
    hfl.tbls.trans (Ftl.withTbls_tbls ..)
  have hcur₂ : s₂.curMapZone = x.zoneNum := by
    rw [hfl.curMapZone, ← hcur, ← hcur₁]
    exact Ftl.withTbls_curMapZone ..
  have hpst : s₁.tbls.logBlkPst x.blockNum = some i := hgot.num ▸ hready.logBlkPst_eq
  have hlog₂ : (s₂.tbls.getLogBlk x.blockNum).phyBlk = (s₁.tbls.logBlkTbl i).phyBlk := by
    rw [htbls₂, BlkTbls.getLogBlk_setLog (l := { s₁.tbls.logBlkTbl i with lastUsedPage := q }) rfl hpst]
  refine WP.bind (useTbls_any (WP.bind (WP.modify (WP.bind (WP.get (WP.failIf (fun hnone => ?_)
    fun _ => ⟨i, q, s₁, honward, hcur₁.trans hcur, ⟨hgot.coherent, hgot.marked, hgot.map, hgot.num,
      hgot.page, hgot.info⟩, hq, ⟨hages₂.timer, hages₂.young, hages₂.other⟩, hfl.setLogicalCtl _, ?_,
      hlog₂, rfl, hbuf₂⟩))))))
  · refine absurd ?_ (L.listed_ne_none har hready.log_mem)
    rw [← show (s₂.tbls.getLogBlk x.blockNum).phyBlk = (s₁.tbls.logBlkTbl (q, i).2).phyBlk from hlog₂]
    exact hnone
  · exact ⟨hcur₂, (congrArg LogicCtlPar.zoneNum hctl₂).trans hctl₀.1,
      (congrArg LogicCtlPar.logicBlkNum hctl₂).trans hctl₀.2, rfl, rfl⟩

theorem writePageStatus_gives (henv : env.NoFailure) (hs : s.Clear) :
    WP anyRun (writePageStatus ar env) (fun _ s' => Flashed s s' ∧ s'.nand.cell = s.nand.cell) F s := by
  refine WP.bind (WP.get (WP.ite (fun _ => WP.bind ((readTemp_gives henv hs _ _ _ _).imp ?_)) fun _ =>
    WP.pure ⟨.refl hs, rfl⟩))
  rintro _ s₁ ⟨rfl, h₁, hcell, -⟩
  exact WP.bind (WP.failIf (fun hneg => absurd hneg (by decide)) fun _ => WP.pure ⟨h₁, hcell⟩)

theorem tryWritePage_puts (henv : env.NoFailure) (hs : s.Clear) (pg : Page)
    (hblank : s.nand.cell (lmlCalculatePhyOpPar ar s.logicalCtl.zoneNum
      s.logicalCtl.logBlkNum.phyBlkNum s.logicalCtl.logPageNum) = none) :
    WP anyRun (tryWritePage ar env pg ()) (fun r s' => ∃ a, r = .inr a ∧ Flashed s s' ∧
      s'.nand.cell = Function.update s.nand.cell (lmlCalculatePhyOpPar ar s.logicalCtl.zoneNum
        s.logicalCtl.logBlkNum.phyBlkNum s.logicalCtl.logPageNum) (some pg)) F s := by
  refine WP.bind (WP.get ?_)
  have hstatus (bank : Nat) : WP anyRun (if s.logicalCtl.opMode = .write then phySynchBank bank
      else pure 0) (fun ret s' => ret = 0 ∧ s' = s) F s := by
    refine WP.ite (fun _ => WP.bind (WP.get (WP.pure ⟨?_, rfl⟩))) fun _ => WP.pure ⟨rfl, rfl⟩
    rw [hs]
    rfl
  refine WP.bind ((hstatus _).imp ?_)
  rintro _ _ ⟨rfl, rfl⟩
  refine WP.ite (fun hneg => absurd hneg (by decide)) fun _ => WP.bind ?_
  refine (phyPageWrite_puts henv hs pg hblank).imp ?_
  rintro _ s₁ ⟨rfl, h₁, hcell⟩
  exact WP.bind (WP.failIf (fun hneg => absurd hneg (by decide)) fun _ =>
    WP.pure ⟨(), rfl, h₁, hcell⟩)

theorem DiskHolds.written (har : ar.Fits) {s' : Ftl} {pg : Page} {buf : Buf} (h : DiskHolds ar D s)
    (hn : ar.InDisk n) (hcur : s.curMapZone = (calculateLogicPagePar ar n).zoneNum)
    (hw : DiskWritten ar (calculateLogicPagePar ar n).blockNum (calculateLogicPagePar ar n).pageNum pg
      s s') (hbuf : SameSectors ar pg.main buf) :
    DiskHolds ar (Function.update D n (some buf)) s' := by
  intro m buf' hD hm
  by_cases hmn : m = n
  · subst hmn
    rw [Function.update_self] at hD
    obtain rfl := Option.some.inj hD
    rw [← hcur]
    refine ⟨s'.tbls, .inl ⟨s'.actBlk, ?_, rfl⟩, hw.info, by rw [hw.page]; exact hbuf⟩
    rw [hw.actBlk, hw.zones]
    rfl
  · rw [Function.update_of_ne hmn] at hD
    obtain ⟨t, ht, hinfo, hpage⟩ := h m buf' hD hm
    obtain ⟨t', ht', hkept⟩ := hw.kept _ (logicPage_zone har hm) t ht
    obtain ⟨hinfo', hpages⟩ := hkept _ (logicPage_block har hm) hinfo
    refine ⟨t', ht', hinfo', (hpages _ (logicPage_page har hm) fun hsame => hmn ?_).trans hpage⟩
    exact logicPage_inj har hm hn (hsame.1.trans hcur) hsame.2.1 hsame.2.2

/-- `LML_PageWrite` writes the page, and no other one. -/
theorem lmlPageWrite_writes (har : ar.Fits) (hcopy : ar.CopiesExactly) (henv : env.NoFailure)
    (h : DiskOK L D s) (hn : ar.InDisk n)
    (pBuf : PageBuf) :
    WP anyRun (lmlPageWrite ar env n ar.fullBitmapOfLogicPage pBuf) (fun _ s' =>
      DiskOK L (Function.update D n (some (pBuf.load s))) s' ∧ s'.buffers = s.buffers) F s := by
  have hzone := logicPage_zone har hn
  have hk := logicPage_block har hn
  have hp := logicPage_page har hn
  have hstart : Onward L s s := .refl h.coherent h.ages
  refine WP.bind (WP.failIf (fun hne => absurd rfl hne) fun _ => WP.bind (WP.get (WP.bind ?_)))
  have hleave : WP anyRun (when ((calculateLogicPagePar ar n).zoneNum ≠ s.logicalCtl.zoneNum)
        (failWith (closeWritePage ar env) (-errLogicctl)))
      (fun _ s' => Onward L s s' ∧ CtlOK ar s') F s := by
    refine WP.when (fun _ => WP.orElse ((closeWritePage_closes h.coherent.clear).imp ?_)) fun _ =>
      ⟨hstart, h.ctl⟩
    rintro _ _ rfl
    exact ⟨hstart.thenCtl rfl, ⟨h.ctl.zone, h.ctl.blks⟩⟩
  refine hleave.imp ?_
  rintro _ s₁ ⟨h₁, hctl₁⟩
  refine WP.bind ((enterZone_enters har hcopy henv h₁.coherent h₁.ages hctl₁ hzone).imp ?_)
  rintro _ s₂ ⟨h₂, -, hcur₂, hctlz₂, -⟩
  have hc₂ := h₂.coherent
  have hz₂ : ar.IsZone s₂.curMapZone := hcur₂ ▸ hzone
  refine WP.bind ((bmmSetDirtyFlag_marks har henv hc₂.clear hz₂ hc₂.tblBlk (hc₂.place _ hz₂)).imp ?_)
  rintro _ s₃ ⟨hsame₃, hw₃, -, hmarked₃⟩
  have h₃ : Onward L s s₃ := (h₁.trans h₂).trans ((hsame₃.stays har hc₂ hw₃.actBlk hw₃.outside).onward
    (hsame₃.coherent har hc₂) h₂.ages)
  have hcur₃ := hw₃.zone.trans hcur₂
  have hctl₃ : s₃.logicalCtl = s₂.logicalCtl := congrArg Prod.fst hw₃.outside
  have hblock : WP anyRun (when ((calculateLogicPagePar ar n).blockNum ≠ s₃.logicalCtl.logicBlkNum) do
        failWith (closeWritePage ar env) (-errLogicctl)
        modify (·.setLogicalCtl ({ · with logicBlkNum := (calculateLogicPagePar ar n).blockNum })))
      (fun _ s' => Onward L s s' ∧ s'.curMapZone = (calculateLogicPagePar ar n).zoneNum ∧
        s'.logicalCtl.zoneNum = (calculateLogicPagePar ar n).zoneNum ∧
        s'.logicalCtl.logicBlkNum = (calculateLogicPagePar ar n).blockNum ∧
        s'.blkMapCache.dirtyFlag = true) F s₃ := by
    refine WP.when (fun _ => WP.bind (WP.orElse ((closeWritePage_closes h₃.coherent.clear).imp ?_)))
      fun hsame => ⟨h₃, hcur₃, hctl₃ ▸ hctlz₂, (not_not.mp hsame).symm, hmarked₃⟩
    rintro _ _ rfl
    refine WP.modify ⟨(h₃.thenCtl rfl).thenCtl rfl, hcur₃, ?_, rfl, hmarked₃⟩
    show s₃.logicalCtl.zoneNum = _
    rw [hctl₃]
    exact hctlz₂
  refine WP.bind (WP.get (WP.bind (hblock.imp ?_)))
  rintro _ s₄ ⟨h₄, hcur₄, hctlz₄, hctlb₄, hmarked₄⟩
  refine WP.bind ((enterWritePage_enters har hcopy henv h₄.coherent h₄.ages hcur₄ hctlz₄ hctlb₄ hzone
    hmarked₄ hk).imp ?_)
  rintro _ s₆ ⟨i, q, s₅, h₆⟩
  have h₅ := h₄.trans h₆.onward
  have hact₅ : s₅.curMapZone ≠ 0xff := h₆.zone ▸ hzone.ne_none har
  obtain ⟨o, hfl₆⟩ := h₆.flashed
  refine WP.bind ((writePageStatus_gives henv hfl₆.clear).imp ?_)
  rintro status s₇ ⟨hfl₇, hcell₇⟩
  have hout₇ : s₇.outside = s₆.outside := by
    rw [hfl₇.eq]
    rfl
  have hbuf₇ : s₇.buffers = s.buffers := by
    rw [← h₄.buffers, ← h₆.buffers, hfl₇.eq]
    rfl
  have haddr : lmlCalculatePhyOpPar ar s₇.logicalCtl.zoneNum s₇.logicalCtl.logBlkNum.phyBlkNum
      s₇.logicalCtl.logPageNum = lmlCalculatePhyOpPar ar s₅.curMapZone
        (s₅.tbls.logBlkTbl i).phyBlk.phyBlkNum q := by
    rw [hfl₇.logicalCtl, h₆.ctl.zone, h₆.zone, h₆.log, h₆.logPage]
  have hblank := (h₆.got.logOpen har hact₅).rest q h₆.page_lt (Nat.le_refl q)
  refine WP.bind (WP.get (WP.bind ((iterate_once (ar.freeBlkCntOfZone + 1) (tryWritePage_puts henv
    hfl₇.clear _ (by rw [haddr, hcell₇]; exact hblank))).imp ?_)))
  rintro _ s₈ ⟨hfl₈, hcell₈⟩
  refine WP.modify ?_
  rw [haddr, hcell₇] at hcell₈
  obtain ⟨o', hfl₉⟩ := ((hfl₆.trans hfl₇).trans hfl₈).setLogicalCtl ({ · with opMode := .write })
  obtain ⟨hc₉, hw₉⟩ := takeLogPage_writes har hact₅ h₆.got h₆.page_lt hp rfl
    (logicInfo_ne har _ hk) hfl₉ hcell₈
  have hat₈ := (h₆.ctl.flashed hfl₇).flashed hfl₈
  have hages₈ : AgesOK s₈ := (h₆.ages.of_outside hout₇).of_outside (by rw [hfl₈.eq]; rfl)
  have hbuf₈ : s₈.buffers = s.buffers := by
    rw [← hbuf₇, hfl₈.eq]
    rfl
  refine ⟨⟨hc₉, ⟨hages₈.timer, hages₈.young, hages₈.other⟩,
    CtlAt.ctlOK ⟨hat₈.cur, hat₈.zone, hat₈.blk, hat₈.data, hat₈.log⟩, ?_⟩, hbuf₈⟩
  refine (h.holds.onward har h₅).written har hn h₆.zone hw₉ ?_
  rw [pBuf.load_congr hbuf₇]
  exact .refl _

end Write

end Novo7
