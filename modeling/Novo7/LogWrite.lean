import Novo7.LogPlace

/-!
# Writing a page of the disk

The page that `PMM_GetLogPage` finds is blank and behind the used pages of the log block
(`LogOpen`), and in the bank of the logical page if it has to be. `takeLogPage_writes`: when it is
programmed (`PageTaken`), the caches are coherent again, it is the page that is read from now on, and
no other page of the disk has changed.
-/

namespace Novo7

open HeldSlots Traced

/-! ## The page of the log block -/

section NextPage

variable {ar : LogicArchi} {p : Nat} {l : LogBlk}

/-- A page behind the used ones; when all are used, it may be beyond the block. -/
theorem nextLogPage_behind (hcnt : 0 < ar.interleaveBankCnt)
    (hlast : l.lastUsedPage ≠ 0xffff → l.lastUsedPage + 2 * ar.interleaveBankCnt < 2 ^ 16) :
    l.usedPages ≤ nextLogPage ar p l.lastUsedPage := by
  unfold LogBlk.usedPages
  split
  · exact Nat.zero_le _
  · rename_i hne
    have hroom := hlast hne
    have hp := Nat.mod_lt p hcnt
    have hl := Nat.mod_lt l.lastUsedPage hcnt
    unfold nextLogPage
    simp only [if_neg hne]
    split_ifs
    · rw [u16, Nat.mod_eq_of_lt (by omega)]
      omega
    · rw [u16, Nat.mod_eq_of_lt (by omega)]
      omega
    · rw [u16, Nat.mod_eq_of_lt (by omega)]

theorem nextLogPage_bank (hal : ar.supportAlignNandBnk = true) (hcnt : 0 < ar.interleaveBankCnt)
    (hlast : l.lastUsedPage ≠ 0xffff → l.lastUsedPage + 2 * ar.interleaveBankCnt < 2 ^ 16)
    (hne : nextLogPage ar p l.lastUsedPage ≠ 0xffff) :
    nextLogPage ar p l.lastUsedPage % ar.interleaveBankCnt = p % ar.interleaveBankCnt := by
  have hmap := @nextLogPage_mapInBank ar hal p l.lastUsedPage hcnt (or_iff_not_imp_left.mpr hlast)
    (fun _ => 0xffff) fun _ habs => absurd rfl habs
  have hpage := hmap p
  rw [Function.update_self] at hpage
  exact hpage hne

/-- The lines of pages are counted without overflow. -/
theorem LogOK.line {c : Cells} {z : Nat} {t : BlkTbls} (har : ar.Fits) (h : LogOK ar c z t l)
    (hne : l.lastUsedPage ≠ 0xffff) : l.lastUsedPage + 2 * ar.interleaveBankCnt < 2 ^ 16 := by
  have hle : ar.interleaveBankCnt ≤ ar.pageCntOfLogicBlk := Nat.div_le_self _ _
  have hlast := h.last hne
  have hmaps := har.maps
  omega

end NextPage

section Open

variable {ar : LogicArchi} {L : ZoneLayout ar} {c c' : Cells} {z q p : Nat} {t : BlkTbls} {l : LogBlk}
  {pg : Page}

/-- A log block can take page `q`. -/
structure LogOpen (ar : LogicArchi) (c : Cells) (z b q : Nat) : Prop where
  rest : ∀ d < ar.pageCntOfLogicBlk, q ≤ d → c (lmlCalculatePhyOpPar ar z b d) = none
  info : 0 < q → (pageAt ar c z b 0).spare.logicInfo ≠ 0xffff
  aligned : ar.supportAlignNandBnk = true → ∀ d < ar.pageCntOfLogicBlk,
    numAt ar c z b d < ar.pageCntOfLogicBlk →
      d % ar.interleaveBankCnt = numAt ar c z b d % ar.interleaveBankCnt

theorem InfoPut.logOpen (har : ar.Fits) (hlog : LogOK ar c z t l)
    (hb : ar.IsSuperBlk z l.phyBlk.phyBlkNum) (hq : l.usedPages ≤ q)
    (h : InfoPut ar z l.phyBlk.phyBlkNum q l.lastUsedPage c c') :
    LogOpen ar c' z l.phyBlk.phyBlkNum q := by
  have hmaps := har.maps
  have hpos := har.pageCnt_pos
  unfold InfoPut at h
  split at h
  · rename_i hfirst
    obtain ⟨pg, hinfo, hnum, rfl⟩ := h
    have hblank {d : Nat} (hd : d < ar.pageCntOfLogicBlk) :=
      hlog.blank d hd (by rw [LogBlk.usedPages, if_pos hfirst.1]; exact Nat.zero_le d)
    refine ⟨fun d hd hle => ?_, fun _ => ?_, fun hal d hd hlt => ?_⟩
    · rw [cell_put_ne har hb hpos hd (by omega)]
      exact hblank hd
    · rw [pageAt_put har hb hpos hpos, if_pos rfl]
      exact hinfo
    · rw [numAt_put har hb hpos hd] at hlt
      by_cases hd0 : d = 0
      · rw [hd0, Function.update_self, hnum] at hlt
        omega
      · rw [Function.update_of_ne hd0] at hlt
        exact absurd hlt (numAt_blank har (hblank hd))
  · rename_i hnot
    rw [h]
    refine ⟨fun d hd hle => hlog.blank d hd (by omega), fun hq => hlog.info fun hnone => ?_, hlog.aligned⟩
    exact hnot ⟨hnone, by omega⟩

/-- No page that has a number is affected. -/
theorem InfoPut.pages (har : ar.Fits) (hlog : LogOK ar c z t l)
    (hb : ar.IsSuperBlk z l.phyBlk.phyBlkNum)
    (h : InfoPut ar z l.phyBlk.phyBlkNum q l.lastUsedPage c c') (hp : p < ar.pageCntOfLogicBlk) :
    logPageOf ar c' z l.phyBlk.phyBlkNum p = logPageOf ar c z l.phyBlk.phyBlkNum p ∧
    ∀ d < ar.pageCntOfLogicBlk, numAt ar c z l.phyBlk.phyBlkNum d = p →
      pageAt ar c' z l.phyBlk.phyBlkNum d = pageAt ar c z l.phyBlk.phyBlkNum d := by
  have hmaps := har.maps
  unfold InfoPut at h
  split at h
  · rename_i hfirst
    obtain ⟨pg, -, hnum, rfl⟩ := h
    have hblank {d : Nat} (hd : d < ar.pageCntOfLogicBlk) :=
      hlog.blank d hd (by rw [LogBlk.usedPages, if_pos hfirst.1]; exact Nat.zero_le d)
    exact ⟨logPageOf_put_ne har hb har.pageCnt_pos (hblank har.pageCnt_pos) hp (by omega),
      fun d hd hnum' => absurd (hnum' ▸ hp) (numAt_blank har (hblank hd))⟩
  · rw [h]
    exact ⟨rfl, fun _ _ _ => rfl⟩

theorem InfoPut.touched {b lastUsedPage : Nat} (h : InfoPut ar z b q lastUsedPage c c') :
    Touched ar z {b} c c' := by
  unfold InfoPut at h
  split at h
  · obtain ⟨pg, -, -, rfl⟩ := h
    exact Touched.update _ _ _
  · rw [h]
    exact .refl _

/-- A page is put behind the others. -/
theorem LogOpen.put (har : ar.Fits) (h : LogOpen ar c z l.phyBlk.phyBlkNum q)
    (hb : ar.IsSuperBlk z l.phyBlk.phyBlkNum) (hblk : l.logicBlkNum < ar.dataBlkCntOfZone)
    (hcount : l.phyBlk.blkEraseCnt ≤ 0xffff) (hq : q < ar.pageCntOfLogicBlk)
    (hnum : pg.spare.logicPageNum < ar.pageCntOfLogicBlk) (hinfo : pg.spare.logicInfo ≠ 0xffff)
    (hbank : ar.supportAlignNandBnk = true →
      q % ar.interleaveBankCnt = pg.spare.logicPageNum % ar.interleaveBankCnt)
    (hdata : (pageAt ar (Function.update c (lmlCalculatePhyOpPar ar z l.phyBlk.phyBlkNum q) (some pg)) z
      (t.dataBlkTbl l.logicBlkNum).phyBlkNum 0).spare.logicInfo ≠ 0xffff) :
    LogOK ar (Function.update c (lmlCalculatePhyOpPar ar z l.phyBlk.phyBlkNum q) (some pg)) z t
      { l with lastUsedPage := q } := by
  have hmaps := har.maps
  have hself : pageAt ar (Function.update c (lmlCalculatePhyOpPar ar z l.phyBlk.phyBlkNum q)
      (some pg)) z l.phyBlk.phyBlkNum q = pg := by
    rw [pageAt_put har hb hq hq, if_pos rfl]
  refine ⟨hblk, hcount, fun _ => hq, fun d hd hle => ?_, fun _ => ?_, hdata, fun hal d hd hlt => ?_,
    fun _ => ⟨q, hq, ?_⟩, fun _ hacc => ?_⟩
  · unfold LogBlk.usedPages at hle
    dsimp only at hle ⊢
    rw [if_neg (by omega)] at hle
    rw [cell_put_ne har hb hq hd (by omega)]
    exact h.rest d hd (by omega)
  · dsimp only
    rw [pageAt_put har hb hq har.pageCnt_pos]
    split
    · exact hinfo
    · exact h.info (by omega)
  · dsimp only at hlt ⊢
    rw [numAt_put har hb hq hd] at hlt ⊢
    by_cases hdq : d = q
    · rw [hdq, Function.update_self]
      exact hbank hal
    · rw [Function.update_of_ne hdq] at hlt ⊢
      exact h.aligned hal d hd hlt
  · dsimp only
    rw [numAt, hself]
    exact hnum
  -- a page of the disk is not taken for a page map
  · dsimp only at hacc
    rw [hself] at hacc
    have hnone := hacc.2.1
    omega

/-- In a log block page `q` is the newest place of page `p` and reads as `pg`; the places of the other
pages are what they were. -/
structure PlacePut (ar : LogicArchi) (c c' : Cells) (z b p q : Nat) (pg : Page) : Prop where
  place : logPageOf ar c' z b p = some q
  page : pageAt ar c' z b q = pg
  places : ∀ p' < ar.pageCntOfLogicBlk, p' ≠ p → logPageOf ar c' z b p' = logPageOf ar c z b p'
  pages : ∀ p' < ar.pageCntOfLogicBlk, ∀ d < ar.pageCntOfLogicBlk, numAt ar c z b d = p' →
    pageAt ar c' z b d = pageAt ar c z b d

theorem LogOpen.placePut (har : ar.Fits) (h : LogOpen ar c' z l.phyBlk.phyBlkNum q)
    (hlog : LogOK ar c z t l) (hput : InfoPut ar z l.phyBlk.phyBlkNum q l.lastUsedPage c c')
    (hb : ar.IsSuperBlk z l.phyBlk.phyBlkNum) (hq : q < ar.pageCntOfLogicBlk)
    (hp : p < ar.pageCntOfLogicBlk) (hnum : pg.spare.logicPageNum = p) :
    PlacePut ar c (Function.update c' (lmlCalculatePhyOpPar ar z l.phyBlk.phyBlkNum q) (some pg)) z
      l.phyBlk.phyBlkNum p q pg := by
  have hblank := h.rest q hq (Nat.le_refl q)
  refine ⟨logPageOf_put har hb hq h.rest hp hnum, ?_, fun p' hp' hne => ?_, fun p' hp' d hd hnum' => ?_⟩
  · rw [pageAt_put har hb hq hq, if_pos rfl]
  · rw [logPageOf_put_ne har hb hq hblank hp' (by omega), (hput.pages har hlog hb hp').1]
  · have hsame := (hput.pages har hlog hb hp').2 d hd hnum'
    rw [pageAt_put har hb hq hd, if_neg fun heq => ?_, hsame]
    -- the page that has been blank has no number
    refine numAt_blank har hblank ?_
    rw [← heq, numAt, hsame]
    exact lt_of_eq_of_lt hnum' hp'

/-- The page map of the log block goes along. -/
theorem PlacePut.isMapOf {b : Nat} {m : Nat → Nat} (h : PlacePut ar c c' z b p q pg)
    (hmap : IsMapOf ar c z b m) : IsMapOf ar c' z b (Function.update m p q) := by
  intro p' hp'
  by_cases hpp : p' = p
  · rw [hpp, Function.update_self, h.place]
    rfl
  · rw [Function.update_of_ne hpp, h.places p' hp' hpp]
    exact hmap p' hp'

end Open

/-! ## Writing a page -/

/-- Page `p` of block `k` of the active zone has been written; the others are what they were. -/
structure DiskWritten (ar : LogicArchi) (k p : Nat) (pg : Page) (s s' : Ftl) : Prop where
  zones : ∀ i, (s'.blkCache i).zoneNum = (s.blkCache i).zoneNum
  actBlk : s'.actBlk = s.actBlk
  info : DataInfo ar s'.nand.cell s.curMapZone s'.tbls k
  page : pageOf ar s'.nand.cell s.curMapZone s'.tbls k p = pg
  kept : ∀ z, ar.IsZone z → ∀ t, ZoneHas ar s z t → ∃ t', ZoneHas ar s' z t' ∧
    ∀ k' < ar.dataBlkCntOfZone, DataInfo ar s.nand.cell z t k' → DataInfo ar s'.nand.cell z t' k' ∧
      ∀ p' < ar.pageCntOfLogicBlk, ¬(z = s.curMapZone ∧ k' = k ∧ p' = p) →
        SameSectors ar (pageOf ar s'.nand.cell z t' k' p').main (pageOf ar s.nand.cell z t k' p').main

section Write

variable {ar : LogicArchi} {L : ZoneLayout ar} {s s₀ s' : Ftl} {k i q p : Nat} {pg : Page}

theorem LogPageGot.logOpen (har : ar.Fits) (hact : s.curMapZone ≠ 0xff)
    (h : LogPageGot L k p (q, i) s s₀) :
    LogOpen ar s₀.nand.cell s.curMapZone (s.tbls.logBlkTbl i).phyBlk.phyBlkNum q := by
  have hready := h.coherent.mergeReady hact h.map
  refine h.info.logOpen har hready.logOK (hready.isSuperBlk hready.log_mem) ?_
  exact le_of_le_of_eq (nextLogPage_behind har.pos (hready.logOK.line har)) h.page.symm

/-- The page that has been found is programmed, and tables and page map say so. -/
structure PageTaken (L : ZoneLayout ar) (i q p : Nat) (pg : Page) (s s' : Ftl) : Prop where
  flashed : Flashed (s.takeLogPage i q p) s'
  page_lt : q < ar.pageCntOfLogicBlk
  touched : Touched ar s.curMapZone {(s.tbls.logBlkTbl i).phyBlk.phyBlkNum} s.nand.cell s'.nand.cell
  put : PlacePut ar s.nand.cell s'.nand.cell s.curMapZone (s.tbls.logBlkTbl i).phyBlk.phyBlkNum p q pg
  ok : ZoneOK L s'.nand.cell s.curMapZone
    (s.tbls.setLog i { s.tbls.logBlkTbl i with lastUsedPage := q })

theorem LogPageGot.pageTaken (har : ar.Fits) (hact : s.curMapZone ≠ 0xff)
    (hgot : LogPageGot L k p (q, i) s s₀) (hq : q < ar.pageCntOfLogicBlk)
    (hp : p < ar.pageCntOfLogicBlk) (hnum : pg.spare.logicPageNum = p)
    (hinfo : pg.spare.logicInfo ≠ 0xffff) (hfl : Flashed (s.takeLogPage i q p) s')
    (hcell : s'.nand.cell = Function.update s₀.nand.cell (lmlCalculatePhyOpPar ar s.curMapZone
      (s.tbls.logBlkTbl i).phyBlk.phyBlkNum q) (some pg)) : PageTaken L i q p pg s s' := by
  have hready := hgot.coherent.mergeReady hact hgot.map
  have hok := hgot.coherent.activeTbls hact
  have hlog := hready.logOK
  have hmaps := har.maps
  have hput := hgot.info
  dsimp only at hready hlog hput
  have hsuper := hready.isSuperBlk hready.log_mem
  have hopen := hgot.logOpen har hact
  have htouched : Touched ar s.curMapZone {(s.tbls.logBlkTbl i).phyBlk.phyBlkNum} s.nand.cell
      s'.nand.cell := by
    rw [hcell]
    exact hput.touched.trans (Touched.update _ _ _)
  have hre := logStep (l := { s.tbls.logBlkTbl i with lastUsedPage := q }) hok hready.pst_lt
    hready.used rfl htouched
  have hdata := hre.sameBlock har hready.zone hready.data_mem
    (hok.data_ne_log hready.blk_lt hready.pst_lt hready.used)
  refine ⟨hfl, hq, htouched, ?_, ?_⟩
  · rw [hcell]
    exact hopen.placePut har hlog hput hsuper hq hp hnum
  · refine logStep_ok har hready.zone hok hready.pst_lt hready.used rfl rfl htouched ?_
    rw [hcell] at hdata ⊢
    refine hopen.put har hsuper hlog.num hlog.count hq (hnum ▸ hp) hinfo (fun hal => ?_) ?_
    · have hpage := hgot.page
      dsimp only at hpage
      rw [hnum, hpage]
      exact nextLogPage_bank hal har.pos (hlog.line har) (by omega)
    · show (pageAt ar _ _ (s.tbls.dataBlkTbl _).phyBlkNum 0).spare.logicInfo ≠ 0xffff
      rw [hdata.pageAt har.pageCnt_pos]
      exact hready.dataInfo

namespace PageTaken

theorem tbls (h : PageTaken L i q p pg s s') :
    s'.tbls = s.tbls.setLog i { s.tbls.logBlkTbl i with lastUsedPage := q } := by
  have hall := h.flashed
  rw [Ftl.takeLogPage, Ftl.setTbls_eq s] at hall
  exact hall.tbls.trans (Ftl.withTbls_tbls ..)

theorem logBlk (h : PageTaken L i q p pg s s') :
    s'.tbls.logBlkTbl i = { s.tbls.logBlkTbl i with lastUsedPage := q } := by
  rw [h.tbls]
  exact Function.update_self ..

theorem pageMapCache (h : PageTaken L i q p pg s s') : s'.pageMapCache = { s.pageMapCache with
    pageMapTbl := Function.update s.pageMapCache.pageMapTbl p q, dirtyFlag := true } := by
  have hall := h.flashed
  rw [Ftl.takeLogPage, Ftl.setTbls_eq s] at hall
  exact hall.pageMapCache.trans (Ftl.setPageMapCache_pageMapCache ..)

theorem localStep (h : PageTaken L i q p pg s s') : Local s s' := by
  have hall := h.flashed
  rw [Ftl.takeLogPage, Ftl.setTbls_eq s] at hall
  exact ⟨_, _, _, hall⟩

theorem step (h : PageTaken L i q p pg s s') (hready : MergeReady L k i s)
    (hd : s.blkMapCache.dirtyFlag = true) : ZoneStep L s s' := by
  refine ⟨h.localStep.within, hd, ?_, h.touched.mono ?_⟩
  · rw [h.tbls]
    exact h.ok
  · rintro b rfl
    exact hready.log_mem

theorem coherent (har : ar.Fits) (h : PageTaken L i q p pg s s') (hc : Coherent L s)
    (hact : s.curMapZone ≠ 0xff) (hmap : s.HasMapOf i) (hd : s.blkMapCache.dirtyFlag = true) :
    Coherent L s' := by
  have hready := hc.mergeReady hact hmap
  have hmaps := har.maps
  have hlt := h.page_lt
  have hslot := h.pageMapCache
  refine (h.step hready hd).coherent har hc hact (fun _ => ⟨?_, ⟨?_, ?_, fun _ => ?_, ?_⟩,
    fun j hj hzone => ?_⟩) fun j hj hzone => ?_
  · rw [hslot]
    exact hmap.1
  · rw [hslot]
    exact (hc.mapOK hact hmap.1).pst_lt
  · rw [hslot]
    show (s'.tbls.logBlkTbl s.pageMapCache.logBlkPst).logicBlkNum ≠ 0xffff
    rw [hmap.2, h.logBlk]
    exact hready.logUsed
  · rw [hslot]
    show (s'.tbls.logBlkTbl s.pageMapCache.logBlkPst).lastUsedPage ≠ 0xffff
    rw [hmap.2, h.logBlk]
    dsimp only
    omega
  · rw [hslot]
    show IsMapOf ar s'.nand.cell s.curMapZone
      (s'.tbls.logBlkTbl s.pageMapCache.logBlkPst).phyBlk.phyBlkNum
      (Function.update s.pageMapCache.pageMapTbl p q)
    rw [hmap.2, h.logBlk]
    exact h.put.isMapOf hready.map
  · rw [hslot]
    show (s.pageCache j).logBlkPst ≠ s.pageMapCache.logBlkPst
    rw [hmap.2]
    exact hc.otherMap_ne hact hmap hj hzone
  · rw [h.tbls]
    exact hc.otherMap_logStep har hact hmap (by rfl) h.touched hj hzone

theorem written (har : ar.Fits) (h : PageTaken L i q p pg s s') (hc : Coherent L s)
    (hact : s.curMapZone ≠ 0xff) (hmap : s.HasMapOf i) (hd : s.blkMapCache.dirtyFlag = true) :
    DiskWritten ar (s.tbls.logBlkTbl i).logicBlkNum p pg s s' := by
  have hready := hc.mergeReady hact hmap
  have hok := hready.ok
  have hstep := h.step hready hd
  have hre := logStep (l := { s.tbls.logBlkTbl i with lastUsedPage := q }) hok hready.pst_lt
    hready.logUsed rfl h.touched
  have hinfo {k' : Nat} (hk' : k' < ar.dataBlkCntOfZone) :
      DataInfo ar s'.nand.cell s.curMapZone s'.tbls k' ↔
        DataInfo ar s.nand.cell s.curMapZone s.tbls k' := by
    rw [h.tbls]
    exact logStep_info har hready.zone hok hready.pst_lt hready.logUsed rfl h.touched hk'
  refine ⟨hstep.zones, h.localStep.actBlk, (hinfo hready.blk_lt).mpr hready.dataInfo, ?_,
    fun z hz t ht => ?_⟩
  · rw [h.tbls, pageOf_setLog h.ok hready.pst_lt hready.logUsed (by rfl) (by rfl), h.put.place]
    exact h.put.page
  by_cases hzone : z = s.curMapZone
  · rw [hzone] at ht ⊢
    rw [ZoneStep.zoneHas_active hc hact ht]
    refine ⟨s'.tbls, hstep.zoneHas_new, fun k' hk' hinfo' => ⟨(hinfo hk').mpr hinfo',
      fun p' hp' hne' => ?_⟩⟩
    rw [h.tbls]
    by_cases hkk : k' = (s.tbls.logBlkTbl i).logicBlkNum
    · have hpp : p' ≠ p := fun heq => hne' ⟨rfl, hkk, heq⟩
      rw [hkk, pageOf_setLog_same h.ok hready.pst_lt hready.logUsed (by rfl) (by rfl) har hready.zone
        hok h.touched hp' (h.put.places p' hp' hpp) (h.put.pages p' hp')]
      exact .refl _
    · rw [hre.pageOf_ne har hready.zone hok hready.pst_lt hk' hkk hp']
      exact .refl _
  · refine ⟨t, hstep.zoneHas_ne har hc hact hz hzone ht, fun k' hk' hinfo' => ?_⟩
    obtain ⟨hinfo₂, hkept⟩ := PagesKept.of_same har (hc.zoneOK har hz ht)
      (hstep.sameZone har hready.zone hz hzone) k' hk' hinfo'
    exact ⟨hinfo₂, fun p' hp' _ => hkept p' hp'⟩

end PageTaken

/-- The page that has been found is programmed. -/
theorem takeLogPage_writes (har : ar.Fits) (hact : s.curMapZone ≠ 0xff)
    (hgot : LogPageGot L k p (q, i) s s₀) (hq : q < ar.pageCntOfLogicBlk)
    (hp : p < ar.pageCntOfLogicBlk) (hnum : pg.spare.logicPageNum = p)
    (hinfo : pg.spare.logicInfo ≠ 0xffff)
    {o : LogicCtlPar × GlobalLogicPage × Buf × (Int → Nat) × (Nat → Nat) × Nat}
    (hfl : Flashed ((s.takeLogPage i q p).withOutside o) s')
    (hcell : s'.nand.cell = Function.update s₀.nand.cell (lmlCalculatePhyOpPar ar s.curMapZone
      (s.tbls.logBlkTbl i).phyBlk.phyBlkNum q) (some pg)) :
    Coherent L s' ∧ DiskWritten ar k p pg s s' := by
  obtain rfl := hgot.num
  have hc := hgot.coherent
  have hmap : s.HasMapOf i := hgot.map
  have htaken : PageTaken L i q p pg s (s'.withOutside s.outside) :=
    hgot.pageTaken har hact hq hp hnum hinfo (hfl.withOutside s.outside) hcell
  have hw := htaken.written har hc hact hmap hgot.marked
  -- the same with what is outside
  exact ⟨(htaken.coherent har hc hact hmap hgot.marked).withOutside s'.outside,
    hw.zones, hw.actBlk, hw.info, hw.page, hw.kept⟩

end Write

end Novo7
