import Novo7.MoveContents
import Novo7.ZoneStore

/-!
# The caches agree with the flash

Four zones have their tables in RAM and four log blocks their page map. `Coherent` says that they
are what the flash has: the tables of each zone are right (`ZoneOK`), whether they are in a slot or in
the table block, and those of a slot that is not dirty are in both; each zone and each log block is in
one slot at most, and the page map in a slot is what the spare areas of its log block say (`MapOK`). So
it makes no difference whether a page map is taken from RAM, from the page in which it has been stored
or from the spare areas.

Every operation on the page maps keeps that, and it keeps the pages (`DiskStays`): the merge of a log
block, the write-back of a page map, its way back into RAM, and the switch from one to the next.
-/

namespace Novo7

open HeldSlots Traced

/-! ## Blocks that are as before -/

section Same

variable {ar : LogicArchi} {L : ZoneLayout ar} {z : Nat} {c c' : Cells} {t : BlkTbls}

/-- The blocks of a zone are as before. -/
def SameBlks (L : ZoneLayout ar) (z : Nat) (c c' : Cells) : Prop :=
  ∀ b ∈ L.blks z, SameBlock ar z b c c'

theorem ZoneOK.congr (har : ar.Fits) (h : ZoneOK L c z t) (hsame : SameBlks L z c c') :
    ZoneOK L c' z t where
  blocks := h.blocks
  counts := h.counts
  dataCounts := h.dataCounts
  free b hb q hq := (hsame b (h.free_mem hb) q hq).trans (h.free b hb q hq)
  data k hk := by
    have hdata := hsame _ (h.data_mem hk)
    rw [hdata 0 har.pageCnt_pos, hdata.pageAt har.pageCnt_pos]
    exact h.data k hk
  logs i hi hused := by
    have hlog := h.logs i hi hused
    refine hlog.congr har.pageCnt_pos (hsame _ (h.log_mem hi hused)) ?_
    rw [(hsame _ (h.data_mem hlog.num)).pageAt har.pageCnt_pos]
    exact hlog.dataInfo
  single := h.single

/-- The position of the log block of a logical block. -/
theorem BlkTbls.logBlkPst_spec {k i : Nat} (h : t.logBlkPst k = some i) :
    i < logBlkCntOfZone ∧ (t.logBlkTbl i).logicBlkNum = k :=
  ⟨List.mem_range.mp (List.mem_of_find?_eq_some h), of_decide_eq_true (List.find?_some h :)⟩

theorem pageOf_congr (har : ar.Fits) (h : ZoneOK L c z t) (hsame : SameBlks L z c c') {k p : Nat}
    (hk : k < ar.dataBlkCntOfZone) (hp : p < ar.pageCntOfLogicBlk) :
    pageOf ar c' z t k p = pageOf ar c z t k p := by
  have hdata := hsame _ (h.data_mem hk)
  unfold pageOf
  cases hpst : t.logBlkPst k with
  | none => exact hdata.pageAt hp
  | some i =>
      obtain ⟨hi, hnum⟩ := BlkTbls.logBlkPst_spec hpst
      have hblks := har.dataBlks
      have hlog := hsame _ (h.log_mem hi (by omega))
      dsimp only
      rw [hlog.logPageOf]
      cases hq : logPageOf ar c z (t.logBlkTbl i).phyBlk.phyBlkNum p with
      | none => exact hdata.pageAt hp
      | some q => exact hlog.pageAt (latest_eq_some.mp hq).1

theorem PagesKept.of_same (har : ar.Fits) (h : ZoneOK L c z t) (hsame : SameBlks L z c c') :
    PagesKept ar z c t c' t := by
  refine fun k hk hinfo => ⟨?_, fun p hp => ?_⟩
  · rw [DataInfo, (hsame _ (h.data_mem hk)).pageAt har.pageCnt_pos]
    exact hinfo
  · rw [pageOf_congr har h hsame hk hp]
    exact .refl _

end Same

/-! ## The caches -/

theorem LogicArchi.IsZone.ne_none {ar : LogicArchi} {z : Nat} (har : ar.Fits) (hz : ar.IsZone z) :
    z ≠ 0xff := by
  have hzones := har.zones
  unfold LogicArchi.IsZone at hz
  omega

/-- The page map in a slot is that of a log block of the tables. -/
structure MapOK (ar : LogicArchi) (c : Cells) (z : Nat) (t : BlkTbls) (g : PageMapTblCache) :
    Prop where
  pst_lt : g.logBlkPst < logBlkCntOfZone
  used : (t.logBlkTbl g.logBlkPst).logicBlkNum ≠ 0xffff
  dirty : g.dirtyFlag = true → (t.logBlkTbl g.logBlkPst).lastUsedPage ≠ 0xffff
  map : IsMapOf ar c z (t.logBlkTbl g.logBlkPst).phyBlk.phyBlkNum g.pageMapTbl

/-- A zone that is in no slot: its tables are in its table block. -/
structure AwayOK {ar : LogicArchi} (L : ZoneLayout ar) (s : Ftl) (z : Nat) (t : BlkTbls) : Prop where
  stored : InStore ar s z t
  ok : ZoneOK L s.nand.cell z t
  map : ∀ j, (s.pageCache j).zoneNum = z → MapOK ar s.nand.cell z t (s.pageCache j)

/-- What is in the slots is what the flash has. -/
structure Coherent {ar : LogicArchi} (L : ZoneLayout ar) (s : Ftl) : Prop where
  clear : s.Clear
  tblBlk : ∀ z, ar.IsZone z → (s.zoneTblPst z).phyBlkNum = L.tblBlk z
  place : ∀ z, ar.IsZone z → TblPlace ar s.nand.cell z (s.zoneTblPst z)
  unused : ∀ i, (s.blkCache i).zoneNum = 0xff → (s.blkCache i).dirtyFlag = false
  zone : ∀ i, (s.blkCache i).zoneNum ≠ 0xff → ar.IsZone (s.blkCache i).zoneNum
  tbls : ∀ i, (s.blkCache i).zoneNum ≠ 0xff →
    ZoneOK L s.nand.cell (s.blkCache i).zoneNum (s.blkCache i).tbls
  clean : ∀ i, (s.blkCache i).zoneNum ≠ 0xff → (s.blkCache i).dirtyFlag = false →
    InStore ar s (s.blkCache i).zoneNum (s.blkCache i).tbls
  zone_inj : ∀ i j, (s.blkCache i).zoneNum = (s.blkCache j).zoneNum →
    (s.blkCache i).zoneNum ≠ 0xff → i = j
  away : ∀ z, ar.IsZone z → (∀ i, (s.blkCache i).zoneNum ≠ z) → ∃ t, AwayOK L s z t
  mapZone : ∀ j, (s.pageCache j).zoneNum ≠ 0xff → ar.IsZone (s.pageCache j).zoneNum
  map : ∀ i j, (s.blkCache i).zoneNum = (s.pageCache j).zoneNum → (s.pageCache j).zoneNum ≠ 0xff →
    MapOK ar s.nand.cell (s.blkCache i).zoneNum (s.blkCache i).tbls (s.pageCache j)
  mapDirty : ∀ j, (s.pageCache j).zoneNum ≠ 0xff → (s.pageCache j).dirtyFlag = true →
    ∃ i, (s.blkCache i).zoneNum = (s.pageCache j).zoneNum ∧ (s.blkCache i).dirtyFlag = true
  map_inj : ∀ i j, (s.pageCache i).zoneNum = (s.pageCache j).zoneNum →
    (s.pageCache i).logBlkPst = (s.pageCache j).logBlkPst → (s.pageCache i).zoneNum ≠ 0xff → i = j

/-- What the operations on the tables have nothing to do with. -/
def Ftl.outside (s : Ftl) :
    LogicCtlPar × GlobalLogicPage × Buf × (Int → Nat) × (Nat → Nat) × Nat :=
  (s.logicalCtl, s.cachePage, s.writePageCache, s.host, s.logAccessAge, s.logAccessTimer)

/-- The same caches and flash, with something else outside. -/
def Ftl.withOutside (s : Ftl)
    (o : LogicCtlPar × GlobalLogicPage × Buf × (Int → Nat) × (Nat → Nat) × Nat) : Ftl :=
  { s with
    logicalCtl := o.1
    cachePage := o.2.1
    writePageCache := o.2.2.1
    host := o.2.2.2.1
    logAccessAge := o.2.2.2.2.1
    logAccessTimer := o.2.2.2.2.2 }

theorem Flashed.withOutside {s s' : Ftl} (h : Flashed s s')
    (o : LogicCtlPar × GlobalLogicPage × Buf × (Int → Nat) × (Nat → Nat) × Nat) :
    Flashed (s.withOutside o) (s'.withOutside o) := by
  obtain ⟨n, b, d, hs'⟩ := h.elim
  exact ⟨by rw [hs']; rfl, h.clear⟩

theorem Flashed.setLogicalCtl {s s' : Ftl} (h : Flashed s s') (f : LogicCtlPar → LogicCtlPar) :
    ∃ o, Flashed (s.withOutside o) (s'.setLogicalCtl f) :=
  ⟨(s'.setLogicalCtl f).outside, h.withOutside (s'.setLogicalCtl f).outside⟩

/-- The same zones are in the slots, and the pages of all zones are what they were. -/
structure DiskStays (ar : LogicArchi) (s s' : Ftl) : Prop where
  zones : ∀ i, (s'.blkCache i).zoneNum = (s.blkCache i).zoneNum
  dirty : ∀ i, (s.blkCache i).dirtyFlag = true → (s'.blkCache i).dirtyFlag = true
  kept : DiskKept ar s s'
  actBlk : s'.actBlk = s.actBlk
  outside : s'.outside = s.outside

namespace DiskStays

variable {ar : LogicArchi} {s s' s'' : Ftl}

theorem refl (ar : LogicArchi) (s : Ftl) : DiskStays ar s s :=
  ⟨fun _ => rfl, fun _ => id, .refl ar s, rfl, rfl⟩

theorem trans (h : DiskStays ar s s') (h' : DiskStays ar s' s'') : DiskStays ar s s'' where
  zones i := (h'.zones i).trans (h.zones i)
  dirty i := h'.dirty i ∘ h.dirty i
  kept := h.kept.trans h'.kept
  actBlk := h'.actBlk.trans h.actBlk
  outside := h'.outside.trans h.outside

theorem curMapZone (h : DiskStays ar s s') : s'.curMapZone = s.curMapZone := by
  rw [Ftl.curMapZone, Ftl.blkMapCache, h.actBlk, h.zones]
  rfl

theorem marked (h : DiskStays ar s s') (hd : s.blkMapCache.dirtyFlag = true) :
    s'.blkMapCache.dirtyFlag = true := by
  rw [Ftl.blkMapCache, h.actBlk]
  exact h.dirty _ hd

end DiskStays

section Steps

variable {ar : LogicArchi} {L : ZoneLayout ar} {s s' s'' : Ftl} {z : Nat} {t : BlkTbls}

theorem Coherent.withOutside (h : Coherent L s)
    (o : LogicCtlPar × GlobalLogicPage × Buf × (Int → Nat) × (Nat → Nat) × Nat) :
    Coherent L (s.withOutside o) where
  clear := h.clear
  tblBlk := h.tblBlk
  place := h.place
  unused := h.unused
  zone := h.zone
  tbls := h.tbls
  clean := h.clean
  zone_inj := h.zone_inj
  away z hz hout := by
    obtain ⟨t, hstored, hok, hmap⟩ := h.away z hz hout
    exact ⟨t, hstored, hok, hmap⟩
  mapZone := h.mapZone
  map := h.map
  mapDirty := h.mapDirty
  map_inj := h.map_inj

/-- The tables in the table block of a zone that is in no slot. -/
theorem Coherent.awayOK (har : ar.Fits) (hc : Coherent L s) (hz : ar.IsZone z)
    (hout : ∀ i, (s.blkCache i).zoneNum ≠ z) (ht : InStore ar s z t) :
    ZoneOK L s.nand.cell z t := by
  obtain ⟨t', hstored, hok, -⟩ := hc.away z hz hout
  exact (hstored.same ht har.dataBlks).zoneOK har.pageCnt_pos hok

/-- The tables of a zone are right. -/
theorem Coherent.zoneOK (har : ar.Fits) (hc : Coherent L s) (hz : ar.IsZone z)
    (ht : ZoneHas ar s z t) : ZoneOK L s.nand.cell z t := by
  rcases ht with ⟨i, rfl, rfl⟩ | ⟨hout, ht⟩
  · exact hc.tbls i (hz.ne_none har)
  · exact hc.awayOK har hz hout ht

theorem MapOK.congr {c c' : Cells} {g : PageMapTblCache} (h : MapOK ar c z t g) {t' : BlkTbls}
    (hlog : t'.logBlkTbl g.logBlkPst = t.logBlkTbl g.logBlkPst)
    (hsame : SameBlock ar z (t.logBlkTbl g.logBlkPst).phyBlk.phyBlkNum c c') :
    MapOK ar c' z t' g where
  pst_lt := h.pst_lt
  used := hlog ▸ h.used
  dirty hd := hlog ▸ h.dirty hd
  map := by
    rw [hlog]
    exact hsame.isMapOf h.map

/-- A slot for the same page map. -/
theorem MapOK.slot {c : Cells} {g g' : PageMapTblCache} (h : MapOK ar c z t g)
    (hpst : g'.logBlkPst = g.logBlkPst) (hmap : g'.pageMapTbl = g.pageMapTbl)
    (hdirty : g'.dirtyFlag = true → g.dirtyFlag = true) : MapOK ar c z t g' where
  pst_lt := hpst ▸ h.pst_lt
  used := hpst ▸ h.used
  dirty hd := hpst ▸ h.dirty (hdirty hd)
  map := by
    rw [hpst, hmap]
    exact h.map

/-! ## When tables and page maps are as before -/

/-- Tables, page maps and the blocks that the tables are about are as before; a slot may have been
given up. -/
structure SameTables (L : ZoneLayout ar) (s s' : Ftl) : Prop where
  clear : s'.Clear
  cells : ∀ z, ar.IsZone z → SameBlks L z s.nand.cell s'.nand.cell
  safe : ∀ z, ar.IsZone z → TblsSafe ar z s s'
  zones : ∀ i, (s'.blkCache i).zoneNum = (s.blkCache i).zoneNum
  tbls : ∀ i, (s'.blkCache i).tbls = (s.blkCache i).tbls
  dirty : ∀ i, (s.blkCache i).dirtyFlag = true → (s'.blkCache i).dirtyFlag = true
  unused : ∀ i, (s.blkCache i).zoneNum = 0xff → (s.blkCache i).dirtyFlag = false →
    (s'.blkCache i).dirtyFlag = false
  maps : ∀ j, (s'.pageCache j).zoneNum ≠ 0xff →
    (s'.pageCache j).zoneNum = (s.pageCache j).zoneNum ∧
    (s'.pageCache j).logBlkPst = (s.pageCache j).logBlkPst ∧
    (s'.pageCache j).pageMapTbl = (s.pageCache j).pageMapTbl ∧
    ((s'.pageCache j).dirtyFlag = true → (s.pageCache j).dirtyFlag = true)

namespace SameTables

/-- Flash and tables are the same. -/
theorem of_eq (hs : s'.Clear) (hcell : s'.nand.cell = s.nand.cell)
    (hpst : s'.zoneTblPst = s.zoneTblPst)
    (hblk : ∀ i, (s'.blkCache i).zoneNum = (s.blkCache i).zoneNum ∧
      (s'.blkCache i).tbls = (s.blkCache i).tbls ∧
      (s'.blkCache i).dirtyFlag = (s.blkCache i).dirtyFlag)
    (hmaps : ∀ j, (s'.pageCache j).zoneNum ≠ 0xff →
      (s'.pageCache j).zoneNum = (s.pageCache j).zoneNum ∧
      (s'.pageCache j).logBlkPst = (s.pageCache j).logBlkPst ∧
      (s'.pageCache j).pageMapTbl = (s.pageCache j).pageMapTbl ∧
      ((s'.pageCache j).dirtyFlag = true → (s.pageCache j).dirtyFlag = true)) : SameTables L s s' where
  clear := hs
  cells _ _ _ _ _ _ := congrFun hcell _
  safe _ _ := .of_eq hpst hcell
  zones i := (hblk i).1
  tbls i := (hblk i).2.1
  dirty i hd := (hblk i).2.2.trans hd
  unused i _ hd := (hblk i).2.2.trans hd
  maps := hmaps

theorem refl (h : s.Clear) : SameTables L s s :=
  .of_eq h rfl rfl (fun _ => ⟨rfl, rfl, rfl⟩) fun _ _ => ⟨rfl, rfl, rfl, id⟩

theorem of_flashed (h : Flashed s s') (hcell : s'.nand.cell = s.nand.cell) : SameTables L s s' := by
  refine .of_eq h.clear hcell (by rw [h.eq]) (fun i => ?_) fun j _ => ?_
  · rw [h.blkCache]
    exact ⟨rfl, rfl, rfl⟩
  rw [h.pageCache]
  exact ⟨rfl, rfl, rfl, id⟩

theorem trans (h : SameTables L s s') (h' : SameTables L s' s'') : SameTables L s s'' where
  clear := h'.clear
  cells z hz b hb q hq := (h'.cells z hz b hb q hq).trans (h.cells z hz b hb q hq)
  safe z hz := by
    have hsafe := h.safe z hz
    have hsafe' := h'.safe z hz
    refine ⟨hsafe'.blk.trans hsafe.blk, hsafe'.place ∘ hsafe.place, fun hp hclean t ht => ?_⟩
    refine hsafe'.stored (hsafe.place hp) hclean t (hsafe.stored hp (fun i hi => ?_) t ht)
    refine Bool.eq_false_iff.mpr fun hd => Bool.eq_false_iff.mp (hclean i ?_) (h'.dirty i hd)
    exact (h'.zones i).trans hi
  zones i := (h'.zones i).trans (h.zones i)
  tbls i := (h'.tbls i).trans (h.tbls i)
  dirty i := h'.dirty i ∘ h.dirty i
  unused i hi hd := h'.unused i ((h.zones i).trans hi) (h.unused i hi hd)
  maps j hj := by
    obtain ⟨hzone, hpst, hmap, hdirty⟩ := h'.maps j hj
    obtain ⟨hzone', hpst', hmap', hdirty'⟩ := h.maps j (hzone ▸ hj)
    exact ⟨hzone.trans hzone', hpst.trans hpst', hmap.trans hmap', hdirty' ∘ hdirty⟩

theorem coherent (har : ar.Fits) (hc : Coherent L s) (h : SameTables L s s') : Coherent L s' where
  clear := h.clear
  tblBlk z hz := by
    rw [(h.safe z hz).blk]
    exact hc.tblBlk z hz
  place z hz := (h.safe z hz).place (hc.place z hz)
  unused i hi := by
    rw [h.zones] at hi
    exact h.unused i hi (hc.unused i hi)
  zone i hi := by
    rw [h.zones] at hi ⊢
    exact hc.zone i hi
  tbls i hi := by
    rw [h.zones] at hi ⊢
    rw [h.tbls]
    exact (hc.tbls i hi).congr har (h.cells _ (hc.zone i hi))
  clean i hi hd := by
    rw [h.zones] at hi ⊢
    rw [h.tbls]
    have hz := hc.zone i hi
    have hclean : (s.blkCache i).dirtyFlag = false :=
      Bool.eq_false_iff.mpr fun hmarked => Bool.eq_false_iff.mp hd (h.dirty i hmarked)
    refine (h.safe _ hz).stored (hc.place _ hz) (fun i' hi' => ?_) _ (hc.clean i hi hclean)
    rw [h.zones] at hi'
    rwa [hc.zone_inj i' i hi' (hi' ▸ hi)]
  zone_inj i j heq hi := by
    rw [h.zones, h.zones] at heq
    rw [h.zones] at hi
    exact hc.zone_inj i j heq hi
  away z hz hout := by
    obtain ⟨t, hstored, hok, hmap⟩ := hc.away z hz fun i => h.zones i ▸ hout i
    refine ⟨t, (h.safe z hz).stored (hc.place z hz) (fun i hi => absurd hi (hout i)) t hstored,
      hok.congr har (h.cells z hz), fun j hj => ?_⟩
    obtain ⟨hzone, hpst, htbl, hdirty⟩ := h.maps j (hj ▸ hz.ne_none har)
    have hold := hmap j (hzone.symm.trans hj)
    exact (hold.congr rfl (h.cells z hz _ (hok.log_mem hold.pst_lt hold.used))).slot hpst htbl hdirty
  mapZone j hj := by
    obtain ⟨hzone, -⟩ := h.maps j hj
    rw [hzone] at hj ⊢
    exact hc.mapZone j hj
  map i j heq hj := by
    obtain ⟨hzone, hpst, htbl, hdirty⟩ := h.maps j hj
    rw [hzone] at heq hj
    rw [h.zones] at heq ⊢
    rw [h.tbls]
    have hi : (s.blkCache i).zoneNum ≠ 0xff := heq ▸ hj
    have hold := hc.map i j heq hj
    have hblk := (hc.tbls i hi).log_mem hold.pst_lt hold.used
    exact (hold.congr rfl (h.cells _ (hc.zone i hi) _ hblk)).slot hpst htbl hdirty
  mapDirty j hj hd := by
    obtain ⟨hzone, -, -, hdirty⟩ := h.maps j hj
    rw [hzone] at hj ⊢
    obtain ⟨i, hi, hmarked⟩ := hc.mapDirty j hj (hdirty hd)
    exact ⟨i, (h.zones i).trans hi, h.dirty i hmarked⟩
  map_inj i j heq hpst hi := by
    have hj : (s'.pageCache j).zoneNum ≠ 0xff := heq ▸ hi
    obtain ⟨hzi, hpi, -⟩ := h.maps i hi
    obtain ⟨hzj, hpj, -⟩ := h.maps j hj
    rw [hzi, hzj] at heq
    rw [hpi, hpj] at hpst
    exact hc.map_inj i j heq hpst (hzi ▸ hi)

theorem kept (har : ar.Fits) (hc : Coherent L s) (h : SameTables L s s') : DiskKept ar s s' := by
  refine fun z hz t ht => ⟨t, ?_, .of_same har (hc.zoneOK har hz ht) (h.cells z hz)⟩
  rcases ht with ⟨i, hi, htbls⟩ | ⟨hout, hstored⟩
  · exact .inl ⟨i, (h.zones i).trans hi, (h.tbls i).trans htbls⟩
  · have hout' (i : Fin 4) : (s'.blkCache i).zoneNum ≠ z := (h.zones i).symm ▸ hout i
    exact .inr ⟨hout', (h.safe z hz).stored (hc.place z hz) (fun i hi => absurd hi (hout' i)) t hstored⟩

theorem stays (har : ar.Fits) (hc : Coherent L s) (h : SameTables L s s')
    (hact : s'.actBlk = s.actBlk) (hout : s'.outside = s.outside) : DiskStays ar s s' :=
  ⟨h.zones, h.dirty, h.kept har hc, hact, hout⟩

end SameTables

/-! ## When the active slots have changed -/

/-- Besides the flash and the buffers, only the active slots have changed. -/
structure Within (s s' : Ftl) : Prop where
  clear : s'.Clear
  zoneTblPst : s'.zoneTblPst = s.zoneTblPst
  actBlk : s'.actBlk = s.actBlk
  actPage : s'.actPage = s.actPage
  zone : s'.curMapZone = s.curMapZone
  marked : s.blkMapCache.dirtyFlag = true → s'.blkMapCache.dirtyFlag = true
  blkCache_ne : ∀ i, i ≠ s.actBlk → s'.blkCache i = s.blkCache i
  pageCache_ne : ∀ j, j ≠ s.actPage → s'.pageCache j = s.pageCache j
  outside : s'.outside = s.outside

theorem Within.trans (h : Within s s') (h' : Within s' s'') : Within s s'' where
  clear := h'.clear
  zoneTblPst := h'.zoneTblPst.trans h.zoneTblPst
  actBlk := h'.actBlk.trans h.actBlk
  actPage := h'.actPage.trans h.actPage
  zone := h'.zone.trans h.zone
  marked := h'.marked ∘ h.marked
  blkCache_ne i hi := (h'.blkCache_ne i (h.actBlk ▸ hi)).trans (h.blkCache_ne i hi)
  pageCache_ne j hj := (h'.pageCache_ne j (h.actPage ▸ hj)).trans (h.pageCache_ne j hj)
  outside := h'.outside.trans h.outside

theorem Within.dirty (h : Within s s') (i : Fin 4) (hd : (s.blkCache i).dirtyFlag = true) :
    (s'.blkCache i).dirtyFlag = true := by
  by_cases hi : i = s.actBlk
  · rw [hi] at hd ⊢
    rw [← h.actBlk]
    exact h.marked hd
  · rwa [h.blkCache_ne i hi]

theorem Local.within (h : Local s s') : Within s s' where
  clear := h.clear
  zoneTblPst := by
    obtain ⟨_, _, _, hfl⟩ := h
    rw [hfl.eq]
    rfl
  actBlk := h.actBlk
  actPage := h.actPage
  zone := h.curMapZone
  marked hd := h.dirtyFlag.trans hd
  blkCache_ne _ hi := h.blkCache_ne hi
  pageCache_ne _ hj := h.pageCache_ne hj
  outside := by
    obtain ⟨_, _, _, hfl⟩ := h
    rw [hfl.eq]
    rfl

/-- The tables of the active slot have changed, and with them the blocks of the zone. -/
structure ZoneStep (L : ZoneLayout ar) (s s' : Ftl) : Prop where
  within : Within s s'
  marked : s.blkMapCache.dirtyFlag = true
  ok : ZoneOK L s'.nand.cell s.curMapZone s'.tbls
  touched : Touched ar s.curMapZone (L.listed s.curMapZone) s.nand.cell s'.nand.cell

namespace ZoneStep

theorem sameZone (har : ar.Fits) (h : ZoneStep L s s') (hz : ar.IsZone s.curMapZone)
    (hz' : ar.IsZone z) (hne : z ≠ s.curMapZone) : SameBlks L z s.nand.cell s'.nand.cell :=
  fun _ hb q _ => h.touched.own.otherZone har hz hz' hne (L.mem_own hb) q

theorem blkMapCache_zone (h : ZoneStep L s s') : (s'.blkCache s.actBlk).zoneNum = s.curMapZone := by
  rw [← h.within.actBlk]
  exact h.within.zone

theorem zones (h : ZoneStep L s s') (i : Fin 4) :
    (s'.blkCache i).zoneNum = (s.blkCache i).zoneNum := by
  by_cases hi : i = s.actBlk
  · rw [hi]
    exact h.blkMapCache_zone
  · rw [h.within.blkCache_ne i hi]

theorem tbls_eq (h : ZoneStep L s s') : (s'.blkCache s.actBlk).tbls = s'.tbls := by
  rw [← h.within.actBlk]
  rfl

variable (har : ar.Fits) (hc : Coherent L s) (hact : s.curMapZone ≠ 0xff) (h : ZoneStep L s s')
include har hc hact h

theorem tblCells (hz : ar.IsZone z) (q : Nat) :
    s'.nand.cell (lmlCalculatePhyOpPar ar z (s.zoneTblPst z).phyBlkNum q) =
      s.nand.cell (lmlCalculatePhyOpPar ar z (s.zoneTblPst z).phyBlkNum q) := by
  rw [hc.tblBlk z hz]
  exact h.touched.tblBlk har (hc.zone s.actBlk hact) hz q

theorem safe (hz : ar.IsZone z) : TblsSafe ar z s s' :=
  .of_cells (by rw [h.within.zoneTblPst]) fun q _ _ => h.tblCells har hc hact hz q

theorem inStore (hz : ar.IsZone z) (ht : InStore ar s z t) : InStore ar s' z t :=
  ht.of_cells (by rw [h.within.zoneTblPst]) (fun q _ _ => h.tblCells har hc hact hz q)
    (hc.place z hz).room

/-- Another slot has another zone. -/
theorem slot_ne {i : Fin 4} (hi : i ≠ s.actBlk) (hne : (s.blkCache i).zoneNum ≠ 0xff) :
    SameBlks L (s.blkCache i).zoneNum s.nand.cell s'.nand.cell :=
  h.sameZone har (hc.zone s.actBlk hact) (hc.zone i hne) fun heq => hi (hc.zone_inj i _ heq hne)

/-- The tables of the other zones. -/
theorem zoneHas_ne (hz : ar.IsZone z) (hne : z ≠ s.curMapZone) (ht : ZoneHas ar s z t) :
    ZoneHas ar s' z t := by
  rcases ht with ⟨i, hi, htbls⟩ | ⟨hout, hstored⟩
  · have hact' : i ≠ s.actBlk := fun heq => hne (hi.symm.trans (heq ▸ rfl))
    exact .inl ⟨i, by rw [h.within.blkCache_ne i hact']; exact ⟨hi, htbls⟩⟩
  · exact .inr ⟨fun i => (h.zones i).symm ▸ hout i,
      h.inStore har hc hact hz hstored⟩

omit har hact h in
/-- The tables of the active zone. -/
theorem zoneHas_active (hne : s.curMapZone ≠ 0xff) (ht : ZoneHas ar s s.curMapZone t) : t = s.tbls := by
  rcases ht with ⟨i, hi, rfl⟩ | ⟨hout, -⟩
  · rw [hc.zone_inj i s.actBlk hi (hi ▸ hne)]
    rfl
  · exact absurd rfl (hout s.actBlk)

omit har hc hact in
theorem zoneHas_new : ZoneHas ar s' s.curMapZone s'.tbls :=
  .inl ⟨s.actBlk, h.blkMapCache_zone, h.tbls_eq⟩

theorem stays (hkept : PagesKept ar s.curMapZone s.nand.cell s.tbls s'.nand.cell s'.tbls) :
    DiskStays ar s s' where
  zones := h.zones
  dirty := h.within.dirty
  kept z hz t ht := by
    by_cases hne : z = s.curMapZone
    · rw [hne] at ht ⊢
      rw [zoneHas_active hc hact ht]
      exact ⟨s'.tbls, h.zoneHas_new, hkept⟩
    · exact ⟨t, h.zoneHas_ne har hc hact hz hne ht,
        .of_same har (hc.zoneOK har hz ht) (h.sameZone har (hc.zone s.actBlk hact) hz hne)⟩
  actBlk := h.within.actBlk
  outside := h.within.outside

/-- The page maps of the zone have to be looked at, those of other zones do not. -/
theorem coherent_of_slots
    (hslots : ∀ j, (s'.pageCache j).zoneNum ≠ 0xff → (s'.pageCache j).zoneNum = s.curMapZone ∧
        MapOK ar s'.nand.cell s.curMapZone s'.tbls (s'.pageCache j) ∨
      (s'.pageCache j).zoneNum ≠ s.curMapZone ∧ s'.pageCache j = s.pageCache j)
    (hinj : ∀ i j, (s'.pageCache i).zoneNum = (s'.pageCache j).zoneNum →
      (s'.pageCache i).logBlkPst = (s'.pageCache j).logBlkPst →
      (s'.pageCache i).zoneNum ≠ 0xff → i = j) : Coherent L s' where
  clear := h.within.clear
  tblBlk z hz := by
    rw [h.within.zoneTblPst]
    exact hc.tblBlk z hz
  place z hz := (h.safe har hc hact hz).place (hc.place z hz)
  unused i hne := by
    have hi : i ≠ s.actBlk := by
      rintro rfl
      exact hact (h.blkMapCache_zone.symm.trans hne)
    rw [h.within.blkCache_ne i hi] at hne ⊢
    exact hc.unused i hne
  zone i hne := by
    rw [h.zones] at hne ⊢
    exact hc.zone i hne
  tbls i hne := by
    by_cases hi : i = s.actBlk
    · rw [hi, h.blkMapCache_zone, h.tbls_eq]
      exact h.ok
    · rw [h.within.blkCache_ne i hi] at hne ⊢
      exact (hc.tbls i hne).congr har (h.slot_ne har hc hact hi hne)
  clean i hne hd := by
    have hi : i ≠ s.actBlk := by
      rintro rfl
      have hmarked := h.within.dirty s.actBlk h.marked
      rw [hd] at hmarked
      cases hmarked
    rw [h.within.blkCache_ne i hi] at hne hd ⊢
    have hz := hc.zone i hne
    exact h.inStore har hc hact hz (hc.clean i hne hd)
  zone_inj i j heq hne := by
    rw [h.zones, h.zones] at heq
    rw [h.zones] at hne
    exact hc.zone_inj i j heq hne
  away z hz hout := by
    have hout' (i : Fin 4) : (s.blkCache i).zoneNum ≠ z := h.zones i ▸ hout i
    have hne : z ≠ s.curMapZone := fun heq => hout' s.actBlk heq.symm
    obtain ⟨t, hstored, hok, hmap⟩ := hc.away z hz hout'
    have hsame := h.sameZone har (hc.zone s.actBlk hact) hz hne
    refine ⟨t, h.inStore har hc hact hz hstored, hok.congr har hsame, fun j hj => ?_⟩
    rcases hslots j (hj ▸ hz.ne_none har) with ⟨hzone, -⟩ | ⟨-, heq⟩
    · exact absurd (hj.symm.trans hzone) hne
    · rw [heq] at hj ⊢
      have hold := hmap j hj
      exact hold.congr rfl (hsame _ (hok.log_mem hold.pst_lt hold.used))
  mapZone j hne := by
    rcases hslots j hne with ⟨hzone, -⟩ | ⟨-, heq⟩
    · rw [hzone]
      exact hc.zone s.actBlk hact
    · rw [heq] at hne ⊢
      exact hc.mapZone j hne
  map i j heq hne := by
    rcases hslots j hne with ⟨hzone, hok⟩ | ⟨hother, hsame⟩
    · rw [hzone, h.zones] at heq
      rw [hc.zone_inj i s.actBlk heq (heq ▸ hact), h.blkMapCache_zone, h.tbls_eq]
      exact hok
    · rw [hsame] at heq hne hother ⊢
      rw [h.zones] at heq
      have hi : i ≠ s.actBlk := fun hact' => hother (heq.symm.trans (hact' ▸ rfl))
      have hzi : (s.blkCache i).zoneNum ≠ 0xff := heq ▸ hne
      have hold := hc.map i j heq hne
      rw [h.within.blkCache_ne i hi]
      exact hold.congr rfl (h.slot_ne har hc hact hi hzi _
        ((hc.tbls i hzi).log_mem hold.pst_lt hold.used))
  mapDirty j hne hd := by
    rcases hslots j hne with ⟨hzone, -⟩ | ⟨-, hsame⟩
    · exact ⟨s.actBlk, h.blkMapCache_zone.trans hzone.symm, h.within.dirty _ h.marked⟩
    · rw [hsame] at hne hd ⊢
      obtain ⟨i, hi, hmarked⟩ := hc.mapDirty j hne hd
      exact ⟨i, (h.zones i).trans hi, h.within.dirty i hmarked⟩
  map_inj := hinj

/-- The page map in the active slot has changed. -/
theorem coherent
    (hslot : s'.pageMapCache.zoneNum ≠ 0xff → s'.pageMapCache.zoneNum = s.curMapZone ∧
      MapOK ar s'.nand.cell s.curMapZone s'.tbls s'.pageMapCache ∧
      ∀ j, j ≠ s.actPage → (s.pageCache j).zoneNum = s.curMapZone →
        (s.pageCache j).logBlkPst ≠ s'.pageMapCache.logBlkPst)
    (hmaps : ∀ j, j ≠ s.actPage → (s.pageCache j).zoneNum = s.curMapZone →
      MapOK ar s'.nand.cell s.curMapZone s'.tbls (s.pageCache j)) : Coherent L s' := by
  have hslot' : s'.pageCache s.actPage = s'.pageMapCache := by
    rw [← h.within.actPage]
    rfl
  refine h.coherent_of_slots har hc hact (fun j hne => ?_) fun i j heq hpst hne => ?_
  · by_cases hj : j = s.actPage
    · rw [hj, hslot'] at hne ⊢
      obtain ⟨hzone, hok, -⟩ := hslot hne
      exact .inl ⟨hzone, hok⟩
    · rw [h.within.pageCache_ne j hj]
      by_cases hzone : (s.pageCache j).zoneNum = s.curMapZone
      · exact .inl ⟨hzone, hmaps j hj hzone⟩
      · exact .inr ⟨hzone, rfl⟩
  · by_cases hi : i = s.actPage <;> by_cases hj : j = s.actPage
    · rw [hi, hj]
    · rw [hi, hslot'] at heq hpst hne
      rw [h.within.pageCache_ne j hj] at heq hpst
      obtain ⟨hzone, -, hapart⟩ := hslot hne
      exact absurd hpst.symm (hapart j hj (heq.symm.trans hzone))
    · rw [hj, hslot'] at heq hpst
      rw [h.within.pageCache_ne i hi] at heq hpst hne
      obtain ⟨hzone, -, hapart⟩ := hslot (heq ▸ hne)
      exact absurd hpst (hapart i hi (heq.trans hzone))
    · rw [h.within.pageCache_ne i hi] at heq hpst hne
      rw [h.within.pageCache_ne j hj] at heq hpst
      exact hc.map_inj i j heq hpst hne

/-- No page map has changed. -/
theorem coherent_of_maps (hpages : s'.pageCache = s.pageCache)
    (hmaps : ∀ j, (s.pageCache j).zoneNum = s.curMapZone →
      MapOK ar s'.nand.cell s.curMapZone s'.tbls (s.pageCache j)) : Coherent L s' := by
  refine h.coherent_of_slots har hc hact (fun j _ => ?_) ?_
  · rw [hpages]
    by_cases hzone : (s.pageCache j).zoneNum = s.curMapZone
    · exact .inl ⟨hzone, hmaps j hzone⟩
    · exact .inr ⟨hzone, rfl⟩
  · rw [hpages]
    exact hc.map_inj

end ZoneStep

end Steps

end Novo7
