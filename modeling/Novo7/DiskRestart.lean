import Novo7.FlashGeometry
import Novo7.SectorStore

/-!
# Restarting the logic layer

`LML_Exit` flushes the page cache and stores the tables of all zones (`lmlExit_stores`); `LML_Init`
forgets everything that is in RAM. Where no operation on the flash fails, the sectors are the same
afterwards (`lmlInit_finds`): they are all on the flash, and what remains in RAM of the old ages of the
log blocks, of which `BMM_InitMapTblCache` clears one half only, does no harm.

`LML_ReadReclaim` writes a page anew and keeps the sectors as well (`lmlReadReclaim_keeps`).
-/

namespace Novo7

open Traced

/-! ## Exit and init -/

/-- What `MALLOC` returns: memory with anything in it. -/
structure FreshMem where
  pageCache1 : Buf
  pageCache2 : Buf
  blkTbls : Fin 4 → BlkTbls
  pageMapTbls : Fin 4 → Nat → Nat

/-- `BMM_InitMapTblCache`; `MEMSET` clears as many bytes as there are ages, which have two bytes each. -/
def bmmInitMapTblCache (mem : FreshMem) : FtlProg Unit := modify fun s => { s with
  logAccessTimer := 0
  blkCache := fun i => { s.blkCache i with
    zoneNum := 0xff, dirtyFlag := false, accessCnt := 0, lastFreeBlkPst := 0xff, tbls := mem.blkTbls i }
  logAccessAge := fun i => if 2 * i < logBlkCntOfZone then 0 else s.logAccessAge i }

/-- `PMM_InitMapTblCache` -/
def pmmInitMapTblCache (mem : FreshMem) : FtlProg Unit := modify fun s => { s with
  pageCache := fun i => ⟨0xff, 0xff, 0, mem.pageMapTbls i, false⟩ }

/-- `LML_Init` -/
def lmlInit (n : NandStorageInfo) (mem : FreshMem) : FtlProg Unit := do
  modify fun s => { s with
    cachePage := ⟨0xffffffff, 0⟩
    logicalCtl := ⟨.none, 0xff, 0xffff, 0xffff, 0xffff, ⟨0xffff, 0xffff⟩, ⟨0xffff, 0xffff⟩, n.diskCap⟩ }
  modify ({ · with writePageCache := mem.pageCache1, processTblBuf := mem.pageCache2 })
  bmmInitMapTblCache mem
  pmmInitMapTblCache mem

/-- `LML_Exit`, which does not ask whether its parts have succeeded. -/
def lmlExit (ar : LogicArchi) (env : NandEnv) : FtlProg Unit := do
  orElse (lmlFlushPageCache ar env) fun _ => pure ()
  orElse (bmmWriteBackAllMapTbl ar env) fun _ => pure ()

section Restart

variable {ar : LogicArchi} {env : NandEnv} {L : ZoneLayout ar} {F : Int → Ftl → Prop} {V : Sectors}
  {D : Nat → Option Buf} {s s' : Ftl}

/-- The tables of a zone are the same wherever they are found. -/
theorem Coherent.zoneHas_same (har : ar.Fits) (hc : Coherent L s) {z : Nat} (hz : ar.IsZone z)
    {t t' : BlkTbls} (ht : ZoneHas ar s z t) (ht' : ZoneHas ar s z t') : SameTbls ar t t' := by
  rcases ht with ⟨i, hi, rfl⟩ | ⟨hout, ht⟩ <;> rcases ht' with ⟨j, hj, rfl⟩ | ⟨hout', ht'⟩
  · rw [hc.zone_inj i j (hi.trans hj.symm) (hi ▸ hz.ne_none har)]
    exact .refl _
  · exact absurd hi (hout' i)
  · exact absurd hj (hout j)
  · exact ht.same ht' har.dataBlks

/-- Nothing is in RAM; flash and zone table positions are as before. -/
structure Forgotten (s s' : Ftl) : Prop where
  nand : s'.nand = s.nand
  zoneTblPst : s'.zoneTblPst = s.zoneTblPst
  clear : s'.Clear
  blks : ∀ i, (s'.blkCache i).zoneNum = 0xff ∧ (s'.blkCache i).dirtyFlag = false
  maps : ∀ j, (s'.pageCache j).zoneNum = 0xff

section Forget

variable (har : ar.Fits) (hc : Coherent L s)
  (hstored : ∀ z, ar.IsZone z → ∃ t, ZoneHas ar s z t ∧ InStore ar s z t) (h : Forgotten s s')
include h

theorem Forgotten.inStore {z : Nat} {t : BlkTbls} (ht : InStore ar s z t) : InStore ar s' z t := by
  unfold InStore at ht ⊢
  rw [h.nand, h.zoneTblPst]
  exact ht

include har hc hstored

/-- The flash is enough. -/
theorem Forgotten.coherent : Coherent L s' where
  clear := h.clear
  tblBlk z hz := by
    rw [h.zoneTblPst]
    exact hc.tblBlk z hz
  place z hz := by
    rw [h.zoneTblPst, h.nand]
    exact hc.place z hz
  unused i _ := (h.blks i).2
  zone i hne := absurd (h.blks i).1 hne
  tbls i hne := absurd (h.blks i).1 hne
  clean i hne := absurd (h.blks i).1 hne
  zone_inj i _ _ hne := absurd (h.blks i).1 hne
  away z hz _ := by
    obtain ⟨t, hhas, ht⟩ := hstored z hz
    refine ⟨t, h.inStore ht, ?_, fun j hj => ?_⟩
    · rw [h.nand]
      exact hc.zoneOK har hz hhas
    · exact absurd (hj.symm.trans (h.maps j)) (hz.ne_none har)
  mapZone j hne := absurd (h.maps j) hne
  map _ j _ hne := absurd (h.maps j) hne
  mapDirty j hne := absurd (h.maps j) hne
  map_inj i _ _ _ hne := absurd (h.maps i) hne

theorem Forgotten.kept : DiskKept ar s s' := by
  intro z hz t ht
  obtain ⟨t', hhas, hst⟩ := hstored z hz
  refine ⟨t', .inr ⟨fun i heq => hz.ne_none har (heq.symm.trans (h.blks i).1), h.inStore hst⟩, ?_⟩
  rw [h.nand]
  exact (hc.zoneHas_same har hz ht hhas).pagesKept

end Forget

theorem DiskHolds.kept (har : ar.Fits) (h : DiskHolds ar D s) (hs : DiskKept ar s s') : DiskHolds ar D s' := by
  intro n buf hD hn
  obtain ⟨t, ht, hinfo, hpage⟩ := h n buf hD hn
  obtain ⟨t', ht', hkept⟩ := hs _ (logicPage_zone har hn) t ht
  obtain ⟨hinfo', hpages⟩ := hkept _ (logicPage_block har hn) hinfo
  exact ⟨t', ht', hinfo', (hpages _ (logicPage_page har hn)).trans hpage⟩

/-- All sectors are on the flash, and so are the tables of all zones. -/
structure Exited (L : ZoneLayout ar) (V : Sectors) (s : Ftl) : Prop where
  coherent : Coherent L s
  clean : ∀ i, (s.blkCache i).dirtyFlag = false
  stored : ∀ z, ar.IsZone z → ∃ t, ZoneHas ar s z t ∧ InStore ar s z t
  pages : ∃ D, DiskHolds ar D s ∧ ∀ n j, j < ar.sectorCntOfLogicPage → ∀ v,
    V (n * ar.sectorCntOfLogicPage + j) = some v →
      ∃ buf, D n = some buf ∧ ∀ t < 256, buf (256 * j + t) = v t
  known : ∀ n j, j < ar.sectorCntOfLogicPage → ∀ v, V (n * ar.sectorCntOfLogicPage + j) = some v →
    ar.InDisk n

theorem lmlExit_stores (har : ar.Fits) (hcopy : ar.CopiesExactly) (henv : env.NoFailure)
    (h : SectorsOK L V s) :
    WP anyRun (lmlExit ar env) (fun _ s' => Exited L V s' ∧ s'.host = s.host) F s := by
  refine WP.bind (WP.orElse ((lmlFlushPageCache_stores har hcopy henv h).imp fun _ s₁ h₁ => ?_))
  obtain ⟨D, hdisk, hpages⟩ := h₁.sectors.pages
  refine WP.orElse ((bmmWriteBackAllMapTbl_stores har hcopy henv hdisk.coherent).imp fun _ s₂ h₂ => ?_)
  have hhost : s₂.host = s₁.host := congrArg (fun o => o.2.2.2.1) h₂.outside
  refine ⟨⟨h₂.coherent, h₂.clean, h₂.stored, ⟨D, hdisk.holds.kept har h₂.kept,
    fun n j hj v hv => hpages n j hj v hv fun hin => ?_⟩, h₁.sectors.known⟩, hhost.trans h₁.host⟩
  exact (h₁.sectors.known n j hj v hv).ne_none har (hin.1.symm.trans h₁.empty)

theorem lmlInit_forgets (hs : s.Clear) (n : NandStorageInfo) (mem : FreshMem) :
    WP anyRun (lmlInit n mem) (fun _ s' => Forgotten s s' ∧ AgesOK s' ∧
      s'.cachePage.logicPageNum = 0xffffffff ∧ s'.logicalCtl.zoneNum = 0xff ∧
      s'.logicalCtl.logicBlkNum = 0xffff ∧ s'.logicalCtl.diskCap = n.diskCap ∧ s'.host = s.host) F s := by
  refine WP.bind (WP.modify (WP.bind (WP.modify (WP.bind (WP.modify (WP.modify ?_))))))
  refine ⟨⟨rfl, rfl, hs, fun _ => ⟨rfl, rfl⟩, fun _ => rfl⟩, ?_, rfl, rfl, rfl, rfl, rfl⟩
  exact .of_small (show (0 : Nat) ≤ 0xffff by decide) (i := 0) (j := 1) (by decide) (by decide) nofun
    (show (0 : Nat) < 0xffff by decide) (show (0 : Nat) < 0xffff by decide)

/-- Whatever is in RAM, the flash and the positions of the tables are enough. -/
theorem lmlInit_finds (har : ar.Fits) (h : Exited L V s) (hnand : s'.nand = s.nand)
    (hpst : s'.zoneTblPst = s.zoneTblPst) (n : NandStorageInfo) (mem : FreshMem) :
    WP anyRun (lmlInit n mem) (fun _ s'' => SectorsOK L V s'' ∧ s''.logicalCtl.diskCap = n.diskCap ∧
      s''.host = s'.host) F s' := by
  have hclear : s'.Clear := fun bank => hnand ▸ h.coherent.clear bank
  refine (lmlInit_forgets hclear n mem).imp ?_
  rintro _ s'' ⟨hforgot, hages, hempty, hzone, hblk, hcap, hhost⟩
  have hforgot' : Forgotten s s'' :=
    ⟨hforgot.nand.trans hnand, hforgot.zoneTblPst.trans hpst, hforgot.clear, hforgot.blks, hforgot.maps⟩
  obtain ⟨D, hholds, hpages⟩ := h.pages
  have hkept := hforgot'.kept har h.coherent h.stored
  refine ⟨⟨⟨D, ⟨hforgot'.coherent har h.coherent h.stored, hages,
    ⟨fun hne => absurd hzone hne, fun hne => absurd hblk hne⟩, hholds.kept har hkept⟩,
    fun m j hj v hv _ => hpages m j hj v hv⟩, fun m j hj v hv hin => ?_, h.known,
    fun hne => absurd hempty hne⟩, hcap, hhost⟩
  exact absurd (hin.1.symm.trans hempty) ((h.known m j hj v hv).ne_none har)

/-- `LML_ReadReclaim` keeps the sectors, those of the page that it writes anew among them. -/
theorem lmlReadReclaim_keeps (har : ar.Fits) (hcopy : ar.CopiesExactly) (henv : env.NoFailure)
    (h : SectorsOK L V s) {n : Nat} (hn : ar.InDisk n) :
    WP anyRun (lmlReadReclaim ar env n) (fun _ s' => CacheStored L V s s') F s := by
  refine WP.bind (WP.orElse ((lmlFlushPageCache_stores har hcopy henv h).imp fun _ s₁ h₁ => ?_))
  obtain ⟨D, hdisk, hpages⟩ := h₁.sectors.pages
  refine WP.bind (WP.orElse ((lmlPageRead_reads har hcopy henv hdisk hn _ _).imp ?_))
  rintro _ _ ⟨-, s₂, main, hdisk₂, hbuf₂, hmain, rfl⟩
  obtain ⟨hcache₂, -, hhost₂, hcap₂⟩ := by simpa [Ftl.buffers] using hbuf₂
  have hread : DiskOK L D (PageBuf.writePageCache.store ar.fullBitmapOfLogicPage main s₂) :=
    hdisk₂.setBuffers s₂.cachePage _ s₂.host
  refine WP.orElse ((lmlPageWrite_writes har hcopy henv hread hn _).imp ?_)
  rintro _ s₃ ⟨hdisk₃, hbuf₃⟩
  obtain ⟨hcache₃, -, hhost₃, hcap₃⟩ := by simpa [Ftl.buffers] using hbuf₃
  have hempty : s₃.cachePage.logicPageNum = 0xffffffff := by
    rw [hcache₃]
    exact (congrArg GlobalLogicPage.logicPageNum hcache₂).trans h₁.empty
  have hnone {m j : Nat} (hm : ar.InDisk m) {s' : Ftl}
      (hs' : s'.cachePage.logicPageNum = 0xffffffff) : ¬s'.InCache m j := fun hin =>
    hm.ne_none har (hin.1.symm.trans hs')
  refine ⟨⟨⟨_, hdisk₃, fun m j hj v hv _ => ?_⟩, fun m j hj v hv hin => ?_, h.known,
    fun hne => absurd hempty hne⟩, hempty, (hhost₃.trans hhost₂).trans h₁.host,
    (hcap₃.trans hcap₂).trans h₁.diskCap⟩
  · obtain ⟨buf, hD, hval⟩ := hpages m j hj v hv (hnone (h.known m j hj v hv) h₁.empty)
    by_cases hm : m = n
    · subst hm
      refine ⟨_, Function.update_self .., fun t ht => ?_⟩
      show copySectors ar.fullBitmapOfLogicPage main s₂.writePageCache (256 * j + t) = v t
      rw [copySectors_bit ht (fullBitmap_bit hj), hmain buf hD _ (sector_lt hj ht)]
      exact hval t ht
    · exact ⟨buf, (Function.update_of_ne hm ..).trans hD, hval⟩
  · exact absurd hin (hnone (h.known m j hj v hv) hempty)

end Restart

end Novo7
