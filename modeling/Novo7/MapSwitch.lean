import Novo7.MapCoherence

/-!
# Switching page maps

`PMM_SwitchMapTbl` makes the page map of a log block active. For that another one may have to
leave its slot: it is stored in its log block, and when that is full the log block is merged
first. `pmmSwitchMapTbl_switches`: where no operation on the flash fails, the switch succeeds, the
caches stay coherent, and no page of the disk changes.
-/

namespace Novo7

open HeldSlots Traced

/-! ## A page of a log block is programmed -/

section Put

variable {ar : LogicArchi} {L : ZoneLayout ar} {c : Cells} {z b q p : Nat} {pg : Page}

theorem pageAt_put (har : ar.Fits) (hb : ar.IsSuperBlk z b) (hq : q < ar.pageCntOfLogicBlk) {d : Nat}
    (hd : d < ar.pageCntOfLogicBlk) :
    pageAt ar (Function.update c (lmlCalculatePhyOpPar ar z b q) (some pg)) z b d =
      if d = q then pg else pageAt ar c z b d := by
  unfold pageAt
  split
  · rename_i heq
    rw [heq, Function.update_self]
    rfl
  · rename_i hne
    rw [Function.update_of_ne fun heq => hne (pageAddr_inj har hb hb hd hq heq).2]

theorem cell_put_ne (har : ar.Fits) (hb : ar.IsSuperBlk z b) (hq : q < ar.pageCntOfLogicBlk) {d : Nat}
    (hd : d < ar.pageCntOfLogicBlk) (hne : d ≠ q) :
    Function.update c (lmlCalculatePhyOpPar ar z b q) (some pg) (lmlCalculatePhyOpPar ar z b d) =
      c (lmlCalculatePhyOpPar ar z b d) :=
  Function.update_of_ne (fun heq => hne (pageAddr_inj har hb hb hd hq heq).2) ..

theorem numAt_put (har : ar.Fits) (hb : ar.IsSuperBlk z b) (hq : q < ar.pageCntOfLogicBlk) {d : Nat}
    (hd : d < ar.pageCntOfLogicBlk) :
    numAt ar (Function.update c (lmlCalculatePhyOpPar ar z b q) (some pg)) z b d =
      Function.update (numAt ar c z b) q pg.spare.logicPageNum d := by
  rw [numAt, pageAt_put har hb hq hd]
  by_cases hdq : d = q
  · rw [if_pos hdq, hdq, Function.update_self]
  · rw [if_neg hdq, Function.update_of_ne hdq, numAt]

/-- A page with another number does not come between a logical page and its place. -/
theorem logPageOf_put_ne (har : ar.Fits) (hb : ar.IsSuperBlk z b) (hq : q < ar.pageCntOfLogicBlk)
    (hblank : c (lmlCalculatePhyOpPar ar z b q) = none) (hp : p < ar.pageCntOfLogicBlk)
    (hnum : pg.spare.logicPageNum ≠ p) :
    logPageOf ar (Function.update c (lmlCalculatePhyOpPar ar z b q) (some pg)) z b p =
      logPageOf ar c z b p := by
  refine (latest_congr fun d hd => by rw [numAt_put har hb hq hd]).trans
    (latest_update_ne (fun heq => ?_) hnum)
  exact numAt_blank har hblank (heq ▸ hp)

/-- The page behind the others is the place of its logical page. -/
theorem logPageOf_put (har : ar.Fits) (hb : ar.IsSuperBlk z b) (hq : q < ar.pageCntOfLogicBlk)
    (hrest : ∀ d < ar.pageCntOfLogicBlk, q ≤ d → c (lmlCalculatePhyOpPar ar z b d) = none)
    (hp : p < ar.pageCntOfLogicBlk) (hnum : pg.spare.logicPageNum = p) :
    logPageOf ar (Function.update c (lmlCalculatePhyOpPar ar z b q) (some pg)) z b p = some q := by
  subst hnum
  refine (latest_congr fun d hd => by rw [numAt_put har hb hq hd]).trans
    (latest_update hq fun d hd hlt heq => ?_)
  exact numAt_blank har (hrest d hlt (Nat.le_of_lt hd)) (heq ▸ hp)

end Put

/-! ## An entry of the log block table -/

section LogStep

variable {ar : LogicArchi} {L : ZoneLayout ar} {c c' : Cells} {z i : Nat} {t : BlkTbls} {l : LogBlk}

theorem blocks_setLog_same (hi : i < logBlkCntOfZone)
    (hnum : l.logicBlkNum = (t.logBlkTbl i).logicBlkNum) (hphy : l.phyBlk = (t.logBlkTbl i).phyBlk) :
    (t.setLog i l).blocks ar = t.blocks ar := by
  have hlog := @BlkTbls.blocks_setLog t ar i hi l
  rw [hnum, hphy] at hlog
  exact add_right_cancel hlog

/-- A log block goes on: the same block, with other used pages. -/
theorem logStep (hok : ZoneOK L c z t) (hi : i < logBlkCntOfZone)
    (hused : (t.logBlkTbl i).logicBlkNum ≠ 0xffff)
    (hnum : l.logicBlkNum = (t.logBlkTbl i).logicBlkNum)
    (htouched : Touched ar z {(t.logBlkTbl i).phyBlk.phyBlkNum} c c') :
    Rearranged L z (t.logBlkTbl i).logicBlkNum i {(t.logBlkTbl i).phyBlk.phyBlkNum} c c' t
      (t.setLog i l) where
  touched := htouched
  own := by
    rintro b rfl
    exact hok.log_mem hi hused
  data k' hk' _ := ⟨rfl, hok.data_ne_log hk' hi hused⟩
  logs j hj hne := ⟨Function.update_of_ne hne .., fun hused' heq =>
    hne (hok.log_inj hj hi hused' hused heq)⟩
  number := rfl
  after := .inl ((congrArg LogBlk.logicBlkNum (Function.update_self ..)).trans hnum)

theorem logStep_ok (har : ar.Fits) (hz : ar.IsZone z) (hok : ZoneOK L c z t)
    (hi : i < logBlkCntOfZone) (hused : (t.logBlkTbl i).logicBlkNum ≠ 0xffff)
    (hnum : l.logicBlkNum = (t.logBlkTbl i).logicBlkNum) (hphy : l.phyBlk = (t.logBlkTbl i).phyBlk)
    (htouched : Touched ar z {(t.logBlkTbl i).phyBlk.phyBlkNum} c c')
    (hlog : LogOK ar c' z (t.setLog i l) l) : ZoneOK L c' z (t.setLog i l) := by
  have hre := logStep hok hi hused hnum htouched
  have hk := (hok.logs i hi hused).num
  have hdata : SameBlock ar z (t.dataBlkTbl (t.logBlkTbl i).logicBlkNum).phyBlkNum c c' :=
    hre.sameBlock har hz (hok.data_mem hk) (hok.data_ne_log hk hi hused)
  refine hre.zoneOK har hz hok hi (blocks_setLog_same hi hnum hphy) hok.counts
    (fun b hb q hq => ?_) (hok.dataCounts _ hk) ?_ fun _ => ?_
  · exact (hre.sameBlock har hz (hok.free_mem hb) (hok.log_ne_free hi hused hb).symm q hq).trans
      (hok.free b hb q hq)
  · show c' (lmlCalculatePhyOpPar ar z (t.dataBlkTbl _).phyBlkNum 0) = none ∨
      (pageAt ar c' z (t.dataBlkTbl _).phyBlkNum 0).spare.logicInfo ≠ 0xffff
    rw [hdata 0 har.pageCnt_pos, hdata.pageAt har.pageCnt_pos]
    exact hok.data _ hk
  · rw [show (t.setLog i l).logBlkTbl i = l from Function.update_self ..]
    exact hlog

theorem logStep_info (har : ar.Fits) (hz : ar.IsZone z) (hok : ZoneOK L c z t)
    (hi : i < logBlkCntOfZone) (hused : (t.logBlkTbl i).logicBlkNum ≠ 0xffff)
    (hnum : l.logicBlkNum = (t.logBlkTbl i).logicBlkNum)
    (htouched : Touched ar z {(t.logBlkTbl i).phyBlk.phyBlkNum} c c') {k : Nat}
    (hk : k < ar.dataBlkCntOfZone) : DataInfo ar c' z (t.setLog i l) k ↔ DataInfo ar c z t k := by
  have hdata : SameBlock ar z (t.dataBlkTbl k).phyBlkNum c c' :=
    (logStep (l := l) hok hi hused hnum htouched).sameBlock har hz (hok.data_mem hk)
      (hok.data_ne_log hk hi hused)
  show (pageAt ar c' z (t.dataBlkTbl k).phyBlkNum 0).spare.logicInfo ≠ 0xffff ↔ _
  rw [hdata.pageAt har.pageCnt_pos]
  rfl

/-- The pages of the other logical blocks are what they were anyway. -/
theorem logStep_kept (har : ar.Fits) (hz : ar.IsZone z) (hok : ZoneOK L c z t)
    (hi : i < logBlkCntOfZone) (hused : (t.logBlkTbl i).logicBlkNum ≠ 0xffff)
    (hnum : l.logicBlkNum = (t.logBlkTbl i).logicBlkNum)
    (htouched : Touched ar z {(t.logBlkTbl i).phyBlk.phyBlkNum} c c')
    (hpages : ∀ p < ar.pageCntOfLogicBlk,
      SameSectors ar (pageOf ar c' z (t.setLog i l) (t.logBlkTbl i).logicBlkNum p).main
        (pageOf ar c z t (t.logBlkTbl i).logicBlkNum p).main) :
    PagesKept ar z c t c' (t.setLog i l) := by
  refine fun k hk hinfo => ⟨(logStep_info har hz hok hi hused hnum htouched hk).mpr hinfo,
    fun p hp => ?_⟩
  by_cases hne : k = (t.logBlkTbl i).logicBlkNum
  · rw [hne]
    exact hpages p hp
  · rw [(logStep (l := l) hok hi hused hnum htouched).pageOf_ne har hz hok hi hk hne hp]
    exact .refl _

/-- The page of a logical block that has a log block. -/
theorem ZoneOK.pageOf_log (h : ZoneOK L c z t) (hi : i < logBlkCntOfZone)
    (hused : (t.logBlkTbl i).logicBlkNum ≠ 0xffff) (p : Nat) :
    pageOf ar c z t (t.logBlkTbl i).logicBlkNum p =
      match logPageOf ar c z (t.logBlkTbl i).phyBlk.phyBlkNum p with
      | none => pageAt ar c z (t.dataBlkTbl (t.logBlkTbl i).logicBlkNum).phyBlkNum p
      | some q => pageAt ar c z (t.logBlkTbl i).phyBlk.phyBlkNum q := by
  have hpst := h.logBlkPst_eq hi hused
  unfold pageOf
  generalize t.logBlkPst (t.logBlkTbl i).logicBlkNum = o at hpst
  subst hpst
  rfl

section Page

variable {q p : Nat} {pg : Page} (hok' : ZoneOK L c' z (t.setLog i l)) (hi : i < logBlkCntOfZone)
  (hused : (t.logBlkTbl i).logicBlkNum ≠ 0xffff)
  (hnum : l.logicBlkNum = (t.logBlkTbl i).logicBlkNum) (hphy : l.phyBlk = (t.logBlkTbl i).phyBlk)
include hok' hi hused hnum hphy

theorem pageOf_setLog (p : Nat) : pageOf ar c' z (t.setLog i l) (t.logBlkTbl i).logicBlkNum p =
    match logPageOf ar c' z (t.logBlkTbl i).phyBlk.phyBlkNum p with
    | none => pageAt ar c' z (t.dataBlkTbl (t.logBlkTbl i).logicBlkNum).phyBlkNum p
    | some q => pageAt ar c' z (t.logBlkTbl i).phyBlk.phyBlkNum q := by
  have hself : (t.setLog i l).logBlkTbl i = l := Function.update_self ..
  have hnew := hok'.pageOf_log hi (by rw [hself, hnum]; exact hused) p
  rw [hself, hnum, hphy] at hnew
  exact hnew

/-- A page of the logical block whose place is as before. -/
theorem pageOf_setLog_same (har : ar.Fits) (hz : ar.IsZone z) (hok : ZoneOK L c z t)
    (htouched : Touched ar z {(t.logBlkTbl i).phyBlk.phyBlkNum} c c')
    (hp : p < ar.pageCntOfLogicBlk)
    (hlatest : logPageOf ar c' z (t.logBlkTbl i).phyBlk.phyBlkNum p =
      logPageOf ar c z (t.logBlkTbl i).phyBlk.phyBlkNum p)
    (hpages : ∀ d < ar.pageCntOfLogicBlk, numAt ar c z (t.logBlkTbl i).phyBlk.phyBlkNum d = p →
      pageAt ar c' z (t.logBlkTbl i).phyBlk.phyBlkNum d =
        pageAt ar c z (t.logBlkTbl i).phyBlk.phyBlkNum d) :
    pageOf ar c' z (t.setLog i l) (t.logBlkTbl i).logicBlkNum p =
      pageOf ar c z t (t.logBlkTbl i).logicBlkNum p := by
  rw [pageOf_setLog hok' hi hused hnum hphy, hlatest, hok.pageOf_log hi hused]
  cases hq : logPageOf ar c z (t.logBlkTbl i).phyBlk.phyBlkNum p with
  | none =>
      have hk := (hok.logs i hi hused).num
      have hdata : SameBlock ar z (t.dataBlkTbl (t.logBlkTbl i).logicBlkNum).phyBlkNum c c' :=
        (logStep (l := l) hok hi hused hnum htouched).sameBlock har hz (hok.data_mem hk)
          (hok.data_ne_log hk hi hused)
      exact hdata.pageAt hp
  | some d =>
      obtain ⟨hd, hnum', -⟩ := latest_eq_some.mp hq
      exact hpages d hd hnum'

end Page

end LogStep

/-! ## Storing a page map -/

section Store

variable {ar : LogicArchi} {L : ZoneLayout ar} {c : Cells} {z i : Nat} {t t' : BlkTbls} {l : LogBlk}
  {map : Nat → Nat}

/-- The page in which a page map is stored. -/
def mapPage (ar : LogicArchi) (map : Nat → Nat) : Page :=
  ⟨pageMapBuf ar map, { UserData.blank with pageStatus := 0xaa }⟩

theorem mapPage_num (har : ar.Fits) (map : Nat → Nat) {p : Nat} (hp : p < ar.pageCntOfLogicBlk) :
    (mapPage ar map).spare.logicPageNum ≠ p := by
  have hmaps := har.maps
  show (0xffff : Nat) ≠ p
  omega

/-- The page map goes behind the last used page. -/
theorem LogOK.store (har : ar.Fits) (h : LogOK ar c z t l) (hb : ar.IsSuperBlk z l.phyBlk.phyBlkNum)
    (hlast : l.lastUsedPage ≠ 0xffff) (hnext : l.lastUsedPage + 1 < ar.pageCntOfLogicBlk)
    (hmap : IsMapOf ar c z l.phyBlk.phyBlkNum map)
    (hdata : (pageAt ar (Function.update c
      (lmlCalculatePhyOpPar ar z l.phyBlk.phyBlkNum (l.lastUsedPage + 1)) (some (mapPage ar map))) z
        (t'.dataBlkTbl l.logicBlkNum).phyBlkNum 0).spare.logicInfo ≠ 0xffff) :
    LogOK ar (Function.update c
      (lmlCalculatePhyOpPar ar z l.phyBlk.phyBlkNum (l.lastUsedPage + 1)) (some (mapPage ar map))) z t'
      { l with lastUsedPage := l.lastUsedPage + 1 } := by
  have hmaps := har.maps
  have husedPages : l.usedPages = l.lastUsedPage + 1 := if_neg hlast
  have hblank := h.blank _ hnext (by omega)
  have hpage {d : Nat} (hd : d < ar.pageCntOfLogicBlk) :=
    @pageAt_put ar c z _ _ (mapPage ar map) har hb hnext d hd
  have hnum {d : Nat} (hd : d < ar.pageCntOfLogicBlk) (hlt : numAt ar (Function.update c
      (lmlCalculatePhyOpPar ar z l.phyBlk.phyBlkNum (l.lastUsedPage + 1)) (some (mapPage ar map))) z
        l.phyBlk.phyBlkNum d < ar.pageCntOfLogicBlk) : d ≠ l.lastUsedPage + 1 := fun heq => by
    rw [numAt, hpage hd, if_pos heq] at hlt
    exact mapPage_num har map hlt rfl
  refine ⟨h.num, h.count, fun _ => hnext, fun d hd hle => ?_, fun _ => ?_, hdata, fun hal d hd hlt => ?_,
    fun _ => ?_, fun _ _ => ?_⟩
  · have hle' : l.lastUsedPage + 1 + 1 ≤ d := by
      unfold LogBlk.usedPages at hle
      dsimp only at hle
      rwa [if_neg (by omega)] at hle
    dsimp only
    rw [cell_put_ne har hb hnext hd (by omega)]
    exact h.blank d hd (by omega)
  · dsimp only
    rw [hpage har.pageCnt_pos, if_neg (Nat.succ_ne_zero _).symm]
    exact h.info hlast
  · have hne := hnum hd hlt
    dsimp only at hlt ⊢
    rw [numAt, hpage hd, if_neg hne] at hlt ⊢
    exact h.aligned hal d hd hlt
  · obtain ⟨d, hd, hlt⟩ := h.filled hlast
    refine ⟨d, hd, ?_⟩
    have hne : d ≠ l.lastUsedPage + 1 := fun heq => numAt_blank har hblank (heq ▸ hlt)
    dsimp only
    rw [numAt, hpage hd, if_neg hne]
    exact hlt
  · intro p hp
    dsimp only
    rw [hpage hnext, if_pos rfl, logPageOf_put_ne har hb hnext hblank hp (mapPage_num har map hp),
      ← hmap p hp]
    exact pageMapBuf_entry map hp (by omega)

end Store

/-! ## Operations on table pages -/

section Operations

variable {ar : LogicArchi} {env : NandEnv} {L : ZoneLayout ar} {F : Int → Ftl → Prop} {i : Nat}
  {s : Ftl}

theorem writeTbl_programs (henv : env.NoFailure) (hs : s.Clear) (z b page : Nat) (spare : UserData) :
    WP anyRun (writeTbl ar env z b page spare) (fun ret s' => ret = 0 ∧ Flashed s s' ∧
      s'.nand.cell = Function.update s.nand.cell (lmlCalculatePhyOpPar ar z b page)
        (some (s.nand.programmed (lmlCalculatePhyOpPar ar z b page) ⟨s.processTblBuf, spare⟩))) F s := by
  refine WP.bind (WP.get (WP.bind (WP.bind (WP.get (WP.bind (WP.emit fun _ => ⟨trivial,
    WP.bind (WP.modify ?_)⟩))))))
  rw [henv.prog]
  refine WP.bind (WP.modify (WP.pure (WP.bind (WP.get (WP.pure ⟨?_, ⟨rfl, ?_⟩, rfl⟩)))))
  · exact if_neg (by simp [bankOf, Ftl.setNand, Nand.setFailed, Nand.setCell])
  · exact setFailed_clear (n := s.nand) hs _

theorem readTbl_gives (henv : env.NoFailure) (hs : s.Clear) (z b page bitmap : Nat) :
    WP anyRun (readTbl ar env z b page bitmap) (fun r s' =>
      r = (0, (s.nand.read (lmlCalculatePhyOpPar ar z b page)).spare) ∧ Flashed s s' ∧
      s'.nand.cell = s.nand.cell ∧ s'.processTblBuf = copySectors bitmap
        (s.nand.read (lmlCalculatePhyOpPar ar z b page)).main s.processTblBuf) F s := by
  refine WP.bind (WP.bind (WP.get (WP.bind (WP.emit fun _ => ⟨trivial, WP.bind (WP.modify ?_)⟩))))
  rw [henv.read]
  exact WP.pure (WP.bind (WP.modify (WP.pure ⟨rfl, ⟨rfl, hs⟩, rfl, rfl⟩)))

/-- The table block of a zone has no page of a block that the tables are about. -/
theorem tblBlk_apart (har : ar.Fits) {z z' b : Nat} (hz : ar.IsZone z) (hz' : ar.IsZone z')
    (hb : b ∈ L.blks z') (q : Nat) :
    lmlCalculatePhyOpPar ar z' b q ∉ superBlk ar z (L.tblBlk z) := fun hin => by
  have htbl := L.tblBlk_mem_own z
  obtain ⟨hdie, rfl⟩ := (mem_superBlk_iff har (L.isSuperBlk_listed hz' hb)
    (L.isSuperBlk hz htbl) q).mp hin
  by_cases hne : z' = z
  · exact L.tblBlk_not_mem z (hne ▸ hb)
  · exact Multiset.disjoint_left.mp (L.apart z' z hne hdie) (L.mem_own hb) htbl

/-- Pages of table blocks are apart. -/
theorem tblPage_ne (har : ar.Fits) {z z' q q' : Nat} (hz : ar.IsZone z) (hz' : ar.IsZone z')
    (hq : q < ar.pageCntOfLogicBlk) (hq' : q' < ar.pageCntOfLogicBlk) (hne : ¬(z = z' ∧ q = q')) :
    lmlCalculatePhyOpPar ar z (L.tblBlk z) q ≠ lmlCalculatePhyOpPar ar z' (L.tblBlk z') q' := by
  intro heq
  have hsuper := L.isSuperBlk hz (L.tblBlk_mem_own z)
  have hsuper' := L.isSuperBlk hz' (L.tblBlk_mem_own z')
  by_cases hsame : z = z'
  · subst hsame
    exact hne ⟨rfl, (pageAddr_inj har hsuper hsuper' hq hq' heq).2⟩
  · have hin : lmlCalculatePhyOpPar ar z (L.tblBlk z) q ∈ superBlk ar z' (L.tblBlk z') := by
      rw [heq]
      exact pageAddr_mem ar _ _ _
    obtain ⟨hdie, hblk⟩ := (mem_superBlk_iff har hsuper hsuper' q).mp hin
    refine Multiset.disjoint_left.mp (L.apart z z' hsame hdie) (L.tblBlk_mem_own z) ?_
    rw [hblk]
    exact L.tblBlk_mem_own z'

/-- The dirty page is in the table block, behind the group. -/
theorem bmmSetDirtyFlag_marks (har : ar.Fits) (henv : env.NoFailure) (hs : s.Clear)
    (hz : ar.IsZone s.curMapZone)
    (htbl : ∀ z, ar.IsZone z → (s.zoneTblPst z).phyBlkNum = L.tblBlk z)
    (hplace : TblPlace ar s.nand.cell s.curMapZone (s.zoneTblPst s.curMapZone)) :
    WP anyRun (bmmSetDirtyFlag ar env) (fun _ s' => SameTables L s s' ∧ Within s s' ∧
      s'.pageCache = s.pageCache ∧ s'.blkMapCache.dirtyFlag = true) F s := by
  refine WP.bind (WP.get (WP.when (fun _ => ?_) fun hclean => ?_))
  · refine WP.bind (WP.bind (WP.get (WP.bind (WP.modify (WP.bind ?_)))))
    refine (@writeTbl_programs ar env F
      { s with processTblBuf := s.processTblBuf.copy 256 fun _ => 0x5555 } henv hs s.curMapZone (s.zoneTblPst s.curMapZone).phyBlkNum _ _).imp ?_
    rintro _ s₁ ⟨-, h₁, hcell⟩
    refine WP.pure (WP.modify ?_)
    have hcache : s₁.blkCache = s.blkCache := h₁.blkCache
    have hact : s₁.actBlk = s.actBlk := h₁.actBlk
    have hblk : s₁.blkMapCache = s.blkMapCache := h₁.blkMapCache
    have hpst : s₁.zoneTblPst = s.zoneTblPst := by rw [h₁.eq]
    have hnew : (s₁.setBlkMapCache fun c => { c with dirtyFlag := true }).blkMapCache =
        { s.blkMapCache with dirtyFlag := true } := by
      rw [Ftl.blkMapCache_setBlkMapCache, hblk]
    have hw : Within s (s₁.setBlkMapCache fun c => { c with dirtyFlag := true }) := by
      refine ⟨h₁.clear, hpst, hact, h₁.actPage, ?_, fun _ => ?_, fun j hj => ?_, fun j _ => ?_, ?_⟩
      · rw [Ftl.curMapZone, hnew]
        rfl
      · rw [hnew]
      · show Function.update s₁.blkCache s₁.actBlk _ j = _
        rw [Function.update_of_ne (hact ▸ hj), hcache]
      · show s₁.pageCache j = _
        rw [h₁.pageCache]
      · show s₁.outside = _
        rw [h₁.eq]
        rfl
    have hslot (j : Fin 4) :
        ((s₁.setBlkMapCache fun c => { c with dirtyFlag := true }).blkCache j).zoneNum =
          (s.blkCache j).zoneNum ∧
        ((s₁.setBlkMapCache fun c => { c with dirtyFlag := true }).blkCache j).tbls =
          (s.blkCache j).tbls := by
      by_cases hj : j = s.actBlk
      · rw [hj, ← hw.actBlk]
        show (Ftl.blkMapCache _).zoneNum = _ ∧ (Ftl.blkMapCache _).tbls = _
        rw [hnew, hw.actBlk]
        exact ⟨rfl, rfl⟩
      · rw [hw.blkCache_ne j hj]
        exact ⟨rfl, rfl⟩
    refine ⟨⟨h₁.clear, fun z hz' b hb q _ => ?_, fun z hz' => .of_cells (congrFun hpst z)
      fun q hq hne => ?_, fun j => (hslot j).1, fun j => (hslot j).2, hw.dirty, fun j hj hd => ?_,
      fun j hj => ?_⟩, hw, h₁.pageCache, ?_⟩
    · show s₁.nand.cell _ = _
      rw [hcell, Function.update_of_ne fun heq => ?_]
      refine tblBlk_apart har hz hz' hb q (L := L) ?_
      rw [heq, htbl _ hz]
      exact pageAddr_mem ar _ _ _
    · show s₁.nand.cell _ = _
      rw [hcell]
      refine Function.update_of_ne ?_ ..
      rw [htbl _ hz, htbl z hz']
      refine tblPage_ne har hz' hz hq hplace.room fun hboth => hne ?_
      rw [hboth.2, hboth.1]
    · have hne : j ≠ s.actBlk := by
        rintro rfl
        exact hz.ne_none har hj
      rwa [hw.blkCache_ne j hne]
    · have hpage : (s₁.setBlkMapCache fun c => { c with dirtyFlag := true }).pageCache =
          s.pageCache := h₁.pageCache
      rw [hpage]
      exact ⟨rfl, rfl, rfl, id⟩
    · rw [hnew]
  · exact ⟨.refl hs, ⟨hs, rfl, rfl, rfl, rfl, id, fun _ _ => rfl, fun _ _ => rfl, rfl⟩, rfl,
      Bool.eq_true_of_not_eq_false hclean⟩

/-! ## Merging a cached log block -/

/-- A page map of the active zone. -/
theorem Coherent.mapOK (hc : Coherent L s) (hact : s.curMapZone ≠ 0xff) {j : Fin 4}
    (hj : (s.pageCache j).zoneNum = s.curMapZone) :
    MapOK ar s.nand.cell s.curMapZone s.tbls (s.pageCache j) :=
  hc.map s.actBlk j hj.symm (hj ▸ hact)

theorem Coherent.active (hc : Coherent L s) (hact : s.curMapZone ≠ 0xff) :
    ar.IsZone s.curMapZone := hc.zone s.actBlk hact

theorem Coherent.activeTbls (hc : Coherent L s) (hact : s.curMapZone ≠ 0xff) :
    ZoneOK L s.nand.cell s.curMapZone s.tbls := hc.tbls s.actBlk hact

theorem Coherent.mergeReady (hc : Coherent L s) (hact : s.curMapZone ≠ 0xff) (hmap : s.HasMapOf i) :
    MergeReady L (s.tbls.logBlkTbl i).logicBlkNum i s := by
  have hok := hc.mapOK hact hmap.1
  rw [show s.pageCache s.actPage = s.pageMapCache from rfl] at hok
  have hpst := hok.pst_lt
  have hused := hok.used
  have hmapOf := hok.map
  rw [hmap.2] at hpst hused hmapOf
  exact ⟨hc.clear, hc.active hact, hc.activeTbls hact, hpst, rfl, hused, hmapOf⟩

/-- The other page maps of the active zone are about other positions. -/
theorem Coherent.otherMap_ne (hc : Coherent L s) (hact : s.curMapZone ≠ 0xff) (hmap : s.HasMapOf i)
    {j : Fin 4} (hj : j ≠ s.actPage) (hzone : (s.pageCache j).zoneNum = s.curMapZone) :
    (s.pageCache j).logBlkPst ≠ i := fun heq =>
  hj (hc.map_inj j s.actPage (hzone.trans hmap.1.symm) (heq.trans hmap.2.symm) (hzone ▸ hact))

/-- They stay right when the log block of the position goes on. -/
theorem Coherent.otherMap_logStep (har : ar.Fits) (hc : Coherent L s) (hact : s.curMapZone ≠ 0xff)
    (hmap : s.HasMapOf i) {c' : Cells} {l : LogBlk}
    (hnum : l.logicBlkNum = (s.tbls.logBlkTbl i).logicBlkNum)
    (htouched : Touched ar s.curMapZone {(s.tbls.logBlkTbl i).phyBlk.phyBlkNum} s.nand.cell c')
    {j : Fin 4} (hj : j ≠ s.actPage) (hzone : (s.pageCache j).zoneNum = s.curMapZone) :
    MapOK ar c' s.curMapZone (s.tbls.setLog i l) (s.pageCache j) := by
  have hready := hc.mergeReady hact hmap
  have hmapj := hc.mapOK hact hzone
  have hne := hc.otherMap_ne hact hmap hj hzone
  have hre := logStep (l := l) hready.ok hready.pst_lt hready.used hnum htouched
  exact hmapj.congr (Function.update_of_ne hne ..)
    (hre.sameLog har hready.zone hready.ok hmapj.pst_lt hne hmapj.used)

theorem MergedTbls.zoneStep {s' : Ftl} (h : MergedTbls L i s s')
    (hd : s.blkMapCache.dirtyFlag = true) : ZoneStep L s s' :=
  ⟨h.frame.within, hd, h.ok, h.touched⟩

theorem MergedTbls.kept {s' : Ftl} (h : MergedTbls L i s s') :
    PagesKept ar s.curMapZone s.nand.cell s.tbls s'.nand.cell s'.tbls := fun k hk hinfo =>
  ⟨h.infos k hk hinfo, fun p hp => h.pages k hk p hp⟩

theorem MergedTbls.coherent (har : ar.Fits) (hc : Coherent L s) (hact : s.curMapZone ≠ 0xff)
    (hd : s.blkMapCache.dirtyFlag = true) (hmap : s.HasMapOf i) {s' : Ftl} (h : MergedTbls L i s s')
    (hend : LogGone i s' ∨ LogKept ar i s s') : Coherent L s' := by
  have hready := hc.mergeReady hact hmap
  refine (h.zoneStep hd).coherent har hc hact (fun hne => ?_) fun j hj hzone => ?_
  · obtain hgone | hkept := hend
    · exact absurd hgone.slot hne
    have hslot := hkept.slot
    have hpst : s'.pageMapCache.logBlkPst = i := by
      rw [hslot]
      exact hmap.2
    have hzone : s'.pageMapCache.zoneNum = s.curMapZone := by
      rw [hslot]
      exact hmap.1
    refine ⟨hzone, ⟨?_, ?_, fun _ => ?_, ?_⟩, fun j hj hzone' => ?_⟩
    · rw [hpst]
      exact hready.pst_lt
    · rw [hpst]
      show (s'.tbls.logBlkTbl i).logicBlkNum ≠ 0xffff
      rw [hkept.num]
      exact hready.used
    · rw [hpst]
      have hroom := hkept.room
      have hmaps := har.maps
      show (s'.tbls.logBlkTbl i).lastUsedPage ≠ 0xffff
      omega
    · rw [hpst]
      exact hkept.map
    · rw [hpst]
      exact hc.otherMap_ne hact hmap hj hzone'
  · have hok := hc.mapOK hact hzone
    obtain ⟨hlog, hsame⟩ := h.logs _ hok.pst_lt (hc.otherMap_ne hact hmap hj hzone)
    exact hok.congr hlog.log (hsame hok.used)

/-- A merge of the log block whose page map is active. -/
theorem merge_coherent (har : ar.Fits) (hcopy : ar.CopiesExactly) (henv : env.NoFailure)
    (hc : Coherent L s) (hact : s.curMapZone ≠ 0xff) (hd : s.blkMapCache.dirtyFlag = true)
    (hmap : s.HasMapOf i) (nMode : MergeMode)
    (hmode : nMode = .special → (s.tbls.logBlkTbl i).lastUsedPage ≠ 0xffff) :
    WP anyRun (lmlMergeLogBlk ar env nMode (s.tbls.logBlkTbl i).logicBlkNum)
      (fun _ s' => Coherent L s' ∧ DiskStays ar s s' ∧ MergedTbls L i s s' ∧
        (LogGone i s' ∨ nMode = .special ∧ LogKept ar i s s')) F s := by
  refine (merge_keeps har hcopy henv (hc.mergeReady hact hmap) nMode hmode).imp ?_
  rintro _ s' ⟨hmerged, hend⟩
  exact ⟨hmerged.coherent har hc hact hd hmap (hend.imp_right And.right),
    (hmerged.zoneStep hd).stays har hc hact hmerged.kept, hmerged, hend⟩

/-! ## A page map leaves its slot -/

/-- A position of the active log block table belongs to the logical block that it has belonged to, or to
none. -/
def NumOrNone (s s' : Ftl) (j : Nat) : Prop :=
  (s'.tbls.logBlkTbl j).logicBlkNum = (s.tbls.logBlkTbl j).logicBlkNum ∨
    (s'.tbls.logBlkTbl j).logicBlkNum = 0xffff

theorem NumOrNone.trans {s' s'' : Ftl} {j : Nat} (h : NumOrNone s s' j) (h' : NumOrNone s' s'' j) :
    NumOrNone s s'' j := by
  rcases h' with heq | hnone
  · exact h.imp heq.trans heq.trans
  · exact .inr hnone

/-- The page map of position `i` has left the active slot; the other log blocks are as before. -/
structure MapLeft (L : ZoneLayout ar) (i : Nat) (s s' : Ftl) : Prop where
  coherent : Coherent L s'
  stays : DiskStays ar s s'
  within : Within s s'
  slot : s'.pageMapCache.zoneNum = 0xff
  logs : ∀ j < logBlkCntOfZone, j ≠ i → LogSame s.tbls s'.tbls j
  num : NumOrNone s s' i

/-- The page map is programmed in the first round. -/
theorem writePageMapRound_programs (henv : env.NoFailure) (hs : s.Clear) (q : Nat)
    (hblank : s.nand.cell (lmlCalculatePhyOpPar ar s.curMapZone
      (s.tbls.logBlkTbl i).phyBlk.phyBlkNum q) = none) :
    WP anyRun (writePageMapRound ar env i q (s.tbls.logBlkTbl i).phyBlk.phyBlkNum)
      (fun r s₁ => ∃ a, r = .inr a ∧ Flashed s s₁ ∧ s₁.nand.cell = Function.update s.nand.cell
        (lmlCalculatePhyOpPar ar s.curMapZone (s.tbls.logBlkTbl i).phyBlk.phyBlkNum q)
        (some (mapPage ar s.pageMapTbl))) F s := by
  refine WP.bind (WP.get (WP.bind (WP.modify (WP.bind ?_))))
  refine (@writeTbl_programs ar env F { s with processTblBuf := pageMapBuf ar s.pageMapTbl } henv
    hs s.curMapZone _ _ _).imp ?_
  rintro _ s₁ ⟨rfl, h₁, hcell⟩
  refine WP.ite (fun hne => absurd rfl hne) fun _ => WP.pure ⟨(), rfl, ⟨?_, h₁.clear⟩, ?_⟩
  · rw [h₁.eq]
  · rw [hcell, Nand.programmed, show s.nand.cell _ = none from hblank]
    rfl

/-- The part of `_write_back_page_map_tbl` behind the merge. -/
theorem storeMap_leaves (har : ar.Fits) (henv : env.NoFailure) (hc : Coherent L s)
    (hact : s.curMapZone ≠ 0xff) (hd : s.blkMapCache.dirtyFlag = true) (hmap : s.HasMapOf i)
    (hlast : (s.tbls.logBlkTbl i).lastUsedPage ≠ 0xffff)
    (hnext : (s.tbls.logBlkTbl i).lastUsedPage + 1 < ar.pageCntOfLogicBlk) :
    WP anyRun (do
        iterate (writePageMapRound ar env i (u16 ((s.tbls.logBlkTbl i).lastUsedPage + 1)))
          (ar.freeBlkCntOfZone + 2) (s.tbls.logBlkTbl i).phyBlk.phyBlkNum
        setLogAt i ({ · with lastUsedPage := u16 ((s.tbls.logBlkTbl i).lastUsedPage + 1) })
        modify (·.setPageMapCache fun c => { c with zoneNum := 0xff, logBlkPst := 0xff }))
      (fun _ s' => MapLeft L i s s') F s := by
  have hready := hc.mergeReady hact hmap
  have hok := hc.activeTbls hact
  have hlog := hready.logOK
  have hmaps := har.maps
  have hsuper : ar.IsSuperBlk s.curMapZone (s.tbls.logBlkTbl i).phyBlk.phyBlkNum :=
    hready.isSuperBlk hready.log_mem
  rw [show u16 ((s.tbls.logBlkTbl i).lastUsedPage + 1) = (s.tbls.logBlkTbl i).lastUsedPage + 1 from
    Nat.mod_eq_of_lt (by omega)]
  have hblank := hlog.blank _ hnext (by rw [LogBlk.usedPages, if_neg hlast])
  have hround := writePageMapRound_programs (F := F) henv hc.clear _ hblank
  refine WP.bind ((iterate_once (ar.freeBlkCntOfZone + 1) hround).imp ?_)
  rintro _ s₁ ⟨h₁, hcell⟩
  refine WP.bind (WP.modify (WP.modify ?_))
  have hall := (h₁.setTbls fun t => t.setLog i
    { t.logBlkTbl i with lastUsedPage := (s.tbls.logBlkTbl i).lastUsedPage + 1 }).setPageMapCache
      fun c => { c with zoneNum := 0xff, logBlkPst := 0xff }
  rw [Ftl.setTbls_eq s] at hall
  have htbls := hall.tbls.trans (Ftl.withTbls_tbls ..)
  have hslot := hall.pageMapCache.trans (Ftl.setPageMapCache_pageMapCache ..)
  have hlocal : Local s _ := ⟨_, _, _, hall⟩
  generalize hs₂ : (s₁.setTbls _).setPageMapCache _ = s₂ at *
  have hcell₂ : s₂.nand.cell = Function.update s.nand.cell
      (lmlCalculatePhyOpPar ar s.curMapZone (s.tbls.logBlkTbl i).phyBlk.phyBlkNum
        ((s.tbls.logBlkTbl i).lastUsedPage + 1)) (some (mapPage ar s.pageMapTbl)) := by
    rw [← hs₂]
    exact hcell
  have htouched : Touched ar s.curMapZone {(s.tbls.logBlkTbl i).phyBlk.phyBlkNum} s.nand.cell
      s₂.nand.cell := by
    rw [hcell₂]
    exact Touched.update _ _ _
  have hre := logStep (l := { s.tbls.logBlkTbl i with
    lastUsedPage := (s.tbls.logBlkTbl i).lastUsedPage + 1 }) hok hready.pst_lt hready.used rfl htouched
  have hdata := hre.sameBlock har hready.zone hready.data_mem
    (hok.data_ne_log hready.blk_lt hready.pst_lt hready.used)
  have hok₂ : ZoneOK L s₂.nand.cell s.curMapZone s₂.tbls := by
    rw [htbls]
    refine logStep_ok har hready.zone hok hready.pst_lt hready.used rfl rfl htouched ?_
    rw [hcell₂] at hdata ⊢
    refine hlog.store har hsuper hlast hnext hready.map ?_
    show (pageAt ar _ _ (s.tbls.dataBlkTbl _).phyBlkNum 0).spare.logicInfo ≠ 0xffff
    rw [hdata.pageAt har.pageCnt_pos]
    exact hready.dataInfo
  have hstep : ZoneStep L s s₂ := by
    refine ⟨hlocal.within, hd, hok₂, htouched.mono ?_⟩
    rintro b rfl
    exact hready.log_mem
  have hkept : PagesKept ar s.curMapZone s.nand.cell s.tbls s₂.nand.cell s₂.tbls := by
    rw [htbls] at hok₂ ⊢
    refine logStep_kept har hready.zone hok hready.pst_lt hready.used rfl htouched fun p hp => ?_
    rw [pageOf_setLog_same hok₂ hready.pst_lt hready.used (by rfl) (by rfl) har hready.zone hok
      htouched hp (by rw [hcell₂, logPageOf_put_ne har hsuper hnext hblank hp (mapPage_num har _ hp)])
      fun d hd hnum => ?_]
    · exact .refl _
    · rw [hcell₂, pageAt_put har hsuper hnext hd, if_neg fun heq => ?_]
      exact numAt_blank har hblank (heq ▸ hnum.symm ▸ hp)
  refine ⟨hstep.coherent har hc hact (fun hne => absurd (congrArg _ hslot) hne) fun j hj hzone => ?_,
    hstep.stays har hc hact hkept, hlocal.within, congrArg _ hslot, fun j hj hne => ?_, .inl ?_⟩
  · rw [htbls]
    exact hc.otherMap_logStep har hact hmap (by rfl) htouched hj hzone
  · rw [htbls]
    exact ⟨Function.update_of_ne hne .., fun _ => rfl⟩
  · rw [htbls]
    simp [BlkTbls.setLog]

theorem writeBackPageMapTbl_leaves (har : ar.Fits) (hcopy : ar.CopiesExactly) (henv : env.NoFailure)
    (hc : Coherent L s) (hact : s.curMapZone ≠ 0xff) (hd : s.blkMapCache.dirtyFlag = true)
    (hmap : s.HasMapOf i) (hlast : (s.tbls.logBlkTbl i).lastUsedPage ≠ 0xffff) :
    WP anyRun (writeBackPageMapTbl ar env i) (fun _ s' => MapLeft L i s s') F s := by
  have hmaps := har.maps
  have hlt := (hc.mergeReady hact hmap).logOK.last hlast
  have hu16 : u16 ((s.tbls.logBlkTbl i).lastUsedPage + 1) = (s.tbls.logBlkTbl i).lastUsedPage + 1 :=
    Nat.mod_eq_of_lt (by omega)
  refine WP.bind (WP.get ?_)
  by_cases hfull : u16 ((s.tbls.logBlkTbl i).lastUsedPage + 1) = ar.pageCntOfLogicBlk
  · refine WP.bind (WP.when (fun _ => ?_) fun hnot => absurd hfull hnot)
    refine (merge_coherent har hcopy henv hc hact hd hmap .special fun _ => hlast).imp ?_
    rintro _ s₁ ⟨hc₁, hstays, hmerged, hend⟩
    refine WP.bind (WP.get (WP.when (fun hmore => ?_) fun hdone => ?_))
    · obtain hgone | ⟨-, hkept⟩ := hend
      · exact absurd ⟨hfull, hgone.slot⟩ hmore
      have hcur := hstays.curMapZone
      have hslot := hkept.slot
      have hroom := hkept.room
      have hpos := har.pos
      have hmap₁ : s₁.HasMapOf i := by
        refine ⟨?_, ?_⟩
        · rw [hcur, hslot]
          exact hmap.1
        · rw [hslot]
          exact hmap.2
      refine (storeMap_leaves har henv hc₁ (hcur ▸ hact) (hstays.marked hd) hmap₁ (by omega)
        (by omega)).imp ?_
      rintro _ s₂ h₂
      exact ⟨h₂.coherent, hstays.trans h₂.stays, hmerged.frame.within.trans h₂.within, h₂.slot,
        fun j hj hne => (hmerged.logs j hj hne).1.trans (h₂.logs j hj hne),
        NumOrNone.trans (.inl hkept.num) h₂.num⟩
    · refine ⟨hc₁, hstays, hmerged.frame.within, (not_not.mp hdone).2,
        fun j hj hne => (hmerged.logs j hj hne).1, ?_⟩
      rcases hend with hgone | ⟨-, hkept⟩
      · exact .inr (congrArg LogBlk.logicBlkNum hgone.log)
      · exact .inl hkept.num
  · refine WP.bind (WP.when (fun hyes => absurd hyes hfull) fun _ => WP.bind (WP.get
      (WP.when (fun _ => ?_) fun hnot => absurd (fun hboth => hfull hboth.1) hnot)))
    exact storeMap_leaves har henv hc hact hd hmap hlast (by omega)

/-! ## A page map comes into the active slot -/

/-- The active slot is given up. -/
def Ftl.dropMap (s : Ftl) : Ftl := s.setPageMapCache fun c => { c with zoneNum := 0xff }

/-- The page map of position `i` is in the active slot, which has no label yet. -/
structure MapRead (L : ZoneLayout ar) (i : Nat) (s s' : Ftl) : Prop where
  same : SameTables L s.dropMap s'.dropMap
  actBlk : s'.actBlk = s.actBlk
  actPage : s'.actPage = s.actPage
  outside : s'.outside = s.outside
  map : IsMapOf ar s'.nand.cell s.curMapZone (s.tbls.logBlkTbl i).phyBlk.phyBlkNum s'.pageMapTbl
  dirty : s'.pageMapCache.dirtyFlag = true → s.pageMapCache.dirtyFlag = true ∨
    (s.tbls.logBlkTbl i).lastUsedPage ≠ 0xffff ∧ s'.blkMapCache.dirtyFlag = true

/-- From a state in which the pages of the log block have been looked at, up to page `n`. -/
structure Rebuilding (ar : LogicArchi) (i : Nat) (s : Ftl) (n : Nat) (s' : Ftl) : Prop where
  flashed : Flashed (s.withMap s'.pageMapTbl) s'
  cell : s'.nand.cell = s.nand.cell
  map : ∀ p < ar.pageCntOfLogicBlk, s'.pageMapTbl p = mapEntry (latest
    (numAt ar s.nand.cell s.curMapZone (s.tbls.logBlkTbl i).phyBlk.phyBlkNum) n p)

theorem rebuildRound_maps (har : ar.Fits) (henv : env.NoFailure) {n : Nat} {s₁ : Ftl}
    (h : Rebuilding ar i s n s₁) :
    WP anyRun (do
        let (ret, u) ← readTbl ar env s.curMapZone (s.tbls.logBlkTbl i).phyBlk.phyBlkNum n 0x3
        failIf (ret < 0) (-1)
        when (u.logicPageNum ≠ 0xffff ∧ u.logicPageNum < ar.pageCntOfLogicBlk)
          (pmmSetCurMapPage u.logicPageNum n))
      (fun _ s' => Rebuilding ar i s (n + 1) s') F s₁ := by
  refine WP.bind ((readTbl_gives henv h.flashed.clear _ _ _ _).imp ?_)
  rintro _ s₂ ⟨rfl, h₂, hcell, -⟩
  have hnum : (s₁.nand.read (lmlCalculatePhyOpPar ar s.curMapZone
      (s.tbls.logBlkTbl i).phyBlk.phyBlkNum n)).spare.logicPageNum =
      numAt ar s.nand.cell s.curMapZone (s.tbls.logBlkTbl i).phyBlk.phyBlkNum n := by
    rw [Nand.read, h.cell]
    rfl
  refine WP.bind (WP.failIf (fun hneg => absurd hneg (by decide)) fun _ => ?_)
  rw [hnum]
  generalize hp₀ : numAt ar s.nand.cell s.curMapZone (s.tbls.logBlkTbl i).phyBlk.phyBlkNum n = p₀ at *
  have hmap₂ := h₂.pageMapTbl
  have hflashed := h.flashed.trans h₂
  refine WP.when (fun hset => WP.modify ?_) fun hnot => ⟨?_, hcell.trans h.cell, fun p hp => ?_⟩
  · have hall := hflashed.setPageMapCache fun c => { c with
      pageMapTbl := Function.update c.pageMapTbl p₀ n }
    rw [Ftl.withMap_set] at hall
    have hmap := hall.pageMapTbl.trans (Ftl.withMap_pageMapTbl ..)
    refine ⟨?_, hcell.trans h.cell, fun p hp => ?_⟩
    · rw [hmap]
      exact hall
    · rw [hmap, latest, hp₀]
      by_cases hpn : p₀ = p
      · rw [if_pos hpn, hpn, Function.update_self]
        rfl
      · rw [if_neg hpn, Function.update_of_ne (Ne.symm hpn)]
        exact h.map p hp
  · rw [hmap₂]
    exact hflashed
  · have hmaps := har.maps
    rw [hmap₂, latest, hp₀, if_neg]
    · exact h.map p hp
    · rintro rfl
      exact hnot ⟨by omega, hp⟩

theorem Ftl.dropMap_slot (s : Ftl) : (s.dropMap.pageCache s.actPage).zoneNum = 0xff := by
  show (Function.update s.pageCache s.actPage _ s.actPage).zoneNum = 0xff
  rw [Function.update_self]

theorem Ftl.dropMap_pageCache_ne (s : Ftl) {j : Fin 4} (hj : j ≠ s.actPage) :
    s.dropMap.pageCache j = s.pageCache j := Function.update_of_ne hj ..

/-- What the active slot holds does not matter when it has been given up. -/
theorem dropMap_same {s' : Ftl} (h : Within s s')
    (hcells : ∀ z, ar.IsZone z → SameBlks L z s.nand.cell s'.nand.cell ∧ TblsSafe ar z s s')
    (hunused : ∀ j, (s.blkCache j).zoneNum = 0xff → (s.blkCache j).dirtyFlag = false →
      (s'.blkCache j).dirtyFlag = false)
    (htbls : ∀ j, (s'.blkCache j).tbls = (s.blkCache j).tbls) :
    SameTables L s.dropMap s'.dropMap where
  clear := h.clear
  cells z hz := (hcells z hz).1
  safe z hz := ⟨(hcells z hz).2.blk, (hcells z hz).2.place, (hcells z hz).2.stored⟩
  dirty := h.dirty
  unused := hunused
  zones j := by
    show (s'.blkCache j).zoneNum = (s.blkCache j).zoneNum
    by_cases hj : j = s.actBlk
    · have hzone := h.zone
      unfold Ftl.curMapZone Ftl.blkMapCache at hzone
      rw [h.actBlk] at hzone
      rw [hj]
      exact hzone
    · rw [h.blkCache_ne j hj]
  tbls := htbls
  maps j hj := by
    by_cases hact : j = s'.actPage
    · exact absurd (hact ▸ s'.dropMap_slot) hj
    · have hact' : j ≠ s.actPage := h.actPage ▸ hact
      rw [s'.dropMap_pageCache_ne hact, s.dropMap_pageCache_ne hact', h.pageCache_ne j hact']
      exact ⟨rfl, rfl, rfl, id⟩

theorem dropMap_same_of_cell {s' : Ftl} (h : Within s s') (hcell : s'.nand.cell = s.nand.cell)
    (hblk : s'.blkCache = s.blkCache) : SameTables L s.dropMap s'.dropMap :=
  dropMap_same h (fun _ _ => ⟨fun _ _ _ _ => congrFun hcell _, .of_eq h.zoneTblPst hcell⟩)
    (fun j _ hd => by rwa [hblk]) fun j => by rw [hblk]

/-- Only the active page map has changed, besides the flash and the buffers. -/
theorem Flashed.within_slot {s' : Ftl} {f : PageMapTblCache → PageMapTblCache}
    (h : Flashed (s.setPageMapCache f) s') : Within s s' where
  clear := h.clear
  zoneTblPst := by
    rw [h.eq]
    rfl
  actBlk := h.actBlk
  actPage := h.actPage
  zone := h.curMapZone
  marked hd := by
    rw [h.blkMapCache]
    exact hd
  blkCache_ne j _ := by
    rw [h.blkCache]
    rfl
  pageCache_ne j hj := by
    rw [h.pageCache]
    exact Function.update_of_ne hj ..
  outside := by
    rw [h.eq]
    rfl

theorem Flashed.within {s' : Ftl} (h : Flashed s s') : Within s s' := by
  have hself : s.setPageMapCache id = s := by
    simp [Ftl.setPageMapCache, Ftl.pageMapCache]
  exact Flashed.within_slot (f := id) (hself.symm ▸ h)

/-- `_rebuild_page_map_tbl`: the last page with its number is the place of a logical page. -/
theorem rebuildPageMapTbl_rebuilds (har : ar.Fits) (henv : env.NoFailure)
    (hc : Coherent L s.dropMap) (hact : s.curMapZone ≠ 0xff) (hi : i < logBlkCntOfZone)
    (hused : (s.tbls.logBlkTbl i).logicBlkNum ≠ 0xffff)
    (hlast : (s.tbls.logBlkTbl i).lastUsedPage ≠ 0xffff) :
    WP anyRun (rebuildPageMapTbl ar env i) (fun _ s' => MapRead L i s s') F s := by
  have hz : ar.IsZone s.curMapZone := hc.active hact
  have hok : ZoneOK L s.nand.cell s.curMapZone s.tbls := hc.activeTbls hact
  have hstart : Rebuilding ar i s 0 (s.withMap fun _ => 0xffff) := by
    refine ⟨?_, rfl, fun p _ => ?_⟩
    · rw [Ftl.withMap_pageMapTbl]
      exact .refl hc.clear
    · rw [Ftl.withMap_pageMapTbl]
      rfl
  refine WP.bind (WP.modify (WP.bind (WP.get (WP.bind ((WP.forRange
    (I := fun n s' => Rebuilding ar i s n s') (fun n s₁ hn h => rebuildRound_maps har henv h)
    hstart).imp ?_)))))
  rintro _ s₁ h₁
  refine WP.bind (WP.modify ?_)
  have hall := h₁.flashed.setPageMapCache fun c => { c with dirtyFlag := true }
  have hslot := hall.pageMapCache.trans (Ftl.setPageMapCache_pageMapCache ..)
  generalize hs₂ : s₁.setPageMapCache _ = s₂ at *
  have hcell₂ : s₂.nand.cell = s.nand.cell := by
    rw [← hs₂]
    exact h₁.cell
  have hmap₂ : s₂.pageMapTbl = s₁.pageMapTbl := by
    rw [Ftl.pageMapTbl, hslot]
    exact s.withMap_pageMapTbl s₁.pageMapTbl
  have hall' : Flashed (s.setPageMapCache fun c =>
      { c with pageMapTbl := s₁.pageMapTbl, dirtyFlag := true }) s₂ := by
    have heq : (s.withMap s₁.pageMapTbl).setPageMapCache (fun c => { c with dirtyFlag := true }) =
        s.setPageMapCache fun c => { c with pageMapTbl := s₁.pageMapTbl, dirtyFlag := true } := by
      simp [Ftl.withMap, Ftl.setPageMapCache, Ftl.pageMapCache]
    rw [← heq]
    exact hall
  have hw := hall'.within_slot
  have hpst (z : Nat) (hz' : ar.IsZone z) : (s₂.zoneTblPst z).phyBlkNum = L.tblBlk z := by
    rw [hw.zoneTblPst]
    exact hc.tblBlk z hz'
  have hplace : TblPlace ar s₂.nand.cell s₂.curMapZone (s₂.zoneTblPst s₂.curMapZone) := by
    rw [hw.zone, hw.zoneTblPst, hcell₂]
    exact hc.place _ hz
  refine (bmmSetDirtyFlag_marks har henv hw.clear (hw.zone ▸ hz) hpst hplace).imp ?_
  rintro _ s₃ ⟨hsame, hw₃, hpages, hmarked⟩
  have hslot₃ : s₃.pageMapCache = s₂.pageMapCache := by
    rw [Ftl.pageMapCache, hpages, hw₃.actPage]
    rfl
  have hcells : ∀ z, ar.IsZone z → SameBlks L z s.nand.cell s₃.nand.cell := by
    rw [← hcell₂]
    exact hsame.cells
  have hblk₂ : s₂.blkCache = s.blkCache := by
    rw [hall'.blkCache]
    rfl
  have hsafe (z : Nat) (hz' : ar.IsZone z) : TblsSafe ar z s s₃ := by
    have hsafe' := hsame.safe z hz'
    have hplace' (hp : TblPlace ar s.nand.cell z (s.zoneTblPst z)) :
        TblPlace ar s₂.nand.cell z (s₂.zoneTblPst z) := by
      rw [hw.zoneTblPst, hcell₂]
      exact hp
    refine ⟨by rw [hsafe'.blk, hw.zoneTblPst], hsafe'.place ∘ hplace', fun hp hclean t ht => ?_⟩
    exact hsafe'.stored (hplace' hp) hclean t
      (ht.of_cells (congrFun hw.zoneTblPst z) (fun _ _ _ => congrFun hcell₂ _) hp.room)
  refine ⟨dropMap_same (hw.trans hw₃) (fun z hz' => ⟨hcells z hz', hsafe z hz'⟩) (fun j hj hd => ?_)
    fun j => ?_, hw₃.actBlk.trans hw.actBlk, hw₃.actPage.trans hw.actPage,
    hw₃.outside.trans hw.outside, ?_, fun _ => .inr ⟨hlast, hmarked⟩⟩
  · exact hsame.unused j (by rw [hblk₂]; exact hj) (by rw [hblk₂]; exact hd)
  · rw [hsame.tbls, hblk₂]
  · rw [Ftl.pageMapTbl, hslot₃]
    refine SameBlock.isMapOf (hcells _ hz _ (hok.log_mem hi hused)) ?_
    show IsMapOf ar s.nand.cell _ _ s₂.pageMapTbl
    rw [hmap₂]
    exact h₁.map

/-- A page map is read or rebuilt: it is the same. -/
theorem readPageMapTbl_reads (har : ar.Fits) (henv : env.NoFailure)
    (hc : Coherent L s.dropMap) (hact : s.curMapZone ≠ 0xff) (hi : i < logBlkCntOfZone)
    (hused : (s.tbls.logBlkTbl i).logicBlkNum ≠ 0xffff) :
    WP anyRun (readPageMapTbl ar env i) (fun _ s' => MapRead L i s s') F s := by
  have hok : ZoneOK L s.nand.cell s.curMapZone s.tbls := hc.activeTbls hact
  have hlog := hok.logs i hi hused
  have hmaps := har.maps
  have hclear : s.Clear := hc.clear
  -- the map alone is exchanged
  have hset {s₁ : Ftl} {map : Nat → Nat} (h₁ : Flashed s s₁) (hcell : s₁.nand.cell = s.nand.cell)
      (hmap : IsMapOf ar s.nand.cell s.curMapZone (s.tbls.logBlkTbl i).phyBlk.phyBlkNum map) :
      MapRead L i s (s₁.setPageMapCache fun c => { c with pageMapTbl := map }) := by
    have hall := h₁.setPageMapCache fun c => { c with pageMapTbl := map }
    have hslot := hall.pageMapCache.trans (Ftl.setPageMapCache_pageMapCache ..)
    have hw := hall.within_slot
    refine ⟨dropMap_same_of_cell hw hcell ?_, hw.actBlk, hw.actPage, hw.outside, ?_,
      fun hd => .inl ?_⟩
    · rw [hall.blkCache]
      rfl
    · rw [Ftl.pageMapTbl, hslot]
      show IsMapOf ar s₁.nand.cell _ _ map
      rw [hcell]
      exact hmap
    · rw [hslot] at hd
      exact hd
  refine WP.bind (WP.get (WP.ite (fun hempty => WP.modify (hset (.refl hclear) rfl ?_)) fun hlast => ?_))
  · intro p hp
    have hnone : logPageOf ar s.nand.cell s.curMapZone (s.tbls.logBlkTbl i).phyBlk.phyBlkNum p =
        none := latest_eq_none.mpr fun q hq hnum => by
      refine numAt_blank har (hlog.blank q hq ?_) (hnum.symm ▸ hp)
      rw [LogBlk.usedPages, if_pos hempty]
      exact Nat.zero_le q
    rw [hnone]
    rfl
  refine WP.bind ((readTbl_gives henv hclear _ _ _ _).imp ?_)
  rintro _ s₁ ⟨rfl, h₁, hcell, hbuf⟩
  refine WP.bind (WP.get (WP.ite (fun _ => ?_) fun hgood => WP.modify (hset h₁ hcell ?_)))
  · have hsame : SameTables L s.dropMap s₁.dropMap :=
      dropMap_same_of_cell h₁.within hcell h₁.blkCache
    have hact₁ : s₁.curMapZone ≠ 0xff := by
      rw [h₁.curMapZone]
      exact hact
    refine (rebuildPageMapTbl_rebuilds har henv (hsame.coherent har hc) hact₁ hi
      (by rw [h₁.tbls]; exact hused) (by rw [h₁.tbls]; exact hlast)).imp fun _ s₂ h₂ => ?_
    have hmap := h₂.map
    have hdirty := h₂.dirty
    rw [h₁.curMapZone, h₁.tbls] at hmap
    rw [h₁.pageMapCache, h₁.tbls] at hdirty
    exact ⟨hsame.trans h₂.same, h₂.actBlk.trans h₁.actBlk, h₂.actPage.trans h₁.actPage,
      h₂.outside.trans h₁.within.outside, hmap, hdirty⟩
  · rw [hbuf] at hgood ⊢
    simp only [not_or, not_not] at hgood
    obtain ⟨-, hstatus, hnum, hsum⟩ := hgood
    rw [word_copySectors _ _ (by decide)] at hsum
    have hacc : AcceptsPageMap ar (pageAt ar s.nand.cell s.curMapZone
        (s.tbls.logBlkTbl i).phyBlk.phyBlkNum (s.tbls.logBlkTbl i).lastUsedPage) :=
      ⟨hstatus, hnum, hsum ▸ getTblCheckSum_congr fun k hk =>
        (word_copySectors _ _ (by omega)).symm⟩
    intro p hp
    rw [← hlog.stored hlast hacc p hp]
    show (if p < ar.pageCntOfLogicBlk then _ else _) = _
    rw [if_pos hp, copySectors_low (by omega)]
    rfl

/-! ## A slot is made empty -/

/-- The active slot may have been given up; the other slots and the log blocks of the other page maps
are as before. -/
structure Evicted (L : ZoneLayout ar) (s s' : Ftl) : Prop where
  coherent : Coherent L s'
  stays : DiskStays ar s s'
  actPage : s'.actPage = s.actPage
  pageCache_ne : ∀ j, j ≠ s.actPage → s'.pageCache j = s.pageCache j
  logs : ∀ j < logBlkCntOfZone, ¬s.HasMapOf j → LogSame s.tbls s'.tbls j
  nums : ∀ j < logBlkCntOfZone, NumOrNone s s' j

/-- The tables in slot `b` are active while the page map is stored. -/
theorem evict_leaves (har : ar.Fits) (hcopy : ar.CopiesExactly) (henv : env.NoFailure)
    (hc : Coherent L s) (hdirty : s.pageMapCache.dirtyFlag = true)
    (hslot : s.pageMapCache.zoneNum ≠ 0xff) {b : Fin 4}
    (hb : (s.blkCache b).zoneNum = s.pageMapCache.zoneNum) :
    WP anyRun (do
        bmmSetDirtyFlag ar env
        writeBackPageMapTbl ar env s.pageMapCache.logBlkPst
        modify ({ · with actBlk := s.actBlk }))
      (fun _ s' => Evicted L s s') F { s with actBlk := b } := by
  generalize hs₀ : { s with actBlk := b } = s₀
  have hsame₀ : SameTables L s s₀ := by
    rw [← hs₀]
    exact .of_eq hc.clear rfl rfl (fun _ => ⟨rfl, rfl, rfl⟩) fun _ _ => ⟨rfl, rfl, rfl, id⟩
  have hc₀ := hsame₀.coherent har hc
  have hcur₀ : s₀.curMapZone = s.pageMapCache.zoneNum := by
    rw [← hs₀]
    exact hb
  have hmap₀ : s₀.HasMapOf s.pageMapCache.logBlkPst := by
    refine ⟨?_, ?_⟩
    · rw [hcur₀, ← hs₀]
      rfl
    · rw [← hs₀]
      rfl
  have hlast₀ := (hc₀.mapOK (hcur₀ ▸ hslot) hmap₀.1).dirty (by rw [← hs₀]; exact hdirty)
  have hlabel₀ : (s₀.pageCache s₀.actPage).logBlkPst = s.pageMapCache.logBlkPst := hmap₀.2
  rw [hlabel₀] at hlast₀
  have hz₀ := hc₀.active (hcur₀ ▸ hslot)
  refine WP.bind ((bmmSetDirtyFlag_marks har henv hc₀.clear hz₀ hc₀.tblBlk (hc₀.place _ hz₀)).imp ?_)
  rintro _ s₁ ⟨hsame₁, hw₁, hpages₁, hmarked₁⟩
  have hc₁ := hsame₁.coherent har hc₀
  have hslot₁ : s₁.pageMapCache = s₀.pageMapCache := by
    rw [Ftl.pageMapCache, hpages₁, hw₁.actPage]
    rfl
  have hmap₁ : s₁.HasMapOf s.pageMapCache.logBlkPst := by
    unfold Ftl.HasMapOf
    rw [hslot₁, hw₁.zone]
    exact hmap₀
  have htbls₁ : s₁.tbls = s₀.tbls := by
    show (s₁.blkCache s₁.actBlk).tbls = _
    rw [hsame₁.tbls, hw₁.actBlk]
    rfl
  have hact₁ : s₁.curMapZone ≠ 0xff := by
    rw [hw₁.zone, hcur₀]
    exact hslot
  refine WP.bind ((writeBackPageMapTbl_leaves har hcopy henv hc₁ hact₁ hmarked₁ hmap₁
    (by rw [htbls₁]; exact hlast₀)).imp fun _ s₂ h₂ => WP.modify ?_)
  have hsame₃ : SameTables L s₂ { s₂ with actBlk := s.actBlk } :=
    .of_eq h₂.coherent.clear rfl rfl (fun _ => ⟨rfl, rfl, rfl⟩) fun _ _ => ⟨rfl, rfl, rfl, id⟩
  have hstays₁ := (hsame₁.stays har hc₀ hw₁.actBlk hw₁.outside).trans h₂.stays
  have hw := hw₁.trans h₂.within
  -- the log blocks of the zone that is active again
  have hlogs (j : Nat) (hj : j < logBlkCntOfZone) :
      (¬s.HasMapOf j → LogSame s.tbls (s₂.blkCache s.actBlk).tbls j) ∧
        (((s₂.blkCache s.actBlk).tbls.logBlkTbl j).logicBlkNum =
            (s.tbls.logBlkTbl j).logicBlkNum ∨
          ((s₂.blkCache s.actBlk).tbls.logBlkTbl j).logicBlkNum = 0xffff) := by
    by_cases hbact : b = s.actBlk
    · have hself : s₀ = s := by rw [← hs₀, hbact]
      rw [hself] at htbls₁ hw hcur₀
      have htbls₂ : (s₂.blkCache s.actBlk).tbls = s₂.tbls := by
        rw [← show s₂.actBlk = s.actBlk from hw.actBlk]
        rfl
      rw [htbls₂, ← htbls₁]
      by_cases hlabel : j = s.pageMapCache.logBlkPst
      · rw [hlabel]
        exact ⟨fun hnot => absurd ⟨hcur₀.symm, rfl⟩ hnot, h₂.num⟩
      · have hlog := h₂.logs j hj hlabel
        exact ⟨fun _ => hlog, .inl (congrArg LogBlk.logicBlkNum hlog.log)⟩
    · have hne' : s.actBlk ≠ s₀.actBlk := by
        rw [← hs₀]
        exact Ne.symm hbact
      rw [hw.blkCache_ne _ hne', ← hs₀]
      exact ⟨fun _ => .refl .., .inl rfl⟩
  refine ⟨hsame₃.coherent har h₂.coherent, ⟨fun j => ?_, fun j hd => ?_, ?_, rfl, ?_⟩, ?_,
    fun j hj => ?_, fun j hj => (hlogs j hj).1, fun j hj => (hlogs j hj).2⟩
  · refine (hstays₁.zones j).trans ?_
    rw [← hs₀]
  · exact hstays₁.dirty j (by rw [← hs₀]; exact hd)
  · have hkept := hstays₁.kept
    rw [← hs₀] at hkept
    exact hkept
  · refine hstays₁.outside.trans ?_
    rw [← hs₀]
    rfl
  · refine hw.actPage.trans ?_
    rw [← hs₀]
  · refine (hw.pageCache_ne j (by rw [← hs₀]; exact hj)).trans ?_
    rw [← hs₀]

theorem evictPageMap_evicts (har : ar.Fits) (hcopy : ar.CopiesExactly) (henv : env.NoFailure)
    (hc : Coherent L s) : WP anyRun (evictPageMap ar env) (fun _ s' => Evicted L s s') F s := by
  refine WP.bind (WP.get (WP.when (fun hdirty => ?_) fun _ => ?_))
  · obtain ⟨hdirty, hslot⟩ := hdirty
    refine WP.bind (WP.when (fun hother => ?_) fun hsame => ?_)
    · obtain ⟨b, hb, -⟩ := hc.mapDirty s.actPage hslot hdirty
      obtain ⟨b', hb'⟩ := Option.isSome_iff_exists.mp (findSlot_isSome
        (p := fun i => (s.blkCache i).zoneNum = s.pageMapCache.zoneNum) (decide_eq_true hb))
      rw [hb']
      have hzone : (s.blkCache b').zoneNum = s.pageMapCache.zoneNum :=
        of_decide_eq_true (List.find?_some hb' :)
      exact WP.modify (evict_leaves har hcopy henv hc hdirty hslot hzone)
    · exact evict_leaves har hcopy henv hc hdirty hslot (b := s.actBlk) (not_not.mp hsame).symm
  · exact ⟨hc, .refl ar s, rfl, fun _ _ => rfl, fun _ _ _ => .refl .., fun _ _ => .inl rfl⟩

/-! ## The switch -/

/-- The page map of position `i` is active, and its log block is as before. -/
structure Switched (L : ZoneLayout ar) (i : Nat) (s s' : Ftl) : Prop where
  coherent : Coherent L s'
  stays : DiskStays ar s s'
  map : s'.HasMapOf i
  log : LogSame s.tbls s'.tbls i
  nums : ∀ j < logBlkCntOfZone, NumOrNone s s' j

/-- The slot gets its label when the page map has been read. -/
theorem Coherent.label (hc : Coherent L s.dropMap) (hact : s.curMapZone ≠ 0xff)
    (hok : MapOK ar s.nand.cell s.curMapZone s.tbls
      { s.pageMapCache with zoneNum := s.curMapZone, logBlkPst := i })
    (hdirty : s.pageMapCache.dirtyFlag = true → s.blkMapCache.dirtyFlag = true)
    (hapart : ∀ j, j ≠ s.actPage →
      ¬((s.pageCache j).zoneNum = s.curMapZone ∧ (s.pageCache j).logBlkPst = i)) :
    Coherent L (s.setPageMapCache fun c => { c with zoneNum := s.curMapZone, logBlkPst := i }) := by
  have hself : (s.setPageMapCache fun c =>
      { c with zoneNum := s.curMapZone, logBlkPst := i }).pageCache s.actPage =
      { s.pageMapCache with zoneNum := s.curMapZone, logBlkPst := i } := Function.update_self ..
  have hother {j : Fin 4} (hj : j ≠ s.actPage) : (s.setPageMapCache fun c =>
      { c with zoneNum := s.curMapZone, logBlkPst := i }).pageCache j = s.dropMap.pageCache j := by
    rw [s.dropMap_pageCache_ne hj]
    exact Function.update_of_ne hj ..
  refine ⟨hc.clear, hc.tblBlk, hc.place, hc.unused, hc.zone, hc.tbls, hc.clean, hc.zone_inj,
    fun z hz hout => ?_, fun j hj => ?_, fun b j heq hj => ?_, fun j hj hd => ?_,
    fun j j' heq hpst hj => ?_⟩
  · obtain ⟨t, hstored, hok', hmap⟩ := hc.away z hz hout
    refine ⟨t, hstored, hok', fun j hj => ?_⟩
    by_cases hjact : j = s.actPage
    · rw [hjact, hself] at hj
      exact absurd hj (hout s.actBlk)
    · rw [hother hjact] at hj ⊢
      exact hmap j hj
  · by_cases hjact : j = s.actPage
    · rw [hjact, hself]
      exact hc.zone s.actBlk hact
    · rw [hother hjact] at hj ⊢
      exact hc.mapZone j hj
  · by_cases hjact : j = s.actPage
    · rw [hjact, hself] at heq ⊢
      obtain rfl : b = s.actBlk := hc.zone_inj b s.actBlk heq (heq ▸ hact)
      exact hok
    · rw [hother hjact] at heq hj ⊢
      exact hc.map b j heq hj
  · by_cases hjact : j = s.actPage
    · rw [hjact, hself] at hd ⊢
      exact ⟨s.actBlk, rfl, hdirty hd⟩
    · rw [hother hjact] at hj hd ⊢
      exact hc.mapDirty j hj hd
  · by_cases hjact : j = s.actPage <;> by_cases hjact' : j' = s.actPage
    · rw [hjact, hjact']
    · rw [hjact, hself, hother hjact', s.dropMap_pageCache_ne hjact'] at heq hpst
      exact absurd ⟨heq.symm, hpst.symm⟩ (hapart j' hjact')
    · rw [hjact', hself, hother hjact, s.dropMap_pageCache_ne hjact] at heq hpst
      exact absurd ⟨heq, hpst⟩ (hapart j hjact)
    · rw [hother hjact] at heq hpst hj
      rw [hother hjact'] at heq hpst
      exact hc.map_inj j j' heq hpst hj

/-- Counting an access changes nothing. -/
theorem accessCnt_same (hs : s.Clear) (cnt : Fin 4 → Nat) (p : Fin 4) :
    SameTables L s { s with
      actPage := p, pageCache := fun j => { s.pageCache j with accessCnt := cnt j } } :=
  .of_eq hs rfl rfl (fun _ => ⟨rfl, rfl, rfl⟩) fun _ _ => ⟨rfl, rfl, rfl, id⟩

/-- Some slot is chosen; the labels are as before. -/
theorem postPageSlot_posts (L : ZoneLayout ar) (hs : s.Clear) :
    WP anyRun postPageSlot (fun _ s' => SameTables L s s' ∧ s'.actBlk = s.actBlk ∧
      s'.outside = s.outside ∧ ∀ j, (s'.pageCache j).zoneNum = (s.pageCache j).zoneNum ∧
        (s'.pageCache j).logBlkPst = (s.pageCache j).logBlkPst) F s := by
  refine WP.modify ?_
  cases findSlot fun i => (s.pageCache i).zoneNum = 0xff with
  | some j => exact ⟨accessCnt_same hs (fun j => (s.pageCache j).accessCnt) j, rfl, rfl,
      fun _ => ⟨rfl, rfl⟩⟩
  | none => exact ⟨accessCnt_same hs _ _, rfl, rfl, fun _ => ⟨rfl, rfl⟩⟩

theorem pageMapTblCachePost_switches (har : ar.Fits) (hcopy : ar.CopiesExactly)
    (henv : env.NoFailure) (hc : Coherent L s) (hact : s.curMapZone ≠ 0xff)
    (hi : i < logBlkCntOfZone) (hused : (s.tbls.logBlkTbl i).logicBlkNum ≠ 0xffff)
    (hnone : ∀ j, ¬((s.pageCache j).zoneNum = s.curMapZone ∧ (s.pageCache j).logBlkPst = i)) :
    WP anyRun (pageMapTblCachePost ar env i) (fun _ s' => Switched L i s s') F s := by
  refine WP.bind ((postPageSlot_posts L hc.clear).imp ?_)
  rintro _ s₁ ⟨hsame₁, hact₁, hout₁, hlabels⟩
  have hc₁ := hsame₁.coherent har hc
  have hstays₁ := hsame₁.stays har hc hact₁ hout₁
  have hcur₁ := hstays₁.curMapZone
  have htbls₁ : s₁.tbls = s.tbls := by
    show (s₁.blkCache s₁.actBlk).tbls = _
    rw [hsame₁.tbls, hact₁]
    rfl
  have hnot : ¬s₁.HasMapOf i := by
    rintro ⟨hzone, hpst⟩
    refine hnone s₁.actPage ⟨?_, ?_⟩
    · rw [← (hlabels _).1, ← hcur₁]
      exact hzone
    · rw [← (hlabels _).2]
      exact hpst
  refine WP.bind ((evictPageMap_evicts har hcopy henv hc₁).imp fun _ s₂ h₂ => ?_)
  have hcur₂ := (hstays₁.trans h₂.stays).curMapZone
  have hsame₂ : LogSame s.tbls s₂.tbls i := htbls₁ ▸ h₂.logs i hi hnot
  have hlog₂ := hsame₂.log
  refine WP.bind (WP.modify ?_)
  generalize hs₃ : s₂.setPageMapCache (fun c => { c with dirtyFlag := false }) = s₃
  have hw₃ : Within s₂ s₃ := by
    rw [← hs₃]
    exact Flashed.within_slot (.refl h₂.coherent.clear)
  have hclean : s₃.pageMapCache.dirtyFlag = false := by
    rw [← hs₃, Ftl.setPageMapCache_pageMapCache]
  have hcells₃ : s₃.nand.cell = s₂.nand.cell := by rw [← hs₃]; rfl
  have hblk₃ : s₃.blkCache = s₂.blkCache := by rw [← hs₃]; rfl
  have htbls₃ : s₃.tbls = s₂.tbls := by rw [← hs₃]; rfl
  have hdrop : SameTables L s₂ s₂.dropMap := by
    refine .of_eq h₂.coherent.clear rfl rfl (fun _ => ⟨rfl, rfl, rfl⟩) fun j hj => ?_
    have hne : j ≠ s₂.actPage := fun heq => hj (heq ▸ s₂.dropMap_slot)
    rw [s₂.dropMap_pageCache_ne hne]
    exact ⟨rfl, rfl, rfl, id⟩
  have hsame₃ : SameTables L s₂ s₃.dropMap :=
    hdrop.trans (dropMap_same_of_cell hw₃ hcells₃ hblk₃)
  have hc₃ := hsame₃.coherent har h₂.coherent
  have hlog₃ : s₃.tbls.logBlkTbl i = s.tbls.logBlkTbl i := by rw [htbls₃, hlog₂]
  have hcur₃ : s₃.curMapZone = s.curMapZone := hw₃.zone.trans hcur₂
  refine WP.bind ((readPageMapTbl_reads har henv hc₃ (hcur₃ ▸ hact) hi
    (by rw [hlog₃]; exact hused)).imp fun _ s₄ h₄ => WP.modify ?_)
  have hc₄ := h₄.same.coherent har hc₃
  have hstays₄ : DiskStays ar s s₄ := by
    have hdropped := (hsame₃.trans h₄.same).stays har h₂.coherent (h₄.actBlk.trans hw₃.actBlk)
      (h₄.outside.trans hw₃.outside)
    exact (hstays₁.trans h₂.stays).trans
      ⟨hdropped.zones, hdropped.dirty, hdropped.kept, hdropped.actBlk, hdropped.outside⟩
  have hcur₄ := hstays₄.curMapZone
  have htbls₄ : s₄.tbls = s₂.tbls := by
    rw [← htbls₃]
    show (s₄.blkCache s₄.actBlk).tbls = _
    rw [show (s₄.blkCache s₄.actBlk).tbls = (s₃.blkCache s₄.actBlk).tbls from h₄.same.tbls _,
      h₄.actBlk]
    rfl
  have hlog₄ : s₄.tbls.logBlkTbl i = s.tbls.logBlkTbl i := by rw [htbls₄, hlog₂]
  have hdirty₄ (hd : s₄.pageMapCache.dirtyFlag = true) := (h₄.dirty hd).resolve_left
    fun hmarked => by rw [hclean] at hmarked; cases hmarked
  refine ⟨hc₄.label (hcur₄ ▸ hact) ⟨hi, ?_, fun hd => ?_, ?_⟩ (fun hd => (hdirty₄ hd).2) fun j hj => ?_,
    ⟨hstays₄.zones, hstays₄.dirty, hstays₄.kept, hstays₄.actBlk, hstays₄.outside⟩, ?_, ?_, fun j hj => ?_⟩
  · show (s₄.tbls.logBlkTbl i).logicBlkNum ≠ 0xffff
    rw [hlog₄]
    exact hused
  · show (s₄.tbls.logBlkTbl i).lastUsedPage ≠ 0xffff
    rw [hlog₄, ← hlog₃]
    exact (hdirty₄ hd).1
  · show IsMapOf ar s₄.nand.cell s₄.curMapZone (s₄.tbls.logBlkTbl i).phyBlk.phyBlkNum s₄.pageMapTbl
    rw [hlog₄, hcur₄, ← hcur₃, ← hlog₃]
    exact h₄.map
  · have hj₁ : j ≠ s₁.actPage := by
      rw [← h₂.actPage, ← hw₃.actPage, ← h₄.actPage]
      exact hj
    have hj₂ : j ≠ s₂.actPage := by
      rw [h₂.actPage]
      exact hj₁
    have hj₃ : j ≠ s₃.actPage := by
      rw [hw₃.actPage]
      exact hj₂
    rintro ⟨hzone, hpst⟩
    obtain ⟨hzone', hpst', -⟩ := h₄.same.maps j (by
      rw [s₄.dropMap_pageCache_ne hj, hzone, hcur₄]
      exact hact)
    rw [s₄.dropMap_pageCache_ne hj, s₃.dropMap_pageCache_ne hj₃, hw₃.pageCache_ne j hj₂,
      h₂.pageCache_ne j hj₁] at hzone' hpst'
    refine hnone j ⟨?_, ?_⟩
    · rw [← (hlabels j).1, ← hzone', hzone, hcur₄]
    · rw [← (hlabels j).2, ← hpst', hpst]
  · refine ⟨?_, ?_⟩
    · rw [Ftl.setPageMapCache_pageMapCache]
      rfl
    · rw [Ftl.setPageMapCache_pageMapCache]
  · exact htbls₄ ▸ hsame₂
  · have hnum := h₂.nums j hj
    unfold NumOrNone at hnum ⊢
    rw [htbls₁, ← htbls₄] at hnum
    exact hnum

/-- `PMM_SwitchMapTbl`: the page map of a used log block becomes the active one. -/
theorem pmmSwitchMapTbl_switches (har : ar.Fits) (hcopy : ar.CopiesExactly) (henv : env.NoFailure)
    (hc : Coherent L s) (hact : s.curMapZone ≠ 0xff) (hi : i < logBlkCntOfZone)
    (hused : (s.tbls.logBlkTbl i).logicBlkNum ≠ 0xffff) :
    WP anyRun (pmmSwitchMapTbl ar env i) (fun _ s' => Switched L i s s') F s := by
  have hcount {s' : Ftl} (h : Switched L i s s') : Switched L i s { s' with
      pageCache := fun j => { s'.pageCache j with
        accessCnt := if j = s'.actPage then 0 else u16 ((s'.pageCache j).accessCnt + 1) } } := by
    have hsame := accessCnt_same (L := L) h.coherent.clear
      (fun j => if j = s'.actPage then 0 else u16 ((s'.pageCache j).accessCnt + 1)) s'.actPage
    exact ⟨hsame.coherent har h.coherent, h.stays.trans (hsame.stays har h.coherent rfl rfl), h.map,
      h.log, h.nums⟩
  have hrun : WP anyRun (pmmSwitchMapTbl ar env i) (fun _ s' => Switched L i s s')
      (fun _ _ => False) s := by
    refine WP.bind (WP.get (counted_wp ?_ (fun _ _ he => he) fun _ => hcount))
    cases hfind : findSlot fun j =>
        (s.pageCache j).zoneNum = s.curMapZone ∧ (s.pageCache j).logBlkPst = i with
    | some j =>
        have hlabel : (s.pageCache j).zoneNum = s.curMapZone ∧ (s.pageCache j).logBlkPst = i :=
          of_decide_eq_true (List.find?_some hfind :)
        have hsame := accessCnt_same (L := L) hc.clear (fun j => (s.pageCache j).accessCnt) j
        exact WP.modify ⟨hsame.coherent har hc, hsame.stays har hc rfl rfl, hlabel, .refl ..,
          fun _ _ => .inl rfl⟩
    | none =>
        refine pageMapTblCachePost_switches har hcopy henv hc hact hi hused fun j hlabel => ?_
        exact List.find?_eq_none.mp hfind j (List.mem_finRange j) (decide_eq_true hlabel)
  exact hrun.mono (fun _ _ h => h) fun _ _ he => he.elim

end Operations

end Novo7
