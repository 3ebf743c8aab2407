import Novo7.ZoneTables

/-!
# Merges keep the pages

A swap merge and a simple merge make a block the data block in which every page of the logical block
has been collected; the log block is gone then. `simpleMerge_keeps` and `swapMerge_keeps`: where
no operation on the flash fails, every page of every logical block of the zone has the sectors that it
had before, and the tables are right (`ZoneOK`) for the flash as it is then.

Both fill a block page by page (`Filling`), put it into the tables and free the old blocks
(`Rearranged`).
-/

namespace Novo7

open HeldSlots Traced

/-! ## What a merge may change -/

namespace Flashed

variable {s s' : Ftl}

theorem elim (h : Flashed s s') :
    ∃ n b d, s' = { s with nand := n, tempBuf := b, processTblBuf := d } :=
  ⟨_, _, _, h.eq⟩

theorem setBlkMapCache (h : Flashed s s') (f : BlkMapTblCache → BlkMapTblCache) :
    Flashed (s.setBlkMapCache f) (s'.setBlkMapCache f) := by
  obtain ⟨n, b, d, hs'⟩ := h.elim
  exact ⟨by rw [hs']; rfl, h.clear⟩

theorem setTbls (h : Flashed s s') (f : BlkTbls → BlkTbls) :
    Flashed (s.setTbls f) (s'.setTbls f) := h.setBlkMapCache _

theorem setPageMapCache (h : Flashed s s') (f : PageMapTblCache → PageMapTblCache) :
    Flashed (s.setPageMapCache f) (s'.setPageMapCache f) := by
  obtain ⟨n, b, d, hs'⟩ := h.elim
  exact ⟨by rw [hs']; rfl, h.clear⟩

end Flashed

/-- The tables in the active slot, and the position of the free block that was taken last. -/
def Ftl.withTbls (s : Ftl) (pst : Nat) (t : BlkTbls) : Ftl :=
  s.setBlkMapCache fun c => { c with lastFreeBlkPst := pst, tbls := t }

namespace Ftl

variable (s : Ftl) (pst : Nat) (t : BlkTbls)

theorem withTbls_blkMapCache :
    (s.withTbls pst t).blkMapCache = { s.blkMapCache with lastFreeBlkPst := pst, tbls := t } :=
  Ftl.blkMapCache_setBlkMapCache ..

theorem withTbls_tbls : (s.withTbls pst t).tbls = t :=
  congrArg BlkMapTblCache.tbls (s.withTbls_blkMapCache pst t)

theorem withTbls_curMapZone : (s.withTbls pst t).curMapZone = s.curMapZone :=
  (congrArg BlkMapTblCache.zoneNum (s.withTbls_blkMapCache pst t) :)

theorem withTbls_setTbls (f : BlkTbls → BlkTbls) :
    (s.withTbls pst t).setTbls f = s.withTbls pst (f t) := by
  simp [withTbls, setTbls, setBlkMapCache, blkMapCache]

theorem takenFrom_eq : takenFrom s pst = s.withTbls pst (s.tbls.setFree pst .none) := rfl

theorem setTbls_eq (f : BlkTbls → BlkTbls) :
    s.setTbls f = s.withTbls s.blkMapCache.lastFreeBlkPst (f s.tbls) := rfl

end Ftl

/-- Besides the flash and the buffers, only the active tables and the active page map have
changed. -/
def Local (s s' : Ftl) : Prop :=
  ∃ pst t g, Flashed ((s.withTbls pst t).setPageMapCache g) s'

namespace Local

variable {s s' : Ftl}

theorem clear (h : Local s s') : s'.Clear := by
  obtain ⟨_, _, _, hfl⟩ := h
  exact hfl.clear

theorem actBlk (h : Local s s') : s'.actBlk = s.actBlk := by
  obtain ⟨_, _, _, hfl⟩ := h
  exact hfl.actBlk

theorem actPage (h : Local s s') : s'.actPage = s.actPage := by
  obtain ⟨_, _, _, hfl⟩ := h
  exact hfl.actPage

theorem logicalCtl (h : Local s s') : s'.logicalCtl = s.logicalCtl := by
  obtain ⟨_, _, _, hfl⟩ := h
  exact hfl.logicalCtl

theorem blkCache_ne (h : Local s s') {i : Fin 4} (hi : i ≠ s.actBlk) :
    s'.blkCache i = s.blkCache i := by
  obtain ⟨_, _, _, hfl⟩ := h
  rw [hfl.blkCache]
  exact Function.update_of_ne hi ..

theorem pageCache_ne (h : Local s s') {i : Fin 4} (hi : i ≠ s.actPage) :
    s'.pageCache i = s.pageCache i := by
  obtain ⟨_, _, _, hfl⟩ := h
  rw [hfl.pageCache]
  exact Function.update_of_ne hi ..

theorem blkMapCache (h : Local s s') : ∃ pst t,
    s'.blkMapCache = { s.blkMapCache with lastFreeBlkPst := pst, tbls := t } := by
  obtain ⟨pst, t, _, hfl⟩ := h
  refine ⟨pst, t, ?_⟩
  rw [hfl.blkMapCache]
  exact s.withTbls_blkMapCache pst t

theorem curMapZone (h : Local s s') : s'.curMapZone = s.curMapZone := by
  obtain ⟨_, _, heq⟩ := h.blkMapCache
  rw [Ftl.curMapZone, heq]
  rfl

theorem dirtyFlag (h : Local s s') : s'.blkMapCache.dirtyFlag = s.blkMapCache.dirtyFlag := by
  obtain ⟨_, _, heq⟩ := h.blkMapCache
  rw [heq]

end Local

/-! ## A change of the tables -/

section Rearranged

variable {ar : LogicArchi} {L : ZoneLayout ar} {c c' : Cells} {z k i : Nat} {D : Set Nat}
  {t t' : BlkTbls}

/-- The blocks `D` of the zone are touched; they belong to logical block `k` and the log position
`i`, or they are free. -/
structure Rearranged (L : ZoneLayout ar) (z k i : Nat) (D : Set Nat) (c c' : Cells)
    (t t' : BlkTbls) : Prop where
  touched : Touched ar z D c c'
  own : ∀ b ∈ D, b ∈ L.blks z
  data : ∀ k' < ar.dataBlkCntOfZone, k' ≠ k → t'.dataBlkTbl k' = t.dataBlkTbl k' ∧
    (t.dataBlkTbl k').phyBlkNum ∉ D
  logs : ∀ j < logBlkCntOfZone, j ≠ i → t'.logBlkTbl j = t.logBlkTbl j ∧
    ((t.logBlkTbl j).logicBlkNum ≠ 0xffff → (t.logBlkTbl j).phyBlk.phyBlkNum ∉ D)
  number : (t.logBlkTbl i).logicBlkNum = k
  after : (t'.logBlkTbl i).logicBlkNum = k ∨ (t'.logBlkTbl i).logicBlkNum = 0xffff

namespace Rearranged

variable (har : ar.Fits) (hz : ar.IsZone z) (h : Rearranged L z k i D c c' t t')
include har hz h

theorem sameBlock {b : Nat} (hb : b ∈ L.blks z) (hout : b ∉ D) : SameBlock ar z b c c' :=
  fun q _ => h.touched.other har (fun d hd => L.isSuperBlk_listed hz (h.own d hd))
    (L.isSuperBlk_listed hz hb) hout q

theorem sameData (hok : ZoneOK L c z t) {k' : Nat} (hk' : k' < ar.dataBlkCntOfZone) (hne : k' ≠ k) :
    SameBlock ar z (t.dataBlkTbl k').phyBlkNum c c' :=
  h.sameBlock har hz (hok.data_mem hk') (h.data k' hk' hne).2

theorem sameLog (hok : ZoneOK L c z t) {j : Nat} (hj : j < logBlkCntOfZone) (hne : j ≠ i)
    (hused : (t.logBlkTbl j).logicBlkNum ≠ 0xffff) :
    SameBlock ar z (t.logBlkTbl j).phyBlk.phyBlkNum c c' :=
  h.sameBlock har hz (hok.log_mem hj hused) ((h.logs j hj hne).2 hused)

omit har hz in
/-- The log block of another logical block is where it was. -/
theorem logBlkPst (hi : i < logBlkCntOfZone) {k' : Nat} (hk' : k' ≠ 0xffff) (hne : k' ≠ k) :
    t'.logBlkPst k' = t.logBlkPst k' := by
  unfold BlkTbls.logBlkPst
  rw [← List.head?_filter, ← List.head?_filter]
  refine congrArg List.head? (List.filter_congr fun j hj => ?_)
  by_cases hji : j = i
  · subst hji
    have hnew : (t'.logBlkTbl j).logicBlkNum ≠ k' := by
      rcases h.after with heq | heq <;> rw [heq]
      · exact hne.symm
      · exact hk'.symm
    have hold : (t.logBlkTbl j).logicBlkNum ≠ k' := by
      rw [h.number]
      exact hne.symm
    rw [decide_eq_false hnew, decide_eq_false hold]
  · rw [(h.logs j (List.mem_range.mp hj) hji).1]

/-- The pages of the other logical blocks are what they were. -/
theorem pageOf_ne (hok : ZoneOK L c z t) (hi : i < logBlkCntOfZone) {k' p : Nat}
    (hk' : k' < ar.dataBlkCntOfZone) (hne : k' ≠ k) (hp : p < ar.pageCntOfLogicBlk) :
    pageOf ar c' z t' k' p = pageOf ar c z t k' p := by
  have hlow : k' ≠ 0xffff := by
    have := har.dataBlks
    omega
  have hdata := h.sameData har hz hok hk' hne
  unfold pageOf
  rw [h.logBlkPst hi hlow hne, (h.data k' hk' hne).1]
  cases hpst : t.logBlkPst k' with
  | none => exact hdata.pageAt hp
  | some j =>
      have hj : j < logBlkCntOfZone := List.mem_range.mp (List.mem_of_find?_eq_some hpst)
      have hnum : (t.logBlkTbl j).logicBlkNum = k' := of_decide_eq_true (List.find?_some hpst :)
      have hji : j ≠ i := fun heq => hne (by rw [← hnum, heq, h.number])
      have hlog := h.sameLog har hz hok hj hji (by rw [hnum]; exact hlow)
      dsimp only
      rw [(h.logs j hj hji).1, hlog.logPageOf]
      cases hq : logPageOf ar c z (t.logBlkTbl j).phyBlk.phyBlkNum p with
      | none => exact hdata.pageAt hp
      | some q => exact hlog.pageAt (latest_eq_some.mp hq).1

/-- The tables are right when they are right for `k` and `i`. -/
theorem zoneOK (hok : ZoneOK L c z t) (hi : i < logBlkCntOfZone)
    (hblocks : t'.blocks ar = t.blocks ar) (hcounts : t'.CountsFit ar.freeBlkCntOfZone)
    (hfree : ∀ b ∈ t'.freeNums ar.freeBlkCntOfZone, ∀ q < ar.pageCntOfLogicBlk,
      c' (lmlCalculatePhyOpPar ar z b q) = none)
    (hdataCount : (t'.dataBlkTbl k).blkEraseCnt ≤ 0xffff)
    (hdata : c' (lmlCalculatePhyOpPar ar z (t'.dataBlkTbl k).phyBlkNum 0) = none ∨
      (pageAt ar c' z (t'.dataBlkTbl k).phyBlkNum 0).spare.logicInfo ≠ 0xffff)
    (hlog : (t'.logBlkTbl i).logicBlkNum ≠ 0xffff → LogOK ar c' z t' (t'.logBlkTbl i)) :
    ZoneOK L c' z t' where
  blocks := hblocks.trans hok.blocks
  counts := hcounts
  dataCounts k' hk' := by
    by_cases hne : k' = k
    · rw [hne]
      exact hdataCount
    · rw [(h.data k' hk' hne).1]
      exact hok.dataCounts k' hk'
  free := hfree
  data k' hk' := by
    by_cases hne : k' = k
    · rw [hne]
      exact hdata
    · have hsame := h.sameData har hz hok hk' hne
      rw [(h.data k' hk' hne).1, hsame 0 har.pageCnt_pos, hsame.pageAt har.pageCnt_pos]
      exact hok.data k' hk'
  logs j hj hused := by
    by_cases hji : j = i
    · rw [hji] at hused ⊢
      exact hlog hused
    · rw [(h.logs j hj hji).1] at hused ⊢
      have hj' := hok.logs j hj hused
      have hne : (t.logBlkTbl j).logicBlkNum ≠ k := fun heq =>
        hji (hok.single j hj i hi (heq.trans h.number.symm) hused)
      refine hj'.congr har.pageCnt_pos (h.sameLog har hz hok hj hji hused) ?_
      rw [(h.data _ hj'.num hne).1,
        (h.sameData har hz hok hj'.num hne).pageAt har.pageCnt_pos]
      exact hj'.dataInfo
  single j hj j' hj' heq hused := by
    -- only position `i` has changed, and only to no block at all
    have hnum (l : Nat) (hl : l < logBlkCntOfZone) (hl' : (t'.logBlkTbl l).logicBlkNum ≠ 0xffff) :
        (t'.logBlkTbl l).logicBlkNum = (t.logBlkTbl l).logicBlkNum := by
      by_cases hli : l = i
      · rw [hli] at hl' ⊢
        rw [h.after.resolve_right hl', h.number]
      · rw [(h.logs l hl hli).1]
    have hused' : (t'.logBlkTbl j').logicBlkNum ≠ 0xffff := by
      rw [← heq]
      exact hused
    rw [hnum j hj hused, hnum j' hj' hused'] at heq
    rw [hnum j hj hused] at hused
    exact hok.single j hj j' hj' heq hused

end Rearranged

end Rearranged

/-! ## Filling a block -/

section Filling

variable {ar : LogicArchi} {z dst : Nat} {c₀ c : Cells} {p : Nat} {Q : Nat → Page → Prop}

/-- The first `p` pages of a block are what they should be, the others are blank. -/
structure Filling (ar : LogicArchi) (z dst : Nat) (Q : Nat → Page → Prop) (c₀ c : Cells) (p : Nat) :
    Prop where
  touched : Touched ar z {dst} c₀ c
  done : ∀ q < p, q < ar.pageCntOfLogicBlk → Q q (pageAt ar c z dst q)
  rest : ∀ q, p ≤ q → q < ar.pageCntOfLogicBlk → c (lmlCalculatePhyOpPar ar z dst q) = none

theorem Filling.step (har : ar.Fits) (hdst : ar.IsSuperBlk z dst) (h : Filling ar z dst Q c₀ c p)
    (hp : p < ar.pageCntOfLogicBlk) {pg : Page} (hpg : Q p pg) :
    Filling ar z dst Q c₀ (Function.update c (lmlCalculatePhyOpPar ar z dst p) (some pg)) (p + 1) := by
  have hne {q : Nat} (hq : q < ar.pageCntOfLogicBlk) (hqp : q ≠ p) :
      lmlCalculatePhyOpPar ar z dst q ≠ lmlCalculatePhyOpPar ar z dst p := fun heq =>
    hqp (pageAddr_inj har hdst hdst hq hp heq).2
  refine ⟨h.touched.trans (.update dst p _), fun q hq hlt => ?_, fun q hq hlt => ?_⟩
  · unfold pageAt
    by_cases hqp : q = p
    · rw [hqp, Function.update_self]
      exact hpg
    · rw [Function.update_of_ne (hne hlt hqp)]
      exact h.done q (by omega) hlt
  · rw [Function.update_of_ne (hne hlt (by omega))]
    exact h.rest q (by omega) hlt

end Filling

section Run

variable {F : Int → Ftl → Prop}

/-- A loop that goes from page to page with one block. -/
theorem pages_run {step : Nat × SuperPhyBlk → FtlProg ((Nat × SuperPhyBlk) ⊕ SuperPhyBlk)}
    {pageCnt : Nat} {b : SuperPhyBlk} {I : Nat → Ftl → Prop}
    (hstep : ∀ p s, p < pageCnt → I p s →
      WP anyRun (step (p, b)) (fun r s' => r = .inl (p + 1, b) ∧ I (p + 1) s') F s)
    (hout : ∀ p, ¬p < pageCnt → step (p, b) = pure (.inr b)) :
    ∀ {fuel p : Nat} {s : Ftl}, pageCnt - p < fuel → p ≤ pageCnt → I p s →
      WP anyRun (iterate step fuel (p, b)) (fun r s' => r = b ∧ I pageCnt s') F s
  | 0, _, _, hfuel, _, _ => absurd hfuel (Nat.not_lt_zero _)
  | fuel + 1, p, s, hfuel, hle, h => by
      by_cases hp : p < pageCnt
      · refine WP.bind ((hstep p s hp h).imp ?_)
        rintro _ s' ⟨rfl, h'⟩
        exact pages_run hstep hout (by omega) hp h'
      · rw [iterate, hout p hp]
        have hend : p = pageCnt := by omega
        exact WP.bind (WP.pure (WP.pure ⟨rfl, hend ▸ h⟩))

end Run

/-! ## Before and after a merge -/

/-- The geometry uses copy-back commands only where they program the page that is asked for. -/
def LogicArchi.CopiesExactly (ar : LogicArchi) : Prop :=
  ar.supportPageCopyback = false ∨ ar.supportMultiProgram = false ∧
    (ar.supportAlignNandBnk = true ∨ ar.interleaveBankCnt = 1)

theorem LogicArchi.CopiesExactly.inPlace {ar : LogicArchi} (h : ar.CopiesExactly)
    {src dst : Nat} (hbank : ar.supportAlignNandBnk = true →
      src % ar.interleaveBankCnt = dst % ar.interleaveBankCnt) : CopiesInPlace ar src dst := by
  rcases h with hoff | ⟨hmulti, halign | hone⟩
  · exact .inl hoff
  · exact .inr ⟨hmulti, hbank halign⟩
  · exact .inr ⟨hmulti, by rw [hone, Nat.mod_one, Nat.mod_one]⟩

/-- The log block at position `i`, which belongs to `k`, can be merged: the tables are right, and the
active page map is its map. -/
structure MergeReady {ar : LogicArchi} (L : ZoneLayout ar) (k i : Nat) (s : Ftl) : Prop where
  clear : s.Clear
  zone : ar.IsZone s.curMapZone
  ok : ZoneOK L s.nand.cell s.curMapZone s.tbls
  pst_lt : i < logBlkCntOfZone
  log : (s.tbls.logBlkTbl i).logicBlkNum = k
  used : k ≠ 0xffff
  map : IsMapOf ar s.nand.cell s.curMapZone (s.tbls.logBlkTbl i).phyBlk.phyBlkNum s.pageMapTbl

/-- The log block in a position is as before, and the data block that it belongs to. -/
structure LogSame (t t' : BlkTbls) (j : Nat) : Prop where
  log : t'.logBlkTbl j = t.logBlkTbl j
  data : (t.logBlkTbl j).logicBlkNum ≠ 0xffff →
    t'.dataBlkTbl (t.logBlkTbl j).logicBlkNum = t.dataBlkTbl (t.logBlkTbl j).logicBlkNum

theorem LogSame.refl (t : BlkTbls) (j : Nat) : LogSame t t j := ⟨rfl, fun _ => rfl⟩

theorem LogSame.trans {t t' t'' : BlkTbls} {j : Nat} (h : LogSame t t' j) (h' : LogSame t' t'' j) :
    LogSame t t'' j := by
  obtain ⟨hlog, hdata⟩ := h'
  rw [h.log] at hlog hdata
  exact ⟨hlog, fun hused => (hdata hused).trans (h.data hused)⟩

/-- What a merge of position `i` leaves: the tables are right for the flash, every page has its
sectors, and the other log blocks are not touched. -/
structure MergedTbls {ar : LogicArchi} (L : ZoneLayout ar) (i : Nat) (s s' : Ftl) : Prop where
  frame : Local s s'
  ok : ZoneOK L s'.nand.cell s.curMapZone s'.tbls
  touched : Touched ar s.curMapZone (L.listed s.curMapZone) s.nand.cell s'.nand.cell
  pages : ∀ k < ar.dataBlkCntOfZone, ∀ p < ar.pageCntOfLogicBlk,
    SameSectors ar (pageOf ar s'.nand.cell s.curMapZone s'.tbls k p).main
      (pageOf ar s.nand.cell s.curMapZone s.tbls k p).main
  infos : ∀ k < ar.dataBlkCntOfZone, DataInfo ar s.nand.cell s.curMapZone s.tbls k →
    DataInfo ar s'.nand.cell s.curMapZone s'.tbls k
  logs : ∀ j < logBlkCntOfZone, j ≠ i → LogSame s.tbls s'.tbls j ∧
    ((s.tbls.logBlkTbl j).logicBlkNum ≠ 0xffff → SameBlock ar s.curMapZone
      (s.tbls.logBlkTbl j).phyBlk.phyBlkNum s.nand.cell s'.nand.cell)

/-- The page that is collected for page `q` of block `k`. -/
structure Collects (ar : LogicArchi) (c : Cells) (z : Nat) (t : BlkTbls) (k q : Nat) (pg : Page) :
    Prop where
  main : SameSectors ar pg.main (pageOf ar c z t k q).main
  info : q = 0 → pg.spare.logicInfo ≠ 0xffff

section Ready

variable {ar : LogicArchi} {L : ZoneLayout ar} {k i : Nat} {s : Ftl}

namespace MergeReady

variable (h : MergeReady L k i s)
include h

theorem logUsed : (s.tbls.logBlkTbl i).logicBlkNum ≠ 0xffff := by
  rw [h.log]
  exact h.used

theorem logOK : LogOK ar s.nand.cell s.curMapZone s.tbls (s.tbls.logBlkTbl i) :=
  h.ok.logs i h.pst_lt h.logUsed

theorem blk_lt : k < ar.dataBlkCntOfZone := h.log ▸ h.logOK.num

theorem dataBlk_eq : bmmGetDataBlk ar s.tbls k = s.tbls.dataBlkTbl k :=
  if_neg (Nat.not_lt.mpr (Nat.le_of_lt h.blk_lt))

theorem logBlkPst_eq : s.tbls.logBlkPst k = some i := h.log ▸ h.ok.logBlkPst_eq h.pst_lt h.logUsed

theorem logBlk_eq : s.tbls.getLogBlk k = s.tbls.logBlkTbl i := by
  rw [BlkTbls.getLogBlk, h.logBlkPst_eq]

theorem data_mem : (s.tbls.dataBlkTbl k).phyBlkNum ∈ L.blks s.curMapZone := h.ok.data_mem h.blk_lt

theorem log_mem : (s.tbls.logBlkTbl i).phyBlk.phyBlkNum ∈ L.blks s.curMapZone :=
  h.ok.log_mem h.pst_lt h.logUsed

theorem isSuperBlk {b : Nat} (hb : b ∈ L.blks s.curMapZone) : ar.IsSuperBlk s.curMapZone b :=
  L.isSuperBlk_listed h.zone hb

/-- The data block has one log block only. -/
theorem only {j : Nat} (hj : j < logBlkCntOfZone) (hnum : (s.tbls.logBlkTbl j).logicBlkNum = k) :
    j = i :=
  h.ok.single j hj i h.pst_lt (hnum.trans h.log.symm) (hnum ▸ h.used)

/-- Without the log block the data block has none. -/
theorem logBlkPst_none {u : BlkTbls} (hu : u.logBlkTbl = Function.update s.tbls.logBlkTbl i .none) :
    u.logBlkPst k = none := by
  refine BlkTbls.logBlkPst_eq_none fun j hj heq => ?_
  rw [hu] at heq
  by_cases hji : j = i
  · rw [hji, Function.update_self] at heq
    exact h.used heq.symm
  · rw [Function.update_of_ne hji] at heq
    exact hji (h.only hj heq)

theorem dataInfo : (pageAt ar s.nand.cell s.curMapZone
    (s.tbls.dataBlkTbl k).phyBlkNum 0).spare.logicInfo ≠ 0xffff := h.log ▸ h.logOK.dataInfo

/-- There are not more free blocks than the table has places for, without the log block. -/
theorem free_lt : (s.tbls.freeNums ar.freeBlkCntOfZone).card < ar.freeBlkCntOfZone := by
  have hcard := h.ok.card_eq
  have hfew := L.few s.curMapZone
  have hlog : 0 < (held s.tbls.logNum logBlkCntOfZone).card :=
    Multiset.card_pos_iff_exists_mem.mpr ⟨_, ZoneOK.logNum_mem h.pst_lt h.logUsed⟩
  omega

/-- A page that carries the number of a logical page is not blank. -/
theorem lastUsed_of_page (har : ar.Fits) {p q : Nat} (hp : p < ar.pageCntOfLogicBlk)
    (hq : logPageOf ar s.nand.cell s.curMapZone (s.tbls.logBlkTbl i).phyBlk.phyBlkNum p = some q) :
    (s.tbls.logBlkTbl i).lastUsedPage ≠ 0xffff ∧ q ≤ (s.tbls.logBlkTbl i).lastUsedPage := by
  obtain ⟨hlt, hnum, -⟩ := latest_eq_some.mp hq
  have hused : q < (s.tbls.logBlkTbl i).usedPages := by
    by_contra hge
    have hblank := h.logOK.blank q hlt (by omega)
    rw [numAt, pageAt, hblank] at hnum
    have hmaps := har.maps
    have : (0xffff : Nat) = p := hnum
    omega
  unfold LogBlk.usedPages at hused
  split at hused
  · omega
  · exact ⟨by assumption, by omega⟩

/-- Where page `p` is, by its entry in the page map. -/
theorem source (har : ar.Fits) {p : Nat} (hp : p < ar.pageCntOfLogicBlk) :
    (s.pageMapTbl p = 0xffff ∧ pageOf ar s.nand.cell s.curMapZone s.tbls k p =
      pageAt ar s.nand.cell s.curMapZone (s.tbls.dataBlkTbl k).phyBlkNum p) ∨
    s.pageMapTbl p ≠ 0xffff ∧ logPageOf ar s.nand.cell s.curMapZone
        (s.tbls.logBlkTbl i).phyBlk.phyBlkNum p = some (s.pageMapTbl p) ∧
      pageOf ar s.nand.cell s.curMapZone s.tbls k p = pageAt ar s.nand.cell s.curMapZone
        (s.tbls.logBlkTbl i).phyBlk.phyBlkNum (s.pageMapTbl p) := by
  have hmap := h.map p hp
  unfold pageOf
  rw [h.logBlkPst_eq]
  dsimp only
  cases hq : logPageOf ar s.nand.cell s.curMapZone (s.tbls.logBlkTbl i).phyBlk.phyBlkNum p with
  | none =>
      rw [hq] at hmap
      exact .inl ⟨hmap, rfl⟩
  | some q =>
      rw [hq] at hmap
      have hlt := (latest_eq_some.mp hq).1
      have hmaps := har.maps
      have hval : s.pageMapTbl p = q := hmap
      rw [hval]
      exact .inr ⟨by omega, rfl, rfl⟩

/-- A page whose number a page of the log block carries is in the page map. -/
theorem mapped (har : ar.Fits) {q : Nat} (hq : q < ar.pageCntOfLogicBlk)
    (hnum : numAt ar s.nand.cell s.curMapZone (s.tbls.logBlkTbl i).phyBlk.phyBlkNum q <
      ar.pageCntOfLogicBlk) :
    s.pageMapTbl (numAt ar s.nand.cell s.curMapZone (s.tbls.logBlkTbl i).phyBlk.phyBlkNum q) ≠
      0xffff := by
  rw [h.map _ hnum]
  cases hlatest : logPageOf ar s.nand.cell s.curMapZone (s.tbls.logBlkTbl i).phyBlk.phyBlkNum
      (numAt ar s.nand.cell s.curMapZone (s.tbls.logBlkTbl i).phyBlk.phyBlkNum q) with
  | none => exact absurd rfl (latest_eq_none.mp hlatest q hq)
  | some q' =>
      have hlt := (latest_eq_some.mp hlatest).1
      have hmaps := har.maps
      show q' ≠ 0xffff
      omega

/-- The bank of a page in the log block. -/
theorem source_bank {p q : Nat} (hp : p < ar.pageCntOfLogicBlk)
    (hq : logPageOf ar s.nand.cell s.curMapZone (s.tbls.logBlkTbl i).phyBlk.phyBlkNum p = some q)
    (hal : ar.supportAlignNandBnk = true) : q % ar.interleaveBankCnt = p % ar.interleaveBankCnt := by
  obtain ⟨hlt, hnum, -⟩ := latest_eq_some.mp hq
  have := h.logOK.aligned hal q hlt (by rw [hnum]; exact hp)
  rwa [hnum] at this

/-- New tables in which only data block `k` and the log position are not as before, when only their
blocks and free ones have been touched. -/
theorem rearranged {D : Set Nat} {c' : Cells} {t' : BlkTbls}
    (htouched : Touched ar s.curMapZone D s.nand.cell c')
    (hD : ∀ b ∈ D, b ∈ s.tbls.freeNums ar.freeBlkCntOfZone ∨ b = (s.tbls.dataBlkTbl k).phyBlkNum ∨
      b = (s.tbls.logBlkTbl i).phyBlk.phyBlkNum)
    (hdata : ∀ k', k' ≠ k → t'.dataBlkTbl k' = s.tbls.dataBlkTbl k')
    (hlogs : ∀ j, j ≠ i → t'.logBlkTbl j = s.tbls.logBlkTbl j)
    (hafter : (t'.logBlkTbl i).logicBlkNum = k ∨ (t'.logBlkTbl i).logicBlkNum = 0xffff) :
    Rearranged L s.curMapZone k i D s.nand.cell c' s.tbls t' := by
  refine ⟨htouched, fun b hb => ?_, fun k' hk' hne => ⟨hdata k' hne, fun hin => ?_⟩,
    fun j hj hne => ⟨hlogs j hne, fun hused hin => ?_⟩, h.log, hafter⟩
  · rcases hD b hb with hfree | rfl | rfl
    · exact h.ok.free_mem hfree
    · exact h.data_mem
    · exact h.log_mem
  · rcases hD _ hin with hfree | heq | heq
    · exact h.ok.data_ne_free hk' hfree rfl
    · exact hne (h.ok.data_inj hk' h.blk_lt heq)
    · exact h.ok.data_ne_log hk' h.pst_lt h.logUsed heq
  · rcases hD _ hin with hfree | heq | heq
    · exact h.ok.log_ne_free hj hused hfree rfl
    · exact h.ok.data_ne_log h.blk_lt hj hused heq.symm
    · exact hne (h.ok.log_inj hj h.pst_lt hused h.logUsed heq)

end MergeReady

end Ready

/-! ## Freeing a block -/

theorem SuperPhyBlk.erased_phyBlkNum (b : SuperPhyBlk) : b.erased.phyBlkNum = b.phyBlkNum := by
  unfold SuperPhyBlk.erased
  split <;> rfl

theorem SuperPhyBlk.erased_count {b : SuperPhyBlk} (h : b.blkEraseCnt ≤ 0xffff) :
    b.erased.blkEraseCnt ≤ 0xffff := by
  unfold SuperPhyBlk.erased
  split
  · assumption
  · exact h

section Merges

variable {ar : LogicArchi} {env : NandEnv} {L : ZoneLayout ar} {F : Int → Ftl → Prop} {k i : Nat}
  {s : Ftl}

/-- A block that is no longer needed is blank in the free table. -/
theorem freeOldBlk_clears (henv : env.NoFailure) (hpos : 0 < ar.interleaveBankCnt) (hs : s.Clear)
    (b : SuperPhyBlk) :
    WP anyRun (freeOldBlk ar env b) (fun _ s' =>
      Flashed (s.setTbls (·.setFreeBlk ar.freeBlkCntOfZone b.erased)) s' ∧
      (∀ a ∈ superBlk ar s.curMapZone b.phyBlkNum, s'.nand.cell a = none) ∧
      ∀ a, a ∉ superBlk ar s.curMapZone b.phyBlkNum → s'.nand.cell a = s.nand.cell a) F s := by
  refine WP.bind (WP.get (WP.bind ((lmlVirtualBlkErase_clears henv hpos hs _ _).imp ?_)))
  rintro _ s₁ ⟨rfl, h₁, hblank, hother⟩
  exact WP.bind (WP.when (fun hne => absurd rfl hne) fun _ =>
    WP.modify ⟨h₁.setTbls _, hblank, hother⟩)

/-- Taking a free block for a merge. -/
theorem bmmGetFreeBlk_gives (hok : ZoneOK L s.nand.cell s.curMapZone s.tbls) :
    WP anyRun (bmmGetFreeBlk ar true) (fun b s' => ∃ p < ar.freeBlkCntOfZone,
      (s.tbls.freeBlkTbl p).phyBlkNum ≠ 0xffff ∧ b = s.tbls.freeBlkTbl p ∧
        s' = takenFrom s p) F s := by
  have hne : s.tbls.freeBlks ar.freeBlkCntOfZone ≠ 0 := by
    obtain ⟨i, hi, hblk⟩ := hok.hasFree
    exact fun h0 => hblk.1 (BlkTbls.freeBlks_eq_zero.mp h0 i hi)
  obtain ⟨p, hp, hrun⟩ := bmmGetFreeBlk_best hok.counts hne true
  obtain ⟨-, -, -, hblk⟩ := BlkTbls.mem_freeBlks.mp hp.mem
  exact wp_of_eq hrun ⟨p, hp.lt, hblk, rfl, rfl⟩

/-! ## The simple merge -/

/-- One page of a simple merge. -/
theorem simpleRound_fills (har : ar.Fits) (hcopy : ar.CopiesExactly) (henv : env.NoFailure)
    (h : MergeReady L k i s) {s₁ s₂ : Ftl} {nb : SuperPhyBlk}
    (hzone : s₂.curMapZone = s.curMapZone) (hmap : s₂.pageMapTbl = s.pageMapTbl)
    (hclear : s₂.Clear) (hnb : ar.IsSuperBlk s.curMapZone nb.phyBlkNum)
    (hdata : nb.phyBlkNum ≠ (s.tbls.dataBlkTbl k).phyBlkNum)
    (hlog : nb.phyBlkNum ≠ (s.tbls.logBlkTbl i).phyBlk.phyBlkNum) {p : Nat}
    (hp : p < ar.pageCntOfLogicBlk) (hfl : Flashed s₁ s₂)
    (hfill : Filling ar s.curMapZone nb.phyBlkNum
      (Collects ar s.nand.cell s.curMapZone s.tbls k) s.nand.cell s₂.nand.cell p) :
    WP anyRun (simpleRound ar env (s.tbls.dataBlkTbl k) (s.tbls.logBlkTbl i).phyBlk (p, nb))
      (fun r s' => r = .inl (p + 1, nb) ∧ Flashed s₁ s' ∧
        Filling ar s.curMapZone nb.phyBlkNum (Collects ar s.nand.cell s.curMapZone s.tbls k)
          s.nand.cell s'.nand.cell (p + 1)) F s₂ := by
  -- the source blocks are not touched
  have hsame {b : Nat} (hb : b ∈ L.blks s.curMapZone) (hne : nb.phyBlkNum ≠ b) (q : Nat) :
      pageAt ar s₂.nand.cell s.curMapZone b q = pageAt ar s.nand.cell s.curMapZone b q := by
    rw [pageAt, pageAt, hfill.touched.other har (fun d hd => hd ▸ hnb) (h.isSuperBlk hb) (Ne.symm hne) q]
  have hblank := hfill.rest p (Nat.le_refl p) hp
  -- the copy, from either block
  have hround (srcBlk srcPage seqPlus : Nat) (hsrc : srcBlk ∈ L.blks s.curMapZone)
      (hne : nb.phyBlkNum ≠ srcBlk)
      (hpage : pageOf ar s.nand.cell s.curMapZone s.tbls k p =
        pageAt ar s.nand.cell s.curMapZone srcBlk srcPage)
      (hinfo : (pageAt ar s.nand.cell s.curMapZone srcBlk 0).spare.logicInfo ≠ 0xffff)
      (hbank : ar.supportAlignNandBnk = true →
        srcPage % ar.interleaveBankCnt = p % ar.interleaveBankCnt) :
      WP anyRun (if p = 0 then copyPage0 ar env srcBlk srcPage nb.phyBlkNum seqPlus
          else copyPage ar env srcBlk srcPage nb.phyBlkNum p)
        (fun _ s' => Flashed s₁ s' ∧ Filling ar s.curMapZone nb.phyBlkNum
          (Collects ar s.nand.cell s.curMapZone s.tbls k) s.nand.cell s'.nand.cell (p + 1))
        F s₂ := by
    refine WP.ite (fun hp0 => ?_) fun hp0 => ?_
    · subst hp0
      refine (copyPage0_puts henv hclear (by rw [hzone]; exact hblank)).imp ?_
      rintro _ s₃ ⟨h₃, pg, hcell, hcopied, hpginfo⟩
      refine ⟨hfl.trans h₃, ?_⟩
      rw [hcell, hzone]
      refine hfill.step har hnb hp ⟨?_, fun _ => ?_⟩
      · rw [hpage, ← hsame hsrc hne, pageAt, ← hzone]
        exact hcopied.main
      · rw [hpginfo, hzone]
        have := hinfo
        rwa [← hsame hsrc hne, pageAt] at this
    · refine (copyPage_puts henv hclear (hcopy.inPlace hbank) (by rw [hzone]; exact hblank)).imp ?_
      rintro _ s₃ ⟨h₃, hcell⟩
      refine ⟨hfl.trans h₃, ?_⟩
      rw [hcell, hzone]
      refine hfill.step har hnb hp ⟨?_, fun hp0' => absurd hp0' hp0⟩
      rw [hpage, ← hsame hsrc hne, pageAt]
      exact .refl _
  have hend (srcBlk srcPage seqPlus : Nat) (hcopied : WP anyRun
      (if p = 0 then copyPage0 ar env srcBlk srcPage nb.phyBlkNum seqPlus
        else copyPage ar env srcBlk srcPage nb.phyBlkNum p)
      (fun _ s' => Flashed s₁ s' ∧ Filling ar s.curMapZone nb.phyBlkNum
        (Collects ar s.nand.cell s.curMapZone s.tbls k) s.nand.cell s'.nand.cell (p + 1)) F s₂) :
      WP anyRun (do
        (if p = 0 then copyPage0 ar env srcBlk srcPage nb.phyBlkNum seqPlus
          else copyPage ar env srcBlk srcPage nb.phyBlkNum p)
        let ret ← synchPage ar nb.phyBlkNum p
        if ret ≠ 0 then do
          let subBlk ← lmlBadBlkManage ar env nb s₂.curMapZone p
          pure (.inl (p, subBlk))
        else
          pure (.inl (p + 1, nb)))
        (fun r s' => r = (.inl (p + 1, nb) : (Nat × SuperPhyBlk) ⊕ SuperPhyBlk) ∧ Flashed s₁ s' ∧
          Filling ar s.curMapZone nb.phyBlkNum (Collects ar s.nand.cell s.curMapZone s.tbls k)
            s.nand.cell s'.nand.cell (p + 1)) F s₂ := by
    refine WP.bind (hcopied.imp ?_)
    rintro _ s₃ ⟨h₃, hfill₃⟩
    refine WP.bind ((synchPage_gives h₃.clear _ _).imp ?_)
    rintro _ _ ⟨rfl, rfl⟩
    exact WP.ite (fun hne => absurd rfl hne) fun _ => WP.pure ⟨rfl, h₃, hfill₃⟩
  rw [simpleRound, if_pos hp]
  refine WP.bind (WP.get ?_)
  rw [hmap]
  rcases h.source har hp with ⟨hnone, hpage⟩ | ⟨hsome, hq, hpage⟩
  · simp only [hnone, decide_true, if_true]
    exact hend _ _ _ (hround _ _ _ h.data_mem hdata hpage h.dataInfo fun _ => rfl)
  · simp only [hsome, decide_false, Bool.false_eq_true, if_false]
    exact hend _ _ _ (hround _ _ _ h.log_mem hlog hpage
      (h.logOK.info (h.lastUsed_of_page har hp hq).1) (h.source_bank hp hq))

end Merges

/-! ## The tables after a merge -/

namespace BlkTbls

variable {ar : LogicArchi} {t : BlkTbls} {k i p : Nat}

theorem setLogBlk_eq (h : t.logBlkPst k = some i) (l : LogBlk) : t.setLogBlk k l = t.setLog i l := by
  rw [setLogBlk, h]

/-- The other free blocks are not the one that has been taken. -/
theorem mem_freeNums_take (hnodup : (t.freeNums ar.freeBlkCntOfZone).Nodup)
    (hp : p < ar.freeBlkCntOfZone) (hblk : (t.freeBlkTbl p).phyBlkNum ≠ 0xffff) {b : Nat}
    (hb : b ∈ (t.setFree p .none).freeNums ar.freeBlkCntOfZone) :
    b ∈ t.freeNums ar.freeBlkCntOfZone ∧ b ≠ (t.freeBlkTbl p).phyBlkNum := by
  rw [freeNums_take hp hblk] at hnodup ⊢
  exact ⟨Multiset.mem_cons_of_mem hb, fun heq => (Multiset.nodup_cons.mp hnodup).1 (heq ▸ hb)⟩

theorem card_freeNums_take (hp : p < ar.freeBlkCntOfZone)
    (hblk : (t.freeBlkTbl p).phyBlkNum ≠ 0xffff) :
    ((t.setFree p .none).freeNums ar.freeBlkCntOfZone).card + 1 =
      (t.freeNums ar.freeBlkCntOfZone).card := by
  rw [freeNums_take hp hblk, Multiset.card_cons]

theorem blocks_take (hp : p < ar.freeBlkCntOfZone) (hblk : (t.freeBlkTbl p).phyBlkNum ≠ 0xffff) :
    (t.setFree p .none).blocks ar + {(t.freeBlkTbl p).phyBlkNum} = t.blocks ar := by
  have hdata : (t.setFree p .none).dataNum = t.dataNum := rfl
  have hlog : (t.setFree p .none).logNum = t.logNum := rfl
  unfold blocks
  rw [freeNums_take hp hblk, ← Multiset.singleton_add, hdata, hlog]
  abel

end BlkTbls

/-- The tables after a simple merge that has taken the free block at `p`. -/
def simpleTbls (ar : LogicArchi) (t : BlkTbls) (p k i : Nat) : BlkTbls :=
  ((((t.setFree p .none).setData k (t.freeBlkTbl p)).setFreeBlk ar.freeBlkCntOfZone
    (t.dataBlkTbl k).erased).setFreeBlk ar.freeBlkCntOfZone (t.logBlkTbl i).phyBlk.erased).setLog i
      .none

section SimpleTbls

variable {ar : LogicArchi} {L : ZoneLayout ar} {k i p : Nat} {s : Ftl}

theorem simpleTbls_dataBlkTbl (ar : LogicArchi) (t : BlkTbls) (p k i : Nat) :
    (simpleTbls ar t p k i).dataBlkTbl = Function.update t.dataBlkTbl k (t.freeBlkTbl p) := by
  show (BlkTbls.setFreeBlk _ _ _).dataBlkTbl = _
  rw [BlkTbls.setFreeBlk_dataBlkTbl, BlkTbls.setFreeBlk_dataBlkTbl]
  rfl

theorem simpleTbls_logBlkTbl (ar : LogicArchi) (t : BlkTbls) (p k i : Nat) :
    (simpleTbls ar t p k i).logBlkTbl = Function.update t.logBlkTbl i .none := by
  show Function.update (BlkTbls.setFreeBlk _ _ _).logBlkTbl i .none = _
  rw [BlkTbls.setFreeBlk_logBlkTbl, BlkTbls.setFreeBlk_logBlkTbl]
  rfl

variable (har : ar.Fits) (h : MergeReady L k i s) (hp : p < ar.freeBlkCntOfZone)
  (hblk : (s.tbls.freeBlkTbl p).phyBlkNum ≠ 0xffff)
include har h hp hblk

theorem simpleTbls_freeNums : (simpleTbls ar s.tbls p k i).freeNums ar.freeBlkCntOfZone =
    (s.tbls.logBlkTbl i).phyBlk.phyBlkNum ::ₘ (s.tbls.dataBlkTbl k).phyBlkNum ::ₘ
      (s.tbls.setFree p .none).freeNums ar.freeBlkCntOfZone := by
  have hlt := h.free_lt
  have hcard := BlkTbls.card_freeNums_take hp hblk
  have hdata := BlkTbls.freeNums_setFreeBlk
    (t := (s.tbls.setFree p .none).setData k (s.tbls.freeBlkTbl p)) (b := (s.tbls.dataBlkTbl k).erased)
    (show ((s.tbls.setFree p .none).freeNums ar.freeBlkCntOfZone).card < _ by omega)
    (by rw [SuperPhyBlk.erased_phyBlkNum]; exact L.listed_ne_none har h.data_mem)
  show (BlkTbls.setFreeBlk _ _ _).freeNums _ = _
  rw [BlkTbls.freeNums_setFreeBlk, hdata, SuperPhyBlk.erased_phyBlkNum,
    SuperPhyBlk.erased_phyBlkNum]
  · rfl
  · rw [hdata, Multiset.card_cons]
    show ((s.tbls.setFree p .none).freeNums ar.freeBlkCntOfZone).card + 1 < _
    omega
  · rw [SuperPhyBlk.erased_phyBlkNum]
    exact L.listed_ne_none har h.log_mem

theorem simpleTbls_blocks : (simpleTbls ar s.tbls p k i).blocks ar = s.tbls.blocks ar := by
  have hdataNum : (simpleTbls ar s.tbls p k i).dataNum =
      ((s.tbls.setFree p .none).setData k (s.tbls.freeBlkTbl p)).dataNum := by
    funext j
    rw [BlkTbls.dataNum, simpleTbls_dataBlkTbl]
    rfl
  have hlogNum : (simpleTbls ar s.tbls p k i).logNum = Function.update s.tbls.logNum i none := by
    funext j
    rw [BlkTbls.logNum, simpleTbls_logBlkTbl]
    by_cases hj : j = i
    · simp [hj, LogBlk.none]
    · simp [hj, BlkTbls.logNum]
  have hlog := held_update (g := s.tbls.logNum) h.pst_lt none
  have hused : s.tbls.logNum i = some (s.tbls.logBlkTbl i).phyBlk.phyBlkNum := if_neg h.logUsed
  have hdata := BlkTbls.blocks_setData (t := s.tbls.setFree p .none) h.blk_lt (s.tbls.freeBlkTbl p)
  have htake := BlkTbls.blocks_take hp hblk
  rw [hused, one_some, one_none, add_zero] at hlog
  rw [htake] at hdata
  rw [← hdata, BlkTbls.blocks, hdataNum, hlogNum, simpleTbls_freeNums har h hp hblk,
    ← Multiset.singleton_add, ← Multiset.singleton_add, BlkTbls.blocks]
  show _ = held _ _ + held s.tbls.logNum logBlkCntOfZone +
    (s.tbls.setFree p .none).freeNums ar.freeBlkCntOfZone + {(s.tbls.dataBlkTbl k).phyBlkNum}
  rw [← hlog]
  abel

omit har hp hblk in
theorem simpleTbls_counts : (simpleTbls ar s.tbls p k i).CountsFit ar.freeBlkCntOfZone := by
  refine BlkTbls.CountsFit.setFreeBlk (BlkTbls.CountsFit.setFreeBlk ?_
    (SuperPhyBlk.erased_count (h.ok.dataCounts k h.blk_lt))) (SuperPhyBlk.erased_count h.logOK.count)
  exact h.ok.counts.setFree (show (0xffff : Nat) ≤ 0xffff by decide)

end SimpleTbls

/-! ## After the simple merge -/

section SimpleMerge

variable {ar : LogicArchi} {env : NandEnv} {L : ZoneLayout ar} {F : Int → Ftl → Prop} {k i : Nat}
  {s : Ftl}

/-- The block that has been filled takes the place of data block and log block. -/
theorem simpleMerge_tbls (har : ar.Fits) (h : MergeReady L k i s) {p : Nat}
    (hp : p < ar.freeBlkCntOfZone) (hblk : (s.tbls.freeBlkTbl p).phyBlkNum ≠ 0xffff)
    {c₂ c' : Cells} {t' : BlkTbls} (ht : t' = simpleTbls ar s.tbls p k i)
    (hfill : Filling ar s.curMapZone (s.tbls.freeBlkTbl p).phyBlkNum
      (Collects ar s.nand.cell s.curMapZone s.tbls k) s.nand.cell c₂ ar.pageCntOfLogicBlk)
    (hdata : ∀ a ∈ superBlk ar s.curMapZone (s.tbls.dataBlkTbl k).phyBlkNum, c' a = none)
    (hlog : ∀ a ∈ superBlk ar s.curMapZone (s.tbls.logBlkTbl i).phyBlk.phyBlkNum, c' a = none)
    (hrest : ∀ a, a ∉ superBlk ar s.curMapZone (s.tbls.dataBlkTbl k).phyBlkNum →
      a ∉ superBlk ar s.curMapZone (s.tbls.logBlkTbl i).phyBlk.phyBlkNum → c' a = c₂ a) :
    Rearranged L s.curMapZone k i {(s.tbls.freeBlkTbl p).phyBlkNum,
        (s.tbls.dataBlkTbl k).phyBlkNum, (s.tbls.logBlkTbl i).phyBlk.phyBlkNum}
      s.nand.cell c' s.tbls t' ∧
    ZoneOK L c' s.curMapZone t' ∧
    (∀ q < ar.pageCntOfLogicBlk, SameSectors ar (pageOf ar c' s.curMapZone t' k q).main
      (pageOf ar s.nand.cell s.curMapZone s.tbls k q).main) ∧
    DataInfo ar c' s.curMapZone t' k := by
  subst ht
  have hok := h.ok
  have hdataTbl := simpleTbls_dataBlkTbl ar s.tbls p k i
  have hlogTbl := simpleTbls_logBlkTbl ar s.tbls p k i
  have hfreeMem := BlkTbls.mem_freeNums hp hblk
  have hre : Rearranged L s.curMapZone k i {(s.tbls.freeBlkTbl p).phyBlkNum,
      (s.tbls.dataBlkTbl k).phyBlkNum, (s.tbls.logBlkTbl i).phyBlk.phyBlkNum}
      s.nand.cell c' s.tbls (simpleTbls ar s.tbls p k i) := by
    refine h.rearranged (fun a ha => ?_) ?_ (fun k' hne => ?_) (fun j hne => ?_) (.inr ?_)
    · rw [hrest a (ha _ (by simp)) (ha _ (by simp))]
      exact hfill.touched a fun b hb => ha b (by simp [Set.mem_singleton_iff.mp hb])
    · rintro b (rfl | hb)
      · exact .inl hfreeMem
      · exact .inr hb
    · rw [hdataTbl, Function.update_of_ne hne]
    · rw [hlogTbl, Function.update_of_ne hne]
    · rw [hlogTbl, Function.update_self]
      rfl
  -- the new data block is as the loop has left it
  have hnew (q : Nat) : pageAt ar c' s.curMapZone (s.tbls.freeBlkTbl p).phyBlkNum q =
      pageAt ar c₂ s.curMapZone (s.tbls.freeBlkTbl p).phyBlkNum q := by
    rw [pageAt, pageAt, hrest]
    · exact L.listed_apart har h.zone (hok.free_mem hfreeMem) h.data_mem
        (hok.data_ne_free h.blk_lt hfreeMem).symm q
    · exact L.listed_apart har h.zone (hok.free_mem hfreeMem) h.log_mem
        (hok.log_ne_free h.pst_lt h.logUsed hfreeMem).symm q
  have hdataNew : (simpleTbls ar s.tbls p k i).dataBlkTbl k = s.tbls.freeBlkTbl p := by
    rw [hdataTbl, Function.update_self]
  have hinfo : DataInfo ar c' s.curMapZone (simpleTbls ar s.tbls p k i) k := by
    rw [DataInfo, hdataNew, hnew]
    exact (hfill.done 0 har.pageCnt_pos har.pageCnt_pos).info rfl
  refine ⟨hre, ?_, fun q hq => ?_, hinfo⟩
  · refine hre.zoneOK har h.zone hok h.pst_lt (simpleTbls_blocks har h hp hblk)
      (simpleTbls_counts h) (fun b hb q hq => ?_) ?_ (.inr hinfo) fun hused => absurd ?_ hused
    · rw [simpleTbls_freeNums har h hp hblk] at hb
      rcases Multiset.mem_cons.mp hb with rfl | hb
      · exact hlog _ (pageAddr_mem ar _ _ q)
      rcases Multiset.mem_cons.mp hb with rfl | hb
      · exact hdata _ (pageAddr_mem ar _ _ q)
      obtain ⟨hmem, hne⟩ := BlkTbls.mem_freeNums_take (Multiset.nodup_add.mp hok.nodup).2.1 hp hblk hb
      rw [hre.sameBlock har h.zone (hok.free_mem hmem) ?_ q hq]
      · exact hok.free b hmem q hq
      · rintro (heq | heq | heq)
        · exact hne heq
        · exact hok.data_ne_free h.blk_lt hmem heq.symm
        · exact hok.log_ne_free h.pst_lt h.logUsed hmem heq.symm
    · rw [hdataNew]
      exact hok.counts p hp
    · rw [hlogTbl, Function.update_self]
      rfl
  · have hnone : (simpleTbls ar s.tbls p k i).logBlkPst k = none := h.logBlkPst_none hlogTbl
    have hpage : pageOf ar c' s.curMapZone (simpleTbls ar s.tbls p k i) k q =
        pageAt ar c₂ s.curMapZone (s.tbls.freeBlkTbl p).phyBlkNum q := by
      rw [pageOf, hnone]
      dsimp only
      rw [hdataNew, hnew]
    rw [hpage]
    exact (hfill.done q hq hq).main

/-- From the tables to the whole zone. -/
theorem Rearranged.merged {D : Set Nat} {s' : Ftl} (har : ar.Fits) (h : MergeReady L k i s)
    (hframe : Local s s')
    (hre : Rearranged L s.curMapZone k i D s.nand.cell s'.nand.cell s.tbls s'.tbls)
    (hok : ZoneOK L s'.nand.cell s.curMapZone s'.tbls)
    (hpages : ∀ q < ar.pageCntOfLogicBlk,
      SameSectors ar (pageOf ar s'.nand.cell s.curMapZone s'.tbls k q).main
        (pageOf ar s.nand.cell s.curMapZone s.tbls k q).main)
    (hinfo : DataInfo ar s'.nand.cell s.curMapZone s'.tbls k) : MergedTbls L i s s' where
  frame := hframe
  ok := hok
  touched := hre.touched.mono hre.own
  pages k' hk' q hq := by
    by_cases hne : k' = k
    · rw [hne]
      exact hpages q hq
    · rw [hre.pageOf_ne har h.zone h.ok h.pst_lt hk' hne hq]
      exact .refl _
  infos k' hk' hold := by
    by_cases hne : k' = k
    · rw [hne]
      exact hinfo
    · unfold DataInfo at hold ⊢
      rw [(hre.data k' hk' hne).1,
        (hre.sameData har h.zone h.ok hk' hne).pageAt har.pageCnt_pos]
      exact hold
  logs j hj hne := by
    refine ⟨⟨(hre.logs j hj hne).1, fun hused => ?_⟩,
      fun hused => hre.sameLog har h.zone h.ok hj hne hused⟩
    refine (hre.data _ (h.ok.logs j hj hused).num fun heq => hne ?_).1
    exact h.ok.single j hj i h.pst_lt (heq.trans h.log.symm) hused

/-- The log block is gone, and the slot of its page map is empty. -/
structure LogGone (i : Nat) (s' : Ftl) : Prop where
  log : s'.tbls.logBlkTbl i = .none
  slot : s'.pageMapCache.zoneNum = 0xff

theorem simpleMerge_keeps (har : ar.Fits) (hcopy : ar.CopiesExactly) (henv : env.NoFailure)
    (h : MergeReady L k i s) :
    WP anyRun (free2dataSimpleMerge ar env k) (fun _ s' => MergedTbls L i s s' ∧ LogGone i s') F s := by
  refine WP.bind (WP.get (WP.bind ((bmmGetFreeBlk_gives h.ok).imp ?_)))
  rintro _ _ ⟨p, hp, hblk, rfl, rfl⟩
  have hlogs : (takenFrom s p).tbls.logBlkTbl = s.tbls.logBlkTbl := by
    rw [tbls_takenFrom]
    rfl
  have hlogPst : (takenFrom s p).tbls.logBlkPst k = some i := by
    rw [BlkTbls.logBlkPst, hlogs]
    exact h.logBlkPst_eq
  have hlogBlk : (takenFrom s p).tbls.getLogBlk k = s.tbls.logBlkTbl i := by
    rw [BlkTbls.getLogBlk, hlogPst, hlogs]
  have hzone₁ : (takenFrom s p).curMapZone = s.curMapZone := by
    exact s.withTbls_curMapZone p _
  have hfreeMem := BlkTbls.mem_freeNums hp hblk
  have hnb : ar.IsSuperBlk s.curMapZone (s.tbls.freeBlkTbl p).phyBlkNum :=
    h.isSuperBlk (h.ok.free_mem hfreeMem)
  refine WP.bind (WP.get ?_)
  rw [hlogBlk, h.dataBlk_eq]
  -- the pages are collected in the free block
  have hloop : WP anyRun (iterate (simpleRound ar env (s.tbls.dataBlkTbl k)
      (s.tbls.logBlkTbl i).phyBlk) (mergeFuel ar) (0, s.tbls.freeBlkTbl p))
      (fun r s₂ => r = s.tbls.freeBlkTbl p ∧ Flashed (takenFrom s p) s₂ ∧
        Filling ar s.curMapZone (s.tbls.freeBlkTbl p).phyBlkNum
          (Collects ar s.nand.cell s.curMapZone s.tbls k) s.nand.cell s₂.nand.cell
          ar.pageCntOfLogicBlk) (fun _ _ => False) (takenFrom s p) := by
    refine pages_run (I := fun p' (s₂ : Ftl) => Flashed (takenFrom s p) s₂ ∧
      Filling ar s.curMapZone (s.tbls.freeBlkTbl p).phyBlkNum
        (Collects ar s.nand.cell s.curMapZone s.tbls k) s.nand.cell s₂.nand.cell p')
      (fun p' s₂ hp' hI => ?_) (fun p' hp' => if_neg hp') ?_ (Nat.zero_le _) ⟨.refl h.clear, ?_⟩
    · exact simpleRound_fills har hcopy henv h (hI.1.curMapZone.trans hzone₁) hI.1.pageMapTbl
        hI.1.clear hnb (h.ok.data_ne_free h.blk_lt hfreeMem).symm
        (h.ok.log_ne_free h.pst_lt h.logUsed hfreeMem).symm hp' hI.1 hI.2
    · unfold mergeFuel
      omega
    · exact ⟨.refl _, fun q hq => absurd hq (Nat.not_lt_zero q), fun q _ hq =>
        h.ok.free _ hfreeMem q hq⟩
  refine WP.bind (WP.orElse (hloop.mono ?_ fun _ _ he => he.elim))
  rintro _ s₂ ⟨rfl, h₂, hfill⟩
  refine WP.bind (WP.modify ?_)
  rw [if_neg (Nat.not_lt.mpr (Nat.le_of_lt h.blk_lt))]
  have hzone₂ : (s₂.setTbls (·.setData k (s.tbls.freeBlkTbl p))).curMapZone = s.curMapZone := by
    rw [Ftl.curMapZone, Ftl.setTbls_blkMapCache]
    exact h₂.curMapZone.trans hzone₁
  refine WP.bind ((freeOldBlk_clears henv har.pos (s := s₂.setTbls _) h₂.clear _).imp ?_)
  rintro _ s₃ ⟨h₃, hblank₃, hother₃⟩
  have hzone₃ : s₃.curMapZone = s.curMapZone := by
    rw [h₃.curMapZone, Ftl.curMapZone, Ftl.setTbls_blkMapCache]
    exact hzone₂
  refine WP.bind ((freeOldBlk_clears henv har.pos h₃.clear _).imp ?_)
  rintro _ s₄ ⟨h₄, hblank₄, hother₄⟩
  refine WP.bind (WP.modify (WP.modify ?_))
  rw [hzone₂] at hblank₃ hother₃
  rw [hzone₃] at hblank₄ hother₄
  -- one step from the start, as far as the tables go
  have hall := ((((((h₂.setTbls _).setTbls _).trans h₃).setTbls _).trans h₄).setTbls
    (·.setLogBlk k .none)).setPageMapCache
      fun c => { c with zoneNum := 0xff, logBlkPst := 0xff, dirtyFlag := false }
  rw [Ftl.takenFrom_eq, Ftl.withTbls_setTbls, Ftl.withTbls_setTbls, Ftl.withTbls_setTbls,
    Ftl.withTbls_setTbls] at hall
  rw [BlkTbls.setLogBlk_eq (i := i)] at hall
  swap
  · rw [BlkTbls.logBlkPst, BlkTbls.setFreeBlk_logBlkTbl, BlkTbls.setFreeBlk_logBlkTbl]
    exact h.logBlkPst_eq
  have htbls := hall.tbls.trans (Ftl.withTbls_tbls ..)
  have hslot := hall.pageMapCache.trans (Ftl.setPageMapCache_pageMapCache ..)
  have hdata : ∀ a ∈ superBlk ar s.curMapZone (s.tbls.dataBlkTbl k).phyBlkNum,
      s₄.nand.cell a = none := fun a ha => by
    by_cases hlog : a ∈ superBlk ar s.curMapZone (s.tbls.logBlkTbl i).phyBlk.phyBlkNum
    · exact hblank₄ a hlog
    · exact (hother₄ a hlog).trans (hblank₃ a ha)
  obtain ⟨hre, hok, hpages, hinfo⟩ := simpleMerge_tbls har h hp hblk htbls hfill hdata hblank₄
    fun a ha ha' => (hother₄ a ha').trans (hother₃ a ha)
  refine ⟨hre.merged har h ⟨p, _, _, hall⟩ hok hpages hinfo, ?_, ?_⟩
  · rw [htbls]
    exact (congrFun (simpleTbls_logBlkTbl ar s.tbls p k i) i).trans (Function.update_self ..)
  · rw [hslot]

end SimpleMerge

/-! ## The swap merge -/

section Order

variable {map : Nat → Nat}

theorem validPages_eq_of_none {m n : Nat} (hmn : m ≤ n)
    (h : ∀ p, m ≤ p → p < n → map p = 0xffff) : validPages map n = validPages map m := by
  induction hmn with
  | refl => rfl
  | @step n hle ih =>
      rw [validPages, h n hle (Nat.lt_succ_self n), if_neg (fun hne => hne rfl),
        ih fun p hp hlt => h p hp (Nat.lt_succ_of_lt hlt), Nat.add_zero]

/-- As many mapped pages as pages: all of them. -/
theorem validPages_full {n : Nat} (h : n ≤ validPages map n) : ∀ p < n, map p ≠ 0xffff := by
  induction n with
  | zero => exact fun p hp => absurd hp (Nat.not_lt_zero p)
  | succ n ih =>
      have hle := validPages_le map n
      rw [validPages] at h
      intro p hp
      rcases Nat.lt_succ_iff_lt_or_eq.mp hp with hlt | rfl
      · refine ih ?_ p hlt
        split at h <;> omega
      · split at h
        · assumption
        · omega

end Order

/-- The tables after a swap merge. -/
def swapTbls (ar : LogicArchi) (t : BlkTbls) (k i : Nat) : BlkTbls :=
  ((t.setData k (t.logBlkTbl i).phyBlk).setLog i .none).setFreeBlk ar.freeBlkCntOfZone
    (t.dataBlkTbl k).erased

section SwapMerge

variable {ar : LogicArchi} {env : NandEnv} {L : ZoneLayout ar} {F : Int → Ftl → Prop} {k i : Nat}
  {s : Ftl}

/-- In a log block in order the used pages are the first pages of the logical block. -/
structure InOrder (pageCnt : Nat) (l : LogBlk) (map : Nat → Nat) : Prop where
  last : l.lastUsedPage ≠ 0xffff
  low : ∀ p ≤ l.lastUsedPage, map p = p
  high : ∀ p, l.lastUsedPage < p → p < pageCnt → map p = 0xffff

theorem MergeReady.inOrder (har : ar.Fits) (h : MergeReady L k i s)
    (horder : logInOrder s.pageMapTbl ar.pageCntOfLogicBlk
      (s.tbls.logBlkTbl i).lastUsedPage = true) :
    InOrder ar.pageCntOfLogicBlk (s.tbls.logBlkTbl i) s.pageMapTbl := by
  obtain ⟨hplace, hcount⟩ := of_decide_eq_true horder
  have hmaps := har.maps
  have hmost := validPages_le s.pageMapTbl ar.pageCntOfLogicBlk
  have hlast : (s.tbls.logBlkTbl i).lastUsedPage ≠ 0xffff := by omega
  have hself {p : Nat} (hp : p < ar.pageCntOfLogicBlk) (hne : s.pageMapTbl p ≠ 0xffff) :
      s.pageMapTbl p = p :=
    (of_decide_eq_true (List.all_eq_true.mp hplace p (List.mem_range.mpr hp))).resolve_left hne
  have hhigh : ∀ p, (s.tbls.logBlkTbl i).lastUsedPage < p → p < ar.pageCntOfLogicBlk →
      s.pageMapTbl p = 0xffff := fun p hlt hp => by
    by_contra hne
    obtain ⟨-, hq, -⟩ := (h.source har hp).resolve_left fun hnone => hne hnone.1
    have := (h.lastUsed_of_page har hp hq).2
    rw [hself hp hne] at this
    omega
  have hlt := h.logOK.last hlast
  refine ⟨hlast, fun p hp => hself (by omega) ?_, hhigh⟩
  refine validPages_full (n := (s.tbls.logBlkTbl i).lastUsedPage + 1) ?_ p (by omega)
  rwa [← validPages_eq_of_none hlt fun p hle hp' => hhigh p hle hp']

theorem swapTbls_dataBlkTbl (ar : LogicArchi) (t : BlkTbls) (k i : Nat) :
    (swapTbls ar t k i).dataBlkTbl = Function.update t.dataBlkTbl k (t.logBlkTbl i).phyBlk :=
  BlkTbls.setFreeBlk_dataBlkTbl ..

theorem swapTbls_logBlkTbl (ar : LogicArchi) (t : BlkTbls) (k i : Nat) :
    (swapTbls ar t k i).logBlkTbl = Function.update t.logBlkTbl i .none :=
  BlkTbls.setFreeBlk_logBlkTbl ..

theorem swapTbls_freeNums (har : ar.Fits) (h : MergeReady L k i s) :
    (swapTbls ar s.tbls k i).freeNums ar.freeBlkCntOfZone =
      (s.tbls.dataBlkTbl k).phyBlkNum ::ₘ s.tbls.freeNums ar.freeBlkCntOfZone := by
  have hroom : (((s.tbls.setData k (s.tbls.logBlkTbl i).phyBlk).setLog i .none).freeNums
      ar.freeBlkCntOfZone).card < ar.freeBlkCntOfZone := h.free_lt
  rw [swapTbls, BlkTbls.freeNums_setFreeBlk hroom, SuperPhyBlk.erased_phyBlkNum]
  · rfl
  · rw [SuperPhyBlk.erased_phyBlkNum]
    exact L.listed_ne_none har h.data_mem

theorem swapTbls_blocks (har : ar.Fits) (h : MergeReady L k i s) :
    (swapTbls ar s.tbls k i).blocks ar = s.tbls.blocks ar := by
  have hroom : (((s.tbls.setData k (s.tbls.logBlkTbl i).phyBlk).setLog i .none).freeNums
      ar.freeBlkCntOfZone).card < ar.freeBlkCntOfZone := h.free_lt
  have hdata := BlkTbls.blocks_setData (t := s.tbls) h.blk_lt (s.tbls.logBlkTbl i).phyBlk
  have hlog := @BlkTbls.blocks_setLog (s.tbls.setData k (s.tbls.logBlkTbl i).phyBlk) ar i h.pst_lt
    .none
  have hused : (s.tbls.setData k (s.tbls.logBlkTbl i).phyBlk).logNum i =
    some (s.tbls.logBlkTbl i).phyBlk.phyBlkNum := if_neg h.logUsed
  rw [hused, one_some, LogBlk.none, if_pos rfl, one_none, add_zero] at hlog
  have hd : (s.tbls.dataBlkTbl k).erased.phyBlkNum ≠ 0xffff := by
    rw [SuperPhyBlk.erased_phyBlkNum]
    exact L.listed_ne_none har h.data_mem
  rw [swapTbls, BlkTbls.blocks_setFreeBlk hroom hd, SuperPhyBlk.erased_phyBlkNum]
  have hall : ((s.tbls.setData k (s.tbls.logBlkTbl i).phyBlk).setLog i .none).blocks ar +
      {(s.tbls.dataBlkTbl k).phyBlkNum} + {(s.tbls.logBlkTbl i).phyBlk.phyBlkNum} =
        s.tbls.blocks ar + {(s.tbls.logBlkTbl i).phyBlk.phyBlkNum} := by
    rw [add_right_comm, LogBlk.none, hlog, hdata]
  exact add_right_cancel hall

/-- One page of a swap merge. -/
theorem swapRound_fills (har : ar.Fits) (hcopy : ar.CopiesExactly) (henv : env.NoFailure)
    (h : MergeReady L k i s) (horder : InOrder ar.pageCntOfLogicBlk (s.tbls.logBlkTbl i) s.pageMapTbl)
    {s₂ : Ftl} {p : Nat} (hlow : (s.tbls.logBlkTbl i).lastUsedPage < p)
    (hp : p < ar.pageCntOfLogicBlk) (hfl : Flashed s s₂)
    (hfill : Filling ar s.curMapZone (s.tbls.logBlkTbl i).phyBlk.phyBlkNum
      (Collects ar s.nand.cell s.curMapZone s.tbls k) s.nand.cell s₂.nand.cell p) :
    WP anyRun (swapRound ar env (s.tbls.dataBlkTbl k) (s.tbls.logBlkTbl i).phyBlk
        (p, (s.tbls.logBlkTbl i).phyBlk))
      (fun r s' => r = .inl (p + 1, (s.tbls.logBlkTbl i).phyBlk) ∧ Flashed s s' ∧
        Filling ar s.curMapZone (s.tbls.logBlkTbl i).phyBlk.phyBlkNum
          (Collects ar s.nand.cell s.curMapZone s.tbls k) s.nand.cell s'.nand.cell (p + 1)) F s₂ := by
  have hzone := hfl.curMapZone
  have hsame : pageAt ar s₂.nand.cell s.curMapZone (s.tbls.dataBlkTbl k).phyBlkNum p =
      pageAt ar s.nand.cell s.curMapZone (s.tbls.dataBlkTbl k).phyBlkNum p := by
    rw [pageAt, pageAt, hfill.touched.other har (fun d hd => hd ▸ h.isSuperBlk h.log_mem)
      (h.isSuperBlk h.data_mem) (h.ok.data_ne_log h.blk_lt h.pst_lt h.logUsed) p]
  have hpage := (h.source har hp).resolve_right fun hsome => hsome.1 (horder.high p hlow hp)
  rw [swapRound, if_pos hp]
  refine WP.orElse (WP.bind (WP.get (WP.bind ?_)))
  refine (copyPage_puts henv hfl.clear (hcopy.inPlace fun _ => rfl)
    (by rw [hzone]; exact hfill.rest p (Nat.le_refl p) hp)).imp ?_
  rintro _ s₃ ⟨h₃, hcell⟩
  refine WP.bind ((synchPage_gives h₃.clear _ _).imp ?_)
  rintro _ _ ⟨rfl, rfl⟩
  refine WP.ite (fun hne => absurd rfl hne) fun _ => WP.pure ⟨rfl, hfl.trans h₃, ?_⟩
  rw [hcell, hzone]
  refine hfill.step har (h.isSuperBlk h.log_mem) hp ⟨?_, fun hp0 => by omega⟩
  rw [hpage.2, ← hsame, pageAt]
  exact .refl _

theorem swapMerge_tbls (har : ar.Fits) (h : MergeReady L k i s) {c₂ c' : Cells} {t' : BlkTbls}
    (ht : t' = swapTbls ar s.tbls k i)
    (hfill : Filling ar s.curMapZone (s.tbls.logBlkTbl i).phyBlk.phyBlkNum
      (Collects ar s.nand.cell s.curMapZone s.tbls k) s.nand.cell c₂ ar.pageCntOfLogicBlk)
    (hdata : ∀ a ∈ superBlk ar s.curMapZone (s.tbls.dataBlkTbl k).phyBlkNum, c' a = none)
    (hrest : ∀ a, a ∉ superBlk ar s.curMapZone (s.tbls.dataBlkTbl k).phyBlkNum → c' a = c₂ a) :
    Rearranged L s.curMapZone k i {(s.tbls.dataBlkTbl k).phyBlkNum,
        (s.tbls.logBlkTbl i).phyBlk.phyBlkNum} s.nand.cell c' s.tbls t' ∧
    ZoneOK L c' s.curMapZone t' ∧
    (∀ q < ar.pageCntOfLogicBlk, SameSectors ar (pageOf ar c' s.curMapZone t' k q).main
      (pageOf ar s.nand.cell s.curMapZone s.tbls k q).main) ∧
    DataInfo ar c' s.curMapZone t' k := by
  subst ht
  have hok := h.ok
  have hdataTbl := swapTbls_dataBlkTbl ar s.tbls k i
  have hlogTbl := swapTbls_logBlkTbl ar s.tbls k i
  have hre : Rearranged L s.curMapZone k i {(s.tbls.dataBlkTbl k).phyBlkNum,
      (s.tbls.logBlkTbl i).phyBlk.phyBlkNum} s.nand.cell c' s.tbls (swapTbls ar s.tbls k i) := by
    refine h.rearranged (fun a ha => ?_) (fun _ hb => .inr hb) (fun k' hne => ?_) (fun j hne => ?_)
      (.inr ?_)
    · rw [hrest a (ha _ (by simp))]
      exact hfill.touched a fun b hb => ha b (by simp [Set.mem_singleton_iff.mp hb])
    · rw [hdataTbl, Function.update_of_ne hne]
    · rw [hlogTbl, Function.update_of_ne hne]
    · rw [hlogTbl, Function.update_self]
      rfl
  have hnew (q : Nat) : pageAt ar c' s.curMapZone (s.tbls.logBlkTbl i).phyBlk.phyBlkNum q =
      pageAt ar c₂ s.curMapZone (s.tbls.logBlkTbl i).phyBlk.phyBlkNum q := by
    rw [pageAt, pageAt, hrest]
    exact L.listed_apart har h.zone h.log_mem h.data_mem
      (hok.data_ne_log h.blk_lt h.pst_lt h.logUsed).symm q
  have hdataNew : (swapTbls ar s.tbls k i).dataBlkTbl k = (s.tbls.logBlkTbl i).phyBlk := by
    rw [hdataTbl, Function.update_self]
  have hinfo : DataInfo ar c' s.curMapZone (swapTbls ar s.tbls k i) k := by
    rw [DataInfo, hdataNew, hnew]
    exact (hfill.done 0 har.pageCnt_pos har.pageCnt_pos).info rfl
  refine ⟨hre, ?_, fun q hq => ?_, hinfo⟩
  · refine hre.zoneOK har h.zone hok h.pst_lt (swapTbls_blocks har h)
      (BlkTbls.CountsFit.setFreeBlk (t := (s.tbls.setData k _).setLog i .none) h.ok.counts
        (SuperPhyBlk.erased_count (hok.dataCounts k h.blk_lt))) (fun b hb q hq => ?_) ?_ (.inr hinfo)
      fun hused => absurd ?_ hused
    · rw [swapTbls_freeNums har h] at hb
      rcases Multiset.mem_cons.mp hb with rfl | hb
      · exact hdata _ (pageAddr_mem ar _ _ q)
      rw [hre.sameBlock har h.zone (hok.free_mem hb) ?_ q hq]
      · exact hok.free b hb q hq
      · rintro (heq | heq)
        · exact hok.data_ne_free h.blk_lt hb heq.symm
        · exact hok.log_ne_free h.pst_lt h.logUsed hb heq.symm
    · rw [hdataNew]
      exact h.logOK.count
    · rw [hlogTbl, Function.update_self]
      rfl
  · have hnone : (swapTbls ar s.tbls k i).logBlkPst k = none := h.logBlkPst_none hlogTbl
    have hpage : pageOf ar c' s.curMapZone (swapTbls ar s.tbls k i) k q =
        pageAt ar c₂ s.curMapZone (s.tbls.logBlkTbl i).phyBlk.phyBlkNum q := by
      rw [pageOf, hnone]
      dsimp only
      rw [hdataNew, hnew]
    rw [hpage]
    exact (hfill.done q hq hq).main

theorem swapMerge_keeps (har : ar.Fits) (hcopy : ar.CopiesExactly) (henv : env.NoFailure)
    (h : MergeReady L k i s) (horder : logInOrder s.pageMapTbl ar.pageCntOfLogicBlk
      (s.tbls.logBlkTbl i).lastUsedPage = true) :
    WP anyRun (log2dataSwapMerge ar env k) (fun _ s' => MergedTbls L i s s' ∧ LogGone i s') F s := by
  have hin := h.inOrder har horder
  have hlt := h.logOK.last hin.last
  have hmaps := har.maps
  refine WP.bind (WP.get ?_)
  dsimp only
  rw [h.logBlk_eq, h.dataBlk_eq,
    show u16 ((s.tbls.logBlkTbl i).lastUsedPage + 1) = (s.tbls.logBlkTbl i).lastUsedPage + 1 from
      Nat.mod_eq_of_lt (by omega)]
  -- the rest of the pages is added to the log block
  have hloop : WP anyRun (iterate (swapRound ar env (s.tbls.dataBlkTbl k)
      (s.tbls.logBlkTbl i).phyBlk) (mergeFuel ar)
        ((s.tbls.logBlkTbl i).lastUsedPage + 1, (s.tbls.logBlkTbl i).phyBlk))
      (fun r s₂ => r = (s.tbls.logBlkTbl i).phyBlk ∧
        (s.tbls.logBlkTbl i).lastUsedPage < ar.pageCntOfLogicBlk ∧ Flashed s s₂ ∧
        Filling ar s.curMapZone (s.tbls.logBlkTbl i).phyBlk.phyBlkNum
          (Collects ar s.nand.cell s.curMapZone s.tbls k) s.nand.cell s₂.nand.cell
          ar.pageCntOfLogicBlk) F s := by
    refine pages_run (I := fun p (s₂ : Ftl) => (s.tbls.logBlkTbl i).lastUsedPage < p ∧
      Flashed s s₂ ∧ Filling ar s.curMapZone (s.tbls.logBlkTbl i).phyBlk.phyBlkNum
        (Collects ar s.nand.cell s.curMapZone s.tbls k) s.nand.cell s₂.nand.cell p)
      (fun p s₂ hp hI => ?_) (fun p hp => if_neg hp) ?_ hlt
      ⟨Nat.lt_succ_self _, .refl h.clear, .refl _, fun q hq hq' => ?_, fun q hq hq' => ?_⟩
    · refine (swapRound_fills har hcopy henv h hin hI.1 hp hI.2.1 hI.2.2).imp ?_
      rintro _ s₃ ⟨hr, h₃, hfill⟩
      exact ⟨hr, Nat.lt_succ_of_lt hI.1, h₃, hfill⟩
    · unfold mergeFuel
      omega
    · have hmap := hin.low q (by omega)
      obtain ⟨-, -, hpage⟩ := (h.source har hq').resolve_left fun hnone => by
        have := hnone.1
        omega
      rw [hmap] at hpage
      refine ⟨?_, fun hq0 => ?_⟩
      · rw [hpage]
        exact .refl _
      · rw [hq0]
        exact h.logOK.info hin.last
    · refine h.logOK.blank q hq' ?_
      unfold LogBlk.usedPages
      rw [if_neg hin.last]
      exact hq
  refine WP.bind (hloop.imp ?_)
  rintro _ s₂ ⟨rfl, -, h₂, hfill⟩
  refine WP.bind (WP.modify (WP.bind (WP.modify ?_)))
  rw [if_neg (Nat.not_lt.mpr (Nat.le_of_lt h.blk_lt))]
  have h₃ := (h₂.setTbls (·.setData k (s.tbls.logBlkTbl i).phyBlk)).setTbls (·.setLogBlk k .none)
  have hzone₃ := h₃.curMapZone
  rw [Ftl.setTbls_eq s, Ftl.withTbls_setTbls, Ftl.withTbls_curMapZone] at hzone₃
  refine WP.bind ((freeOldBlk_clears henv har.pos h₃.clear _).imp ?_)
  rintro _ s₄ ⟨h₄, hblank₄, hother₄⟩
  refine WP.modify ?_
  rw [hzone₃] at hblank₄ hother₄
  have hall := ((h₃.setTbls _).trans h₄).setPageMapCache
    fun c => { c with zoneNum := 0xff, logBlkPst := 0xff, dirtyFlag := false }
  have hpst : (s.tbls.setData k (s.tbls.logBlkTbl i).phyBlk).logBlkPst k = some i :=
    h.logBlkPst_eq
  rw [Ftl.setTbls_eq s, Ftl.withTbls_setTbls, Ftl.withTbls_setTbls,
    BlkTbls.setLogBlk_eq hpst] at hall
  have htbls := hall.tbls.trans (Ftl.withTbls_tbls ..)
  have hslot := hall.pageMapCache.trans (Ftl.setPageMapCache_pageMapCache ..)
  obtain ⟨hre, hok, hpages, hinfo⟩ := swapMerge_tbls har h htbls hfill hblank₄ hother₄
  refine ⟨hre.merged har h ⟨_, _, _, hall⟩ hok hpages hinfo, ?_, ?_⟩
  · rw [htbls]
    exact (congrFun (swapTbls_logBlkTbl ar s.tbls k i) i).trans (Function.update_self ..)
  · rw [hslot]

end SwapMerge

end Novo7
