import Novo7.TblReadBack

/-!
# Storing a page map

`_write_back_page_map_tbl` writes the page map of a log block into the next page of it, as halfwords
from the start of the buffer and with a checksum in word 511, and `_read_page_map_tbl` takes it from
the last used page. The map may have any number of pages; the word of the checksum is the last of
the four sectors that are read. `pageMap_readsBack`: a map of up to 1022 pages is read as it was
written.
-/

namespace Novo7

open Traced Machine

/-! ## The table -/

section Store

variable {ar : LogicArchi} {env : NandEnv}

/-- An entry that is not in the word of the checksum. -/
theorem pageMapBuf_entry (map : Nat → Nat) {k : Nat} (hk : k < ar.pageCntOfLogicBlk)
    (happart : k / 2 ≠ 511) : pageMapBuf ar map k = map k := by
  unfold pageMapBuf Buf.setWord
  rw [Function.update_of_ne (by omega), Function.update_of_ne (by omega)]
  exact if_pos hk

theorem pageMapBuf_checkSum (map : Nat → Nat) (hpages : ar.pageCntOfLogicBlk ≤ 1023) :
    (pageMapBuf ar map).word 511 =
      getTblCheckSum (pageMapBuf ar map).word (ar.pageCntOfLogicBlk / 2) :=
  Buf.setWord_checkSum _ (by omega)

/-! ## What is asked -/

/-- No operation on the flash fails. -/
structure NandEnv.NoFailure (env : NandEnv) : Prop where
  read : ∀ n, env.read n = .good
  prog : ∀ n, env.prog n = .done
  erase : ∀ n, env.erase n = .done

/-- The state in which `_write_back_page_map_tbl` gets to the page, behind a merge if the block was
full, with the page that it goes to. -/
structure PageMapPlace (ar : LogicArchi) (env : NandEnv) (pst : Nat) (s s' : Ftl) : Prop where
  merged : u16 ((s.tbls.logBlkTbl pst).lastUsedPage + 1) = ar.pageCntOfLogicBlk →
    (lmlMergeLogBlk ar env .special (s.tbls.logBlkTbl pst).logicBlkNum s).1 = .ret () s' ∧
      s'.pageMapCache.zoneNum ≠ 0xff
  same : u16 ((s.tbls.logBlkTbl pst).lastUsedPage + 1) ≠ ar.pageCntOfLogicBlk → s' = s
  page : u16 ((s'.tbls.logBlkTbl pst).lastUsedPage + 1) < ar.pageCntOfLogicBlk
  blank : s'.nand.cell (lmlCalculatePhyOpPar ar s'.curMapZone
    (s'.tbls.logBlkTbl pst).phyBlk.phyBlkNum
    (u16 ((s'.tbls.logBlkTbl pst).lastUsedPage + 1))) = none

/-- The page with the last used number of a log block. -/
def lastPageAddr (ar : LogicArchi) (pst : Nat) (s : Ftl) : PhyPage :=
  lmlCalculatePhyOpPar ar s.curMapZone (s.tbls.logBlkTbl pst).phyBlk.phyBlkNum
    (s.tbls.logBlkTbl pst).lastUsedPage

/-- The test that `_read_page_map_tbl` makes of a page. -/
def AcceptsPageMap (ar : LogicArchi) (p : Page) : Prop :=
  p.spare.pageStatus = 0xaa ∧ p.spare.logicPageNum = 0xffff ∧
    getTblCheckSum p.main.word (ar.pageCntOfLogicBlk / 2) = p.main.word 511

/-- Another state with the same table page. -/
structure SameTblPage (pst : Nat) (s t : Ftl) : Prop where
  zone : t.curMapZone = s.curMapZone
  log : t.tbls.logBlkTbl pst = s.tbls.logBlkTbl pst
  cell : t.nand.cell = s.nand.cell

/-- A map has been stored: the page is accepted from now on, and read as the map. -/
structure MapStored (ar : LogicArchi) (env : NandEnv) (pst : Nat) (map : Nat → Nat) (s : Ftl) :
    Prop where
  accepted : AcceptsPageMap ar (s.nand.read (lastPageAddr ar pst s))
  readsBack : ∀ t, SameTblPage pst s t → ∃ t', (readPageMapTbl ar env pst t).1 = .ret () t' ∧
    t'.pageMapCache = { t.pageMapCache with pageMapTbl := t'.pageMapTbl } ∧
    ∀ k < ar.pageCntOfLogicBlk, t'.pageMapTbl k = map k

/-- What is asked of a number of pages: every map is read back, and no entry of the table is in the
word of the checksum. -/
structure MapsReadBack (ar : LogicArchi) (env : NandEnv) : Prop where
  stored : ∀ pst s s', PageMapPlace ar env pst s s' →
    ∃ s₁, (writeBackPageMapTbl ar env pst s).1 = .ret () s₁ ∧
      MapStored ar env pst s'.pageMapTbl s₁
  apart : ∀ k < ar.pageCntOfLogicBlk, k / 2 ≠ 511

/-! ## Writing -/

theorem Ftl.setTbls_blkMapCache (s : Ftl) (f : BlkTbls → BlkTbls) :
    (s.setTbls f).blkMapCache = { s.blkMapCache with tbls := f s.tbls } :=
  Ftl.blkMapCache_setBlkMapCache ..

theorem Ftl.setPageMapCache_pageMapCache (s : Ftl) (f : PageMapTblCache → PageMapTblCache) :
    (s.setPageMapCache f).pageMapCache = f s.pageMapCache := Function.update_self ..

/-- A run with a known end. -/
theorem wp_of_eq {α : Type} {m : FtlProg α} {Q : α → Ftl → Prop} {F : Int → Ftl → Prop} {a : α}
    {s s' : Ftl} (h : (m s).1 = .ret a s') (hQ : Q a s') : WP anyRun m Q F s := by
  refine fun _ => ⟨fun _ _ => trivial, ?_⟩
  rw [h]
  exact hQ

theorem outcome_of_wp {α : Type} {m : FtlProg α} {Q : α → Ftl → Prop} {s : Ftl}
    (h : WP anyRun m Q (fun _ _ => False) s) : ∃ a s', (m s).1 = .ret a s' ∧ Q a s' := by
  have hends := ends_of_wp h
  cases hm : (m s).1 with
  | ret a s' =>
      rw [hm] at hends
      exact ⟨a, s', rfl, hends⟩
  | err e s' =>
      rw [hm] at hends
      exact hends.elim

variable {F : Int → Ftl → Prop}

/-- A loop that is left in its first round. -/
theorem iterate_once {τ α : Type} {step : τ → FtlProg (τ ⊕ α)} {Q : α → Ftl → Prop} (n : Nat)
    {x : τ} {s : Ftl} (h : WP anyRun (step x) (fun r s' => ∃ a, r = .inr a ∧ Q a s') F s) :
    WP anyRun (iterate step (n + 1) x) Q F s := by
  refine WP.bind (h.imp ?_)
  rintro _ s' ⟨a, rfl, ha⟩
  exact WP.pure ha

/-- A blank page is written without a failure. -/
theorem writeTbl_done (henv : env.NoFailure) {z blk page : Nat} (spare : UserData) {s : Ftl}
    (hblank : s.nand.cell (lmlCalculatePhyOpPar ar z blk page) = none) :
    WP anyRun (writeTbl ar env z blk page spare)
      (fun ret s' => ret = 0 ∧ s'.blkCache = s.blkCache ∧ s'.actBlk = s.actBlk ∧
        s'.nand.cell (lmlCalculatePhyOpPar ar z blk page) = some ⟨s.processTblBuf, spare⟩) F s := by
  refine WP.bind (WP.get (WP.bind (WP.bind (WP.get (WP.bind (WP.emit fun _ => ⟨trivial,
    WP.bind (WP.modify ?_)⟩))))))
  rw [henv.prog]
  refine WP.bind (WP.modify (WP.pure (WP.bind (WP.get (WP.pure ⟨?_, rfl, rfl, ?_⟩)))))
  · exact if_neg (by simp [bankOf, Ftl.setNand, Nand.setFailed, Nand.setCell])
  · show Function.update s.nand.cell _ _ _ = _
    rw [Function.update_self, Nand.programmed, hblank]

/-- One try is enough to write the map. -/
theorem writePageMapRound_done (henv : env.NoFailure) {pst tablePage tableBlk : Nat} {s : Ftl}
    (hblank : s.nand.cell (lmlCalculatePhyOpPar ar s.curMapZone tableBlk tablePage) = none) :
    WP anyRun (writePageMapRound ar env pst tablePage tableBlk)
      (fun r s' => ∃ a, r = .inr a ∧ s'.blkCache = s.blkCache ∧ s'.actBlk = s.actBlk ∧
        s'.nand.cell (lmlCalculatePhyOpPar ar s.curMapZone tableBlk tablePage) =
          some ⟨pageMapBuf ar s.pageMapTbl, { UserData.blank with pageStatus := 0xaa }⟩) F s := by
  refine WP.bind (WP.get ?_)
  generalize pageMapBuf ar s.pageMapTbl = b
  refine WP.bind (WP.modify (WP.bind ?_))
  refine (@writeTbl_done ar env F henv s.curMapZone tableBlk tablePage _
    { s with processTblBuf := b } hblank).imp ?_
  rintro _ s₁ ⟨rfl, hcache, hact, hcell⟩
  exact WP.ite (fun hne => absurd rfl hne) fun _ => WP.pure ⟨(), rfl, hcache, hact, hcell⟩

/-- The map goes to its page, which is the last used one then. -/
theorem writeBackPageMapTbl_done (henv : env.NoFailure) {pst : Nat} {s s' : Ftl}
    (h : PageMapPlace ar env pst s s') :
    WP anyRun (writeBackPageMapTbl ar env pst)
      (fun _ s₁ => (s₁.tbls.logBlkTbl pst).lastUsedPage < ar.pageCntOfLogicBlk ∧
        s₁.nand.cell (lastPageAddr ar pst s₁) =
          some ⟨pageMapBuf ar s'.pageMapTbl, { UserData.blank with pageStatus := 0xaa }⟩) F s := by
  have hmerge : WP anyRun
      (when (u16 ((s.tbls.logBlkTbl pst).lastUsedPage + 1) = ar.pageCntOfLogicBlk)
        (lmlMergeLogBlk ar env .special (s.tbls.logBlkTbl pst).logicBlkNum))
      (fun _ s₁ => s₁ = s') F s :=
    WP.when (fun hfull => wp_of_eq (h.merged hfull).1 rfl) fun hmore => (h.same hmore).symm
  refine WP.bind (WP.get (WP.bind (hmerge.imp fun _ s₁ hs₁ => ?_)))
  rw [hs₁]
  refine WP.bind (WP.get (WP.when (fun _ => ?_) fun hkept => ?_))
  · refine WP.bind ((iterate_once (ar.freeBlkCntOfZone + 1)
      ((writePageMapRound_done henv h.blank).imp ?_)))
    rintro _ s₂ ⟨_, rfl, hcache, hact, hcell⟩
    refine ⟨(), rfl, WP.bind (WP.modify (WP.modify ?_))⟩
    have hblk : s₂.blkMapCache = s'.blkMapCache := by
      rw [Ftl.blkMapCache, hcache, hact]
      rfl
    -- the entry of the log block has the page now
    have hlog (f : PageMapTblCache → PageMapTblCache) (g : BlkTbls → BlkTbls) :
        ((s₂.setTbls g).setPageMapCache f).tbls = g s'.tbls := by
      show (s₂.setTbls g).blkMapCache.tbls = _
      rw [Ftl.setTbls_blkMapCache, Ftl.tbls, hblk]
      rfl
    have hzone (f : PageMapTblCache → PageMapTblCache) (g : BlkTbls → BlkTbls) :
        ((s₂.setTbls g).setPageMapCache f).curMapZone = s'.curMapZone := by
      show (s₂.setTbls g).blkMapCache.zoneNum = _
      rw [Ftl.setTbls_blkMapCache, hblk]
      rfl
    rw [lastPageAddr, hlog, hzone]
    simp only [BlkTbls.setLog, Function.update_self]
    exact ⟨h.page, hcell⟩
  · have hkept := not_not.mp hkept
    exact absurd hkept.2 (h.merged hkept.1).2

/-! ## Reading -/

/-- The sectors that are read have the sums of the page. -/
theorem word_copySectors (src dst : Buf) {k : Nat} (hk : k < 512) :
    (copySectors 0xf src dst).word k = src.word k := by
  rw [Buf.word, Buf.word, copySectors_low (by omega), copySectors_low (by omega)]

/-- A page that is accepted is taken as the map, and nothing else is changed in the slot. -/
theorem readPageMapTbl_accepts (henv : env.NoFailure) (hpages : ar.pageCntOfLogicBlk ≤ 1024)
    {pst : Nat} {t : Ftl} (hlast : (t.tbls.logBlkTbl pst).lastUsedPage ≠ 0xffff)
    (hacc : AcceptsPageMap ar (t.nand.read (lastPageAddr ar pst t))) :
    WP anyRun (readPageMapTbl ar env pst)
      (fun _ t' => t'.pageMapCache = { t.pageMapCache with pageMapTbl := t'.pageMapTbl } ∧
        ∀ k < ar.pageCntOfLogicBlk,
          t'.pageMapTbl k = (t.nand.read (lastPageAddr ar pst t)).main k) F t := by
  obtain ⟨hstatus, hpage, hsum⟩ := hacc
  refine WP.bind (WP.get (WP.ite (fun hempty => absurd hempty hlast) fun _ => ?_))
  refine WP.bind ((readTbl_page henv.read _ _ t).imp ?_)
  rintro _ t₁ ⟨rfl, ht₁⟩
  rw [← lastPageAddr] at ht₁ ⊢
  generalize t.nand.read (lastPageAddr ar pst t) = p at *
  have hbuf : t₁.processTblBuf = copySectors 0xf p.main t.processTblBuf := by rw [ht₁]
  have hslot : t₁.pageMapCache = t.pageMapCache := by rw [ht₁]; rfl
  have hsum' : getTblCheckSum t₁.processTblBuf.word (ar.pageCntOfLogicBlk / 2) =
      t₁.processTblBuf.word 511 := by
    rw [hbuf, word_copySectors _ _ (by decide), ← hsum]
    exact getTblCheckSum_congr fun k hk => word_copySectors _ _ (by omega)
  refine WP.bind (WP.get (WP.ite (fun hbad => ?_) fun _ => WP.modify ⟨?_, fun k hk => ?_⟩))
  · rcases hbad with hret | hbad | hbad | hbad
    · exact absurd hret (by decide)
    · exact absurd hstatus hbad
    · exact absurd hpage hbad
    · exact absurd hsum' hbad
  · rw [Ftl.pageMapTbl, Ftl.setPageMapCache_pageMapCache, hslot]
  · rw [Ftl.pageMapTbl, Ftl.setPageMapCache_pageMapCache, hbuf]
    show (if k < ar.pageCntOfLogicBlk then _ else _) = p.main k
    rw [if_pos hk, copySectors_low (by omega)]

/-! ## Both -/

/-- Every map of up to 1022 pages is read back as it was stored. -/
theorem pageMap_readsBack (ar : LogicArchi) (hpages : ar.pageCntOfLogicBlk ≤ 1022) (env : NandEnv)
    (henv : env.NoFailure) : MapsReadBack ar env where
  stored pst s s' h := by
    obtain ⟨_, s₁, hrun, hlast, hcell⟩ := outcome_of_wp (writeBackPageMapTbl_done henv h)
    have hread : s₁.nand.read (lastPageAddr ar pst s₁) =
        ⟨pageMapBuf ar s'.pageMapTbl, { UserData.blank with pageStatus := 0xaa }⟩ := by
      rw [Nand.read, hcell, Option.getD_some]
    have hacc : AcceptsPageMap ar (s₁.nand.read (lastPageAddr ar pst s₁)) := by
      rw [hread]
      exact ⟨rfl, rfl, (pageMapBuf_checkSum _ (by omega)).symm⟩
    refine ⟨s₁, hrun, hacc, fun t ht => ?_⟩
    have haddr : lastPageAddr ar pst t = lastPageAddr ar pst s₁ := by
      rw [lastPageAddr, lastPageAddr, ht.zone, ht.log]
    have hpage : t.nand.read (lastPageAddr ar pst t) = s₁.nand.read (lastPageAddr ar pst s₁) := by
      rw [haddr, Nand.read, Nand.read, ht.cell]
    have hlast' : (t.tbls.logBlkTbl pst).lastUsedPage ≠ 0xffff := by
      rw [ht.log]
      omega
    obtain ⟨_, t', hrun', hslot, hmap⟩ := outcome_of_wp
      (readPageMapTbl_accepts henv (show ar.pageCntOfLogicBlk ≤ 1024 by omega) hlast'
        (hpage.symm ▸ hacc))
    refine ⟨t', hrun', hslot, fun k hk => ?_⟩
    rw [hmap k hk, hpage, hread]
    exact pageMapBuf_entry _ hk (by omega)
  apart k hk := by omega

end Store

/-- Nothing fails. -/
def faultless : NandEnv := ⟨fun _ => .good, fun _ => .done, fun _ => .done⟩

theorem faultless_noFailure : faultless.NoFailure := ⟨fun _ => rfl, fun _ => rfl, fun _ => rfl⟩

theorem pageMap_readsBack_fiveZones : MapsReadBack fiveZones faultless :=
  pageMap_readsBack fiveZones (by decide) faultless faultless_noFailure

/-- Super blocks of 1024 pages. -/
def thousandPages : LogicArchi :=
  { fiveZones with pageCntOfLogicBlk := 1024, pageCntOfPhyBlk := 1024 }

/-- The map of a log block without pages, of 1024 entries, is not accepted when it is read. -/
theorem pageMap_1024_refused : ¬ ∀ ar : LogicArchi, ar.pageCntOfLogicBlk ≤ 1024 →
    ∀ env : NandEnv, env.NoFailure → MapsReadBack ar env := by
  intro hall
  have hplace : PageMapPlace thousandPages faultless 0 fourCached fourCached :=
    ⟨fun hfull => absurd hfull (by decide), fun _ => rfl, by decide, rfl⟩
  have hback := hall thousandPages (by decide) faultless faultless_noFailure
  obtain ⟨s₁, hrun, hstored⟩ := hback.stored 0 fourCached fourCached hplace
  obtain ⟨_, s₂, hrun', -, hcell⟩ := outcome_of_wp
    (writeBackPageMapTbl_done faultless_noFailure hplace)
  obtain ⟨-, rfl⟩ := Outcome.ret.inj (hrun'.symm.trans hrun)
  have hsum := hstored.accepted.2.2
  have hmap : fourCached.pageMapTbl = fun _ => 0xffff := rfl
  rw [Nand.read, hcell, Option.getD_some, hmap,
    show thousandPages.pageCntOfLogicBlk / 2 = 512 from rfl] at hsum
  have hne : getTblCheckSum (pageMapBuf thousandPages fun _ => 0xffff).word 512 ≠
      (pageMapBuf thousandPages fun _ => 0xffff).word 511 := by
    decide +kernel
  exact hne hsum

end Novo7
