import Novo7.MapSwitch

/-!
# Switching zones

`BMM_SwitchMapTbl` brings the tables of a zone into a slot. For that another zone may have to leave:
its page maps are stored in their log blocks, and its tables in the next group of the table block,
which is erased when it has no further one. Where no operation on the flash fails, the switch to
any zone succeeds, and the pages of all zones are what they were (`bmmSwitchMapTbl_switches`).

After `BMM_WriteBackAllMapTbl` no slot is dirty: the table blocks have the tables of every zone
(`bmmWriteBackAllMapTbl_stores`).
-/

namespace Novo7

open Traced Machine

/-! ## The page maps of a zone -/

section Maps

variable {ar : LogicArchi} {env : NandEnv} {L : ZoneLayout ar} {F : Int → Ftl → Prop} {s : Ftl}

/-- The page maps of zone `z` in the first `n` slots are not dirty. -/
def MapsClean (z n : Nat) (s : Ftl) : Prop :=
  ∀ j : Fin 4, j.val < n → (s.pageCache j).zoneNum = z → (s.pageCache j).dirtyFlag = false

/-- The slots of other zones are as before. -/
def OtherSlots (s s' : Ftl) : Prop := ∀ i, i ≠ s.actBlk → s'.blkCache i = s.blkCache i

/-- The page map in slot `j` is stored, and the slot is free. -/
theorem writeBackSlot_leaves (har : ar.Fits) (hcopy : ar.CopiesExactly) (henv : env.NoFailure)
    (hc : Coherent L s) (hact : s.curMapZone ≠ 0xff) (hd : s.blkMapCache.dirtyFlag = true) {j : Fin 4}
    (hzone : (s.pageCache j).zoneNum = s.curMapZone) (hdirty : (s.pageCache j).dirtyFlag = true) :
    WP anyRun (do
        writeBackPageMapTbl ar env (s.pageCache j).logBlkPst
        modify (·.setPageMapCache fun c => { c with dirtyFlag := false }))
      (fun _ s' => Coherent L s' ∧ DiskStays ar s s' ∧ OtherSlots s s' ∧
        (s'.pageCache j).zoneNum = 0xff ∧ ∀ j', j' ≠ j → s'.pageCache j' = s.pageCache j') F
      { s with actPage := j } := by
  generalize hs₁ : { s with actPage := j } = s₁
  have hsame : SameTables L s s₁ := by
    rw [← hs₁]
    exact .of_eq hc.clear rfl rfl (fun _ => ⟨rfl, rfl, rfl⟩) fun _ _ => ⟨rfl, rfl, rfl, id⟩
  have hc₁ := hsame.coherent har hc
  have hstays₁ : DiskStays ar s s₁ := hsame.stays har hc (by rw [← hs₁]) (by rw [← hs₁]; rfl)
  have hslot₁ : s₁.pageMapCache = s.pageCache j := by
    rw [← hs₁]
    rfl
  have hact₁ : s₁.curMapZone ≠ 0xff := hstays₁.curMapZone ▸ hact
  have hmap₁ : s₁.HasMapOf (s.pageCache j).logBlkPst := by
    refine ⟨?_, by rw [hslot₁]⟩
    rw [hslot₁, hstays₁.curMapZone]
    exact hzone
  have hlast := (hc₁.mapOK hact₁ hmap₁.1).dirty (by
    rw [show s₁.pageCache s₁.actPage = s.pageCache j from hslot₁]
    exact hdirty)
  rw [show s₁.pageCache s₁.actPage = s.pageCache j from hslot₁] at hlast
  refine WP.bind ((writeBackPageMapTbl_leaves har hcopy henv hc₁ hact₁ (hstays₁.marked hd) hmap₁
    hlast).imp fun _ s₂ h₂ => WP.modify ?_)
  have hactPage : s₂.actPage = j := by
    rw [h₂.within.actPage, ← hs₁]
  have hslot₂ : ((s₂.setPageMapCache fun c => { c with dirtyFlag := false }).pageCache j).zoneNum =
      0xff := by
    show (Function.update s₂.pageCache s₂.actPage _ j).zoneNum = 0xff
    rw [hactPage, Function.update_self]
    exact h₂.slot
  have hother (j' : Fin 4) (hj' : j' ≠ j) :
      (s₂.setPageMapCache fun c => { c with dirtyFlag := false }).pageCache j' = s₂.pageCache j' :=
    Function.update_of_ne (hactPage ▸ hj') ..
  have hsame₂ : SameTables L s₂ (s₂.setPageMapCache fun c => { c with dirtyFlag := false }) := by
    refine .of_eq h₂.coherent.clear rfl rfl (fun _ => ⟨rfl, rfl, rfl⟩) fun j' hj' => ?_
    have hne : j' ≠ j := fun heq => hj' (heq ▸ hslot₂)
    rw [hother j' hne]
    exact ⟨rfl, rfl, rfl, id⟩
  refine ⟨hsame₂.coherent har h₂.coherent,
    (hstays₁.trans h₂.stays).trans (hsame₂.stays har h₂.coherent rfl rfl), fun i hi => ?_, hslot₂,
    fun j' hj' => ?_⟩
  · show s₂.blkCache i = _
    rw [h₂.within.blkCache_ne i (by rw [← hs₁]; exact hi), ← hs₁]
  · rw [hother j' hj', h₂.within.pageCache_ne j' (by rw [← hs₁]; exact hj'), ← hs₁]

theorem writeBackAllPageMapTbl_leaves (har : ar.Fits) (hcopy : ar.CopiesExactly) (henv : env.NoFailure)
    (hc : Coherent L s) (hact : s.curMapZone ≠ 0xff) (hd : s.blkMapCache.dirtyFlag = true) :
    WP anyRun (writeBackAllPageMapTbl ar env s.curMapZone)
      (fun _ s' => Coherent L s' ∧ DiskStays ar s s' ∧ OtherSlots s s' ∧
        MapsClean s.curMapZone 4 s') F s := by
  refine WP.forRange (I := fun n s' => Coherent L s' ∧ DiskStays ar s s' ∧ OtherSlots s s' ∧
      MapsClean s.curMapZone n s') (fun n s₁ hn h₁ => ?_)
    ⟨hc, .refl ar s, fun _ _ => rfl, fun j hj => absurd hj (Nat.not_lt_zero _)⟩
  obtain ⟨hc₁, hstays₁, hothers₁, hclean₁⟩ := h₁
  have hcur₁ := hstays₁.curMapZone
  have hval : (Fin.ofNat 4 n).val = n := Nat.mod_eq_of_lt hn
  refine WP.bind (WP.get (WP.when (fun hdirty => WP.bind (WP.modify ?_)) fun hnot => ?_))
  · refine (writeBackSlot_leaves har hcopy henv hc₁ (hcur₁ ▸ hact) (hstays₁.marked hd)
      (hdirty.1.trans hcur₁.symm) hdirty.2).imp ?_
    rintro _ s₂ ⟨hc₂, hstays₂, hothers₂, hslot, hother⟩
    refine ⟨hc₂, hstays₁.trans hstays₂,
      fun i hi => (hothers₂ i (hstays₁.actBlk ▸ hi)).trans (hothers₁ i hi), fun j hj hzone => ?_⟩
    by_cases hjn : j = Fin.ofNat 4 n
    · rw [hjn, hslot] at hzone
      exact absurd hzone.symm hact
    · have hne : j.val ≠ n := fun heq => hjn (Fin.ext (heq.trans hval.symm))
      rw [hother j hjn] at hzone ⊢
      exact hclean₁ j (by omega) hzone
  · refine ⟨hc₁, hstays₁, hothers₁, fun j hj hzone => ?_⟩
    by_cases hjn : j = Fin.ofNat 4 n
    · rw [hjn] at hzone ⊢
      exact Bool.eq_false_iff.mpr fun hdirty => hnot ⟨hzone, hdirty⟩
    · have hne : j.val ≠ n := fun heq => hjn (Fin.ext (heq.trans hval.symm))
      exact hclean₁ j (by omega) hzone

end Maps

/-! ## A group of a table block -/

section Groups

variable {ar : LogicArchi} {env : NandEnv} {L : ZoneLayout ar} {F : Int → Ftl → Prop} {s : Ftl}

theorem writeTblPage_programs (henv : env.NoFailure) (hs : s.Clear) {z b page : Nat} (info : Nat)
    (hblank : s.nand.cell (lmlCalculatePhyOpPar ar z b page) = none) :
    WP anyRun (writeTblPage ar env z b page info) (fun r s' => r = none ∧ Flashed s s' ∧
      ∃ pg : Page, pg.main = s.processTblBuf ∧ s'.nand.cell =
        Function.update s.nand.cell (lmlCalculatePhyOpPar ar z b page) (some pg)) F s := by
  have hwrite : WP anyRun (do
        let ret ← writeTbl ar env z b page
          { UserData.blank with logicInfo := info, pageStatus := 0x55 }
        if ret ≠ 0 then do
          let newBlk ← lmlBadBlkManage ar env ⟨b, 0⟩ z 0
          pure (some newBlk)
        else
          pure none) (fun r s' => r = none ∧ Flashed s s' ∧ ∃ pg : Page, pg.main = s.processTblBuf ∧
        s'.nand.cell = Function.update s.nand.cell (lmlCalculatePhyOpPar ar z b page) (some pg)) F s := by
    refine WP.bind ((writeTbl_programs henv hs z b page _).imp ?_)
    rintro _ s₁ ⟨rfl, h₁, hcell⟩
    rw [Nand.programmed, hblank] at hcell
    exact WP.ite (fun hne => absurd rfl hne) fun _ => WP.pure ⟨rfl, h₁, _, rfl, hcell⟩
  exact WP.bind (WP.get (WP.bind (WP.when (fun _ => WP.emit fun _ => ⟨trivial, hwrite⟩)
    fun _ => hwrite)))

/-- The three pages of a group are written. -/
theorem writeTblGroup_programs (har : ar.Fits) (henv : env.NoFailure) (hs : s.Clear) {z : Nat}
    {x : Nat × Nat} (hx : x.2 + 2 < ar.pageCntOfLogicBlk)
    (hblank : ∀ j < 3, s.nand.cell (tblAddr ar z x j) = none) :
    WP anyRun (writeTblGroup ar env z x) (fun r s' => r = .inr x ∧ Flashed s s' ∧
      HoldsTbls ar z x s.blkMapCache s'.nand ∧
      ∀ a, (∀ j < 3, a ≠ tblAddr ar z x j) → s'.nand.cell a = s.nand.cell a) F s := by
  have hne (j k : Nat) (hj : j < 3) (hk : k < 3) (hjk : j ≠ k) : tblAddr ar z x j ≠ tblAddr ar z x k :=
    tblAddr_ne har.toPagesFit hj hk hx hjk
  -- a page, after the buffer has been filled for it
  have hpage {s₁ : Ftl} (h₁ : Flashed s s₁) (b : Buf) (j : Nat) (info : Nat)
      (hfree : s₁.nand.cell (tblAddr ar z x j) = none) :
      WP anyRun (writeTblPage ar env z x.1 (x.2 + j) info) (fun r s' => r = none ∧ Flashed s s' ∧
        ∃ pg : Page, pg.main = b ∧
          s'.nand.cell = Function.update s₁.nand.cell (tblAddr ar z x j) (some pg)) F
        { s₁ with processTblBuf := b } := by
    refine (@writeTblPage_programs ar env F { s₁ with processTblBuf := b } henv h₁.clear z x.1 (x.2 + j)
      info hfree).imp ?_
    rintro _ s₂ ⟨rfl, h₂, pg, hmain, hcell⟩
    exact ⟨rfl, ⟨by rw [h₂.eq, h₁.eq], h₂.clear⟩, pg, hmain, hcell⟩
  refine WP.bind (WP.modify (WP.bind ((hpage (.refl hs) _ 0 _ (hblank 0 (by omega))).imp ?_)))
  rintro _ s₁ ⟨rfl, h₁, p₀, hmain₀, hcell₁⟩
  have hcell₁ (a : PhyPage) : s₁.nand.cell a =
      if a = tblAddr ar z x 0 then some p₀ else s.nand.cell a := by rw [hcell₁, Function.update_apply]
  refine WP.bind (WP.modify (WP.bind ((hpage h₁ _ 1 _ ?_).imp ?_)))
  · rw [hcell₁, if_neg (hne 1 0 (by omega) (by omega) (by omega))]
    exact hblank 1 (by omega)
  rintro _ s₂ ⟨rfl, h₂, p₁, hmain₁, hcell₂⟩
  have hcell₂ (a : PhyPage) : s₂.nand.cell a = if a = tblAddr ar z x 1 then some p₁ else
      if a = tblAddr ar z x 0 then some p₀ else s.nand.cell a := by
    rw [hcell₂, Function.update_apply, hcell₁]
  refine WP.bind (WP.modify (WP.bind ((hpage h₂ _ 2 _ ?_).imp ?_)))
  · rw [hcell₂, if_neg (hne 2 1 (by omega) (by omega) (by omega)),
      if_neg (hne 2 0 (by omega) (by omega) (by omega))]
    exact hblank 2 (by omega)
  rintro _ s₃ ⟨rfl, h₃, p₂, hmain₂, hcell₃⟩
  have hcell₃ (a : PhyPage) : s₃.nand.cell a = if a = tblAddr ar z x 2 then some p₂ else
      if a = tblAddr ar z x 1 then some p₁ else
        if a = tblAddr ar z x 0 then some p₀ else s.nand.cell a := by
    rw [hcell₃, Function.update_apply, hcell₂]
  refine WP.pure ⟨rfl, h₃, fun j hj => ?_, fun a ha => ?_⟩
  · rcases (by omega : j = 0 ∨ j = 1 ∨ j = 2) with rfl | rfl | rfl
    · refine ⟨p₀, ?_, fun i hi => ?_⟩
      · rw [hcell₃, if_neg (hne 0 2 (by omega) (by omega) (by omega)),
          if_neg (hne 0 1 (by omega) (by omega) (by omega)), if_pos rfl]
      · rw [hmain₀]
        exact if_pos hi
    · refine ⟨p₁, ?_, fun i hi => ?_⟩
      · rw [hcell₃, if_neg (hne 1 2 (by omega) (by omega) (by omega)), if_pos rfl]
      · rw [hmain₁, ← h₁.blkMapCache]
        exact if_pos hi
    · refine ⟨p₂, by rw [hcell₃, if_pos rfl], fun i _ => ?_⟩
      rw [hmain₂, ← h₂.blkMapCache]
      rfl
  · rw [hcell₃, if_neg (ha 2 (by omega)), if_neg (ha 1 (by omega)), if_neg (ha 0 (by omega))]

/-- The next group is in the table block, which has been erased if there was no further one. -/
theorem nextTblGroup_places (har : ar.Fits) (henv : env.NoFailure) (hc : Coherent L s) {z : Nat}
    (hz : ar.IsZone z) :
    WP anyRun (nextTblGroup ar env z) (fun x s' => x.1 = L.tblBlk z ∧ x.2 % 4 = 0 ∧
      x.2 + 3 < ar.pageCntOfLogicBlk ∧ Flashed s s' ∧
      (∀ q < ar.pageCntOfLogicBlk, x.2 ≤ q →
        s'.nand.cell (lmlCalculatePhyOpPar ar z (L.tblBlk z) q) = none) ∧
      ∀ a, a ∉ superBlk ar z (L.tblBlk z) → s'.nand.cell a = s.nand.cell a) F s := by
  have hplace := hc.place z hz
  have hroom := hplace.room
  have hgroup := hplace.group
  have hgroups := har.groups
  have htbl := hc.tblBlk z hz
  refine WP.bind (WP.get (WP.ite (fun hfull => WP.bind ?_) fun hmore => WP.pure ?_))
  · refine (lmlVirtualBlkErase_clears henv har.pos hc.clear z _).imp ?_
    rintro _ s₁ ⟨rfl, h₁, hclear, hother⟩
    rw [htbl] at hclear hother
    exact WP.ite (fun hne => absurd rfl hne) fun _ => WP.pure ⟨htbl, rfl,
      show 0 + 3 < ar.pageCntOfLogicBlk by omega, h₁, fun q _ _ => hclear _ (pageAddr_mem ar z _ q),
      hother⟩
  · refine ⟨htbl, ?_, ?_, .refl hc.clear, fun q hq hle => ?_, fun _ _ => rfl⟩
    · show ((s.zoneTblPst z).tablePst + 4) % 4 = 0
      omega
    · show (s.zoneTblPst z).tablePst + 4 + 3 < ar.pageCntOfLogicBlk
      omega
    · rw [← htbl]
      exact hplace.blank q hq hle

end Groups

/-! ## Writing back -/

section WriteBack

variable {ar : LogicArchi} {env : NandEnv} {L : ZoneLayout ar} {F : Int → Ftl → Prop} {s : Ftl}

/-- The tables of the active zone are in its table block, and none of its page maps is dirty. -/
structure TblsStored (L : ZoneLayout ar) (s s' : Ftl) : Prop where
  coherent : Coherent L s'
  stays : DiskStays ar s s'
  others : OtherSlots s s'
  maps : MapsClean s.curMapZone 4 s'
  stored : InStore ar s' s.curMapZone s'.tbls

/-- The table blocks of two zones are apart. -/
theorem otherTblBlk_apart (har : ar.Fits) {z z' : Nat} (hz : ar.IsZone z) (hz' : ar.IsZone z')
    (hne : z' ≠ z) (q : Nat) :
    lmlCalculatePhyOpPar ar z' (L.tblBlk z') q ∉ superBlk ar z (L.tblBlk z) := fun hin => by
  obtain ⟨hdie, hsame⟩ := (mem_superBlk_iff har (L.isSuperBlk hz' (L.tblBlk_mem_own z'))
    (L.isSuperBlk hz (L.tblBlk_mem_own z)) q).mp hin
  refine Multiset.disjoint_left.mp (L.apart z' z hne hdie) (L.tblBlk_mem_own z') ?_
  rw [hsame]
  exact L.tblBlk_mem_own z

/-- The group of the active zone is at another place of its table block, and the flash has not
changed outside of the block. -/
theorem tblGroup_safe (har : ar.Fits) (hc : Coherent L s) (hact : s.curMapZone ≠ 0xff) (p : Nat)
    (hpst : s'.zoneTblPst = Function.update s.zoneTblPst s.curMapZone ⟨L.tblBlk s.curMapZone, p⟩)
    (hplace : TblPlace ar s'.nand.cell s.curMapZone ⟨L.tblBlk s.curMapZone, p⟩)
    (hcell : ∀ a ∉ superBlk ar s.curMapZone (L.tblBlk s.curMapZone),
      s'.nand.cell a = s.nand.cell a)
    (hslot : (s'.blkCache s.actBlk).zoneNum = s.curMapZone ∧
      (s'.blkCache s.actBlk).dirtyFlag = true) {z : Nat} (hz : ar.IsZone z) :
    TblsSafe ar z s s' := by
  have hcur := hc.active hact
  by_cases hne : z = s.curMapZone
  · subst hne
    refine ⟨?_, fun _ => ?_, fun _ hclean => ?_⟩
    · rw [hpst, Function.update_self, hc.tblBlk _ hz]
    · rw [hpst, Function.update_self]
      exact hplace
    · exact absurd (hslot.2.symm.trans (hclean s.actBlk hslot.1)) nofun
  · refine .of_cells ?_ fun q hq _ => hcell _ ?_
    · rw [hpst, Function.update_of_ne hne]
    · rw [hc.tblBlk z hz]
      exact otherTblBlk_apart har hcur hz hne q

/-- The part of `_write_back_block_map_tbl` behind the page maps. -/
theorem storeTbls_stores (har : ar.Fits) (henv : env.NoFailure) (hc : Coherent L s)
    (hact : s.curMapZone ≠ 0xff) (hd : s.blkMapCache.dirtyFlag = true)
    (onFail : Nat × Nat → Int → FtlProg ((Nat × Nat) ⊕ (Nat × Nat))) :
    WP anyRun (do
        let x ← nextTblGroup ar env s.curMapZone
        modify (·.setBlkMapCache fun c => { c with checkSum := c.blkSum ar.dataBlkCntOfZone })
        modify ({ · with processTblBuf := Buf.blank })
        let x ← iterate (fun x => orElse (writeTblGroup ar env s.curMapZone x) (onFail x))
          (ar.freeBlkCntOfZone + 2) x
        modify fun s' => { s' with
          zoneTblPst := Function.update s'.zoneTblPst s.curMapZone ⟨x.1, x.2⟩ })
      (fun _ s' => SameTables L s s' ∧ s'.actBlk = s.actBlk ∧ s'.outside = s.outside ∧
        OtherSlots s s' ∧ s'.pageCache = s.pageCache ∧ InStore ar s' s.curMapZone s'.tbls) F s := by
  have hz := hc.active hact
  refine WP.bind ((nextTblGroup_places har henv hc hz).imp ?_)
  rintro ⟨_, p⟩ s₁ ⟨rfl, hgroup, hroom, h₁, hblank, hother₁⟩
  dsimp only at hgroup hroom hblank
  refine WP.bind (WP.modify (WP.bind (WP.modify (WP.bind ?_))))
  generalize hs₂ : s₁.setBlkMapCache (fun c => { c with checkSum := c.blkSum ar.dataBlkCntOfZone }) = s₂
  have hslot₂ : s₂.blkMapCache = { s.blkMapCache with
      checkSum := s.blkMapCache.blkSum ar.dataBlkCntOfZone } := by
    rw [← hs₂, Ftl.blkMapCache_setBlkMapCache, h₁.blkMapCache]
  have hcell₂ : s₂.nand.cell = s₁.nand.cell := by
    rw [← hs₂]
    rfl
  have hact₂ : s₂.actBlk = s.actBlk := by
    rw [← hs₂]
    exact h₁.actBlk
  have hother₂ (i : Fin 4) (hi : i ≠ s.actBlk) : s₂.blkCache i = s.blkCache i := by
    rw [← hs₂]
    exact (Function.update_of_ne (by rw [h₁.actBlk]; exact hi) ..).trans (congrFun h₁.blkCache i)
  have hblk₂ (i : Fin 4) : (s₂.blkCache i).zoneNum = (s.blkCache i).zoneNum ∧
      (s₂.blkCache i).tbls = (s.blkCache i).tbls ∧
      (s₂.blkCache i).dirtyFlag = (s.blkCache i).dirtyFlag := by
    by_cases hi : i = s.actBlk
    · have hslot : s₂.blkCache s.actBlk = s₂.blkMapCache := by
        rw [← hact₂]
        rfl
      rw [hi, hslot, hslot₂]
      exact ⟨rfl, rfl, rfl⟩
    · rw [hother₂ i hi]
      exact ⟨rfl, rfl, rfl⟩
  have hclear₂ : ({ s₂ with processTblBuf := Buf.blank } : Ftl).Clear := by
    rw [← hs₂]
    exact h₁.clear
  have hgroupRun : WP anyRun (orElse (writeTblGroup ar env s.curMapZone (L.tblBlk s.curMapZone, p))
        (onFail (L.tblBlk s.curMapZone, p)))
      (fun r s' => ∃ a, r = .inr a ∧ a = (L.tblBlk s.curMapZone, p) ∧
        Flashed { s₂ with processTblBuf := Buf.blank } s' ∧
        HoldsTbls ar s.curMapZone (L.tblBlk s.curMapZone, p) s₂.blkMapCache s'.nand ∧
        ∀ a, (∀ j < 3, a ≠ tblAddr ar s.curMapZone (L.tblBlk s.curMapZone, p) j) →
          s'.nand.cell a = s₂.nand.cell a) F { s₂ with processTblBuf := Buf.blank } := by
    have hwrite := @writeTblGroup_programs ar env (fun _ _ => False)
      { s₂ with processTblBuf := Buf.blank } har henv hclear₂ s.curMapZone (L.tblBlk s.curMapZone, p)
      (by show p + 2 < _; omega) fun j hj => by
        show s₂.nand.cell (lmlCalculatePhyOpPar ar _ _ (p + j)) = none
        rw [hcell₂]
        exact hblank _ (by omega) (by omega)
    refine WP.orElse (hwrite.mono ?_ fun _ _ hf => hf.elim)
    rintro _ s' ⟨rfl, h, hholds, hother⟩
    exact ⟨_, rfl, rfl, h, hholds, hother⟩
  refine (iterate_once (ar.freeBlkCntOfZone + 1) hgroupRun).imp ?_
  rintro _ s₃ ⟨rfl, h₃, hholds, hother₃⟩
  refine WP.modify ?_
  have hblk₃ : s₃.blkCache = s₂.blkCache := h₃.blkCache
  have hpst₃ : s₃.zoneTblPst = s.zoneTblPst := by
    rw [h₃.eq, ← hs₂]
    show s₁.zoneTblPst = _
    rw [h₁.eq]
  -- what is outside of the table block is as before
  have hcell {a : PhyPage} (ha : a ∉ superBlk ar s.curMapZone (L.tblBlk s.curMapZone)) :
      s₃.nand.cell a = s.nand.cell a := by
    rw [hother₃ a fun j _ heq => ha ?_, hcell₂, hother₁ a ha]
    rw [heq]
    exact pageAddr_mem ar _ _ _
  have hstored : InStore ar
      { s₃ with
        zoneTblPst := Function.update s₃.zoneTblPst s.curMapZone ⟨L.tblBlk s.curMapZone, p⟩ }
      s.curMapZone s.tbls := by
    refine ⟨s₂.blkMapCache, ?_, ?_, ?_⟩
    · rw [hslot₂]
      rfl
    · rw [hslot₂]
      exact blkSum_congr fun _ _ => rfl
    · show HoldsTbls ar _ ((Function.update s₃.zoneTblPst _ _ _).phyBlkNum,
        (Function.update s₃.zoneTblPst _ _ _).tablePst) _ _
      rw [Function.update_self]
      exact hholds
  -- the group is behind the one that was there, and what follows it is blank
  have hplace : TblPlace ar s₃.nand.cell s.curMapZone ⟨L.tblBlk s.curMapZone, p⟩ := by
    refine ⟨hgroup, hroom, fun q hq hle => ?_⟩
    dsimp only at hle ⊢
    rw [hother₃ _ fun j hj heq => ?_, hcell₂]
    · exact hblank q hq (by omega)
    · have hsame := lmlCalculatePhyOpPar_inj har.toPagesFit hq (by dsimp only; omega) heq
      dsimp only at hsame
      omega
  have hslot₃ : (s₃.blkCache s.actBlk).zoneNum = s.curMapZone ∧
      (s₃.blkCache s.actBlk).dirtyFlag = true := by
    rw [hblk₃]
    exact ⟨(hblk₂ s.actBlk).1, (hblk₂ s.actBlk).2.2.trans hd⟩
  refine ⟨⟨h₃.clear, fun z hz' b hb q _ => hcell (tblBlk_apart har hz hz' hb q), fun z hz' => ?_,
    fun i => ?_, fun i => ?_, fun i hi => ?_, fun i _ hi => ?_, fun j _ => ?_⟩, ?_, ?_,
    fun i hi => (congrFun hblk₃ i).trans (hother₂ i hi), ?_, ?_⟩
  · refine tblGroup_safe har hc hact p ?_ ?_ ?_ ?_ hz'
    · show Function.update s₃.zoneTblPst _ _ = _
      rw [hpst₃]
    · exact hplace
    · exact fun _ => hcell
    · exact hslot₃
  · exact (congrArg BlkMapTblCache.zoneNum (congrFun hblk₃ i)).trans (hblk₂ i).1
  · exact (congrArg BlkMapTblCache.tbls (congrFun hblk₃ i)).trans (hblk₂ i).2.1
  · exact (congrArg BlkMapTblCache.dirtyFlag (congrFun hblk₃ i)).trans ((hblk₂ i).2.2.trans hi)
  · exact (congrArg BlkMapTblCache.dirtyFlag (congrFun hblk₃ i)).trans ((hblk₂ i).2.2.trans hi)
  · have hpages : s₃.pageCache = s.pageCache := by
      rw [h₃.pageCache, ← hs₂]
      exact h₁.pageCache
    show (s₃.pageCache j).zoneNum = _ ∧ (s₃.pageCache j).logBlkPst = _ ∧
      (s₃.pageCache j).pageMapTbl = _ ∧ ((s₃.pageCache j).dirtyFlag = true → _)
    rw [hpages]
    exact ⟨rfl, rfl, rfl, id⟩
  · exact h₃.actBlk.trans hact₂
  · show s₃.outside = _
    rw [h₃.eq, ← hs₂]
    show s₁.outside = _
    rw [h₁.eq]
    rfl
  · show s₃.pageCache = _
    rw [h₃.pageCache, ← hs₂]
    exact h₁.pageCache
  · have htbls : s₃.tbls = s.tbls := by
      rw [h₃.tbls]
      show s₂.blkMapCache.tbls = _
      rw [hslot₂]
      rfl
    show InStore ar _ _ s₃.tbls
    rw [htbls]
    exact hstored

/-- `_write_back_block_map_tbl` -/
theorem writeBackBlockMapTbl_stores (har : ar.Fits) (hcopy : ar.CopiesExactly) (henv : env.NoFailure)
    (hc : Coherent L s) (hact : s.curMapZone ≠ 0xff) (hd : s.blkMapCache.dirtyFlag = true) :
    WP anyRun (writeBackBlockMapTbl ar env s.curMapZone) (fun _ s' => TblsStored L s s') F s := by
  refine WP.bind ((writeBackAllPageMapTbl_leaves har hcopy henv hc hact hd).imp ?_)
  rintro _ s₁ ⟨hc₁, hstays₁, hothers₁, hclean⟩
  have hcur := hstays₁.curMapZone
  refine WP.bind (WP.get ?_)
  have hstore := storeTbls_stores (F := F) har henv hc₁ (hcur ▸ hact) (hstays₁.marked hd)
    fun x e => do
      when (x.1 ≠ (s₁.zoneTblPst s.curMapZone).phyBlkNum) (emit .tblDropped)
      fail e
  rw [hcur] at hstore
  refine hstore.imp ?_
  rintro _ s₂ ⟨hsame, hactBlk, hout, hothers, hpages, hstored⟩
  exact ⟨hsame.coherent har hc₁, hstays₁.trans (hsame.stays har hc₁ hactBlk hout),
    fun i hi => (hothers i (hstays₁.actBlk ▸ hi)).trans (hothers₁ i hi),
    fun j hj hzone => by rw [hpages] at hzone ⊢; exact hclean j hj hzone, hstored⟩

end WriteBack

/-! ## Reading -/

/-- What holds of a run for two reasons, one of which knows how it fails. -/
theorem WP.and_ends {ε σ α : Type} {C : Contract ε} {m : Prog ε σ α} {Q Q' : α → σ → Prop}
    {F F' : Int → σ → Prop} {s : σ} (h : WP C m Q F s) (h' : WP C m Q' F' s) :
    WP C m (fun a s' => Q a s' ∧ Q' a s') F s := by
  intro hes
  obtain ⟨hnoted, hends⟩ := h hes
  have hends' := (h' hes).2
  refine ⟨hnoted, ?_⟩
  cases hm : (m s).1 with
  | ret a s' =>
      rw [hm] at hends hends'
      exact ⟨hends, hends'⟩
  | err e s' =>
      rw [hm] at hends
      exact hends

/-- Besides the buffers, only the active tables have changed; the slot has its label and its mark. -/
def SlotFilled (s s' : Ftl) : Prop :=
  ∃ b : BlkMapTblCache, b.zoneNum = s.curMapZone ∧ b.dirtyFlag = s.blkMapCache.dirtyFlag ∧
    Flashed (s.setBlkMapCache fun _ => b) s' ∧ s'.nand.cell = s.nand.cell

theorem Ftl.setBlkMapCache_const (s : Ftl) (b : BlkMapTblCache) (f : BlkMapTblCache → BlkMapTblCache) :
    (s.setBlkMapCache fun _ => b).setBlkMapCache f = s.setBlkMapCache fun _ => f b := by
  simp [setBlkMapCache, blkMapCache]

section Fill

variable {ar : LogicArchi} {env : NandEnv} {s s₁ s₂ : Ftl}

theorem SlotFilled.refl (hs : s.Clear) : SlotFilled s s := by
  refine ⟨s.blkMapCache, rfl, rfl, ?_, rfl⟩
  have hself : (s.setBlkMapCache fun _ => s.blkMapCache) = s := by
    simp [Ftl.setBlkMapCache, Ftl.blkMapCache]
  rw [hself]
  exact .refl hs

theorem SlotFilled.flashed (h : SlotFilled s s₁) (hfl : Flashed s₁ s₂)
    (hcell : s₂.nand.cell = s₁.nand.cell) : SlotFilled s s₂ := by
  obtain ⟨b, hzone, hdirty, h₁, hcell₁⟩ := h
  exact ⟨b, hzone, hdirty, h₁.trans hfl, hcell.trans hcell₁⟩

theorem SlotFilled.load (h : SlotFilled s s₁) {f : BlkMapTblCache → BlkMapTblCache}
    (hzone : ∀ b, (f b).zoneNum = b.zoneNum) (hdirty : ∀ b, (f b).dirtyFlag = b.dirtyFlag) :
    SlotFilled s (s₁.setBlkMapCache f) := by
  obtain ⟨b, hz, hd, h₁, hcell₁⟩ := h
  refine ⟨f b, (hzone b).trans hz, (hdirty b).trans hd, ?_, hcell₁⟩
  have hall := h₁.setBlkMapCache f
  rwa [Ftl.setBlkMapCache_const] at hall

theorem SlotFilled.clear (h : SlotFilled s s₁) : s₁.Clear := by
  obtain ⟨_, _, _, h₁, _⟩ := h
  exact h₁.clear

theorem readBlockMapTbl_fills (henv : env.NoFailure) (hs : s.Clear) (z : Nat) :
    WP anyRun (readBlockMapTbl ar env z) (fun _ s' => SlotFilled s s') (fun _ _ => True) s := by
  have hmix (s : Ftl) : WP anyRun mixTbls (fun _ _ => False) (fun _ _ => True) s :=
    mixTbls_gives trivial s
  have hread {s₁ : Ftl} (h₁ : SlotFilled s s₁) (b page : Nat) :
      WP anyRun (readTbl ar env z b page 0xf) (fun r s' => r.1 = 0 ∧ SlotFilled s s')
        (fun _ _ => True) s₁ := by
    refine (readTbl_gives henv h₁.clear z b page 0xf).imp ?_
    rintro _ s' ⟨rfl, hfl, hcell, -⟩
    exact ⟨rfl, h₁.flashed hfl hcell⟩
  refine WP.bind (WP.get (WP.bind ((hread (.refl hs) _ _).imp ?_)))
  rintro ⟨_, u⟩ s₁ ⟨rfl, h₁⟩
  refine WP.bind (WP.failIf (fun _ => trivial) fun _ => WP.bind (WP.modify (WP.bind
    ((hread (h₁.load ?_ ?_) _ _).imp ?_))))
  · exact fun _ => rfl
  · exact fun _ => rfl
  rintro ⟨_, u⟩ s₂ ⟨rfl, h₂⟩
  refine WP.bind (WP.when (fun _ => (hmix _).imp fun _ _ hf => hf.elim) fun _ => WP.bind (WP.modify
    (WP.bind (WP.get (WP.bind (WP.when (fun _ => (hmix _).imp fun _ _ hf => hf.elim) fun _ => WP.bind
      ((hread (h₂.load ?_ ?_) _ _).imp ?_)))))))
  · exact fun _ => rfl
  · exact fun _ => rfl
  rintro ⟨_, u⟩ s₃ ⟨rfl, h₃⟩
  refine WP.bind (WP.when (fun _ => (hmix _).imp fun _ _ hf => hf.elim) fun _ => WP.bind (WP.get
    (WP.bind (WP.when (fun _ => (hmix _).imp fun _ _ hf => hf.elim) fun _ => WP.modify ?_))))
  exact h₃.load (fun _ => rfl) fun _ => rfl

/-- The tables of a zone are read as they have been stored. -/
theorem readBlockMapTbl_reads (har : ar.Fits) (henv : env.NoFailure) (hs : s.Clear) {F : Int → Ftl → Prop}
    {z : Nat} {t : BlkTbls} (h : InStore ar s z t) :
    WP anyRun (readBlockMapTbl ar env z) (fun _ s' => SameTbls ar t s'.tbls ∧ SlotFilled s s') F s := by
  obtain ⟨b, rfl, hsum, hholds⟩ := h
  have hblks := har.dataBlks
  have haccept := readBlockMapTbl_accepts henv.read (show ar.dataBlkCntOfZone < 1024 by omega) hholds
  refine WP.mono (WP.and_ends haccept (readBlockMapTbl_fills henv hs z)) ?_
    fun _ _ hne => absurd hsum hne
  rintro _ s' ⟨⟨-, hsame⟩, hfilled⟩
  exact ⟨hsame.symm, hfilled⟩

end Fill

/-! ## The switch -/

section Switch

variable {ar : LogicArchi} {env : NandEnv} {L : ZoneLayout ar} {F : Int → Ftl → Prop} {s s' : Ftl}
  {z : Nat}

/-- The active slot can be given to another zone. -/
structure SlotFree (ar : LogicArchi) (s : Ftl) : Prop where
  stored : s.curMapZone ≠ 0xff → InStore ar s s.curMapZone s.tbls
  maps : s.curMapZone ≠ 0xff → MapsClean s.curMapZone 4 s

/-- Zone `z` has taken the active slot. -/
structure SlotTaken (ar : LogicArchi) (z : Nat) (t : BlkTbls) (s s' : Ftl) : Prop where
  clear : s'.Clear
  cell : s'.nand.cell = s.nand.cell
  zoneTblPst : s'.zoneTblPst = s.zoneTblPst
  pageCache : s'.pageCache = s.pageCache
  blkCache_ne : ∀ i, i ≠ s.actBlk → s'.blkCache i = s.blkCache i
  zone : (s'.blkCache s.actBlk).zoneNum = z
  dirty : (s'.blkCache s.actBlk).dirtyFlag = false
  tbls : SameTbls ar t (s'.blkCache s.actBlk).tbls

section Taken

variable {t : BlkTbls} (har : ar.Fits) (hc : Coherent L s) (hfree : SlotFree ar s) (hz : ar.IsZone z)
  (hout : ∀ i, (s.blkCache i).zoneNum ≠ z) (hst : InStore ar s z t) (h : SlotTaken ar z t s s')

section Stored

variable {t' : BlkTbls} {z' : Nat}
include h

theorem SlotTaken.inStore (ht : InStore ar s z' t') : InStore ar s' z' t' := by
  unfold InStore HoldsTbls at ht ⊢
  rw [h.zoneTblPst, h.cell]
  exact ht

/-- A zone that is in no slot now. -/
theorem SlotTaken.out (hout' : ∀ i, (s'.blkCache i).zoneNum ≠ z') (i : Fin 4) (hi : i ≠ s.actBlk) :
    (s.blkCache i).zoneNum ≠ z' := h.blkCache_ne i hi ▸ hout' i

end Stored

include har hc hfree hz hout hst h

theorem SlotTaken.coherent : Coherent L s' where
  clear := h.clear
  tblBlk z' hz' := by
    rw [h.zoneTblPst]
    exact hc.tblBlk z' hz'
  place z' hz' := by
    rw [h.zoneTblPst, h.cell]
    exact hc.place z' hz'
  unused i hi := by
    by_cases hact : i = s.actBlk
    · rw [hact]
      exact h.dirty
    · rw [h.blkCache_ne i hact] at hi ⊢
      exact hc.unused i hi
  zone i hi := by
    by_cases hact : i = s.actBlk
    · rw [hact, h.zone]
      exact hz
    · rw [h.blkCache_ne i hact] at hi ⊢
      exact hc.zone i hi
  tbls i hi := by
    rw [h.cell]
    by_cases hact : i = s.actBlk
    · rw [hact, h.zone]
      exact h.tbls.zoneOK har.pageCnt_pos (hc.awayOK har hz hout hst)
    · rw [h.blkCache_ne i hact] at hi ⊢
      exact hc.tbls i hi
  clean i hi hd := by
    by_cases hact : i = s.actBlk
    · rw [hact, h.zone]
      exact h.inStore (hst.congr h.tbls)
    · rw [h.blkCache_ne i hact] at hi hd ⊢
      exact h.inStore (hc.clean i hi hd)
  zone_inj i j heq hi := by
    by_cases hi' : i = s.actBlk <;> by_cases hj' : j = s.actBlk
    · rw [hi', hj']
    · rw [hi', h.zone, h.blkCache_ne j hj'] at heq
      exact absurd heq.symm (hout j)
    · rw [hj', h.zone, h.blkCache_ne i hi'] at heq
      exact absurd heq (hout i)
    · rw [h.blkCache_ne i hi', h.blkCache_ne j hj'] at heq
      rw [h.blkCache_ne i hi'] at hi
      exact hc.zone_inj i j heq hi
  away z' hz' hout' := by
    by_cases hold : z' = s.curMapZone
    · -- the zone that has left
      have hne : s.curMapZone ≠ 0xff := hold ▸ hz'.ne_none har
      subst hold
      refine ⟨s.tbls, h.inStore (hfree.stored hne), ?_, fun j hj => ?_⟩
      · rw [h.cell]
        exact hc.tbls s.actBlk hne
      · rw [h.pageCache] at hj ⊢
        rw [h.cell]
        exact hc.map s.actBlk j hj.symm (hj ▸ hne)
    · have hout'' (i : Fin 4) : (s.blkCache i).zoneNum ≠ z' := by
        by_cases hi : i = s.actBlk
        · rw [hi]
          exact Ne.symm hold
        · exact h.out hout' i hi
      obtain ⟨t', hstored, hok, hmap⟩ := hc.away z' hz' hout''
      refine ⟨t', h.inStore hstored, by rw [h.cell]; exact hok, fun j hj => ?_⟩
      rw [h.pageCache] at hj ⊢
      rw [h.cell]
      exact hmap j hj
  mapZone j hj := by
    rw [h.pageCache] at hj ⊢
    exact hc.mapZone j hj
  map i j heq hj := by
    rw [h.pageCache] at heq hj ⊢
    rw [h.cell]
    by_cases hact : i = s.actBlk
    · rw [hact, h.zone] at heq ⊢
      obtain ⟨t', hstored, -, hmap⟩ := hc.away z hz hout
      have hold := hmap j heq.symm
      have hsame := hstored.same hst har.dataBlks
      refine hold.congr ?_ fun _ _ => rfl
      rw [hsame.log _ hold.pst_lt, h.tbls.log _ hold.pst_lt]
    · rw [h.blkCache_ne i hact] at heq ⊢
      exact hc.map i j heq hj
  mapDirty j hj hd := by
    rw [h.pageCache] at hj hd ⊢
    obtain ⟨i, hi, hmarked⟩ := hc.mapDirty j hj hd
    by_cases hact : i = s.actBlk
    · have hcur : (s.pageCache j).zoneNum = s.curMapZone := by
        rw [← hi, hact]
        rfl
      have hclean := hfree.maps (hcur ▸ hj) j j.isLt hcur
      rw [hd] at hclean
      cases hclean
    · exact ⟨i, by rw [h.blkCache_ne i hact]; exact ⟨hi, hmarked⟩⟩
  map_inj := by
    rw [h.pageCache]
    exact hc.map_inj

theorem SlotTaken.kept : DiskKept ar s s' := by
  intro z' hz' t' ht'
  rw [h.cell]
  rcases ht' with ⟨i, hi, rfl⟩ | ⟨hout', hst'⟩
  · by_cases hact : i = s.actBlk
    · have hcur : s.curMapZone = z' := by
        rw [← hi, hact]
        rfl
      have hne : s.curMapZone ≠ 0xff := hcur ▸ hz'.ne_none har
      refine ⟨s.tbls, .inr ⟨fun i' heq => ?_, ?_⟩, ?_⟩
      · by_cases hact' : i' = s.actBlk
        · rw [hact', h.zone] at heq
          exact hout i (hi.trans heq.symm)
        · rw [h.blkCache_ne i' hact'] at heq
          exact hact' (hc.zone_inj i' s.actBlk (heq.trans hcur.symm) (heq ▸ hz'.ne_none har))
      · rw [← hcur]
        exact h.inStore (hfree.stored hne)
      · rw [hact]
        exact .refl ar z' _ _
    · exact ⟨_, .inl ⟨i, by rw [h.blkCache_ne i hact]; exact ⟨hi, rfl⟩⟩, .refl ar z' _ _⟩
  · by_cases hnew : z' = z
    · subst hnew
      exact ⟨_, .inl ⟨s.actBlk, h.zone, rfl⟩, ((hst'.same hst har.dataBlks).pagesKept).trans
        h.tbls.pagesKept⟩
    · refine ⟨t', .inr ⟨fun i => ?_, h.inStore hst'⟩, .refl ar z' _ _⟩
      by_cases hact : i = s.actBlk
      · rw [hact, h.zone]
        exact Ne.symm hnew
      · rw [h.blkCache_ne i hact]
        exact hout' i

end Taken

/-- The active tables are not dirty any more. -/
def Ftl.unmark (s : Ftl) : Ftl := s.setBlkMapCache fun c => { c with dirtyFlag := false }

theorem Ftl.unmark_slot (s : Ftl) :
    s.unmark.blkCache s.actBlk = { s.blkMapCache with dirtyFlag := false } :=
  Function.update_self ..

theorem Ftl.unmark_blkCache_ne (s : Ftl) {i : Fin 4} (hi : i ≠ s.actBlk) :
    s.unmark.blkCache i = s.blkCache i := Function.update_of_ne hi ..

@[simp] theorem Ftl.unmark_zoneNum (s : Ftl) (i : Fin 4) :
    (s.unmark.blkCache i).zoneNum = (s.blkCache i).zoneNum := by
  by_cases hi : i = s.actBlk
  · rw [hi, s.unmark_slot]
    rfl
  · rw [s.unmark_blkCache_ne hi]

@[simp] theorem Ftl.unmark_tbls (s : Ftl) (i : Fin 4) :
    (s.unmark.blkCache i).tbls = (s.blkCache i).tbls := by
  by_cases hi : i = s.actBlk
  · rw [hi, s.unmark_slot]
    rfl
  · rw [s.unmark_blkCache_ne hi]

/-- Tables that are stored need no mark. -/
theorem Coherent.unmark (hc : Coherent L s) (hfree : SlotFree ar s) : Coherent L s.unmark where
  clear := hc.clear
  tblBlk := hc.tblBlk
  place := hc.place
  unused i hne := by
    by_cases hi : i = s.actBlk
    · rw [hi, s.unmark_slot]
    · rw [s.unmark_blkCache_ne hi] at hne ⊢
      exact hc.unused i hne
  zone i hne := by
    rw [s.unmark_zoneNum] at hne ⊢
    exact hc.zone i hne
  tbls i hne := by
    rw [s.unmark_zoneNum] at hne ⊢
    rw [s.unmark_tbls]
    exact hc.tbls i hne
  clean i hne hd := by
    by_cases hi : i = s.actBlk
    · rw [s.unmark_zoneNum] at hne ⊢
      rw [s.unmark_tbls]
      rw [hi] at hne ⊢
      exact hfree.stored hne
    · rw [s.unmark_blkCache_ne hi] at hne hd ⊢
      exact hc.clean i hne hd
  zone_inj i j heq hne := by
    rw [s.unmark_zoneNum, s.unmark_zoneNum] at heq
    rw [s.unmark_zoneNum] at hne
    exact hc.zone_inj i j heq hne
  away z hz hout := by
    obtain ⟨t, hstored, hok, hmap⟩ := hc.away z hz fun i => s.unmark_zoneNum i ▸ hout i
    exact ⟨t, hstored, hok, hmap⟩
  mapZone := hc.mapZone
  map i j heq hne := by
    rw [s.unmark_zoneNum] at heq ⊢
    rw [s.unmark_tbls]
    exact hc.map i j heq hne
  mapDirty j hne hd := by
    obtain ⟨i, hi, hmarked⟩ := hc.mapDirty j hne hd
    by_cases hact : i = s.actBlk
    · have hcur : s.curMapZone = (s.pageCache j).zoneNum := by
        rw [← hi, hact]
        rfl
      have hclean := hfree.maps (hcur.trans_ne hne) j j.isLt hcur.symm
      exact absurd hd (Bool.eq_false_iff.mp hclean)
    · exact ⟨i, by rw [s.unmark_blkCache_ne hact]; exact ⟨hi, hmarked⟩⟩
  map_inj := hc.map_inj

theorem DiskKept.unmark (ar : LogicArchi) (s : Ftl) : DiskKept ar s s.unmark := by
  refine fun z _ t ht => ⟨t, ?_, .refl ar z _ t⟩
  rcases ht with ⟨i, hi, htbls⟩ | ⟨hout, hstored⟩
  · exact .inl ⟨i, (s.unmark_zoneNum i).trans hi, (s.unmark_tbls i).trans htbls⟩
  · exact .inr ⟨fun i => (s.unmark_zoneNum i).symm ▸ hout i, hstored⟩

/-! ### To another zone -/

/-- Zone `z` is the active one, and the pages of all zones are what they were. -/
structure ZoneSwitched (L : ZoneLayout ar) (z : Nat) (s s' : Ftl) : Prop where
  coherent : Coherent L s'
  kept : DiskKept ar s s'
  zone : s'.curMapZone = z
  outside : s'.outside = s.outside

theorem postBlkSlot_same (L : ZoneLayout ar) (hs : s.Clear) :
    WP anyRun postBlkSlot (fun _ s' => SameTables L s s' ∧ s'.outside = s.outside) F s := by
  refine WP.modify ?_
  cases findSlot fun i => (s.blkCache i).zoneNum = 0xff with
  | some i => exact ⟨.of_eq hs rfl rfl (fun _ => ⟨rfl, rfl, rfl⟩) fun _ _ => ⟨rfl, rfl, rfl, id⟩, rfl⟩
  | none => exact ⟨.of_eq hs rfl rfl (fun _ => ⟨rfl, rfl, rfl⟩) fun _ _ => ⟨rfl, rfl, rfl, id⟩, rfl⟩

/-- A slot that is not dirty can be given away at once. -/
theorem Coherent.slotFree (hc : Coherent L s) (hclean : s.blkMapCache.dirtyFlag = false) :
    SlotFree ar s := by
  refine ⟨fun hact => hc.clean s.actBlk hact hclean, fun hact j _ hj => ?_⟩
  refine Bool.eq_false_iff.mpr fun hd => ?_
  obtain ⟨i, hi, hmarked⟩ := hc.mapDirty j (hj ▸ hact) hd
  rw [hc.zone_inj i s.actBlk (hi.trans hj) (hi.trans hj ▸ hact)] at hmarked
  exact Bool.eq_false_iff.mp hclean hmarked

theorem TblsStored.slotFree (h : TblsStored L s s') : SlotFree ar s' := by
  have hcur := h.stays.curMapZone
  exact ⟨fun _ => hcur ▸ h.stored, fun _ => hcur ▸ h.maps⟩

theorem blkMapTblCachePost_loads (har : ar.Fits) (hcopy : ar.CopiesExactly) (henv : env.NoFailure)
    (hc : Coherent L s) (hz : ar.IsZone z) (hout : ∀ i, (s.blkCache i).zoneNum ≠ z) :
    WP anyRun (blkMapTblCachePost ar env z) (fun _ s' => ZoneSwitched L z s s') F s := by
  refine WP.bind ((postBlkSlot_same L hc.clear).imp ?_)
  rintro _ s₁ ⟨hsame₁, hout₁⟩
  have hc₁ := hsame₁.coherent har hc
  have hwriteBack : WP anyRun
      (when (s₁.blkMapCache.dirtyFlag = true) (writeBackBlockMapTbl ar env s₁.curMapZone))
      (fun _ s₂ => Coherent L s₂ ∧ DiskStays ar s₁ s₂ ∧ SlotFree ar s₂) F s₁ := by
    refine WP.when (fun hd => ?_) fun hd => ⟨hc₁, .refl ar s₁,
      hc₁.slotFree (Bool.eq_false_iff.mpr hd)⟩
    have hact : s₁.curMapZone ≠ 0xff := fun hne =>
      Bool.eq_false_iff.mp (hc₁.unused s₁.actBlk hne) hd
    exact (writeBackBlockMapTbl_stores har hcopy henv hc₁ hact hd).imp fun _ _ h =>
      ⟨h.coherent, h.stays, h.slotFree⟩
  refine WP.bind (WP.get (WP.bind (hwriteBack.imp ?_)))
  rintro _ s₂ ⟨hc₂, hstays₂, hfree⟩
  have hout₂ (i : Fin 4) : (s₂.blkCache i).zoneNum ≠ z := by
    rw [hstays₂.zones, hsame₁.zones]
    exact hout i
  obtain ⟨t, hst, -, -⟩ := hc₂.away z hz hout₂
  have hread := readBlockMapTbl_reads (F := fun _ _ => False) har henv hc₂.clear hst
  refine WP.bind (WP.orElse (WP.mono hread ?_ fun _ _ hf => hf.elim))
  rintro _ s₃ ⟨htbls, b, -, -, hfl, hcell⟩
  refine WP.modify ?_
  have hact₃ : s₃.actBlk = s₂.actBlk := hfl.actBlk
  have hslot : (s₃.setBlkMapCache fun c => { c with zoneNum := z, dirtyFlag := false }).blkCache
      s₂.actBlk = { s₃.blkMapCache with zoneNum := z, dirtyFlag := false } := by
    rw [← hact₃]
    exact Ftl.blkMapCache_setBlkMapCache ..
  have htaken : SlotTaken ar z t s₂
      (s₃.setBlkMapCache fun c => { c with zoneNum := z, dirtyFlag := false }) := by
    refine ⟨hfl.clear, hcell, ?_, hfl.pageCache, fun i hi => ?_, ?_, ?_, ?_⟩
    · show s₃.zoneTblPst = _
      rw [hfl.eq]
      rfl
    · refine (Function.update_of_ne (hact₃ ▸ hi) ..).trans ((congrFun hfl.blkCache i).trans ?_)
      exact Function.update_of_ne hi ..
    · rw [hslot]
    · rw [hslot]
    · rw [hslot]
      exact htbls
  refine ⟨htaken.coherent har hc₂ hfree hz hout₂ hst, ((hsame₁.kept har hc).trans hstays₂.kept).trans
    (htaken.kept har hc₂ hfree hz hout₂ hst), ?_, ?_⟩
  · show ((s₃.setBlkMapCache _).blkCache s₃.actBlk).zoneNum = z
    rw [hact₃, hslot]
  · have hout₃ : s₃.outside = s₂.outside := by
      rw [hfl.eq]
      rfl
    exact hout₃.trans (hstays₂.outside.trans hout₁)

/-- `BMM_SwitchMapTbl` -/
theorem bmmSwitchMapTbl_switches (har : ar.Fits) (hcopy : ar.CopiesExactly) (henv : env.NoFailure)
    (hc : Coherent L s) (hz : ar.IsZone z) :
    WP anyRun (bmmSwitchMapTbl ar env z) (fun _ s' => ZoneSwitched L z s s') F s := by
  refine WP.bind (WP.get (WP.bind (WP.orElse (WP.mono (show WP anyRun _
    (fun _ s' => ZoneSwitched L z s s') (fun _ _ => False) s from ?_) ?_ fun _ _ hf => hf.elim))))
  · cases hslot : findSlot fun i => (s.blkCache i).zoneNum = z with
    | some i =>
        have hsame : SameTables L s { s with actBlk := i } :=
          .of_eq hc.clear rfl rfl (fun _ => ⟨rfl, rfl, rfl⟩) fun _ _ => ⟨rfl, rfl, rfl, id⟩
        exact WP.modify ⟨hsame.coherent har hc, hsame.kept har hc,
          of_decide_eq_true (List.find?_some hslot :), rfl⟩
    | none =>
        refine blkMapTblCachePost_loads har hcopy henv hc hz fun i hi => ?_
        have hsome := findSlot_isSome (p := fun i => (s.blkCache i).zoneNum = z) (decide_eq_true hi)
        rw [hslot] at hsome
        cases hsome
  rintro _ s₁ h₁
  have hsame : SameTables L s₁ { s₁ with
      blkCache := fun i => { s₁.blkCache i with
        accessCnt := if i = s₁.actBlk then 0 else u16 ((s₁.blkCache i).accessCnt + 1) } } :=
    .of_eq h₁.coherent.clear rfl rfl (fun _ => ⟨rfl, rfl, rfl⟩) fun _ _ => ⟨rfl, rfl, rfl, id⟩
  exact WP.modify ⟨hsame.coherent har h₁.coherent, h₁.kept.trans (hsame.kept har h₁.coherent), h₁.zone,
    h₁.outside⟩

/-! ## All zones -/

/-- No slot is dirty: the table block of every zone has its tables, and the pages of all zones are
what they were. -/
structure AllStored (L : ZoneLayout ar) (s s' : Ftl) : Prop where
  coherent : Coherent L s'
  kept : DiskKept ar s s'
  clean : ∀ i, (s'.blkCache i).dirtyFlag = false
  mapsClean : ∀ j, (s'.pageCache j).zoneNum ≠ 0xff → (s'.pageCache j).dirtyFlag = false
  stored : ∀ z, ar.IsZone z → ∃ t, ZoneHas ar s' z t ∧ InStore ar s' z t
  outside : s'.outside = s.outside

/-- Where no slot is dirty, the flash alone has everything. -/
theorem Coherent.allStored (hc : Coherent L s) (hclean : ∀ i, (s.blkCache i).dirtyFlag = false)
    (hz : ar.IsZone z) (har : ar.Fits) : ∃ t, ZoneHas ar s z t ∧ InStore ar s z t := by
  by_cases hin : ∃ i, (s.blkCache i).zoneNum = z
  · obtain ⟨i, rfl⟩ := hin
    exact ⟨_, .inl ⟨i, rfl, rfl⟩, hc.clean i (hz.ne_none har) (hclean i)⟩
  · have hout (i : Fin 4) : (s.blkCache i).zoneNum ≠ z := fun heq => hin ⟨i, heq⟩
    obtain ⟨t, hstored, -, -⟩ := hc.away z hz hout
    exact ⟨t, .inr ⟨hout, hstored⟩, hstored⟩

/-- `BMM_WriteBackAllMapTbl` -/
theorem bmmWriteBackAllMapTbl_stores (har : ar.Fits) (hcopy : ar.CopiesExactly)
    (henv : env.NoFailure) (hc : Coherent L s) :
    WP anyRun (bmmWriteBackAllMapTbl ar env) (fun _ s' => AllStored L s s') F s := by
  have hloop : WP anyRun (forRange 4 fun i => do
        let i := Fin.ofNat 4 i
        when (((← get).blkCache i).dirtyFlag = true) do
          modify ({ · with actBlk := i })
          writeBackBlockMapTbl ar env (← get).curMapZone
          modify (·.setBlkMapCache fun c => { c with dirtyFlag := false }))
      (fun _ s' => Coherent L s' ∧ DiskKept ar s s' ∧ s'.outside = s.outside ∧
        ∀ i : Fin 4, i.val < 4 → (s'.blkCache i).dirtyFlag = false) F s := by
    refine WP.forRange (I := fun n s' => Coherent L s' ∧ DiskKept ar s s' ∧ s'.outside = s.outside ∧
        ∀ i : Fin 4, i.val < n → (s'.blkCache i).dirtyFlag = false) (fun n s₁ hn h₁ => ?_)
      ⟨hc, .refl ar s, rfl, fun i hi => absurd hi (Nat.not_lt_zero _)⟩
    obtain ⟨hc₁, hkept₁, hout₁, hclean₁⟩ := h₁
    have hval : (Fin.ofNat 4 n).val = n := Nat.mod_eq_of_lt hn
    have hlast {s' : Ftl} (hslot : (s'.blkCache (Fin.ofNat 4 n)).dirtyFlag = false)
        (hothers : ∀ i, i ≠ Fin.ofNat 4 n → s'.blkCache i = s₁.blkCache i) (i : Fin 4)
        (hi : i.val < n + 1) : (s'.blkCache i).dirtyFlag = false := by
      by_cases hin : i = Fin.ofNat 4 n
      · rw [hin]
        exact hslot
      · have hne : i.val ≠ n := fun heq => hin (Fin.ext (heq.trans hval.symm))
        rw [hothers i hin]
        exact hclean₁ i (by omega)
    refine WP.bind (WP.get (WP.when (fun hd => WP.bind (WP.modify (WP.bind (WP.get
      (WP.bind ?_))))) fun hd => ?_))
    · generalize hs₂ : { s₁ with actBlk := Fin.ofNat 4 n } = s₂
      have hact₂ : s₂.actBlk = Fin.ofNat 4 n := by rw [← hs₂]
      have hsame₂ : SameTables L s₁ s₂ := by
        rw [← hs₂]
        exact .of_eq hc₁.clear rfl rfl (fun _ => ⟨rfl, rfl, rfl⟩) fun _ _ => ⟨rfl, rfl, rfl, id⟩
      have hc₂ := hsame₂.coherent har hc₁
      have hd₂ : s₂.blkMapCache.dirtyFlag = true := by
        rw [← hs₂]
        exact hd
      have hne : s₂.curMapZone ≠ 0xff := fun hunused =>
        Bool.eq_false_iff.mp (hc₂.unused s₂.actBlk hunused) hd₂
      refine (writeBackBlockMapTbl_stores har hcopy henv hc₂ hne hd₂).imp fun _ s₃ h₃ => WP.modify ?_
      have hact₃ : s₃.actBlk = Fin.ofNat 4 n := h₃.stays.actBlk.trans hact₂
      refine ⟨h₃.coherent.unmark h₃.slotFree,
        ((hkept₁.trans (hsame₂.kept har hc₁)).trans h₃.stays.kept).trans (.unmark ar s₃), ?_,
        hlast ?_ fun i hi => ?_⟩
      · refine h₃.stays.outside.trans (Eq.trans ?_ hout₁)
        rw [← hs₂]
        rfl
      · rw [← hact₃]
        exact congrArg BlkMapTblCache.dirtyFlag s₃.unmark_slot
      · rw [← hact₃] at hi
        refine (s₃.unmark_blkCache_ne hi).trans ((h₃.others i (h₃.stays.actBlk ▸ hi)).trans ?_)
        rw [← hs₂]
    · exact ⟨hc₁, hkept₁, hout₁, hlast (Bool.eq_false_iff.mpr hd) fun _ _ => rfl⟩
  refine WP.bind (WP.get (WP.bind (hloop.imp ?_)))
  rintro _ s₁ ⟨hc₁, hkept₁, hout₁, hclean₁⟩
  have hsame : SameTables L s₁ { s₁ with actBlk := s.actBlk, actPage := s.actPage } :=
    .of_eq hc₁.clear rfl rfl (fun _ => ⟨rfl, rfl, rfl⟩) fun _ _ => ⟨rfl, rfl, rfl, id⟩
  have hc₂ := hsame.coherent har hc₁
  refine WP.modify ⟨hc₂, hkept₁.trans (hsame.kept har hc₁), fun i => hclean₁ i i.isLt,
    fun j hj => Bool.eq_false_iff.mpr fun hd => ?_,
    fun z hz => hc₂.allStored (fun i => hclean₁ i i.isLt) hz har, hout₁⟩
  obtain ⟨i, -, hmarked⟩ := hc₁.mapDirty j hj hd
  exact Bool.eq_false_iff.mp (hclean₁ i i.isLt) hmarked

end Switch

end Novo7
