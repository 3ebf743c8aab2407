import Mathlib.Data.List.Find
import Novo7.ZoneTables

/-!
# Tables on the flash

The tables of a zone are in RAM or in a group of its table block (`InStore`). Tables that agree wherever
a zone has entries (`SameTbls`) say the same about the flash, and the same group holds both.

The table block has the page of the dirty flag behind the group, and blank pages behind that one
(`TblPlace`). A step keeps that, and the tables in the group unless they are dirty in RAM (`TblsSafe`).
-/

namespace Novo7

open HeldSlots

/-! ## Tables that agree -/

section Same

variable {ar : LogicArchi} {L : ZoneLayout ar} {c : Cells} {z k : Nat} {t t' t'' : BlkTbls}

namespace SameTbls

theorem refl (t : BlkTbls) : SameTbls ar t t := ⟨fun _ _ => rfl, fun _ _ => rfl, fun _ _ => rfl⟩

theorem symm (h : SameTbls ar t t') : SameTbls ar t' t :=
  ⟨fun k hk => (h.data k hk).symm, fun p hp => (h.free p hp).symm, fun i hi => (h.log i hi).symm⟩

theorem freeNums (h : SameTbls ar t t') :
    t'.freeNums ar.freeBlkCntOfZone = t.freeNums ar.freeBlkCntOfZone := by
  unfold BlkTbls.freeNums BlkTbls.freeBlks
  rw [Multiset.map_congr rfl fun p hp => (h.free p (Multiset.mem_range.mp hp)).symm]

theorem blocks (h : SameTbls ar t t') : t'.blocks ar = t.blocks ar := by
  have hdata : held t'.dataNum ar.dataBlkCntOfZone = held t.dataNum ar.dataBlkCntOfZone :=
    held_congr fun k hk => by rw [BlkTbls.dataNum, BlkTbls.dataNum, h.data k hk]
  have hlog : held t'.logNum logBlkCntOfZone = held t.logNum logBlkCntOfZone :=
    held_congr fun i hi => by rw [BlkTbls.logNum, BlkTbls.logNum, h.log i hi]
  unfold BlkTbls.blocks
  rw [hdata, hlog, h.freeNums]

theorem logBlkPst (h : SameTbls ar t t') (k : Nat) : t'.logBlkPst k = t.logBlkPst k :=
  List.find?_congr fun i hi => by rw [h.log i (List.mem_range.mp hi)]

theorem pageOf (h : SameTbls ar t t') (hk : k < ar.dataBlkCntOfZone) (p : Nat) :
    pageOf ar c z t' k p = pageOf ar c z t k p := by
  unfold Novo7.pageOf
  rw [h.logBlkPst k, h.data k hk]
  cases hpst : t.logBlkPst k with
  | none => rfl
  | some i =>
      have hi : i < logBlkCntOfZone := List.mem_range.mp (List.mem_of_find?_eq_some hpst)
      dsimp only
      rw [h.log i hi]

theorem pagesKept (h : SameTbls ar t t') : PagesKept ar z c t c t' := by
  refine fun k hk hinfo => ⟨?_, fun p _ => ?_⟩
  · rw [DataInfo, ← h.data k hk]
    exact hinfo
  · rw [h.pageOf hk]
    exact .refl _

theorem zoneOK (h : SameTbls ar t t') (hpages : 0 < ar.pageCntOfLogicBlk) (hok : ZoneOK L c z t) :
    ZoneOK L c z t' where
  blocks := h.blocks.trans hok.blocks
  counts p hp := h.free p hp ▸ hok.counts p hp
  dataCounts k hk := h.data k hk ▸ hok.dataCounts k hk
  free b hb := hok.free b (h.freeNums ▸ hb)
  data k hk := h.data k hk ▸ hok.data k hk
  logs i hi hused := by
    rw [← h.log i hi] at hused ⊢
    have hlog := hok.logs i hi hused
    refine hlog.congr hpages (fun _ _ => rfl) ?_
    rw [← h.data _ hlog.num]
    exact hlog.dataInfo
  single i hi j hj heq hused := by
    rw [← h.log i hi] at heq hused
    rw [← h.log j hj] at heq
    exact hok.single i hi j hj heq hused

theorem item (h : SameTbls ar t t') {j : Nat} (hj : j < 1023) :
    t'.item ar.dataBlkCntOfZone j = t.item ar.dataBlkCntOfZone j := by
  unfold BlkTbls.item
  split
  · rename_i hd
    exact (h.data j hd).symm
  · refine (h.free _ ?_).symm
    unfold LogicArchi.freeBlkCntOfZone blockCntOfZone
    omega

end SameTbls

end Same

/-! ## The group of a table block -/

section Store

variable {ar : LogicArchi} {s s' : Ftl} {z : Nat} {t t' : BlkTbls}

/-- The pages of a group are the same for tables that agree. -/
theorem tblImage_congr {b b' : BlkMapTblCache} (h : SameTbls ar b.tbls b'.tbls)
    (hsum : b'.checkSum = b.checkSum) (j : Nat) :
    tblImage ar.dataBlkCntOfZone b' j = tblImage ar.dataBlkCntOfZone b j := by
  have hblk (i : Nat) : b'.blkBuf ar.dataBlkCntOfZone i = b.blkBuf ar.dataBlkCntOfZone i := by
    unfold BlkMapTblCache.blkBuf
    by_cases hi : i < 2046
    · rw [if_pos hi, if_pos hi, h.item (by omega)]
    · rw [if_neg hi, if_neg hi, hsum]
  have hlog : Buf.blank.copy (4 * logBlkCntOfZone) b'.tbls.logBuf =
      Buf.blank.copy (4 * logBlkCntOfZone) b.tbls.logBuf := by
    funext i
    unfold Buf.copy
    split
    · rename_i hi
      unfold BlkTbls.logBuf
      rw [h.log (i / 4) (by unfold logBlkCntOfZone at hi ⊢; omega)]
    · rfl
  unfold tblImage logImage
  rw [hlog]
  split
  · exact funext hblk
  split
  · exact funext fun i => hblk _
  · rfl

/-- The tables of a zone are in its group, with the right checksum. -/
def InStore (ar : LogicArchi) (s : Ftl) (z : Nat) (t : BlkTbls) : Prop :=
  ∃ b : BlkMapTblCache, b.tbls = t ∧ b.checkSum = b.blkSum ar.dataBlkCntOfZone ∧
    HoldsTbls ar z ((s.zoneTblPst z).phyBlkNum, (s.zoneTblPst z).tablePst) b s.nand

theorem InStore.congr (h : InStore ar s z t) (hsame : SameTbls ar t t') : InStore ar s z t' := by
  obtain ⟨b, rfl, hsum, hholds⟩ := h
  refine ⟨{ b with tbls := t' }, rfl, ?_, fun j hj => ?_⟩
  · refine hsum.trans (blkSum_congr fun k hk => ?_)
    exact (hsame.item hk).symm
  · obtain ⟨p, hp, hmain⟩ := hholds j hj
    refine ⟨p, hp, fun i hi => (hmain i hi).trans ?_⟩
    rw [@tblImage_congr ar b { b with tbls := t' } hsame rfl]

/-- A group holds the tables of one zone only. -/
theorem InStore.same (h : InStore ar s z t) (h' : InStore ar s z t')
    (hdata : ar.dataBlkCntOfZone < 1023) : SameTbls ar t t' := by
  obtain ⟨b, rfl, -, hholds⟩ := h
  obtain ⟨b', rfl, -, hholds'⟩ := h'
  have himage (j : Nat) (hj : j < 3) (i : Nat) (hi : i < 1024) :
      tblImage ar.dataBlkCntOfZone b j i = tblImage ar.dataBlkCntOfZone b' j i := by
    obtain ⟨p, hp, hmain⟩ := hholds j hj
    obtain ⟨p', hp', hmain'⟩ := hholds' j hj
    rw [← hmain i hi, ← hmain' i hi, Option.some.inj (hp.symm.trans hp')]
  have hblk (i : Nat) (hi : i < 2048) :
      b.blkBuf ar.dataBlkCntOfZone i = b'.blkBuf ar.dataBlkCntOfZone i := by
    by_cases hlow : i < 1024
    · exact himage 0 (by omega) i hlow
    · have hhigh := himage 1 (by omega) (i - 1024) (by omega)
      rw [tblImage, tblImage, if_neg Nat.one_ne_zero, if_pos rfl, if_neg Nat.one_ne_zero,
        if_pos rfl] at hhigh
      rwa [Nat.add_sub_cancel' (Nat.not_lt.mp hlow)] at hhigh
  have hitem (k : Nat) (hk : k < 1023) :
      b.tbls.item ar.dataBlkCntOfZone k = b'.tbls.item ar.dataBlkCntOfZone k := by
    rw [← blkBuf_item b _ hk, ← blkBuf_item b' _ hk, hblk _ (by omega), hblk _ (by omega)]
  refine ⟨fun k hk => ?_, fun k hk => ?_, fun k hk => ?_⟩
  · have heq := hitem k (by omega)
    rwa [BlkTbls.item, BlkTbls.item, if_pos hk, if_pos hk] at heq
  · unfold LogicArchi.freeBlkCntOfZone blockCntOfZone at hk
    have heq := hitem (ar.dataBlkCntOfZone + k) (by omega)
    rwa [BlkTbls.item, BlkTbls.item, if_neg (by omega), if_neg (by omega),
      Nat.add_sub_cancel_left] at heq
  · unfold logBlkCntOfZone at hk
    have hlog (i : Nat) (hi : i < 64) : b.tbls.logBuf i = b'.tbls.logBuf i := by
      rw [← logImage_low b.tbls hi, ← logImage_low b'.tbls hi]
      exact himage 2 (by omega) i (by omega)
    rw [← logBuf_item b.tbls k, ← logBuf_item b'.tbls k, hlog _ (by omega), hlog _ (by omega),
      hlog _ (by omega), hlog _ (by omega)]

/-- Behind the group are the page of the dirty flag and blank pages. -/
structure TblPlace (ar : LogicArchi) (c : Cells) (z : Nat) (pst : ZoneTblPst) : Prop where
  group : pst.tablePst % 4 = 0
  room : pst.tablePst + 3 < ar.pageCntOfLogicBlk
  blank : ∀ q < ar.pageCntOfLogicBlk, pst.tablePst + 4 ≤ q →
    c (lmlCalculatePhyOpPar ar z pst.phyBlkNum q) = none

/-- A step in which the tables of a zone stay where they are. Those that are dirty in a slot may have been
stored anew. -/
structure TblsSafe (ar : LogicArchi) (z : Nat) (s s' : Ftl) : Prop where
  blk : (s'.zoneTblPst z).phyBlkNum = (s.zoneTblPst z).phyBlkNum
  place : TblPlace ar s.nand.cell z (s.zoneTblPst z) → TblPlace ar s'.nand.cell z (s'.zoneTblPst z)
  stored : TblPlace ar s.nand.cell z (s.zoneTblPst z) →
    (∀ i, (s'.blkCache i).zoneNum = z → (s'.blkCache i).dirtyFlag = false) →
    ∀ t, InStore ar s z t → InStore ar s' z t

section Cells

variable (hpst : s'.zoneTblPst z = s.zoneTblPst z)
  (hcells : ∀ q < ar.pageCntOfLogicBlk, q ≠ (s.zoneTblPst z).tablePst + 3 →
    s'.nand.cell (lmlCalculatePhyOpPar ar z (s.zoneTblPst z).phyBlkNum q) =
      s.nand.cell (lmlCalculatePhyOpPar ar z (s.zoneTblPst z).phyBlkNum q))
include hpst hcells

/-- The table block is as before, but for the page of the dirty flag. -/
theorem InStore.of_cells (hroom : (s.zoneTblPst z).tablePst + 3 < ar.pageCntOfLogicBlk)
    (h : InStore ar s z t) : InStore ar s' z t := by
  obtain ⟨b, hb, hsum, hholds⟩ := h
  refine ⟨b, hb, hsum, fun j hj => ?_⟩
  obtain ⟨p, hp, hmain⟩ := hholds j hj
  refine ⟨p, ?_, hmain⟩
  rw [hpst]
  exact (hcells _ (by omega) (by omega)).trans hp

theorem TblsSafe.of_cells : TblsSafe ar z s s' where
  blk := by rw [hpst]
  place hp := by
    rw [hpst]
    refine ⟨hp.group, hp.room, fun q hq hle => ?_⟩
    rw [hcells q hq (by omega)]
    exact hp.blank q hq hle
  stored hp _ _ ht := ht.of_cells hpst hcells hp.room

end Cells

theorem TblsSafe.of_eq (hpst : s'.zoneTblPst = s.zoneTblPst) (hcell : s'.nand.cell = s.nand.cell) :
    TblsSafe ar z s s' := .of_cells (congrFun hpst z) fun _ _ _ => congrFun hcell _

/-- The tables of a zone: those in its slot, or those in its group. -/
def ZoneHas (ar : LogicArchi) (s : Ftl) (z : Nat) (t : BlkTbls) : Prop :=
  (∃ i, (s.blkCache i).zoneNum = z ∧ (s.blkCache i).tbls = t) ∨
    (∀ i, (s.blkCache i).zoneNum ≠ z) ∧ InStore ar s z t

/-- The pages of all zones are what they were. -/
def DiskKept (ar : LogicArchi) (s s' : Ftl) : Prop :=
  ∀ z, ar.IsZone z → ∀ t, ZoneHas ar s z t →
    ∃ t', ZoneHas ar s' z t' ∧ PagesKept ar z s.nand.cell t s'.nand.cell t'

theorem DiskKept.refl (ar : LogicArchi) (s : Ftl) : DiskKept ar s s :=
  fun z _ t ht => ⟨t, ht, .refl ar z _ t⟩

theorem DiskKept.trans {s'' : Ftl} (h : DiskKept ar s s') (h' : DiskKept ar s' s'') :
    DiskKept ar s s'' := fun z hz t ht => by
  obtain ⟨t', ht', hkept⟩ := h z hz t ht
  obtain ⟨t'', ht'', hkept'⟩ := h' z hz t' ht'
  exact ⟨t'', ht'', hkept.trans hkept'⟩

end Store

end Novo7
