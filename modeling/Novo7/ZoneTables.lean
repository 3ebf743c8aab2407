import Mathlib.Algebra.Order.Group.Multiset
import Mathlib.Tactic.Abel
import Novo7.HeldSlots
import Novo7.SuperBlocks

/-!
# What a zone holds

A zone owns blocks (`ZoneLayout`). Its tables say which of them is the data block of which logical
block, which are log blocks and which are free; `blocks` is the multiset of all three, and
`ZoneOK` says that it is what the zone owns. So no block has two places and none is lost.

Where the pages of a logical block are: `logPageOf` is the last page of its log block that carries
the page's number, and `pageOf` the page that is read for it. `ZoneOK` says of each log block that
the pages behind the last used one are blank, and that a page map that is stored in it
agrees with the numbers.
-/

namespace Novo7

open HeldSlots

/-! ## The blocks of the tables -/

namespace BlkTbls

variable (t : BlkTbls)

def dataNum (k : Nat) : Option Nat := some (t.dataBlkTbl k).phyBlkNum

/-- The position of a log block is empty if it belongs to no logical block. -/
def logNum (i : Nat) : Option Nat :=
  if (t.logBlkTbl i).logicBlkNum = 0xffff then none else some (t.logBlkTbl i).phyBlk.phyBlkNum

/-- The numbers of the free blocks. -/
def freeNums (cnt : Nat) : Multiset Nat := (t.freeBlks cnt).map SuperPhyBlk.phyBlkNum

/-- The numbers of all blocks of a zone but its table block. -/
def blocks (ar : LogicArchi) : Multiset Nat :=
  held t.dataNum ar.dataBlkCntOfZone + held t.logNum logBlkCntOfZone +
    t.freeNums ar.freeBlkCntOfZone

variable {t} {ar : LogicArchi}

theorem dataNum_setData (k : Nat) (b : SuperPhyBlk) :
    (t.setData k b).dataNum = Function.update t.dataNum k (some b.phyBlkNum) := by
  funext j
  by_cases hj : j = k
  · simp [hj, dataNum, setData]
  · simp [hj, dataNum, setData]

theorem logNum_setLog (i : Nat) (l : LogBlk) :
    (t.setLog i l).logNum = Function.update t.logNum i
      (if l.logicBlkNum = 0xffff then none else some l.phyBlk.phyBlkNum) := by
  funext j
  by_cases hj : j = i
  · simp [hj, logNum, setLog]
  · simp [hj, logNum, setLog]

/-- A data block is exchanged. -/
theorem blocks_setData {k : Nat} (hk : k < ar.dataBlkCntOfZone) (b : SuperPhyBlk) :
    (t.setData k b).blocks ar + {(t.dataBlkTbl k).phyBlkNum} = t.blocks ar + {b.phyBlkNum} := by
  have hdata := held_update (g := t.dataNum) hk (some b.phyBlkNum)
  rw [← dataNum_setData, dataNum, one_some, one_some] at hdata
  unfold blocks
  rw [add_assoc (held (t.setData k b).dataNum _), add_right_comm, hdata]
  show _ + _ + (held t.logNum logBlkCntOfZone + t.freeNums ar.freeBlkCntOfZone) = _
  abel

/-- The log block of a position is exchanged. -/
theorem blocks_setLog {i : Nat} (hi : i < logBlkCntOfZone) (l : LogBlk) :
    (t.setLog i l).blocks ar + one (t.logNum i) =
      t.blocks ar + one (if l.logicBlkNum = 0xffff then none else some l.phyBlk.phyBlkNum) := by
  have hlog := held_update (g := t.logNum) hi
    (if l.logicBlkNum = 0xffff then none else some l.phyBlk.phyBlkNum)
  rw [← logNum_setLog] at hlog
  have hdata : (t.setLog i l).dataNum = t.dataNum := rfl
  have hfree : (t.setLog i l).freeNums ar.freeBlkCntOfZone = t.freeNums ar.freeBlkCntOfZone := rfl
  unfold blocks
  rw [hdata, hfree, add_right_comm, add_assoc (held t.dataNum _), hlog]
  abel

/-- A block is taken out of the free table. -/
theorem freeNums_take {p : Nat} (hp : p < ar.freeBlkCntOfZone)
    (hblk : (t.freeBlkTbl p).phyBlkNum ≠ 0xffff) :
    t.freeNums ar.freeBlkCntOfZone =
      (t.freeBlkTbl p).phyBlkNum ::ₘ (t.setFree p .none).freeNums ar.freeBlkCntOfZone := by
  rw [freeNums, freeNums, freeBlks_setFree_none hp hblk, ← Multiset.map_cons,
    Multiset.cons_erase (mem_freeBlks.mpr ⟨p, hp, rfl, hblk⟩)]

/-- A block is put into the free table. -/
theorem freeNums_setFreeBlk (hroom : (t.freeNums ar.freeBlkCntOfZone).card < ar.freeBlkCntOfZone)
    {b : SuperPhyBlk} (hb : b.phyBlkNum ≠ 0xffff) :
    (t.setFreeBlk ar.freeBlkCntOfZone b).freeNums ar.freeBlkCntOfZone =
      b.phyBlkNum ::ₘ t.freeNums ar.freeBlkCntOfZone := by
  rw [freeNums, Multiset.card_map] at hroom
  obtain ⟨p, hp, hset⟩ := setFreeBlk_room hroom b
  rw [hset, freeNums, freeNums, freeBlks_setFree_blk hp.lt hp.empty hb, Multiset.map_cons]

/-- A block that can be taken is a free one. -/
theorem mem_freeNums {p : Nat} (hp : p < ar.freeBlkCntOfZone)
    (hblk : (t.freeBlkTbl p).phyBlkNum ≠ 0xffff) :
    (t.freeBlkTbl p).phyBlkNum ∈ t.freeNums ar.freeBlkCntOfZone := by
  rw [freeNums_take hp hblk]
  exact Multiset.mem_cons_self _ _

theorem setFreeBlk_dataBlkTbl (t : BlkTbls) (cnt : Nat) (b : SuperPhyBlk) :
    (t.setFreeBlk cnt b).dataBlkTbl = t.dataBlkTbl := by
  unfold setFreeBlk
  split <;> rfl

theorem CountsFit.setFreeBlk {cnt : Nat} (h : t.CountsFit cnt) {b : SuperPhyBlk}
    (hb : b.blkEraseCnt ≤ 0xffff) : (t.setFreeBlk cnt b).CountsFit cnt := by
  unfold BlkTbls.setFreeBlk
  split
  · exact h.setFree hb
  · exact h

theorem blocks_setFreeBlk (hroom : (t.freeNums ar.freeBlkCntOfZone).card < ar.freeBlkCntOfZone)
    {b : SuperPhyBlk} (hb : b.phyBlkNum ≠ 0xffff) :
    (t.setFreeBlk ar.freeBlkCntOfZone b).blocks ar = t.blocks ar + {b.phyBlkNum} := by
  unfold blocks
  rw [freeNums_setFreeBlk hroom hb, ← Multiset.singleton_add]
  have hdata : (t.setFreeBlk ar.freeBlkCntOfZone b).dataNum = t.dataNum := by
    funext k
    rw [dataNum, setFreeBlk_dataBlkTbl, dataNum]
  have hlog : (t.setFreeBlk ar.freeBlkCntOfZone b).logNum = t.logNum := by
    funext i
    rw [logNum, setFreeBlk_logBlkTbl, logNum]
  rw [hdata, hlog]
  abel

end BlkTbls

/-! ## The blocks of a zone -/

/-- The blocks that each zone owns: its table block, and those that its tables are about. There are
enough for a log block in every position and one free block more, and no more than the tables
have places for. -/
structure ZoneLayout (ar : LogicArchi) where
  blks : Nat → Multiset Nat
  tblBlk : Nat → Nat
  nodup : ∀ z, (tblBlk z ::ₘ blks z).Nodup
  lt : ∀ z, ∀ b ∈ tblBlk z ::ₘ blks z, b < ar.superBlkCntOfDie
  apart : ∀ z z', z ≠ z' → ar.dieOf z = ar.dieOf z' →
    Disjoint (tblBlk z ::ₘ blks z) (tblBlk z' ::ₘ blks z')
  enough : ∀ z, ar.dataBlkCntOfZone + logBlkCntOfZone < (blks z).card
  few : ∀ z, (blks z).card ≤ ar.dataBlkCntOfZone + ar.freeBlkCntOfZone

/-- There is such a zone. -/
def LogicArchi.IsZone (ar : LogicArchi) (z : Nat) : Prop := z < ar.dieCntOfNand * ar.zoneCntOfDie

namespace ZoneLayout

variable {ar : LogicArchi} (L : ZoneLayout ar) {z z' b b' : Nat}

/-- All blocks that a zone owns. -/
def own (z : Nat) : Set Nat := { b | b ∈ L.tblBlk z ::ₘ L.blks z }

/-- The blocks that the tables of a zone are about. -/
def listed (z : Nat) : Set Nat := { b | b ∈ L.blks z }

theorem isSuperBlk (hz : ar.IsZone z) (hb : b ∈ L.own z) : ar.IsSuperBlk z b :=
  ⟨hz, L.lt z b hb⟩

theorem ne_none (har : ar.Fits) (hb : b ∈ L.own z) : b ≠ 0xffff := by
  have hlt := L.lt z b hb
  have hle := Nat.le_mul_of_pos_left ar.superBlkCntOfDie har.chips
  have hmost := har.superBlks
  omega

theorem mem_own (hb : b ∈ L.blks z) : b ∈ L.own z := Multiset.mem_cons_of_mem hb

theorem isSuperBlk_listed (hz : ar.IsZone z) (hb : b ∈ L.blks z) : ar.IsSuperBlk z b :=
  L.isSuperBlk hz (L.mem_own hb)

theorem listed_ne_none (har : ar.Fits) (hb : b ∈ L.blks z) : b ≠ 0xffff :=
  L.ne_none har (L.mem_own hb)

/-- The blocks that the tables of a zone are about have no page in common. -/
theorem listed_apart (har : ar.Fits) (hz : ar.IsZone z) (hb : b ∈ L.blks z) (hb' : b' ∈ L.blks z)
    (hne : b ≠ b') (q : Nat) : lmlCalculatePhyOpPar ar z b q ∉ superBlk ar z b' := fun hin =>
  hne ((mem_superBlk_iff har (L.isSuperBlk_listed hz hb) (L.isSuperBlk_listed hz hb') q).mp hin).2

theorem tblBlk_mem_own (z : Nat) : L.tblBlk z ∈ L.own z := Multiset.mem_cons_self _ _

theorem tblBlk_not_mem (z : Nat) : L.tblBlk z ∉ L.blks z :=
  (Multiset.nodup_cons.mp (L.nodup z)).1

end ZoneLayout

/-! ## Changes of the flash -/

section Touched

variable {ar : LogicArchi} {z : Nat} {D D' : Set Nat} {c c' c'' : Cells}

/-- Only pages of the super blocks `D` of the zone are not as before. -/
def Touched (ar : LogicArchi) (z : Nat) (D : Set Nat) (c c' : Cells) : Prop :=
  ∀ a, (∀ b ∈ D, a ∉ superBlk ar z b) → c' a = c a

namespace Touched

theorem refl (c : Cells) : Touched ar z D c c := fun _ _ => rfl

theorem mono (h : Touched ar z D c c') (hD : D ⊆ D') : Touched ar z D' c c' :=
  fun a ha => h a fun b hb => ha b (hD hb)

theorem trans (h : Touched ar z D c c') (h' : Touched ar z D c' c'') : Touched ar z D c c'' :=
  fun a ha => (h' a ha).trans (h a ha)

theorem update (b q : Nat) (p : Option Page) :
    Touched ar z {b} c (Function.update c (lmlCalculatePhyOpPar ar z b q) p) := fun a ha =>
  Function.update_of_ne (fun heq => ha b rfl (by rw [heq]; exact pageAddr_mem ar z b q)) ..

theorem erase {b : Nat} (h : ∀ a, a ∉ superBlk ar z b → c' a = c a) : Touched ar z {b} c c' :=
  fun a ha => h a (ha b rfl)

/-- Pages of other super blocks of the zone are as before. -/
theorem other (har : ar.Fits) (h : Touched ar z D c c') (hD : ∀ b ∈ D, ar.IsSuperBlk z b) {b : Nat}
    (hb : ar.IsSuperBlk z b) (hout : b ∉ D) (q : Nat) :
    c' (lmlCalculatePhyOpPar ar z b q) = c (lmlCalculatePhyOpPar ar z b q) :=
  h _ fun d hd hin => hout (((mem_superBlk_iff har hb (hD d hd) q).mp hin).2 ▸ hd)

/-- Pages of other zones are as before. -/
theorem otherZone (har : ar.Fits) {L : ZoneLayout ar} (h : Touched ar z (L.own z) c c')
    (hz : ar.IsZone z) {z' b : Nat} (hz' : ar.IsZone z') (hne : z' ≠ z) (hb : b ∈ L.own z')
    (q : Nat) : c' (lmlCalculatePhyOpPar ar z' b q) = c (lmlCalculatePhyOpPar ar z' b q) := by
  refine h _ fun d hd hin => ?_
  obtain ⟨hdie, rfl⟩ := (mem_superBlk_iff har (L.isSuperBlk hz' hb) (L.isSuperBlk hz hd) q).mp hin
  exact Multiset.disjoint_left.mp (L.apart z' z hne hdie) hb hd

theorem own {L : ZoneLayout ar} (h : Touched ar z (L.listed z) c c') : Touched ar z (L.own z) c c' :=
  h.mono fun _ => L.mem_own

/-- Pages of the table blocks are as before. -/
theorem tblBlk (har : ar.Fits) {L : ZoneLayout ar} (h : Touched ar z (L.listed z) c c')
    (hz : ar.IsZone z) {z' : Nat} (hz' : ar.IsZone z') (q : Nat) :
    c' (lmlCalculatePhyOpPar ar z' (L.tblBlk z') q) = c (lmlCalculatePhyOpPar ar z' (L.tblBlk z') q) := by
  by_cases hne : z' = z
  · subst hne
    exact h.other har (fun b hb => L.isSuperBlk_listed hz hb)
      (L.isSuperBlk hz (L.tblBlk_mem_own z')) (L.tblBlk_not_mem z') q
  · exact h.own.otherZone har hz hz' hne (L.tblBlk_mem_own z') q

end Touched

end Touched

/-! ## Where pages are -/

section Pages

variable (ar : LogicArchi) (c : Cells) (z : Nat)

/-- What a page of a super block reads as. -/
def pageAt (b q : Nat) : Page := (c (lmlCalculatePhyOpPar ar z b q)).getD .blank

/-- The number of the logical page that a page carries. -/
def numAt (b q : Nat) : Nat := (pageAt ar c z b q).spare.logicPageNum

/-- The last page of a block that carries the number `p`. -/
def logPageOf (b p : Nat) : Option Nat := latest (numAt ar c z b) ar.pageCntOfLogicBlk p

/-- An entry of a page map. -/
def mapEntry (o : Option Nat) : Nat := o.getD 0xffff

/-- The page that holds page `p` of logical block `k`. -/
def pageOf (t : BlkTbls) (k p : Nat) : Page :=
  match t.logBlkPst k with
  | none => pageAt ar c z (t.dataBlkTbl k).phyBlkNum p
  | some i =>
    match logPageOf ar c z (t.logBlkTbl i).phyBlk.phyBlkNum p with
    | none => pageAt ar c z (t.dataBlkTbl k).phyBlkNum p
    | some q => pageAt ar c z (t.logBlkTbl i).phyBlk.phyBlkNum q

/-- A page map of a log block. -/
def IsMapOf (b : Nat) (map : Nat → Nat) : Prop :=
  ∀ p < ar.pageCntOfLogicBlk, map p = mapEntry (logPageOf ar c z b p)

end Pages

/-- The data block of a logical block has the logical information. -/
def DataInfo (ar : LogicArchi) (c : Cells) (z : Nat) (t : BlkTbls) (k : Nat) : Prop :=
  (pageAt ar c z (t.dataBlkTbl k).phyBlkNum 0).spare.logicInfo ≠ 0xffff

/-- The pages of a zone have the sectors that they had, in each logical block whose data block has the
logical information. -/
def PagesKept (ar : LogicArchi) (z : Nat) (c : Cells) (t : BlkTbls) (c' : Cells) (t' : BlkTbls) :
    Prop :=
  ∀ k < ar.dataBlkCntOfZone, DataInfo ar c z t k → DataInfo ar c' z t' k ∧
    ∀ p < ar.pageCntOfLogicBlk, SameSectors ar (pageOf ar c' z t' k p).main (pageOf ar c z t k p).main

theorem PagesKept.refl (ar : LogicArchi) (z : Nat) (c : Cells) (t : BlkTbls) :
    PagesKept ar z c t c t := fun _ _ hinfo => ⟨hinfo, fun _ _ => .refl _⟩

theorem PagesKept.trans {ar : LogicArchi} {z : Nat} {c c' c'' : Cells} {t t' t'' : BlkTbls}
    (h : PagesKept ar z c t c' t') (h' : PagesKept ar z c' t' c'' t'') :
    PagesKept ar z c t c'' t'' := fun k hk hinfo => by
  obtain ⟨hinfo', hpages⟩ := h k hk hinfo
  obtain ⟨hinfo'', hpages'⟩ := h' k hk hinfo'
  exact ⟨hinfo'', fun p hp => (hpages' p hp).trans (hpages p hp)⟩

/-- How many pages of a log block are used. -/
def LogBlk.usedPages (l : LogBlk) : Nat := if l.lastUsedPage = 0xffff then 0 else l.lastUsedPage + 1

/-- What holds of a log block of a zone with the tables `t`. -/
structure LogOK (ar : LogicArchi) (c : Cells) (z : Nat) (t : BlkTbls) (l : LogBlk) : Prop where
  num : l.logicBlkNum < ar.dataBlkCntOfZone
  count : l.phyBlk.blkEraseCnt ≤ 0xffff
  last : l.lastUsedPage ≠ 0xffff → l.lastUsedPage < ar.pageCntOfLogicBlk
  blank : ∀ q < ar.pageCntOfLogicBlk, l.usedPages ≤ q →
    c (lmlCalculatePhyOpPar ar z l.phyBlk.phyBlkNum q) = none
  /-- page 0 has the logical information -/
  info : l.lastUsedPage ≠ 0xffff → (pageAt ar c z l.phyBlk.phyBlkNum 0).spare.logicInfo ≠ 0xffff
  dataInfo : (pageAt ar c z (t.dataBlkTbl l.logicBlkNum).phyBlkNum 0).spare.logicInfo ≠ 0xffff
  /-- pages are in the bank of their logical page, if they have to be -/
  aligned : ar.supportAlignNandBnk = true → ∀ q < ar.pageCntOfLogicBlk,
    numAt ar c z l.phyBlk.phyBlkNum q < ar.pageCntOfLogicBlk →
      q % ar.interleaveBankCnt = numAt ar c z l.phyBlk.phyBlkNum q % ar.interleaveBankCnt
  filled : l.lastUsedPage ≠ 0xffff → ∃ q < ar.pageCntOfLogicBlk,
    numAt ar c z l.phyBlk.phyBlkNum q < ar.pageCntOfLogicBlk
  /-- a page map behind the pages is right -/
  stored : l.lastUsedPage ≠ 0xffff →
    AcceptsPageMap ar (pageAt ar c z l.phyBlk.phyBlkNum l.lastUsedPage) →
      IsMapOf ar c z l.phyBlk.phyBlkNum (pageAt ar c z l.phyBlk.phyBlkNum l.lastUsedPage).main

/-- What holds of the tables of a zone. -/
structure ZoneOK {ar : LogicArchi} (L : ZoneLayout ar) (c : Cells) (z : Nat) (t : BlkTbls) :
    Prop where
  blocks : t.blocks ar = L.blks z
  counts : t.CountsFit ar.freeBlkCntOfZone
  dataCounts : ∀ k < ar.dataBlkCntOfZone, (t.dataBlkTbl k).blkEraseCnt ≤ 0xffff
  free : ∀ b ∈ t.freeNums ar.freeBlkCntOfZone, ∀ q < ar.pageCntOfLogicBlk,
    c (lmlCalculatePhyOpPar ar z b q) = none
  /-- a data block has the logical information, unless it is blank -/
  data : ∀ k < ar.dataBlkCntOfZone,
    c (lmlCalculatePhyOpPar ar z (t.dataBlkTbl k).phyBlkNum 0) = none ∨
      (pageAt ar c z (t.dataBlkTbl k).phyBlkNum 0).spare.logicInfo ≠ 0xffff
  logs : ∀ i < logBlkCntOfZone, (t.logBlkTbl i).logicBlkNum ≠ 0xffff →
    LogOK ar c z t (t.logBlkTbl i)
  single : ∀ i < logBlkCntOfZone, ∀ j < logBlkCntOfZone,
    (t.logBlkTbl i).logicBlkNum = (t.logBlkTbl j).logicBlkNum →
      (t.logBlkTbl i).logicBlkNum ≠ 0xffff → i = j

/-! ## Blocks of different places -/

namespace ZoneOK

variable {ar : LogicArchi} {L : ZoneLayout ar} {c : Cells} {z : Nat} {t : BlkTbls}

theorem nodup (h : ZoneOK L c z t) : (t.blocks ar).Nodup := by
  rw [h.blocks]
  exact (Multiset.nodup_cons.mp (L.nodup z)).2

theorem dataNum_mem {k : Nat} (hk : k < ar.dataBlkCntOfZone) :
    (t.dataBlkTbl k).phyBlkNum ∈ held t.dataNum ar.dataBlkCntOfZone :=
  mem_held.mpr ⟨k, hk, rfl⟩

theorem logNum_mem {i : Nat} (hi : i < logBlkCntOfZone) (hused : (t.logBlkTbl i).logicBlkNum ≠ 0xffff) :
    (t.logBlkTbl i).phyBlk.phyBlkNum ∈ held t.logNum logBlkCntOfZone :=
  mem_held.mpr ⟨i, hi, if_neg hused⟩

theorem data_mem (h : ZoneOK L c z t) {k : Nat} (hk : k < ar.dataBlkCntOfZone) :
    (t.dataBlkTbl k).phyBlkNum ∈ L.blks z := by
  rw [← h.blocks]
  exact Multiset.mem_add.mpr (.inl (Multiset.mem_add.mpr (.inl (dataNum_mem hk))))

theorem log_mem (h : ZoneOK L c z t) {i : Nat} (hi : i < logBlkCntOfZone)
    (hused : (t.logBlkTbl i).logicBlkNum ≠ 0xffff) :
    (t.logBlkTbl i).phyBlk.phyBlkNum ∈ L.blks z := by
  rw [← h.blocks]
  exact Multiset.mem_add.mpr (.inl (Multiset.mem_add.mpr (.inr (logNum_mem hi hused))))

theorem free_mem (h : ZoneOK L c z t) {b : Nat} (hb : b ∈ t.freeNums ar.freeBlkCntOfZone) :
    b ∈ L.blks z := by
  rw [← h.blocks]
  exact Multiset.mem_add.mpr (.inr hb)

theorem data_inj (h : ZoneOK L c z t) {k k' : Nat} (hk : k < ar.dataBlkCntOfZone)
    (hk' : k' < ar.dataBlkCntOfZone)
    (heq : (t.dataBlkTbl k).phyBlkNum = (t.dataBlkTbl k').phyBlkNum) : k = k' := by
  have hnodup := (Multiset.nodup_add.mp (Multiset.nodup_add.mp h.nodup).1).1
  exact held_inj hnodup hk hk' rfl (congrArg some heq.symm)

theorem log_inj (h : ZoneOK L c z t) {i j : Nat} (hi : i < logBlkCntOfZone)
    (hj : j < logBlkCntOfZone) (hused : (t.logBlkTbl i).logicBlkNum ≠ 0xffff)
    (hused' : (t.logBlkTbl j).logicBlkNum ≠ 0xffff)
    (heq : (t.logBlkTbl i).phyBlk.phyBlkNum = (t.logBlkTbl j).phyBlk.phyBlkNum) : i = j := by
  have hnodup := (Multiset.nodup_add.mp (Multiset.nodup_add.mp h.nodup).1).2.1
  refine held_inj hnodup hi hj (if_neg hused) ?_
  rw [BlkTbls.logNum, if_neg hused', heq]

theorem data_ne_log (h : ZoneOK L c z t) {k i : Nat} (hk : k < ar.dataBlkCntOfZone)
    (hi : i < logBlkCntOfZone) (hused : (t.logBlkTbl i).logicBlkNum ≠ 0xffff) :
    (t.dataBlkTbl k).phyBlkNum ≠ (t.logBlkTbl i).phyBlk.phyBlkNum := fun heq => by
  have hapart := (Multiset.nodup_add.mp (Multiset.nodup_add.mp h.nodup).1).2.2
  exact Multiset.disjoint_left.mp hapart (dataNum_mem hk) (heq ▸ logNum_mem hi hused)

theorem data_ne_free (h : ZoneOK L c z t) {k : Nat} (hk : k < ar.dataBlkCntOfZone) {b : Nat}
    (hb : b ∈ t.freeNums ar.freeBlkCntOfZone) : (t.dataBlkTbl k).phyBlkNum ≠ b := by
  rintro rfl
  exact Multiset.disjoint_left.mp (Multiset.nodup_add.mp h.nodup).2.2
    (Multiset.mem_add.mpr (.inl (dataNum_mem hk))) hb

theorem log_ne_free (h : ZoneOK L c z t) {i : Nat} (hi : i < logBlkCntOfZone)
    (hused : (t.logBlkTbl i).logicBlkNum ≠ 0xffff) {b : Nat}
    (hb : b ∈ t.freeNums ar.freeBlkCntOfZone) : (t.logBlkTbl i).phyBlk.phyBlkNum ≠ b := by
  rintro rfl
  exact Multiset.disjoint_left.mp (Multiset.nodup_add.mp h.nodup).2.2
    (Multiset.mem_add.mpr (.inr (logNum_mem hi hused))) hb

/-- The log block of a logical block. -/
theorem logBlkPst_eq (h : ZoneOK L c z t) {i : Nat} (hi : i < logBlkCntOfZone)
    (hused : (t.logBlkTbl i).logicBlkNum ≠ 0xffff) :
    t.logBlkPst (t.logBlkTbl i).logicBlkNum = some i :=
  BlkTbls.logBlkPst_of_only hi rfl fun j hj heq =>
    h.single j hj i hi heq (by rw [heq]; exact hused)

/-! ## How many there are -/

/-- The positions in use and the free blocks are as many as the zone has blocks beyond its
data blocks. -/
theorem card_eq (h : ZoneOK L c z t) : ar.dataBlkCntOfZone +
    (held t.logNum logBlkCntOfZone).card + (t.freeNums ar.freeBlkCntOfZone).card =
      (L.blks z).card := by
  have hdata : (held t.dataNum ar.dataBlkCntOfZone).card = ar.dataBlkCntOfZone :=
    held_full fun _ _ => rfl
  rw [← h.blocks, BlkTbls.blocks, Multiset.card_add, Multiset.card_add, hdata]

/-- There is a free block, also with a log block in every position. -/
theorem hasFree (h : ZoneOK L c z t) : t.HasFree ar.freeBlkCntOfZone := by
  have hcard := h.card_eq
  have hlogs := card_held_le t.logNum logBlkCntOfZone
  have henough := L.enough z
  obtain ⟨b, hb⟩ := Multiset.card_pos_iff_exists_mem.mp
    (show 0 < (t.freeBlks ar.freeBlkCntOfZone).card by
      rw [BlkTbls.freeNums, Multiset.card_map] at hcard
      omega)
  obtain ⟨i, hi, rfl, hblk⟩ := BlkTbls.mem_freeBlks.mp hb
  exact ⟨i, hi, hblk, h.counts i hi⟩

end ZoneOK

/-! ## Frames -/

section Frames

variable {ar : LogicArchi} {c c' : Cells} {z b : Nat} {t t' : BlkTbls} {l : LogBlk}

/-- The pages of a block are the same. -/
def SameBlock (ar : LogicArchi) (z b : Nat) (c c' : Cells) : Prop :=
  ∀ q < ar.pageCntOfLogicBlk,
    c' (lmlCalculatePhyOpPar ar z b q) = c (lmlCalculatePhyOpPar ar z b q)

theorem SameBlock.pageAt (h : SameBlock ar z b c c') {q : Nat} (hq : q < ar.pageCntOfLogicBlk) :
    pageAt ar c' z b q = pageAt ar c z b q := by
  rw [Novo7.pageAt, Novo7.pageAt, h q hq]

theorem SameBlock.logPageOf (h : SameBlock ar z b c c') (p : Nat) :
    logPageOf ar c' z b p = logPageOf ar c z b p :=
  latest_congr fun q hq => by rw [numAt, numAt, h.pageAt hq]

theorem SameBlock.isMapOf (h : SameBlock ar z b c c') {map : Nat → Nat}
    (hmap : IsMapOf ar c z b map) : IsMapOf ar c' z b map := fun p hp => by
  rw [h.logPageOf]
  exact hmap p hp

/-- A log block is not touched. -/
theorem LogOK.congr (hpages : 0 < ar.pageCntOfLogicBlk) (h : LogOK ar c z t l)
    (hlog : SameBlock ar z l.phyBlk.phyBlkNum c c')
    (hdata : (pageAt ar c' z (t'.dataBlkTbl l.logicBlkNum).phyBlkNum 0).spare.logicInfo ≠ 0xffff) :
    LogOK ar c' z t' l where
  num := h.num
  count := h.count
  last := h.last
  blank q hq hused := (hlog q hq).trans (h.blank q hq hused)
  info hlast := by
    rw [hlog.pageAt hpages]
    exact h.info hlast
  dataInfo := hdata
  aligned hal q hq := by
    rw [numAt, hlog.pageAt hq]
    exact h.aligned hal q hq
  filled hlast := by
    obtain ⟨q, hq, hnum⟩ := h.filled hlast
    refine ⟨q, hq, ?_⟩
    rw [numAt, hlog.pageAt hq]
    exact hnum
  stored hlast hacc := by
    rw [hlog.pageAt (h.last hlast)] at hacc ⊢
    exact hlog.isMapOf (h.stored hlast hacc)

end Frames

end Novo7
