import Mathlib.Algebra.BigOperators.Group.Finset.Piecewise
import Mathlib.Algebra.Order.BigOperators.Group.Finset
import Mathlib.Data.Nat.Bitwise
import Mathlib.Order.Interval.Finset.Nat
import Novo7.FtlState
import Novo7.ZoneSwitch

/-!
# Distribution of the free blocks of a die

When the tables of a die are rebuilt, `_DistributeFreeBlk` first fills the data block tables of the
zones; what is left goes one by one to the zone that has least (`_LeastBlkCntZone`), into its free
block table. The last word of a table is for the checksum, but the loop takes it for one more item,
and when the zone that has least is full the loop runs on without taking anything.

So all depends on whether the blocks run out before the zone with the least blocks has used up its
free block table. How many blocks it takes until then is `capacity`: the levels of the zones rise
together. `distributeFreeBlk_iff` is the result.
-/

namespace Novo7

/-! ## Model -/

/-- `NULL_BLOCK_INFO` -/
def nullBlockInfo : Nat := 0xfffd

/-- `FREE_BLOCK_INFO` -/
def freeBlockInfo : Nat := 0xffff

/-- `ALLOC_BLK_MARK` -/
def allocBlkMark : Nat := 1 <<< 14 ||| 0xff

/-- `struct __ScanZoneInfo_t` -/
structure ScanZoneInfo where
  nDataBlkCnt : Nat
  nFreeBlkCnt : Nat
  nFreeBlkIndex : Nat
  zoneTbl : Nat → SuperPhyBlk
  logBlkTbl : Nat → LogBlk

/-- `nDataBlkCnt++` -/
def ScanZoneInfo.countData (z : ScanZoneInfo) : ScanZoneInfo :=
  { z with nDataBlkCnt := u16 (z.nDataBlkCnt + 1) }

/-- `nFreeBlkIndex++` and `nFreeBlkCnt++` -/
def ScanZoneInfo.countFree (z : ScanZoneInfo) : ScanZoneInfo :=
  { z with nFreeBlkIndex := u16 (z.nFreeBlkIndex + 1), nFreeBlkCnt := u16 (z.nFreeBlkCnt + 1) }

/-- The free block table begins at item `i`. -/
def ScanZoneInfo.startFree (i : Nat) (z : ScanZoneInfo) : ScanZoneInfo :=
  { z with nFreeBlkIndex := i }

/-- `struct __ScanDieInfo_t`, as far as the distribution uses it. -/
structure ScanDieInfo where
  nDie : Nat
  tblBitmap : Nat
  nFreeCnt : Nat
  nFreeIndex : Nat
  pPhyBlk : Nat → Nat
  zoneInfo : Nat → ScanZoneInfo

namespace ScanDieInfo

variable (d : ScanDieInfo)

/-- The table of the zone is valid: it is not rebuilt. -/
def Valid (zone : Nat) : Prop := d.tblBitmap.testBit zone

instance (zone : Nat) : Decidable (d.Valid zone) := by
  unfold Valid
  infer_instance

/-- The block that an item of a zone's table names. -/
def item (zone slot : Nat) : Nat := ((d.zoneInfo zone).zoneTbl slot).phyBlkNum

def setZoneInfo (zone : Nat) (f : ScanZoneInfo → ScanZoneInfo) : ScanDieInfo :=
  { d with zoneInfo := Function.update d.zoneInfo zone (f (d.zoneInfo zone)) }

/-- Block `blk` goes to an item of a zone's table, and is marked as belonging to the zone. -/
def allot (zone slot blk : Nat) : ScanDieInfo :=
  { d.setZoneInfo zone fun z =>
      { z with zoneTbl := Function.update z.zoneTbl slot { z.zoneTbl slot with
          phyBlkNum := u16 blk } } with
    pPhyBlk := Function.update d.pPhyBlk blk (u16 (zone <<< 10 ||| allocBlkMark)) }

end ScanDieInfo

/-- The scan of `_GetFreeBlkFromDieInfo`, from block `i` for `n` rounds. -/
def scanFree (pPhyBlk : Nat → Nat) : Nat → Nat → Option Nat
  | 0, _ => none
  | n + 1, i => if pPhyBlk i = freeBlockInfo then some i else scanFree pPhyBlk n (i + 1)

/-- `_GetFreeBlkFromDieInfo`; `none` stands for `-1`. -/
def getFreeBlkFromDieInfo (ar : LogicArchi) (d : ScanDieInfo) : Option Nat × ScanDieInfo :=
  match scanFree d.pPhyBlk (ar.superBlkCntOfDie - d.nFreeIndex) d.nFreeIndex with
  | none => (none, d)
  | some i => (some i, { d with
      pPhyBlk := Function.update d.pPhyBlk i nullBlockInfo
      nFreeIndex := u16 i
      nFreeCnt := u16 (d.nFreeCnt + 0xffff) })

/-- The blocks that `_LeastBlkCntZone` counts for a zone. -/
def blkCnt (ar : LogicArchi) (z : ScanZoneInfo) : Nat :=
  ar.dataBlkCntOfZone + z.nFreeBlkCnt +
    (List.range logBlkCntOfZone).countP fun i => (z.logBlkTbl i).logicBlkNum ≠ 0xffff

/-- The loop of `_LeastBlkCntZone`, from `zone` for `n` rounds; `least` is `tmpLeastCntBlkZone` and
`tmpLeastBlkCnt`. -/
def leastFrom (ar : LogicArchi) (d : ScanDieInfo) : Nat → Nat → Nat × Nat → Nat × Nat
  | 0, _, least => least
  | n + 1, zone, least =>
    if d.Valid zone then leastFrom ar d n (zone + 1) least
    else if blkCnt ar (d.zoneInfo zone) < least.2 then
      leastFrom ar d n (zone + 1) (zone, blkCnt ar (d.zoneInfo zone))
    else leastFrom ar d n (zone + 1) least

/-- `_LeastBlkCntZone` -/
def leastBlkCntZone (ar : LogicArchi) (d : ScanDieInfo) : Nat :=
  (leastFrom ar d ar.zoneCntOfDie 0 (0, 0xffff)).1

/-- The inner loop of `_DistributeFreeBlk` over the data block table of a zone, from item `i` for
`n` rounds. The second result is false where it gives up. -/
def fillDataTbl (ar : LogicArchi) (zone : Nat) : Nat → Nat → ScanDieInfo → ScanDieInfo × Bool
  | 0, _, d => (d, true)
  | n + 1, i, d =>
    if d.item zone i = 0xffff then
      match getFreeBlkFromDieInfo ar d with
      | (none, d) => (d, false)
      | (some blk, d) =>
        fillDataTbl ar zone n (i + 1) ((d.allot zone i blk).setZoneInfo zone .countData)
    else fillDataTbl ar zone n (i + 1) d

/-- The first loop of `_DistributeFreeBlk`, from `zone` for `n` rounds. -/
def fillDataTbls (ar : LogicArchi) : Nat → Nat → ScanDieInfo → ScanDieInfo × Bool
  | 0, _, d => (d, true)
  | n + 1, zone, d =>
    if d.Valid zone then fillDataTbls ar n (zone + 1) d
    else if (d.nFreeCnt : Int) <
        (ar.dataBlkCntOfZone : Int) - ((d.zoneInfo zone).nDataBlkCnt : Int) then (d, false)
    else
      match fillDataTbl ar zone ar.dataBlkCntOfZone 0
          (d.setZoneInfo zone (.startFree ar.dataBlkCntOfZone)) with
      | (d, false) => (d, false)
      | (d, true) => fillDataTbls ar n (zone + 1) d

/-- The body of the second loop of `_DistributeFreeBlk`. -/
def distributeOne (ar : LogicArchi) (d : ScanDieInfo) : ScanDieInfo :=
  let zone := leastBlkCntZone ar d
  if (d.zoneInfo zone).nFreeBlkIndex < blockCntOfZone then
    match getFreeBlkFromDieInfo ar d with
    | (none, d) => d
    | (some blk, d) =>
      (d.allot zone (d.zoneInfo zone).nFreeBlkIndex blk).setZoneInfo zone .countFree
  else d

/-- The second loop of `_DistributeFreeBlk`; `none` if it has not ended after `fuel` rounds. -/
def distributeLoop (ar : LogicArchi) : Nat → ScanDieInfo → Option ScanDieInfo
  | 0, d => if 0 < d.nFreeCnt then none else some d
  | fuel + 1, d => if 0 < d.nFreeCnt then distributeLoop ar fuel (distributeOne ar d) else some d

/-- The block where the free blocks of the die begin. -/
def firstBlk (die0FirstBlkNum nDie : Nat) : Nat := if nDie = 0 then die0FirstBlkNum else 0

/-- `_DistributeFreeBlk`; `none` if it has not ended after `fuel` rounds of its second loop. -/
def distributeFreeBlk (ar : LogicArchi) (die0FirstBlkNum fuel : Nat) (d : ScanDieInfo) :
    Option (Int × ScanDieInfo) :=
  match fillDataTbls ar ar.zoneCntOfDie 0
      { d with nFreeIndex := u16 (firstBlk die0FirstBlkNum d.nDie) } with
  | (d, false) => some (-1, d)
  | (d, true) => (distributeLoop ar fuel d).map fun d => (0, d)

@[simp] theorem setZoneInfo_zoneInfo (d : ScanDieInfo) (zone : Nat)
    (f : ScanZoneInfo → ScanZoneInfo) :
    (d.setZoneInfo zone f).zoneInfo zone = f (d.zoneInfo zone) :=
  Function.update_self ..

theorem setZoneInfo_of_ne (d : ScanDieInfo) {zone w : Nat} (f : ScanZoneInfo → ScanZoneInfo)
    (h : w ≠ zone) : (d.setZoneInfo zone f).zoneInfo w = d.zoneInfo w :=
  Function.update_of_ne h ..

theorem allot_item_self (d : ScanDieInfo) (zone slot blk : Nat) :
    (d.allot zone slot blk).item zone slot = u16 blk := by
  simp [ScanDieInfo.allot, ScanDieInfo.item, ScanDieInfo.setZoneInfo]

theorem allot_item_of_ne (d : ScanDieInfo) {zone slot w s : Nat} (blk : Nat)
    (h : (w, s) ≠ (zone, slot)) : (d.allot zone slot blk).item w s = d.item w s := by
  by_cases hw : w = zone
  · subst hw
    have hs : s ≠ slot := fun hs => h (by rw [hs])
    simp [ScanDieInfo.allot, ScanDieInfo.item, ScanDieInfo.setZoneInfo, hs]
  · simp [ScanDieInfo.allot, ScanDieInfo.item, ScanDieInfo.setZoneInfo, hw]

/-- The mark of an allotted block is no free block's. -/
theorem mark_ne_free (zone : Nat) : u16 (zone <<< 10 ||| allocBlkMark) ≠ freeBlockInfo := by
  intro h
  have h8 : (u16 (zone <<< 10 ||| allocBlkMark)).testBit 8 = freeBlockInfo.testBit 8 := by rw [h]
  rw [u16, Nat.testBit_mod_two_pow, Nat.testBit_or, Nat.testBit_shiftLeft] at h8
  simp only [allocBlkMark, freeBlockInfo] at h8
  revert h8
  simp
  decide

/-! ## Taking a block -/

theorem scanFree_spec (p : Nat → Nat) (n : Nat) : ∀ i,
    (∃ b, scanFree p n i = some b ∧ i ≤ b ∧ b < i + n ∧ p b = freeBlockInfo ∧
      ∀ j, i ≤ j → j < b → p j ≠ freeBlockInfo) ∨
    (scanFree p n i = none ∧ ∀ j, i ≤ j → j < i + n → p j ≠ freeBlockInfo) := by
  induction n with
  | zero => exact fun i => Or.inr ⟨rfl, fun j h h' => by omega⟩
  | succ n ih =>
      intro i
      rw [scanFree]
      by_cases hi : p i = freeBlockInfo
      · rw [if_pos hi]
        exact Or.inl ⟨i, rfl, Nat.le_refl i, by omega, hi, fun j h h' => by omega⟩
      · rw [if_neg hi]
        rcases ih (i + 1) with ⟨b, hb, hib, hbn, hfree, hfirst⟩ | ⟨hnone, hno⟩
        · refine Or.inl ⟨b, hb, by omega, by omega, hfree, fun j hj hjb => ?_⟩
          rcases Nat.eq_or_lt_of_le hj with rfl | hlt
          · exact hi
          · exact hfirst j hlt hjb
        · refine Or.inr ⟨hnone, fun j hj hjn => ?_⟩
          rcases Nat.eq_or_lt_of_le hj with rfl | hlt
          · exact hi
          · exact hno j hlt (by omega)

/-- The free blocks of the die, from `lo` on. -/
def freeBlks (ar : LogicArchi) (lo : Nat) (d : ScanDieInfo) : Finset Nat :=
  (Finset.Ico lo ar.superBlkCntOfDie).filter fun b => d.pPhyBlk b = freeBlockInfo

/-- The die info when block `b` is taken. -/
def ScanDieInfo.take (d : ScanDieInfo) (b : Nat) : ScanDieInfo :=
  { d with
    pPhyBlk := Function.update d.pPhyBlk b nullBlockInfo
    nFreeIndex := b
    nFreeCnt := d.nFreeCnt - 1 }

/-- A table position names the block. -/
def Names (ar : LogicArchi) (d : ScanDieInfo) (b : Nat) (p : Nat × Nat) : Prop :=
  p.1 < ar.zoneCntOfDie ∧ p.2 < blockCntOfZone - 1 ∧ d.item p.1 p.2 = b

/-- The free counter counts the free blocks, none of them is before the index, and none of them is
in a table. The blocks that were free in `d` and have been taken are in one position each. -/
structure Pool (ar : LogicArchi) (lo : Nat) (d e : ScanDieInfo) : Prop where
  count : e.nFreeCnt = (freeBlks ar lo e).card
  lo_le : lo ≤ e.nFreeIndex
  index : ∀ b ∈ freeBlks ar lo e, e.nFreeIndex ≤ b
  sub : freeBlks ar lo e ⊆ freeBlks ar lo d
  unnamed : ∀ b ∈ freeBlks ar lo e, ∀ p, ¬Names ar e b p
  named : ∀ b ∈ freeBlks ar lo d, b ∉ freeBlks ar lo e → ∃! p, Names ar e b p

section Take

variable {ar : LogicArchi} {lo : Nat} {d e : ScanDieInfo}

theorem mem_freeBlks {b : Nat} : b ∈ freeBlks ar lo e ↔
    (lo ≤ b ∧ b < ar.superBlkCntOfDie) ∧ e.pPhyBlk b = freeBlockInfo := by
  rw [freeBlks, Finset.mem_filter, Finset.mem_Ico]

/-- The pool is about blocks, counters and items only. -/
theorem Pool.congr {e' : ScanDieInfo} (h : Pool ar lo d e) (hcnt : e'.nFreeCnt = e.nFreeCnt)
    (hidx : e'.nFreeIndex = e.nFreeIndex) (hphy : e'.pPhyBlk = e.pPhyBlk)
    (hitem : ∀ z s, e'.item z s = e.item z s) : Pool ar lo d e' := by
  have hfree : freeBlks ar lo e' = freeBlks ar lo e := by rw [freeBlks, freeBlks, hphy]
  have hnames : ∀ b p, Names ar e' b p ↔ Names ar e b p := by
    intro b p
    rw [Names, Names, hitem]
  refine ⟨by rw [hcnt, hfree, h.count], by rw [hidx]; exact h.lo_le, ?_, by rw [hfree]; exact h.sub,
    ?_, ?_⟩
  · rw [hfree, hidx]
    exact h.index
  · rw [hfree]
    exact fun b hb p hp => h.unnamed b hb p ((hnames b p).mp hp)
  · rw [hfree]
    intro b hb hb'
    simp only [hnames]
    exact h.named b hb hb'

/-- As long as the counter is not zero there is a block to take. -/
theorem Pool.get (h : Pool ar lo d e) (hsmall : ar.superBlkCntOfDie ≤ 0xffff)
    (hpos : 0 < e.nFreeCnt) : ∃ b ∈ freeBlks ar lo e, e.nFreeIndex ≤ b ∧
      (∀ j, e.nFreeIndex ≤ j → j < b → e.pPhyBlk j ≠ freeBlockInfo) ∧
      getFreeBlkFromDieInfo ar e = (some b, e.take b) := by
  obtain ⟨c, hc⟩ := Finset.card_pos.mp (h.count ▸ hpos)
  obtain ⟨⟨_, hcn⟩, hcfree⟩ := mem_freeBlks.mp hc
  have hcidx := h.index c hc
  have hcard : e.nFreeCnt ≤ ar.superBlkCntOfDie := by
    rw [h.count]
    refine Nat.le_trans (Finset.card_filter_le _ _) ?_
    rw [Nat.card_Ico]
    exact Nat.sub_le _ _
  rcases scanFree_spec e.pPhyBlk (ar.superBlkCntOfDie - e.nFreeIndex) e.nFreeIndex with
    ⟨b, hb, hib, hbn, hfree, hfirst⟩ | ⟨_, hno⟩
  · refine ⟨b, mem_freeBlks.mpr ⟨⟨Nat.le_trans h.lo_le hib, by omega⟩, hfree⟩, hib, hfirst, ?_⟩
    have hcnt : u16 (e.nFreeCnt + 0xffff) = e.nFreeCnt - 1 := by
      rw [u16]
      omega
    have hidx : u16 b = b := Nat.mod_eq_of_lt (by omega)
    simp only [getFreeBlkFromDieInfo, hb, hcnt, hidx, ScanDieInfo.take]
  · exact absurd hcfree (hno c hcidx (by omega))

theorem Pool.get_none (h : Pool ar lo d e) (hzero : e.nFreeCnt = 0) :
    getFreeBlkFromDieInfo ar e = (none, e) := by
  have hempty : freeBlks ar lo e = ∅ := Finset.card_eq_zero.mp (h.count ▸ hzero)
  rcases scanFree_spec e.pPhyBlk (ar.superBlkCntOfDie - e.nFreeIndex) e.nFreeIndex with
    ⟨b, _, hib, hbn, hfree, _⟩ | ⟨hnone, _⟩
  · have hb : b ∈ freeBlks ar lo e :=
      mem_freeBlks.mpr ⟨⟨Nat.le_trans h.lo_le hib, by omega⟩, hfree⟩
    rw [hempty] at hb
    exact absurd hb (Finset.notMem_empty b)
  · simp only [getFreeBlkFromDieInfo, hnone]

theorem freeBlks_update {e' : ScanDieInfo} {b v : Nat} (hv : v ≠ freeBlockInfo)
    (hphy : e'.pPhyBlk = Function.update e.pPhyBlk b v) :
    freeBlks ar lo e' = (freeBlks ar lo e).erase b := by
  ext c
  rw [Finset.mem_erase, mem_freeBlks, mem_freeBlks, hphy]
  by_cases hc : c = b
  · subst hc
    simp [hv]
  · simp [hc]

/-- A block is taken and goes to a position below the checksum that named no block of the pool. -/
theorem Pool.allot (h : Pool ar lo d e) (hsmall : ar.superBlkCntOfDie ≤ 0xffff) {zone slot b : Nat}
    (hb : b ∈ freeBlks ar lo e) (hidx : e.nFreeIndex ≤ b)
    (hfirst : ∀ j, e.nFreeIndex ≤ j → j < b → e.pPhyBlk j ≠ freeBlockInfo)
    (hzone : zone < ar.zoneCntOfDie) (hslot : slot < blockCntOfZone - 1)
    (hold : e.item zone slot ∉ freeBlks ar lo d) :
    Pool ar lo d ((e.take b).allot zone slot b) := by
  generalize he' : (e.take b).allot zone slot b = e'
  have hbn := (mem_freeBlks.mp hb).1
  have hphy : e'.pPhyBlk = Function.update e.pPhyBlk b (u16 (zone <<< 10 ||| allocBlkMark)) := by
    rw [← he']
    exact Function.update_idem ..
  have hfree : freeBlks ar lo e' = (freeBlks ar lo e).erase b :=
    freeBlks_update (mark_ne_free zone) hphy
  have hself : e'.item zone slot = b := by
    rw [← he', allot_item_self]
    exact Nat.mod_eq_of_lt (by omega)
  have hother : ∀ p : Nat × Nat, p ≠ (zone, slot) → e'.item p.1 p.2 = e.item p.1 p.2 := by
    rintro ⟨w, s⟩ hp
    rw [← he', allot_item_of_ne _ _ hp]
    rfl
  have hnames : ∀ c, c ≠ b → ∀ p, c ∈ freeBlks ar lo d → (Names ar e' c p ↔ Names ar e c p) := by
    intro c hc p hcd
    by_cases hp : p = (zone, slot)
    · subst hp
      constructor
      · rintro ⟨_, _, h'⟩
        rw [hself] at h'
        exact absurd h'.symm hc
      · rintro ⟨_, _, h'⟩
        rw [← h'] at hcd
        exact absurd hcd hold
    · rw [Names, Names, hother p hp]
  refine ⟨?_, ?_, ?_, ?_, ?_, ?_⟩
  · rw [hfree, Finset.card_erase_of_mem hb, ← h.count, ← he']
    rfl
  · rw [← he']
    exact hbn.1
  · intro c hc
    rw [hfree, Finset.mem_erase] at hc
    rw [← he']
    change b ≤ c
    by_contra hlt
    exact hfirst c (h.index c hc.2) (by omega) (mem_freeBlks.mp hc.2).2
  · rw [hfree]
    exact fun c hc => h.sub (Finset.mem_of_mem_erase hc)
  · intro c hc p hp
    rw [hfree, Finset.mem_erase] at hc
    exact h.unnamed c hc.2 p ((hnames c hc.1 p (h.sub hc.2)).mp hp)
  · intro c hcd hc
    rw [hfree, Finset.mem_erase, not_and] at hc
    by_cases hcb : c = b
    · subst hcb
      refine ⟨(zone, slot), ⟨hzone, hslot, hself⟩, fun p hp => ?_⟩
      by_contra hne
      refine h.unnamed c hb p ⟨hp.1, hp.2.1, ?_⟩
      rw [← hother p hne]
      exact hp.2.2
    · obtain ⟨p, hp, huniq⟩ := h.named c hcd (hc hcb)
      exact ⟨p, (hnames c hcb p hcd).mpr hp, fun q hq => huniq q ((hnames c hcb q hcd).mp hq)⟩

end Take

/-! ## Filling the data block tables -/

theorem setZoneInfo_item (d : ScanDieInfo) (zone w s : Nat) (f : ScanZoneInfo → ScanZoneInfo)
    (hf : ∀ z, (f z).zoneTbl = z.zoneTbl) : (d.setZoneInfo zone f).item w s = d.item w s := by
  by_cases hw : w = zone
  · subst hw
    rw [ScanDieInfo.item, setZoneInfo_zoneInfo, hf, ScanDieInfo.item]
  · rw [ScanDieInfo.item, setZoneInfo_of_ne d f hw, ScanDieInfo.item]

/-- How many of the `n` items from `i` on are empty. -/
def emptyItems (d : ScanDieInfo) (zone : Nat) : Nat → Nat → Nat
  | 0, _ => 0
  | n + 1, i => (if d.item zone i = 0xffff then 1 else 0) + emptyItems d zone n (i + 1)

/-- How many items of the zone's data block table are empty. -/
def emptyCnt (ar : LogicArchi) (d : ScanDieInfo) (zone : Nat) : Nat :=
  emptyItems d zone ar.dataBlkCntOfZone 0

/-- How many blocks the data block tables of the zones before `zone` take. -/
def usedBefore (ar : LogicArchi) (d : ScanDieInfo) : Nat → Nat
  | 0 => 0
  | zone + 1 => usedBefore ar d zone + if d.Valid zone then 0 else emptyCnt ar d zone

/-- What a zone wants to be there before its table is filled: the items that are counted as missing,
and those that are. -/
def wantedCnt (ar : LogicArchi) (d : ScanDieInfo) (zone : Nat) : Nat :=
  max (ar.dataBlkCntOfZone - (d.zoneInfo zone).nDataBlkCnt) (emptyCnt ar d zone)

/-- The free blocks are enough for the data block tables. -/
def EnoughFree (ar : LogicArchi) (d : ScanDieInfo) : Prop :=
  ∀ zone < ar.zoneCntOfDie, ¬d.Valid zone →
    usedBefore ar d zone + wantedCnt ar d zone ≤ d.nFreeCnt

/-- The die infos differ in the table of `zone` only, and in what is taken from the pool. -/
structure SameBut (zone : Nat) (e e' : ScanDieInfo) : Prop where
  bitmap : e'.tblBitmap = e.tblBitmap
  others : ∀ w ≠ zone, e'.zoneInfo w = e.zoneInfo w
  freeCnt : (e'.zoneInfo zone).nFreeBlkCnt = (e.zoneInfo zone).nFreeBlkCnt
  freeIndex : (e'.zoneInfo zone).nFreeBlkIndex = (e.zoneInfo zone).nFreeBlkIndex
  logs : (e'.zoneInfo zone).logBlkTbl = (e.zoneInfo zone).logBlkTbl

section Fill

variable {ar : LogicArchi} {lo : Nat} {d : ScanDieInfo}

theorem SameBut.refl (zone : Nat) (e : ScanDieInfo) : SameBut zone e e :=
  ⟨rfl, fun _ _ => rfl, rfl, rfl, rfl⟩

theorem SameBut.trans {zone : Nat} {e e' e'' : ScanDieInfo} (h : SameBut zone e e')
    (h' : SameBut zone e' e'') : SameBut zone e e'' :=
  ⟨h'.bitmap.trans h.bitmap, fun w hw => (h'.others w hw).trans (h.others w hw),
    h'.freeCnt.trans h.freeCnt, h'.freeIndex.trans h.freeIndex, h'.logs.trans h.logs⟩

theorem sameBut_allot (e : ScanDieInfo) (zone slot b : Nat) :
    SameBut zone e (((e.take b).allot zone slot b).setZoneInfo zone .countData) := by
  refine ⟨rfl, fun w hw => ?_, ?_, ?_, ?_⟩
  · rw [setZoneInfo_of_ne _ _ hw]
    exact Function.update_of_ne hw ..
  all_goals
    rw [setZoneInfo_zoneInfo]
    simp [ScanZoneInfo.countData, ScanDieInfo.allot, ScanDieInfo.take, ScanDieInfo.setZoneInfo]

/-- The table of one zone, from item `i` on: it is filled just when the pool has a block for each
item that is empty. -/
theorem fillDataTbl_spec (hsmall : ar.superBlkCntOfDie ≤ 0xffff)
    (hdata : ar.dataBlkCntOfZone < blockCntOfZone) {zone : Nat} (hzone : zone < ar.zoneCntOfDie)
    (n : Nat) : ∀ (i : Nat) (e : ScanDieInfo), i + n = ar.dataBlkCntOfZone → Pool ar lo d e →
      (∀ j, i ≤ j → e.item zone j = d.item zone j) →
      (emptyItems d zone n i ≤ e.nFreeCnt ∧ ∃ e', fillDataTbl ar zone n i e = (e', true) ∧
        Pool ar lo d e' ∧ e'.nFreeCnt + emptyItems d zone n i = e.nFreeCnt ∧ SameBut zone e e' ∧
        (∀ j, i ≤ j → j < ar.dataBlkCntOfZone → e'.item zone j ≠ 0xffff) ∧
        ∀ j, (j < i ∨ ar.dataBlkCntOfZone ≤ j) → e'.item zone j = e.item zone j) ∨
      (e.nFreeCnt < emptyItems d zone n i ∧ ∃ e', fillDataTbl ar zone n i e = (e', false)) := by
  induction n with
  | zero =>
      intro i e hi hpool _
      refine Or.inl ⟨Nat.zero_le _, e, rfl, hpool, Nat.add_zero _, .refl zone e, ?_, fun _ _ => rfl⟩
      exact fun j hij hj => by omega
  | succ n ih =>
      intro i e hi hpool hsame
      rw [fillDataTbl, emptyItems, ← hsame i (Nat.le_refl i)]
      by_cases hitem : e.item zone i = 0xffff
      case neg =>
        rw [if_neg hitem, if_neg hitem, Nat.zero_add]
        rcases ih (i + 1) e (by omega) hpool fun j hj => hsame j (by omega) with
          ⟨hle, e', he', hpool', hcnt, hbut, hfull, hkeep⟩ | ⟨hlt, hfail⟩
        · refine Or.inl ⟨hle, e', he', hpool', hcnt, hbut, fun j hij hj => ?_, fun j hj =>
            hkeep j (by omega)⟩
          rcases Nat.eq_or_lt_of_le hij with rfl | hlt
          · rw [hkeep i (by omega)]
            exact hitem
          · exact hfull j hlt hj
        · exact Or.inr ⟨hlt, hfail⟩
      rw [if_pos hitem, if_pos hitem]
      rcases Nat.eq_zero_or_pos e.nFreeCnt with hzero | hpos
      · rw [hpool.get_none hzero]
        exact Or.inr ⟨by omega, e, rfl⟩
      obtain ⟨b, hb, hidx, hfirst, hget⟩ := hpool.get hsmall hpos
      rw [hget]
      dsimp only
      have hbn := (mem_freeBlks.mp hb).1.2
      have hold : e.item zone i ∉ freeBlks ar lo d := by
        rw [hitem]
        intro hmem
        have hlt := (mem_freeBlks.mp hmem).1.2
        omega
      have hslot : i < blockCntOfZone - 1 := by omega
      have hpool' : Pool ar lo d (((e.take b).allot zone i b).setZoneInfo zone .countData) :=
        (hpool.allot hsmall hb hidx hfirst hzone hslot hold).congr rfl rfl rfl
          fun z s => setZoneInfo_item _ _ _ _ _ fun _ => rfl
      have hcnt' : (((e.take b).allot zone i b).setZoneInfo zone .countData).nFreeCnt + 1 =
          e.nFreeCnt := Nat.succ_pred_eq_of_pos hpos
      have hself : (((e.take b).allot zone i b).setZoneInfo zone .countData).item zone i = b := by
        rw [setZoneInfo_item _ _ _ _ .countData fun _ => rfl, allot_item_self]
        exact Nat.mod_eq_of_lt (by omega)
      have hother : ∀ j, j ≠ i →
          (((e.take b).allot zone i b).setZoneInfo zone .countData).item zone j = e.item zone j := by
        intro j hj
        rw [setZoneInfo_item _ _ _ _ .countData fun _ => rfl, allot_item_of_ne]
        · rfl
        · intro h
          exact hj (Prod.mk.inj h).2
      have hbut' := sameBut_allot e zone i b
      generalize ((e.take b).allot zone i b).setZoneInfo zone .countData = e₁ at *
      rcases ih (i + 1) e₁ (by omega) hpool' fun j hj => (hother j (by omega)).trans
          (hsame j (by omega)) with
        ⟨hle, e', he', hpool'', hcnt, hbut, hfull, hkeep⟩ | ⟨hlt, hfail⟩
      · refine Or.inl ⟨by omega, e', he', hpool'', by omega, hbut'.trans hbut, fun j hij hj => ?_,
          fun j hj => (hkeep j (by omega)).trans (hother j (by omega))⟩
        rcases Nat.eq_or_lt_of_le hij with rfl | hlt
        · rw [hkeep i (by omega), hself]
          omega
        · exact hfull j hlt hj
      · exact Or.inr ⟨by omega, hfail⟩

/-- The data block table of zone `w` of `d` is filled in `e`, and the free block table is as it
was. -/
structure ZoneFilled (ar : LogicArchi) (d e : ScanDieInfo) (w : Nat) : Prop where
  freeCnt : (e.zoneInfo w).nFreeBlkCnt = (d.zoneInfo w).nFreeBlkCnt
  freeIndex : (e.zoneInfo w).nFreeBlkIndex = ar.dataBlkCntOfZone
  logs : (e.zoneInfo w).logBlkTbl = (d.zoneInfo w).logBlkTbl
  full : ∀ i < ar.dataBlkCntOfZone, e.item w i ≠ 0xffff
  keep : ∀ i, ar.dataBlkCntOfZone ≤ i → e.item w i = d.item w i

/-- The first loop has got to `zone`. -/
structure FilledTo (ar : LogicArchi) (lo : Nat) (d : ScanDieInfo) (zone : Nat)
    (e : ScanDieInfo) : Prop where
  pool : Pool ar lo d e
  bitmap : e.tblBitmap = d.tblBitmap
  cnt : e.nFreeCnt + usedBefore ar d zone = d.nFreeCnt
  rest : ∀ w, d.Valid w ∨ zone ≤ w → e.zoneInfo w = d.zoneInfo w
  done : ∀ w < zone, ¬d.Valid w → ZoneFilled ar d e w

theorem ZoneFilled.congr {e e' : ScanDieInfo} {w : Nat} (h : ZoneFilled ar d e w)
    (hw : e'.zoneInfo w = e.zoneInfo w) : ZoneFilled ar d e' w := by
  have hitem : ∀ i, e'.item w i = e.item w i := fun i => by rw [ScanDieInfo.item, hw]; rfl
  refine ⟨by rw [hw, h.freeCnt], by rw [hw, h.freeIndex], by rw [hw, h.logs], ?_, ?_⟩
  · intro i hi
    rw [hitem]
    exact h.full i hi
  · intro i hi
    rw [hitem]
    exact h.keep i hi

theorem FilledTo.skip {zone : Nat} {e : ScanDieInfo} (h : FilledTo ar lo d zone e)
    (hvalid : d.Valid zone) : FilledTo ar lo d (zone + 1) e := by
  refine ⟨h.pool, h.bitmap, by rw [usedBefore, if_pos hvalid]; exact h.cnt, ?_, ?_⟩
  · rintro w (hw | hw)
    · exact h.rest w (Or.inl hw)
    · exact h.rest w (Or.inr (by omega))
  · intro w hw hn
    have hne : w ≠ zone := fun heq => hn (heq ▸ hvalid)
    exact h.done w (by omega) hn

/-- Zone by zone. -/
theorem fillDataTbls_spec (hsmall : ar.superBlkCntOfDie ≤ 0xffff)
    (hdata : ar.dataBlkCntOfZone < blockCntOfZone) (n : Nat) : ∀ (zone : Nat) (e : ScanDieInfo),
      zone + n = ar.zoneCntOfDie → FilledTo ar lo d zone e →
      ((∀ w, zone ≤ w → w < ar.zoneCntOfDie → ¬d.Valid w →
          usedBefore ar d w + wantedCnt ar d w ≤ d.nFreeCnt) ∧
        ∃ e', fillDataTbls ar n zone e = (e', true) ∧ FilledTo ar lo d ar.zoneCntOfDie e') ∨
      ((∃ w, zone ≤ w ∧ w < ar.zoneCntOfDie ∧ ¬d.Valid w ∧
          d.nFreeCnt < usedBefore ar d w + wantedCnt ar d w) ∧
        ∃ e', fillDataTbls ar n zone e = (e', false)) := by
  induction n with
  | zero =>
      intro zone e hz hfilled
      obtain rfl : zone = ar.zoneCntOfDie := by omega
      exact Or.inl ⟨fun w hw hw' => by omega, e, rfl, hfilled⟩
  | succ n ih =>
      intro zone e hz hfilled
      have hvalid_iff : e.Valid zone ↔ d.Valid zone := by
        rw [ScanDieInfo.Valid, hfilled.bitmap, ScanDieInfo.Valid]
      rw [fillDataTbls]
      by_cases hvalid : d.Valid zone
      · rw [if_pos (hvalid_iff.mpr hvalid)]
        rcases ih (zone + 1) e (by omega) (hfilled.skip hvalid) with
          ⟨henough, he'⟩ | ⟨⟨w, hw, hw', hn, hlt⟩, he'⟩
        · refine Or.inl ⟨fun w hw hw' hn => henough w ?_ hw' hn, he'⟩
          have hne : w ≠ zone := fun heq => hn (heq ▸ hvalid)
          omega
        · exact Or.inr ⟨⟨w, by omega, hw', hn, hlt⟩, he'⟩
      rw [if_neg fun h => hvalid (hvalid_iff.mp h), hfilled.rest zone (Or.inr (Nat.le_refl zone))]
      have hcnt := hfilled.cnt
      by_cases hcheck : (e.nFreeCnt : Int) <
          (ar.dataBlkCntOfZone : Int) - ((d.zoneInfo zone).nDataBlkCnt : Int)
      · rw [if_pos hcheck]
        refine Or.inr ⟨⟨zone, Nat.le_refl zone, by omega, hvalid, ?_⟩, e, rfl⟩
        have hle : ar.dataBlkCntOfZone - (d.zoneInfo zone).nDataBlkCnt ≤ wantedCnt ar d zone :=
          Nat.le_max_left _ _
        omega
      rw [if_neg hcheck]
      have hsame : ∀ j, (e.setZoneInfo zone (.startFree ar.dataBlkCntOfZone)).item zone j =
          d.item zone j := by
        intro j
        rw [setZoneInfo_item _ _ _ _ (.startFree ar.dataBlkCntOfZone) fun _ => rfl,
          ScanDieInfo.item,
          hfilled.rest zone (Or.inr (Nat.le_refl zone)), ScanDieInfo.item]
      have hpool : Pool ar lo d (e.setZoneInfo zone (.startFree ar.dataBlkCntOfZone)) :=
        hfilled.pool.congr rfl rfl rfl fun z s => setZoneInfo_item _ _ _ _ _ fun _ => rfl
      rcases fillDataTbl_spec hsmall hdata (by omega) ar.dataBlkCntOfZone 0 _ (Nat.zero_add _)
          hpool fun j _ => hsame j with
        ⟨hle, e', he', hpool', hcnt', hbut, hfull, hkeep⟩ | ⟨hlt, e', he'⟩
      · rw [he']
        dsimp only
        change emptyCnt ar d zone ≤ e.nFreeCnt at hle
        change e'.nFreeCnt + emptyCnt ar d zone = e.nFreeCnt at hcnt'
        have hothers : ∀ w, w ≠ zone → e'.zoneInfo w = e.zoneInfo w := fun w hw =>
          (hbut.others w hw).trans (setZoneInfo_of_ne _ _ hw)
        have hnext : FilledTo ar lo d (zone + 1) e' := by
          refine ⟨hpool', hbut.bitmap.trans hfilled.bitmap, ?_, ?_, ?_⟩
          · rw [usedBefore, if_neg hvalid]
            omega
          · intro w hw
            have hne : w ≠ zone := by
              rintro rfl
              exact hw.elim hvalid (by omega)
            rw [hothers w hne]
            exact hfilled.rest w (hw.imp_right (by omega))
          · intro w hw hn
            by_cases hne : w = zone
            · subst hne
              refine ⟨?_, ?_, ?_, fun i hi => hfull i (Nat.zero_le i) hi, ?_⟩
              · rw [hbut.freeCnt, setZoneInfo_zoneInfo, ← hfilled.rest w (Or.inr (Nat.le_refl w))]
                rfl
              · rw [hbut.freeIndex, setZoneInfo_zoneInfo]
                rfl
              · rw [hbut.logs, setZoneInfo_zoneInfo, ← hfilled.rest w (Or.inr (Nat.le_refl w))]
                rfl
              · exact fun i hi => (hkeep i (Or.inr hi)).trans (hsame i)
            · exact (hfilled.done w (by omega) hn).congr (hothers w hne)
        rcases ih (zone + 1) e' (by omega) hnext with
          ⟨henough, hres⟩ | ⟨⟨w, hw, hw', hn, hlt⟩, hres⟩
        · refine Or.inl ⟨fun w hw hw' hn => ?_, hres⟩
          rcases Nat.eq_or_lt_of_le hw with rfl | hlt
          · rw [wantedCnt]
            omega
          · exact henough w hlt hw' hn
        · exact Or.inr ⟨⟨w, by omega, hw', hn, hlt⟩, hres⟩
      · rw [he']
        refine Or.inr ⟨⟨zone, Nat.le_refl zone, by omega, hvalid, ?_⟩, e', rfl⟩
        change e.nFreeCnt < emptyCnt ar d zone at hlt
        have hle : emptyCnt ar d zone ≤ wantedCnt ar d zone := Nat.le_max_right _ _
        omega

end Fill

/-! ## The zone with the least blocks -/

/-- Among the zones before `n` that are rebuilt, `m` is the first with the least blocks. -/
def LeastBefore (ar : LogicArchi) (d : ScanDieInfo) (n m : Nat) : Prop :=
  m < n ∧ ¬d.Valid m ∧ ∀ w < n, ¬d.Valid w →
    blkCnt ar (d.zoneInfo m) < blkCnt ar (d.zoneInfo w) ∨
      (blkCnt ar (d.zoneInfo m) = blkCnt ar (d.zoneInfo w) ∧ m ≤ w)

section Least

variable {ar : LogicArchi} {d : ScanDieInfo}

theorem leastFrom_spec (n : Nat) : ∀ (zone : Nat) (least : Nat × Nat),
    (∀ w < zone + n, ¬d.Valid w → blkCnt ar (d.zoneInfo w) < 0xffff) →
    ((∀ w < zone, d.Valid w) ∧ least = (0, 0xffff) ∨
      LeastBefore ar d zone least.1 ∧ least.2 = blkCnt ar (d.zoneInfo least.1)) →
    ((∀ w < zone + n, d.Valid w) ∧ (leastFrom ar d n zone least).1 = 0 ∨
      LeastBefore ar d (zone + n) (leastFrom ar d n zone least).1) := by
  induction n with
  | zero =>
      rintro zone least _ (⟨hall, rfl⟩ | ⟨hleast, _⟩)
      · exact Or.inl ⟨hall, rfl⟩
      · exact Or.inr hleast
  | succ n ih =>
      intro zone least hbound hstate
      have hround : zone + (n + 1) = zone + 1 + n := by omega
      rw [hround] at hbound ⊢
      rw [leastFrom]
      split_ifs with hvalid hlt
      · refine ih (zone + 1) least hbound ?_
        rcases hstate with ⟨hall, rfl⟩ | ⟨⟨hm, hn, hleast⟩, hcnt⟩
        · exact Or.inl ⟨Nat.forall_lt_succ_right.mpr ⟨hall, hvalid⟩, rfl⟩
        · refine Or.inr ⟨⟨by omega, hn, fun w hw hwn => hleast w ?_ hwn⟩, hcnt⟩
          have hne : w ≠ zone := fun heq => hwn (heq ▸ hvalid)
          omega
      · refine ih (zone + 1) _ hbound (Or.inr ⟨⟨Nat.lt_succ_self zone, hvalid, ?_⟩, rfl⟩)
        intro w hw hwn
        rcases Nat.eq_or_lt_of_le (Nat.le_of_lt_succ hw) with rfl | hwlt
        · exact Or.inr ⟨rfl, Nat.le_refl w⟩
        rcases hstate with ⟨hall, _⟩ | ⟨⟨_, _, hleast⟩, hcnt⟩
        · exact absurd (hall w hwlt) hwn
        · refine Or.inl (Nat.lt_of_lt_of_le hlt ?_)
          rw [hcnt]
          rcases hleast w hwlt hwn with h | h
          · exact Nat.le_of_lt h
          · exact Nat.le_of_eq h.1
      · refine ih (zone + 1) least hbound ?_
        rcases hstate with ⟨_, rfl⟩ | ⟨⟨hm, hn, hleast⟩, hcnt⟩
        · exact absurd (hbound zone (by omega) hvalid) hlt
        · refine Or.inr ⟨⟨by omega, hn, fun w hw hwn => ?_⟩, hcnt⟩
          rcases Nat.eq_or_lt_of_le (Nat.le_of_lt_succ hw) with rfl | hwlt
          · rw [hcnt] at hlt
            rcases Nat.eq_or_lt_of_le (Nat.le_of_not_lt hlt) with heq | h
            · exact Or.inr ⟨heq, by omega⟩
            · exact Or.inl h
          · exact hleast w hwlt hwn

theorem leastBlkCntZone_spec
    (hbound : ∀ w < ar.zoneCntOfDie, ¬d.Valid w → blkCnt ar (d.zoneInfo w) < 0xffff) :
    (∀ w < ar.zoneCntOfDie, d.Valid w) ∧ leastBlkCntZone ar d = 0 ∨
      LeastBefore ar d ar.zoneCntOfDie (leastBlkCntZone ar d) := by
  have h := @leastFrom_spec ar d ar.zoneCntOfDie 0 (0, 0xffff)
    (by rw [Nat.zero_add]; exact hbound)
    (Or.inl ⟨fun w hw => absurd hw (Nat.not_lt_zero w), rfl⟩)
  rw [Nat.zero_add] at h
  exact h

end Least

/-! ## Distributing what is left -/

/-- Where the loop begins to put free blocks into the table of zone `w`. -/
def freeStart (ar : LogicArchi) (d : ScanDieInfo) (w : Nat) : Nat :=
  if d.Valid w then (d.zoneInfo w).nFreeBlkIndex else ar.dataBlkCntOfZone

/-- How many free blocks zone `w` gets until the loop comes to the word for the checksum. That
happens in the zone that has least at the start, when it has used up its free block table; the
others have risen to its level by then, and those before it one above. If all tables are valid, it
is always the turn of zone 0. -/
def roomOf (ar : LogicArchi) (d : ScanDieInfo) (w : Nat) : Nat :=
  if ∀ v < ar.zoneCntOfDie, d.Valid v then
    if w = 0 then blockCntOfZone - 1 - (d.zoneInfo 0).nFreeBlkIndex else 0
  else if d.Valid w then 0
  else
    let least := leastBlkCntZone ar d
    blkCnt ar (d.zoneInfo least) + ar.freeBlkCntOfZone + (if w < least then 1 else 0) -
      blkCnt ar (d.zoneInfo w)

/-- How many free blocks the loop can place. -/
def capacity (ar : LogicArchi) (d : ScanDieInfo) : Nat :=
  ∑ w ∈ Finset.range ar.zoneCntOfDie, roomOf ar d w

/-- The free counter is exact. The earlier passes put no block into a table that they leave as free,
and no zone counts more free blocks than its table has items. -/
structure ExactFree (ar : LogicArchi) (lo : Nat) (d : ScanDieInfo) : Prop where
  count : d.nFreeCnt = (freeBlks ar lo d).card
  unnamed : ∀ b ∈ freeBlks ar lo d, ∀ p, ¬Names ar d b p
  freeCnt : ∀ w < ar.zoneCntOfDie, ¬d.Valid w → (d.zoneInfo w).nFreeBlkCnt ≤ blockCntOfZone

/-- The second loop has given `x w` blocks to zone `w`. -/
structure Placing (ar : LogicArchi) (lo : Nat) (d : ScanDieInfo) (x : Nat → Nat)
    (e : ScanDieInfo) : Prop where
  pool : Pool ar lo d e
  bitmap : e.tblBitmap = d.tblBitmap
  cnt : e.nFreeCnt + ∑ w ∈ Finset.range ar.zoneCntOfDie, x w + usedBefore ar d ar.zoneCntOfDie =
    d.nFreeCnt
  index : ∀ w < ar.zoneCntOfDie, (e.zoneInfo w).nFreeBlkIndex = freeStart ar d w + x w
  freeCnt : ∀ w < ar.zoneCntOfDie, ¬d.Valid w →
    (e.zoneInfo w).nFreeBlkCnt = (d.zoneInfo w).nFreeBlkCnt + x w
  logs : ∀ w < ar.zoneCntOfDie, (e.zoneInfo w).logBlkTbl = (d.zoneInfo w).logBlkTbl
  full : ∀ w < ar.zoneCntOfDie, ¬d.Valid w → ∀ i < ar.dataBlkCntOfZone, e.item w i ≠ 0xffff
  keep : ∀ w < ar.zoneCntOfDie, ∀ i, freeStart ar d w + x w ≤ i → e.item w i = d.item w i

section Distribute

variable {ar : LogicArchi} {lo : Nat} {d e : ScanDieInfo} {x : Nat → Nat}

/-- The second loop begins where the first has ended. -/
theorem FilledTo.placing (h : FilledTo ar lo d ar.zoneCntOfDie e) :
    Placing ar lo d (fun _ => 0) e := by
  have hzone : ∀ w < ar.zoneCntOfDie, e.zoneInfo w = d.zoneInfo w ∧ d.Valid w ∨
      ZoneFilled ar d e w ∧ ¬d.Valid w := by
    intro w hw
    by_cases hvalid : d.Valid w
    · exact Or.inl ⟨h.rest w (Or.inl hvalid), hvalid⟩
    · exact Or.inr ⟨h.done w hw hvalid, hvalid⟩
  refine ⟨h.pool, h.bitmap, by simpa using h.cnt, ?_, ?_, ?_, ?_, ?_⟩
  · intro w hw
    rcases hzone w hw with ⟨heq, hvalid⟩ | ⟨hf, hn⟩
    · rw [freeStart, if_pos hvalid, heq]
      rfl
    · rw [freeStart, if_neg hn, hf.freeIndex]
      rfl
  · exact fun w hw hn => (h.done w hw hn).freeCnt
  · intro w hw
    rcases hzone w hw with ⟨heq, _⟩ | ⟨hf, _⟩
    · rw [heq]
    · exact hf.logs
  · exact fun w hw hn => (h.done w hw hn).full
  · intro w hw i hi
    rcases hzone w hw with ⟨heq, _⟩ | ⟨hf, hn⟩
    · rw [ScanDieInfo.item, heq, ScanDieInfo.item]
    · rw [freeStart, if_neg hn] at hi
      exact hf.keep i hi

theorem Placing.valid_iff (h : Placing ar lo d x e) (w : Nat) : e.Valid w ↔ d.Valid w := by
  rw [ScanDieInfo.Valid, h.bitmap, ScanDieInfo.Valid]

/-- The level of a zone that is rebuilt. -/
theorem Placing.blkCnt_eq (h : Placing ar lo d x e) {w : Nat} (hw : w < ar.zoneCntOfDie)
    (hn : ¬d.Valid w) : blkCnt ar (e.zoneInfo w) = blkCnt ar (d.zoneInfo w) + x w := by
  rw [blkCnt, blkCnt, h.freeCnt w hw hn, h.logs w hw]
  omega

/-- The levels are far from the largest value that `_LeastBlkCntZone` starts with. -/
theorem ExactFree.blkCnt_le (hexact : ExactFree ar lo d)
    (hdata : ar.dataBlkCntOfZone < blockCntOfZone) {w : Nat} (hw : w < ar.zoneCntOfDie)
    (hn : ¬d.Valid w) : blkCnt ar (d.zoneInfo w) ≤ 2 * blockCntOfZone + logBlkCntOfZone := by
  have hfree := hexact.freeCnt w hw hn
  have hcount : (List.range logBlkCntOfZone).countP
      (fun i => ((d.zoneInfo w).logBlkTbl i).logicBlkNum ≠ 0xffff) ≤ logBlkCntOfZone := by
    refine Nat.le_trans List.countP_le_length ?_
    rw [List.length_range]
  rw [blkCnt]
  omega

theorem ExactFree.least (hexact : ExactFree ar lo d)
    (hdata : ar.dataBlkCntOfZone < blockCntOfZone) :
    (∀ w < ar.zoneCntOfDie, d.Valid w) ∧ leastBlkCntZone ar d = 0 ∨
      LeastBefore ar d ar.zoneCntOfDie (leastBlkCntZone ar d) := by
  refine leastBlkCntZone_spec fun w hw hn => ?_
  have hle := hexact.blkCnt_le hdata hw hn
  unfold blockCntOfZone logBlkCntOfZone at hle
  omega

/-- The blocks that a zone gets leave the word for the checksum alone. -/
theorem ExactFree.roomOf_le (hexact : ExactFree ar lo d)
    (hdata : ar.dataBlkCntOfZone < blockCntOfZone) {w : Nat} (hw : w < ar.zoneCntOfDie)
    (hn : ¬d.Valid w) : freeStart ar d w + roomOf ar d w ≤ blockCntOfZone - 1 := by
  rcases hexact.least hdata with ⟨hall, _⟩ | ⟨hm, hnm, hleast⟩
  · exact absurd (hall w hw) hn
  have hmw := hleast w hw hn
  rw [freeStart, if_neg hn, roomOf, if_neg fun hall => hnm (hall _ hm), if_neg hn,
    LogicArchi.freeBlkCntOfZone]
  dsimp only
  split_ifs <;> omega

/-- A round that comes to an item of the free block table puts a block there. -/
theorem Placing.step (h : Placing ar lo d x e) (hexact : ExactFree ar lo d)
    (hsmall : ar.superBlkCntOfDie ≤ 0xffff) (hpos : 0 < e.nFreeCnt) {zone : Nat}
    (hleast : leastBlkCntZone ar e = zone) (hzone : zone < ar.zoneCntOfDie)
    (hroom : freeStart ar d zone + x zone < blockCntOfZone - 1) :
    Placing ar lo d (Function.update x zone (x zone + 1)) (distributeOne ar e) ∧
      (distributeOne ar e).nFreeCnt + 1 = e.nFreeCnt := by
  obtain ⟨b, hb, hidx, hfirst, hget⟩ := h.pool.get hsmall hpos
  have hslot := h.index zone hzone
  have hkeep := h.keep zone hzone
  have hfull := h.full zone hzone
  have hslot' : ((e.take b).zoneInfo zone).nFreeBlkIndex = freeStart ar d zone + x zone := hslot
  have hbn := (mem_freeBlks.mp hb).1.2
  generalize hs : freeStart ar d zone + x zone = slot at *
  have hone : distributeOne ar e = ((e.take b).allot zone slot b).setZoneInfo zone .countFree := by
    simp only [distributeOne, hleast, hslot, hget, hslot']
    rw [if_pos (by omega)]
  have hold : e.item zone slot ∉ freeBlks ar lo d := by
    rw [hkeep slot (Nat.le_refl slot)]
    exact fun hmem => hexact.unnamed _ hmem (zone, slot) ⟨hzone, hroom, rfl⟩
  have hpool : Pool ar lo d (((e.take b).allot zone slot b).setZoneInfo zone .countFree) :=
    (h.pool.allot hsmall hb hidx hfirst hzone hroom hold).congr rfl rfl rfl
      fun z s => setZoneInfo_item _ _ _ _ _ fun _ => rfl
  have hcnt : (((e.take b).allot zone slot b).setZoneInfo zone .countFree).nFreeCnt + 1 =
      e.nFreeCnt := Nat.succ_pred_eq_of_pos hpos
  have hothers : ∀ w, w ≠ zone →
      (((e.take b).allot zone slot b).setZoneInfo zone .countFree).zoneInfo w = e.zoneInfo w := by
    intro w hw
    rw [setZoneInfo_of_ne _ _ hw]
    exact Function.update_of_ne hw ..
  have hindex : ((((e.take b).allot zone slot b).setZoneInfo zone .countFree).zoneInfo
      zone).nFreeBlkIndex = u16 ((e.zoneInfo zone).nFreeBlkIndex + 1) := by
    simp [ScanZoneInfo.countFree, ScanDieInfo.allot, ScanDieInfo.take, ScanDieInfo.setZoneInfo]
  have hfreeCnt : ((((e.take b).allot zone slot b).setZoneInfo zone .countFree).zoneInfo
      zone).nFreeBlkCnt = u16 ((e.zoneInfo zone).nFreeBlkCnt + 1) := by
    simp [ScanZoneInfo.countFree, ScanDieInfo.allot, ScanDieInfo.take, ScanDieInfo.setZoneInfo]
  have hlogs : ((((e.take b).allot zone slot b).setZoneInfo zone .countFree).zoneInfo
      zone).logBlkTbl = (e.zoneInfo zone).logBlkTbl := by
    simp [ScanZoneInfo.countFree, ScanDieInfo.allot, ScanDieInfo.take, ScanDieInfo.setZoneInfo]
  have hitem : ∀ i, i ≠ slot →
      (((e.take b).allot zone slot b).setZoneInfo zone .countFree).item zone i = e.item zone i := by
    intro i hi
    rw [setZoneInfo_item _ _ _ _ .countFree fun _ => rfl, allot_item_of_ne]
    · rfl
    · exact fun heq => hi (Prod.mk.inj heq).2
  have hitem_others : ∀ w, w ≠ zone → ∀ i,
      (((e.take b).allot zone slot b).setZoneInfo zone .countFree).item w i = e.item w i := by
    intro w hw i
    rw [ScanDieInfo.item, hothers w hw, ScanDieInfo.item]
  have hbitmap : (((e.take b).allot zone slot b).setZoneInfo zone .countFree).tblBitmap =
      d.tblBitmap := h.bitmap
  rw [hone]
  generalize ((e.take b).allot zone slot b).setZoneInfo zone .countFree = e' at *
  have hsum : ∑ w ∈ Finset.range ar.zoneCntOfDie, Function.update x zone (x zone + 1) w =
      ∑ w ∈ Finset.range ar.zoneCntOfDie, x w + 1 := by
    have hmem := Finset.mem_range.mpr hzone
    rw [Finset.sum_update_of_mem hmem, ← Finset.add_sum_erase _ x hmem,
      Finset.sdiff_singleton_eq_erase]
    omega
  refine ⟨⟨hpool, hbitmap, ?_, ?_, ?_, ?_, ?_, ?_⟩, hcnt⟩
  · rw [hsum]
    have := h.cnt
    omega
  · intro w hw
    by_cases hne : w = zone
    · subst hne
      rw [hindex, Function.update_self, hslot, u16]
      unfold blockCntOfZone at hroom
      omega
    · rw [hothers w hne, Function.update_of_ne hne, h.index w hw]
  · intro w hw hn
    by_cases hne : w = zone
    · subst hne
      rw [hfreeCnt, Function.update_self]
      have hle := hexact.freeCnt w hw hn
      rw [h.freeCnt w hw hn, u16]
      unfold blockCntOfZone at hle hroom
      omega
    · rw [hothers w hne, Function.update_of_ne hne, h.freeCnt w hw hn]
  · intro w hw
    by_cases hne : w = zone
    · subst hne
      rw [hlogs, h.logs w hw]
    · rw [hothers w hne, h.logs w hw]
  · intro w hw hn i hi
    by_cases hne : w = zone
    · subst hne
      have hstart : freeStart ar d w = ar.dataBlkCntOfZone := if_neg hn
      rw [hitem i (by omega)]
      exact hfull hn i hi
    · rw [hitem_others w hne]
      exact h.full w hw hn i hi
  · intro w hw i hi
    by_cases hne : w = zone
    · subst hne
      rw [Function.update_self] at hi
      rw [hitem i (by omega)]
      exact hkeep i (by omega)
    · rw [Function.update_of_ne hne] at hi
      rw [hitem_others w hne]
      exact h.keep w hw i hi

/-- The zone whose turn it is has room as long as any has, and when none has, it has come to the word
for the checksum. -/
theorem Placing.turn (h : Placing ar lo d x e) (hexact : ExactFree ar lo d)
    (hzones : 0 < ar.zoneCntOfDie) (hdata : ar.dataBlkCntOfZone < blockCntOfZone)
    (hle : ∀ w < ar.zoneCntOfDie, x w ≤ roomOf ar d w) :
    leastBlkCntZone ar e < ar.zoneCntOfDie ∧
    (∑ w ∈ Finset.range ar.zoneCntOfDie, x w < capacity ar d →
      x (leastBlkCntZone ar e) < roomOf ar d (leastBlkCntZone ar e) ∧
      freeStart ar d (leastBlkCntZone ar e) + x (leastBlkCntZone ar e) < blockCntOfZone - 1) ∧
    (capacity ar d ≤ ∑ w ∈ Finset.range ar.zoneCntOfDie, x w →
      blockCntOfZone - 1 ≤ freeStart ar d (leastBlkCntZone ar e) + x (leastBlkCntZone ar e)) := by
  have hsome : ∑ w ∈ Finset.range ar.zoneCntOfDie, x w < capacity ar d →
      ∃ w < ar.zoneCntOfDie, x w < roomOf ar d w := by
    intro hlt
    obtain ⟨w, hw, hlt⟩ := Finset.exists_lt_of_sum_lt hlt
    exact ⟨w, Finset.mem_range.mp hw, hlt⟩
  have hnone : capacity ar d ≤ ∑ w ∈ Finset.range ar.zoneCntOfDie, x w →
      ∀ w < ar.zoneCntOfDie, x w = roomOf ar d w := by
    intro hge w hw
    refine Nat.le_antisymm (hle w hw) (Nat.le_of_not_lt fun hlt => ?_)
    have hsum : ∑ w ∈ Finset.range ar.zoneCntOfDie, x w < capacity ar d :=
      Finset.sum_lt_sum (fun v hv => hle v (Finset.mem_range.mp hv))
        ⟨w, Finset.mem_range.mpr hw, hlt⟩
    omega
  have hd := hexact.least hdata
  have hroom : ∀ w, (∃ v < ar.zoneCntOfDie, ¬d.Valid v) → ¬d.Valid w → roomOf ar d w =
      blkCnt ar (d.zoneInfo (leastBlkCntZone ar d)) + ar.freeBlkCntOfZone +
        (if w < leastBlkCntZone ar d then 1 else 0) - blkCnt ar (d.zoneInfo w) := by
    rintro w ⟨v, hv, hnv⟩ hn
    rw [roomOf, if_neg fun hall => hnv (hall v hv), if_neg hn]
  have he : (∀ w < ar.zoneCntOfDie, e.Valid w) ∧ leastBlkCntZone ar e = 0 ∨
      LeastBefore ar e ar.zoneCntOfDie (leastBlkCntZone ar e) := by
    refine leastBlkCntZone_spec fun w hw hn => ?_
    have hn' : ¬d.Valid w := fun hv => hn ((h.valid_iff w).mpr hv)
    have hb := hexact.blkCnt_le hdata hw hn'
    have hx := hle w hw
    have hm : blkCnt ar (d.zoneInfo (leastBlkCntZone ar d)) ≤ blkCnt ar (d.zoneInfo w) := by
      rcases hd with ⟨hall, _⟩ | ⟨_, _, hleast⟩
      · exact absurd (hall w hw) hn'
      · have := hleast w hw hn'
        omega
    rw [hroom w ⟨w, hw, hn'⟩ hn'] at hx
    rw [h.blkCnt_eq hw hn']
    have hfree : ar.freeBlkCntOfZone ≤ blockCntOfZone := by
      rw [LogicArchi.freeBlkCntOfZone]
      omega
    unfold blockCntOfZone logBlkCntOfZone at *
    split_ifs at hx <;> omega
  rcases hd with ⟨hall, _⟩ | ⟨hm, hnm, hmleast⟩
  · -- All tables are valid: zone 0.
    have hzero : leastBlkCntZone ar e = 0 := by
      rcases he with ⟨_, h0⟩ | ⟨hz, hnz, _⟩
      · exact h0
      · exact absurd ((h.valid_iff _).mpr (hall _ hz)) hnz
    have hroom0 : ∀ w, roomOf ar d w =
        if w = 0 then blockCntOfZone - 1 - (d.zoneInfo 0).nFreeBlkIndex else 0 := fun w => if_pos hall
    have hstart : freeStart ar d 0 = (d.zoneInfo 0).nFreeBlkIndex := if_pos (hall 0 hzones)
    rw [hzero, hstart]
    refine ⟨hzones, fun hlt => ?_, fun hge => ?_⟩
    · obtain ⟨w, _, hlt⟩ := hsome hlt
      obtain rfl : w = 0 := by
        by_contra hne
        rw [hroom0, if_neg hne] at hlt
        omega
      refine ⟨hlt, ?_⟩
      rw [hroom0, if_pos rfl] at hlt
      omega
    · have hx := hnone hge 0 hzones
      rw [hroom0, if_pos rfl] at hx
      omega
  · rcases he with ⟨hall, _⟩ | ⟨hz, hnz, hzleast⟩
    · exact absurd ((h.valid_iff _).mp (hall _ hm)) hnm
    generalize leastBlkCntZone ar e = zone at *
    have hn : ¬d.Valid zone := fun hv => hnz ((h.valid_iff zone).mpr hv)
    have hstart : freeStart ar d zone = ar.dataBlkCntOfZone := if_neg hn
    have hsize : ar.dataBlkCntOfZone + ar.freeBlkCntOfZone = blockCntOfZone - 1 := by
      rw [LogicArchi.freeBlkCntOfZone]
      omega
    have hex : ∃ v < ar.zoneCntOfDie, ¬d.Valid v := ⟨_, hm, hnm⟩
    have hmz := hmleast zone hz hn
    have hroomz := hroom zone hex hn
    refine ⟨hz, fun hlt => ?_, fun hge => ?_⟩
    · obtain ⟨w, hw, hlt⟩ := hsome hlt
      have hnw : ¬d.Valid w := by
        intro hv
        rw [roomOf, if_neg fun hall => hnm (hall _ hm), if_pos hv] at hlt
        omega
      have hzw := hzleast w hw fun hv => hnw ((h.valid_iff w).mp hv)
      rw [h.blkCnt_eq hz hn, h.blkCnt_eq hw hnw] at hzw
      rw [hroom w hex hnw] at hlt
      rw [hroomz, hstart]
      split_ifs at hlt ⊢ <;> omega
    · have hxm := hnone hge _ hm
      have hxz := hnone hge zone hz
      have hzm := hzleast _ hm fun hv => hnm ((h.valid_iff _).mp hv)
      rw [h.blkCnt_eq hz hn, h.blkCnt_eq hm hnm] at hzm
      rw [hroom _ hex hnm, if_neg (Nat.lt_irrefl _)] at hxm
      rw [hroomz] at hxz
      have hzone_eq : zone = leastBlkCntZone ar d := by split_ifs at hxz <;> omega
      rw [← hzone_eq] at hxm
      rw [hstart]
      omega

end Distribute

/-! ## The second loop -/

/-- Block `b` is no longer free, and no table position names it. -/
def Lost (ar : LogicArchi) (b : Nat) (e : ScanDieInfo) : Prop :=
  e.pPhyBlk b ≠ freeBlockInfo ∧ ∀ p, ¬Names ar e b p

section Loop

variable {ar : LogicArchi} {lo : Nat} {d e : ScanDieInfo} {x : Nat → Nat}

/-- The loop takes blocks that are free only, so it does not come back to one that is lost. -/
theorem Lost.step (hsmall : ar.superBlkCntOfDie ≤ 0xffff) {b : Nat} (h : Lost ar b e) :
    Lost ar b (distributeOne ar e) := by
  rw [distributeOne]
  split_ifs
  case neg => exact h
  rw [getFreeBlkFromDieInfo]
  rcases scanFree_spec e.pPhyBlk (ar.superBlkCntOfDie - e.nFreeIndex) e.nFreeIndex with
    ⟨c, hc, hic, hcn, hfree, _⟩ | ⟨hnone, _⟩
  case inr =>
    rw [hnone]
    exact h
  rw [hc]
  dsimp only
  have hne : b ≠ c := fun heq => h.1 (heq ▸ hfree)
  constructor
  · change Function.update (Function.update e.pPhyBlk c _) c _ b ≠ _
    rw [Function.update_of_ne hne, Function.update_of_ne hne]
    exact h.1
  · rintro ⟨w, i⟩ ⟨hw, hi, hitem⟩
    rw [setZoneInfo_item _ _ _ _ .countFree fun _ => rfl] at hitem
    by_cases hp : (w, i) = (leastBlkCntZone ar e, (e.zoneInfo (leastBlkCntZone ar e)).nFreeBlkIndex)
    · obtain ⟨rfl, rfl⟩ := Prod.mk.inj hp
      rw [allot_item_self, u16] at hitem
      omega
    · rw [allot_item_of_ne _ _ hp] at hitem
      rw [ScanDieInfo.item] at hitem
      exact h.2 (w, i) ⟨hw, hi, hitem⟩

theorem Lost.loop (hsmall : ar.superBlkCntOfDie ≤ 0xffff) {b : Nat} (fuel : Nat) :
    ∀ {e e' : ScanDieInfo}, Lost ar b e → distributeLoop ar fuel e = some e' → Lost ar b e' := by
  induction fuel with
  | zero =>
      intro e e' h he
      rw [distributeLoop] at he
      split_ifs at he
      cases he
      exact h
  | succ fuel ih =>
      intro e e' h he
      rw [distributeLoop] at he
      split_ifs at he
      · exact ih (h.step hsmall) he
      · cases he
        exact h

/-- At the word for the checksum a block is lost; behind it, the round does nothing. -/
theorem Placing.full_turn (h : Placing ar lo d x e) (hsmall : ar.superBlkCntOfDie ≤ 0xffff)
    (hpos : 0 < e.nFreeCnt) (hzone : leastBlkCntZone ar e < ar.zoneCntOfDie)
    (hfull : blockCntOfZone - 1 ≤
      freeStart ar d (leastBlkCntZone ar e) + x (leastBlkCntZone ar e)) :
    distributeOne ar e = e ∨ ∃ b ∈ freeBlks ar lo d, Lost ar b (distributeOne ar e) := by
  have hslot := h.index _ hzone
  by_cases hlt : (e.zoneInfo (leastBlkCntZone ar e)).nFreeBlkIndex < blockCntOfZone
  case neg =>
    refine Or.inl ?_
    rw [distributeOne]
    exact if_neg hlt
  obtain ⟨b, hb, _, _, hget⟩ := h.pool.get hsmall hpos
  refine Or.inr ⟨b, h.pool.sub hb, ?_⟩
  simp only [distributeOne, hget]
  rw [if_pos hlt]
  constructor
  · change Function.update _ b _ b ≠ _
    rw [Function.update_self]
    exact mark_ne_free _
  · rintro ⟨w, i⟩ ⟨hw, hi, hitem⟩
    rw [setZoneInfo_item _ _ _ _ .countFree fun _ => rfl, allot_item_of_ne] at hitem
    · exact h.pool.unnamed b hb (w, i) ⟨hw, hi, hitem⟩
    · intro heq
      obtain ⟨rfl, rfl⟩ := Prod.mk.inj heq
      change (e.zoneInfo (leastBlkCntZone ar e)).nFreeBlkIndex < blockCntOfZone - 1 at hi
      omega

/-- One round with room keeps what the runs below are about. -/
theorem Placing.step_room (h : Placing ar lo d x e) (hexact : ExactFree ar lo d)
    (hsmall : ar.superBlkCntOfDie ≤ 0xffff) (hzones : 0 < ar.zoneCntOfDie)
    (hdata : ar.dataBlkCntOfZone < blockCntOfZone)
    (hle : ∀ w < ar.zoneCntOfDie, x w ≤ roomOf ar d w) (hpos : 0 < e.nFreeCnt)
    (hlt : ∑ w ∈ Finset.range ar.zoneCntOfDie, x w < capacity ar d) :
    ∃ x', Placing ar lo d x' (distributeOne ar e) ∧ (∀ w < ar.zoneCntOfDie, x' w ≤ roomOf ar d w) ∧
      (distributeOne ar e).nFreeCnt + 1 = e.nFreeCnt := by
  obtain ⟨hzone, hturn, _⟩ := h.turn hexact hzones hdata hle
  obtain ⟨hroom, hslot⟩ := hturn hlt
  obtain ⟨hstep, hcnt⟩ := h.step hexact hsmall hpos rfl hzone hslot
  refine ⟨_, hstep, fun w hw => ?_, hcnt⟩
  by_cases hne : w = leastBlkCntZone ar e
  · rw [hne, Function.update_self]
    exact hroom
  · rw [Function.update_of_ne hne]
    exact hle w hw

/-- If there is room for all that is left, the loop ends when the blocks are placed. -/
theorem distributeLoop_places (hexact : ExactFree ar lo d)
    (hsmall : ar.superBlkCntOfDie ≤ 0xffff) (hzones : 0 < ar.zoneCntOfDie)
    (hdata : ar.dataBlkCntOfZone < blockCntOfZone) (n : Nat) :
    ∀ (e : ScanDieInfo) (x : Nat → Nat), e.nFreeCnt = n → Placing ar lo d x e →
      (∀ w < ar.zoneCntOfDie, x w ≤ roomOf ar d w) →
      e.nFreeCnt + ∑ w ∈ Finset.range ar.zoneCntOfDie, x w ≤ capacity ar d →
      ∃ e' x', distributeLoop ar n e = some e' ∧ e'.nFreeCnt = 0 ∧ Placing ar lo d x' e' ∧
        ∀ w < ar.zoneCntOfDie, x' w ≤ roomOf ar d w := by
  induction n with
  | zero =>
      intro e x hn h hle _
      refine ⟨e, x, ?_, hn, h, hle⟩
      rw [distributeLoop, if_neg (by omega)]
  | succ n ih =>
      intro e x hn h hle hcap
      obtain ⟨x', hstep, hle', hcnt⟩ := h.step_room hexact hsmall hzones hdata hle (by omega)
        (by omega)
      rw [distributeLoop, if_pos (by omega)]
      have h1 := h.cnt
      have h2 := hstep.cnt
      exact ih _ x' (by omega) hstep hle' (by omega)

/-- If there is not, it loses a block or does not end. -/
theorem distributeLoop_loses (hexact : ExactFree ar lo d)
    (hsmall : ar.superBlkCntOfDie ≤ 0xffff) (hzones : 0 < ar.zoneCntOfDie)
    (hdata : ar.dataBlkCntOfZone < blockCntOfZone) (fuel : Nat) :
    ∀ (e e' : ScanDieInfo) (x : Nat → Nat), Placing ar lo d x e →
      (∀ w < ar.zoneCntOfDie, x w ≤ roomOf ar d w) →
      capacity ar d < e.nFreeCnt + ∑ w ∈ Finset.range ar.zoneCntOfDie, x w →
      distributeLoop ar fuel e = some e' → ∃ b ∈ freeBlks ar lo d, Lost ar b e' := by
  have hpos_of : ∀ (e : ScanDieInfo) (x : Nat → Nat),
      (∀ w < ar.zoneCntOfDie, x w ≤ roomOf ar d w) →
      capacity ar d < e.nFreeCnt + ∑ w ∈ Finset.range ar.zoneCntOfDie, x w → 0 < e.nFreeCnt := by
    intro e x hle hcap
    have hsum : ∑ w ∈ Finset.range ar.zoneCntOfDie, x w ≤ capacity ar d :=
      Finset.sum_le_sum fun w hw => hle w (Finset.mem_range.mp hw)
    omega
  induction fuel with
  | zero =>
      intro e e' x _ hle hcap he
      rw [distributeLoop, if_pos (hpos_of e x hle hcap)] at he
      cases he
  | succ fuel ih =>
      intro e e' x h hle hcap he
      have hpos := hpos_of e x hle hcap
      rw [distributeLoop, if_pos hpos] at he
      by_cases hlt : ∑ w ∈ Finset.range ar.zoneCntOfDie, x w < capacity ar d
      · obtain ⟨x', hstep, hle', hcnt⟩ := h.step_room hexact hsmall hzones hdata hle hpos hlt
        have h1 := h.cnt
        have h2 := hstep.cnt
        exact ih _ e' x' hstep hle' (by omega) he
      · obtain ⟨hzone, _, hturn⟩ := h.turn hexact hzones hdata hle
        rcases h.full_turn hsmall hpos hzone (hturn (Nat.le_of_not_lt hlt)) with
          hsame | ⟨b, hb, hlost⟩
        · rw [hsame] at he
          exact ih e e' x h hle hcap he
        · exact ⟨b, hb, hlost.loop hsmall fuel he⟩

end Loop

/-! ## The distribution -/

/-- `_DistributeFreeBlk` ends, and if it is successful: each item of a data block table names a
block; each block that has been taken is in one table position; the word for the checksum is as it
was; and no block is left over as long as a table that is rebuilt has room. -/
def Distributes (ar : LogicArchi) (die0FirstBlkNum : Nat) (d : ScanDieInfo) : Prop :=
  ∃ fuel r d', distributeFreeBlk ar die0FirstBlkNum fuel d = some (r, d') ∧ (r = 0 →
    (∀ w < ar.zoneCntOfDie, ¬d.Valid w → ∀ i < ar.dataBlkCntOfZone, d'.item w i ≠ 0xffff) ∧
    (∀ b ∈ freeBlks ar (firstBlk die0FirstBlkNum d.nDie) d,
      b ∉ freeBlks ar (firstBlk die0FirstBlkNum d.nDie) d' → ∃! p, Names ar d' b p) ∧
    (∀ w < ar.zoneCntOfDie, ¬d.Valid w →
      d'.item w (blockCntOfZone - 1) = d.item w (blockCntOfZone - 1)) ∧
    ((∃ w < ar.zoneCntOfDie, ¬d.Valid w ∧
        (d'.zoneInfo w).nFreeBlkIndex < blockCntOfZone - 1) →
      freeBlks ar (firstBlk die0FirstBlkNum d.nDie) d' = ∅))

section Main

variable {ar : LogicArchi} {die0FirstBlkNum : Nat} {d : ScanDieInfo}

/-- The die info as the first loop finds it. -/
theorem filledTo_start (hfirst : die0FirstBlkNum ≤ 0xffff)
    (hexact : ExactFree ar (firstBlk die0FirstBlkNum d.nDie) d) :
    FilledTo ar (firstBlk die0FirstBlkNum d.nDie) d 0
      { d with nFreeIndex := u16 (firstBlk die0FirstBlkNum d.nDie) } := by
  have hlo : u16 (firstBlk die0FirstBlkNum d.nDie) = firstBlk die0FirstBlkNum d.nDie := by
    rw [u16, firstBlk]
    split_ifs <;> omega
  rw [hlo]
  refine ⟨⟨hexact.count, Nat.le_refl _, fun b hb => (mem_freeBlks.mp hb).1.1,
    fun b hb => hb, hexact.unnamed, fun b hb hnb => absurd hb hnb⟩, rfl, rfl, fun _ _ => rfl,
    fun w hw => absurd hw (Nat.not_lt_zero w)⟩

/-- The blocks that are left after the data block tables are no more than can be placed. -/
def LeftFits (ar : LogicArchi) (d : ScanDieInfo) : Prop :=
  d.nFreeCnt - usedBefore ar d ar.zoneCntOfDie ≤ capacity ar d

theorem distributes_of_fits (hfirst : die0FirstBlkNum ≤ 0xffff) (hzones : 0 < ar.zoneCntOfDie)
    (hdata : ar.dataBlkCntOfZone < blockCntOfZone) (hsmall : ar.superBlkCntOfDie ≤ 0xffff)
    (hexact : ExactFree ar (firstBlk die0FirstBlkNum d.nDie) d)
    (hfits : EnoughFree ar d → LeftFits ar d) : Distributes ar die0FirstBlkNum d := by
  rcases fillDataTbls_spec hsmall hdata ar.zoneCntOfDie 0 _ (Nat.zero_add _)
      (filledTo_start hfirst hexact) with ⟨henough, e, he, hfilled⟩ | ⟨_, e, he⟩
  case inr =>
    refine ⟨0, -1, e, ?_, fun h => absurd h (by decide)⟩
    rw [distributeFreeBlk, he]
  have hplacing := hfilled.placing
  have hfit := hfits fun w hw hn => henough w (Nat.zero_le w) hw hn
  rw [LeftFits] at hfit
  have hcnt := hfilled.cnt
  obtain ⟨e', x', hloop, hzero, h', hle⟩ := distributeLoop_places hexact hsmall hzones hdata
    e.nFreeCnt e _ rfl hplacing (fun _ _ => Nat.zero_le _)
    (by rw [Finset.sum_const_zero]; omega)
  refine ⟨e.nFreeCnt, 0, e', ?_, fun _ => ⟨h'.full, h'.pool.named, fun w hw hn => ?_, fun _ => ?_⟩⟩
  · simp only [distributeFreeBlk, he, hloop, Option.map_some]
  · -- No zone has been given more than its table has room for.
    refine h'.keep w hw _ ?_
    have hroom := hexact.roomOf_le hdata hw hn
    have hx := hle w hw
    omega
  · exact Finset.card_eq_zero.mp (h'.pool.count.symm.trans hzero)

theorem not_distributes_of_left (hfirst : die0FirstBlkNum ≤ 0xffff) (hzones : 0 < ar.zoneCntOfDie)
    (hdata : ar.dataBlkCntOfZone < blockCntOfZone) (hsmall : ar.superBlkCntOfDie ≤ 0xffff)
    (hexact : ExactFree ar (firstBlk die0FirstBlkNum d.nDie) d) (henough : EnoughFree ar d)
    (hleft : ¬LeftFits ar d) : ¬Distributes ar die0FirstBlkNum d := by
  rintro ⟨fuel, r, d', hrun, hok⟩
  rcases fillDataTbls_spec hsmall hdata ar.zoneCntOfDie 0 _ (Nat.zero_add _)
      (filledTo_start hfirst hexact) with ⟨_, e, he, hfilled⟩ | ⟨⟨w, _, hw, hn, hlt⟩, _⟩
  case inr =>
    have := henough w hw hn
    omega
  simp only [distributeFreeBlk, he] at hrun
  obtain ⟨e', hloop, heq⟩ := Option.map_eq_some_iff.mp hrun
  obtain ⟨rfl, rfl⟩ := Prod.mk.inj heq
  rw [LeftFits] at hleft
  have hcnt := hfilled.cnt
  obtain ⟨b, hb, hfree, hnames⟩ := distributeLoop_loses hexact hsmall hzones hdata fuel e e' _
    hfilled.placing (fun _ _ => Nat.zero_le _) (by rw [Finset.sum_const_zero]; omega) hloop
  obtain ⟨p, hp, _⟩ := (hok rfl).2.1 b hb fun hmem => hfree (mem_freeBlks.mp hmem).2
  exact hnames p hp

/-- `_DistributeFreeBlk` does what it should if and only if the blocks that the data block tables
leave over, where they suffice for these, fit into the free block tables while the levels rise. -/
theorem distributeFreeBlk_iff (hfirst : die0FirstBlkNum ≤ 0xffff) (hzones : 0 < ar.zoneCntOfDie)
    (hdata : ar.dataBlkCntOfZone < blockCntOfZone) (hsmall : ar.superBlkCntOfDie ≤ 0xffff)
    (hexact : ExactFree ar (firstBlk die0FirstBlkNum d.nDie) d) :
    Distributes ar die0FirstBlkNum d ↔ (EnoughFree ar d → LeftFits ar d) := by
  constructor
  · intro h henough
    by_contra hleft
    exact not_distributes_of_left hfirst hzones hdata hsmall hexact henough hleft h
  · exact distributes_of_fits hfirst hzones hdata hsmall hexact

end Main

/-! ## A zone that is short of blocks -/

/-- A die of two zones and 2048 blocks. -/
def twoZones : LogicArchi := { fiveZones with zoneCntOfDie := 2, superBlkCntOfDie := 2048 }

/-- The table of zone 0 is valid and names the first `n` blocks, the next two hold the tables, and
the others are free. -/
def shortZone (n : Nat) : ScanDieInfo where
  nDie := 0
  tblBitmap := 1
  nFreeCnt := 2046 - n
  nFreeIndex := 0
  pPhyBlk b := if b < n + 2 then nullBlockInfo else freeBlockInfo
  zoneInfo w := ⟨0, 0, 0, fun s => if w = 0 ∧ s < n then ⟨s, 0⟩ else .none, fun _ => .none⟩

theorem freeBlks_shortZone (n : Nat) :
    freeBlks twoZones 0 (shortZone n) = Finset.Ico (n + 2) 2048 := by
  ext b
  rw [mem_freeBlks, Finset.mem_Ico]
  change (0 ≤ b ∧ b < 2048) ∧ (if b < n + 2 then nullBlockInfo else freeBlockInfo) =
    freeBlockInfo ↔ _
  by_cases hb : b < n + 2
  · simp [hb, nullBlockInfo, freeBlockInfo]
  · simp [hb, Nat.le_of_not_lt hb]

theorem exactFree_shortZone (n : Nat) : ExactFree twoZones 0 (shortZone n) := by
  refine ⟨?_, ?_, fun w _ _ => Nat.zero_le _⟩
  · rw [freeBlks_shortZone, Nat.card_Ico]
    change 2046 - n = _
    omega
  · rintro b hb ⟨w, s⟩ ⟨_, _, hitem⟩
    rw [freeBlks_shortZone, Finset.mem_Ico] at hb
    change (if w = 0 ∧ s < n then (⟨s, 0⟩ : SuperPhyBlk) else .none).phyBlkNum = b at hitem
    split_ifs at hitem with h
    · change s = b at hitem
      omega
    · change 0xffff = b at hitem
      omega

theorem valid_shortZone (n w : Nat) : (shortZone n).Valid w ↔ w = 0 := by
  change (1 : Nat).testBit w = true ↔ w = 0
  rw [Nat.testBit_one_eq_true_iff_self_eq_zero]

theorem emptyItems_shortZone (n k : Nat) : ∀ i, emptyItems (shortZone n) 1 k i = k := by
  induction k with
  | zero => exact fun i => rfl
  | succ k ih =>
      intro i
      have hitem : (shortZone n).item 1 i = 0xffff := rfl
      rw [emptyItems, if_pos hitem, ih]
      omega

theorem usedBefore_shortZone (n : Nat) : usedBefore twoZones (shortZone n) 2 = 900 := by
  have hzero : (shortZone n).Valid 0 := (valid_shortZone n 0).mpr rfl
  have hone : ¬(shortZone n).Valid 1 := fun h => absurd ((valid_shortZone n 1).mp h) (by decide)
  rw [usedBefore, usedBefore, usedBefore, if_pos hzero, if_neg hone, emptyCnt,
    emptyItems_shortZone]
  rfl

theorem enoughFree_shortZone {n : Nat} (hn : n ≤ 1023) : EnoughFree twoZones (shortZone n) := by
  intro zone hzone hvalid
  have hzero : (shortZone n).Valid 0 := (valid_shortZone n 0).mpr rfl
  obtain rfl : zone = 1 := by
    have hlt : zone < 2 := hzone
    have hne : zone ≠ 0 := fun heq => hvalid (heq ▸ hzero)
    omega
  rw [usedBefore, usedBefore, if_pos hzero, wantedCnt, emptyCnt, emptyItems_shortZone]
  change 0 + 0 + max (900 - 0) 900 ≤ 2046 - n
  omega

theorem capacity_shortZone (n : Nat) : capacity twoZones (shortZone n) = 123 := by
  have hzero : (shortZone n).Valid 0 := (valid_shortZone n 0).mpr rfl
  have hone : ¬(shortZone n).Valid 1 := fun h => absurd ((valid_shortZone n 1).mp h) (by decide)
  have hsome : ¬∀ v < twoZones.zoneCntOfDie, (shortZone n).Valid v := fun h =>
    hone (h 1 (by decide))
  have hleast : leastBlkCntZone twoZones (shortZone n) = 1 := by
    rcases (exactFree_shortZone n).least (by decide) with ⟨hall, _⟩ | ⟨hlt, hn, _⟩
    · exact absurd hall hsome
    · have hlt' : leastBlkCntZone twoZones (shortZone n) < 2 := hlt
      have hne : leastBlkCntZone twoZones (shortZone n) ≠ 0 := fun heq => hn (heq ▸ hzero)
      omega
  have h0 : roomOf twoZones (shortZone n) 0 = 0 := by
    rw [roomOf, if_neg hsome, if_pos hzero]
  have h1 : roomOf twoZones (shortZone n) 1 = 123 := by
    rw [roomOf, if_neg hsome, if_neg hone]
    dsimp only
    rw [hleast, if_neg (Nat.lt_irrefl 1), Nat.add_zero, Nat.add_sub_cancel_left]
    rfl
  change ∑ w ∈ Finset.range 2, roomOf twoZones (shortZone n) w = 123
  rw [Finset.sum_range_succ, Finset.sum_range_one, h0, h1]

theorem leftFits_shortZone (n : Nat) :
    LeftFits twoZones (shortZone n) ↔ 2046 - n - 900 ≤ 123 := by
  rw [LeftFits, capacity_shortZone]
  change 2046 - n - usedBefore twoZones (shortZone n) 2 ≤ 123 ↔ _
  rw [usedBefore_shortZone]

theorem distributeFreeBlk_iff_complete : Distributes twoZones 0 (shortZone 1023) :=
  (distributeFreeBlk_iff (by decide) (by decide) (by decide) (by decide)
    (exactFree_shortZone 1023)).mpr fun _ => (leftFits_shortZone 1023).mpr (by decide)

/-- Twenty-three blocks are missing from the table of zone 0. Zone 1 cannot take them. -/
theorem distributeFreeBlk_short : ¬Distributes twoZones 0 (shortZone 1000) :=
  not_distributes_of_left (by decide) (by decide) (by decide) (by decide)
    (exactFree_shortZone 1000) (enoughFree_shortZone (by decide))
    fun h => absurd ((leftFits_shortZone 1000).mp h) (by decide)

end Novo7
